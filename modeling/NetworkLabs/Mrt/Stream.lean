import NetworkLabs.Mrt.Bounds

/-!
# The receiver's stream is a queue of bytes

Payloads are appended behind the unread bytes of a record and `mrt_receive1` takes
bytes from its front. Over a whole run the bytes returned for an address and its
unread bytes are together the payloads buffered for it, in order, and no `ADAT`
acknowledges more than these payloads.
-/

namespace NetworkLabs.Mrt.Receiver

open Foundations

/-- With the buffered payloads numbered from `first`, every `ADAT` sent acknowledges
some of them. -/
def View.AcknowledgesFrom (v : View) (first : ℤ) : Prop :=
  ∀ dg ∈ v.sent, typeField dg = mrtAdat →
    ∃ n ≤ v.bufferedPayloads.length, fragField dg = wrapInt (first + n - 1)

/-- What was returned and what is unread is what was buffered, and only that is
acknowledged; without a record there is nothing. -/
structure View.Accounts (v : View) : Prop where
  /-- The bytes of a connection are accounted for. -/
  stream : ∀ r, v.record = some r → v.returnedBytes ++ r.unread = v.bufferedPayloads.flatten
  /-- The expected number counts the buffered payloads. -/
  acknowledges : ∀ r, v.record = some r → ∃ first,
    r.nextFrag = wrapInt (first + v.bufferedPayloads.length) ∧ v.AcknowledgesFrom first
  /-- An address without a record has no history in an open receiver. -/
  unknown : v.record = none → v.closed = false →
    v.returnedBytes = [] ∧ v.bufferedPayloads = [] ∧ v.sent = []

/-- The bytes of all connections are accounted for: what was buffered was returned
or is unread. -/
structure StreamsKept (s : State) : Prop where
  /-- The unread bytes fit the buffers. -/
  fit : BuffersFit s
  /-- A record that is not registered holds no bytes. -/
  waiting_empty : ∀ r ∈ s.waiting, r.bytesUnread = 0 ∧ wrapInt r.nextFrag = r.nextFrag
  /-- The bytes of each connection are accounted for. -/
  accounts : ∀ id, (s.view id).Accounts

/-- Nothing is buffered when the module is opened. -/
theorem streamsKept_initial : StreamsKept initial := by
  have hnone : ∀ id, initial.record id = none := fun _ => rfl
  refine ⟨openAndFit_initial.fit, fun r hr => ?_, fun id => ⟨?_, ?_, fun _ _ => ⟨rfl, rfl, rfl⟩⟩⟩
  · simp [State.waiting, initial] at hr
  · intro r hr
    cases (hnone id).symm.trans hr
  · intro r hr
    cases (hnone id).symm.trans hr

/-- A payload is appended to the unread bytes, which keep their order. -/
theorem unread_append {r : Sender} (h : 0 ≤ r.bytesUnread) (payload : List Byte) :
    (r.append payload).unread = r.unread ++ payload := by
  obtain ⟨n, hn⟩ := Int.eq_ofNat_of_zero_le h
  have htotal : (r.bytesUnread + payload.length).toNat = n + payload.length := by omega
  have hfirst : (r.buffer.write n payload).read 0 n = r.buffer.read 0 n :=
    Memory.read_write_disjoint _ (Or.inl (by omega))
  have hsecond : (r.buffer.write n payload).read (0 + n) payload.length = payload := by
    rw [Nat.zero_add]
    exact Memory.read_write _ n rfl
  simp only [Sender.unread, Sender.append, hn, Int.toNat_natCast] at htotal ⊢
  rw [htotal, Memory.read_add, hfirst, hsecond]

/-- Reading removes bytes from the front of the unread ones. -/
theorem unread_consume {r : Sender} {n : ℤ} (hlo : 0 ≤ n) (hhi : n ≤ r.bytesUnread) :
    (r.consume n).unread = r.unread.drop n.toNat := by
  have hdrop := @Memory.drop_read _ r.buffer 0 r.bytesUnread.toNat n.toNat (by omega)
  unfold Sender.consume Sender.unread
  rw [hdrop]
  split
  · have hlength : (r.bytesUnread - n).toNat = r.bytesUnread.toNat - n.toNat := by omega
    have hmove := @Memory.read_move _ r.buffer 0 n.toNat _ 0 _
      (Nat.le_of_eq (Nat.zero_add (r.bytesUnread.toNat - n.toNat)))
    rw [Nat.zero_add]
    simpa only [hlength, Nat.zero_add, Nat.add_zero] using hmove
  · have hlength : r.bytesUnread.toNat - n.toNat = 0 := by omega
    simp only [hlength, Int.toNat_zero]
    rfl

/-- The bytes a call returns are the first unread ones. -/
theorem read_eq_take_unread {r : Sender} {n : ℤ} (hhi : n ≤ r.bytesUnread) :
    r.buffer.read 0 n.toNat = r.unread.take n.toNat :=
  (Memory.take_read r.buffer (show n.toNat ≤ r.bytesUnread.toNat by omega)).symm

/-- One more transmission that is no `ADAT` acknowledges nothing. -/
theorem acknowledgesFrom_append {v : View} {first : ℤ} (h : v.AcknowledgesFrom first)
    {record : Option Sender} {dg : Datagram} (hdg : typeField dg ≠ mrtAdat) :
    ({ v with record := record, sent := v.sent ++ [dg] } : View).AcknowledgesFrom first := by
  intro dg' hmem htype
  rcases List.mem_append.mp hmem with hmem | hmem
  · exact h dg' hmem htype
  · rw [List.mem_singleton.mp hmem] at htype
    exact absurd htype hdg

/-- One more `ADAT` acknowledges the payloads that are buffered when it is sent. -/
theorem acknowledgesFrom_adat {v : View} {first : ℤ} (h : v.AcknowledgesFrom first) {r : Sender}
    (record : Option Sender) (payloads : List (List Byte)) (window : ℤ)
    (hfrag : r.nextFrag = wrapInt (first + (v.bufferedPayloads ++ payloads).length)) :
    ({ v with
        record := record
        bufferedPayloads := v.bufferedPayloads ++ payloads
        sent := v.sent ++ [adatDatagram (r.nextFrag - 1) window] } : View).AcknowledgesFrom first := by
  intro dg hmem htype
  rcases List.mem_append.mp hmem with hmem | hmem
  · obtain ⟨n, hn, hfrag'⟩ := h dg hmem htype
    exact ⟨n, by rw [List.length_append]; omega, hfrag'⟩
  · refine ⟨(v.bufferedPayloads ++ payloads).length, Nat.le_refl _, ?_⟩
    rw [List.mem_singleton.mp hmem, fragField_adatDatagram, hfrag, Int.sub_eq_add_neg,
      wrapInt_wrapInt_add, ← Int.sub_eq_add_neg]

/-- The accounts of a connection with a record. -/
theorem accounts_of_record {v : View} {r : Sender} (first : ℤ) (hrecord : v.record = some r)
    (hstream : v.returnedBytes ++ r.unread = v.bufferedPayloads.flatten)
    (hfrag : r.nextFrag = wrapInt (first + v.bufferedPayloads.length))
    (hsent : v.AcknowledgesFrom first) : v.Accounts := by
  constructor
  · intro r' hr'
    cases hrecord.symm.trans hr'
    exact hstream
  · intro r' hr'
    cases hrecord.symm.trans hr'
    exact ⟨first, hfrag, hsent⟩
  · intro hnone
    cases hrecord.symm.trans hnone

/-- Every successful step keeps the accounts of every address, by cases on what the step does to
its view. -/
theorem accounts_step {s s' : State} {act : Action} (h : StreamsKept s)
    (hstep : step s act = .ok s') (id : SockaddrIn) : (s'.view id).Accounts := by
  have hold := h.accounts id
  have heffect := addressEffect_of_step hstep id
  generalize s'.view id = v at heffect
  cases heffect with
  | kept => exact hold
  | @ticked i r hrecord =>
    have hunread : r.tick.unread = r.unread := by
      unfold Sender.tick
      split <;> rfl
    have hfrag : r.tick.nextFrag = r.nextFrag := by
      unfold Sender.tick
      split <;> rfl
    obtain ⟨first, hfirst, hsent⟩ := hold.acknowledges r hrecord
    exact accounts_of_record first rfl ((congrArg _ hunread).trans (hold.stream r hrecord))
      (hfrag.trans hfirst) hsent
  | @registered i r hopen hrecord hr haddr =>
    obtain ⟨hempty, hfrag⟩ := h.waiting_empty r hr
    obtain ⟨hreturned, hbuffered, hsent⟩ := hold.unknown hrecord hopen
    rw [State.view_returnedBytes] at hreturned
    rw [State.view_bufferedPayloads] at hbuffered
    rw [State.view_sent] at hsent
    have hunread : r.unread = [] := by
      rw [Sender.unread, hempty]
      rfl
    refine accounts_of_record r.nextFrag rfl ?_ ?_ fun dg hmem htype => ?_
    · exact (congrArg₂ _ hreturned hunread).trans (congrArg List.flatten hbuffered).symm
    · simp [hbuffered, hfrag]
    · rw [hsent, List.nil_append, List.mem_singleton] at hmem
      rw [hmem, typeField_aconDatagram] at htype
      cases htype
  | @acknowledged act r frag hrecord =>
    obtain ⟨first, hfirst, hsent⟩ := hold.acknowledges r hrecord
    exact accounts_of_record first hrecord (hold.stream r hrecord) hfirst
      (acknowledgesFrom_append hsent (by simp))
  | @refused dg r hclose htype hrecord hadmits =>
    obtain ⟨first, hfirst, hsent⟩ := hold.acknowledges r hrecord
    have hack := acknowledgesFrom_adat hsent (some { r with inactiveTime := 0 }) []
      r.currWindowSize (by simpa using hfirst)
    rw [List.append_nil] at hack
    exact accounts_of_record first rfl (hold.stream r hrecord) hfirst hack
  | @buffered dg r hclose htype hrecord hadmits hbounds =>
    obtain ⟨first, hfirst, hsent⟩ := hold.acknowledges r hrecord
    have hunread := unread_append hbounds.1 (dispatchedPayload s dg)
    have hfrag : (r.append (dispatchedPayload s dg)).nextFrag =
        wrapInt (first + (s.bufferedPayloads id ++ [dispatchedPayload s dg]).length) := by
      have hnext : (r.append (dispatchedPayload s dg)).nextFrag = wrapInt (r.nextFrag + 1) := rfl
      rw [hnext, hfirst, wrapInt_wrapInt_add, State.view_bufferedPayloads, List.length_append]
      congr 1
      simp only [List.length_singleton]
      omega
    refine accounts_of_record first rfl ?_ hfrag
      (acknowledgesFrom_adat hsent _ [dispatchedPayload s dg] _ hfrag)
    calc s.returnedBytes id ++ (r.append (dispatchedPayload s dg)).unread
        = s.returnedBytes id ++ r.unread ++ dispatchedPayload s dg := by
          rw [hunread, List.append_assoc]
      _ = (s.bufferedPayloads id).flatten ++ dispatchedPayload s dg :=
          congrArg (· ++ dispatchedPayload s dg) (hold.stream r hrecord)
      _ = (s.bufferedPayloads id ++ [dispatchedPayload s dg]).flatten := by simp
  | @disconnected dg r hclose htype hrecord =>
    obtain ⟨first, hfirst, hsent⟩ := hold.acknowledges r hrecord
    exact accounts_of_record first rfl (hold.stream r hrecord) hfirst
      (acknowledgesFrom_append hsent (by simp))
  | @consumed len r hrecord hunread hbounds =>
    obtain ⟨first, hfirst, hsent⟩ := hold.acknowledges r hrecord
    have hlo := hbounds.1.2.1
    have hhi : r.bytesRead len ≤ r.bytesUnread := by
      have hrest := hbounds.2.2.1
      omega
    have hfrag : (r.consume (r.bytesRead len)).nextFrag = r.nextFrag := by
      unfold Sender.consume
      split <;> rfl
    refine accounts_of_record first rfl ?_ (hfrag.trans hfirst) hsent
    calc s.returnedBytes id ++ r.buffer.read 0 (r.bytesRead len).toNat ++
          (r.consume (r.bytesRead len)).unread
        = s.returnedBytes id ++ r.unread := by
          rw [unread_consume hlo hhi, read_eq_take_unread hhi, List.append_assoc,
            List.take_append_drop]
      _ = (s.bufferedPayloads id).flatten := hold.stream r hrecord
  | cleaned =>
    constructor
    · rintro r ⟨⟩
    · rintro r ⟨⟩
    · rintro - ⟨⟩

/-- Every successful step keeps the bytes accounted for, of all addresses at once. -/
theorem streamsKept_step {s s' : State} {act : Action} (h : StreamsKept s)
    (hstep : step s act = .ok s') : StreamsKept s' := by
  constructor
  · exact buffersFit_step h.fit hstep
  · intro r hr
    rcases mem_waiting_of_step hstep hr with hr | ⟨addr, dg, hact, htype, rfl⟩
    · exact h.waiting_empty r hr
    · obtain ⟨hlo, hhi⟩ := wrapInt_mem (dispatchedFrag s dg + 1)
      constructor
      · rfl
      · simp only [newSender]
        exact wrapInt_of_mem hlo hhi
  · exact accounts_step h hstep

end NetworkLabs.Mrt.Receiver
