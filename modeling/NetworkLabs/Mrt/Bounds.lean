import NetworkLabs.Foundations.Run
import NetworkLabs.Mrt.AddressEffects

/-!
# The receiver's buffers stay in bounds

A payload is buffered when it fits the free space, but a datagram shorter than a
header has a negative payload size and fits always. Empty `DATA` is such a
datagram, and only its fragment number keeps it out. The buffers stay in bounds
in exactly the runs in which no short `DATA` carries the number expected next.
-/

namespace NetworkLabs.Mrt.Receiver

open Foundations

/-- All records, whether pending, held by `mrt_accept1` or connected. A record moves from one of
these places to the next. -/
def State.records (s : State) : List Sender :=
  s.pendingSendersQ ++ (s.accepting ++ s.connectedSendersQ)

/-- The unread bytes of a record fit its buffer, and are not fewer than none. -/
def Sender.Fits (r : Sender) : Prop := 0 ≤ r.bytesUnread ∧ r.bytesUnread ≤ receiverMaxWindowSize

/-- The unread bytes of every record fit its buffer. This is what a short `DATA` with the
expected number breaks. -/
def BuffersFit (s : State) : Prop := ∀ r ∈ s.records, r.Fits

/-- Every `ADAT` a step sends advertises the free space of the buffer of its sender's
record, a number between zero and the size of the buffer. -/
def AdvertisesFreeSpace (s s' : State) : Prop :=
  ∀ addr dg, s'.outbox = s.outbox ++ [(addr, dg)] → typeField dg = mrtAdat →
    ∃ r, s'.record addr = some r ∧ windowField dg = receiverMaxWindowSize - r.bytesUnread ∧
      0 ≤ windowField dg ∧ windowField dg ≤ receiverMaxWindowSize

/-- A step keeps the buffers in bounds and advertises windows truthfully. -/
def StaysInBounds (s s' : State) : Prop := BuffersFit s' ∧ AdvertisesFreeSpace s s'

/-- The actions the users take: `mrt_receive1` gets a length, and the receiver stays
open. -/
def OpenUse : Action → Prop
  | .mrtReceive1 _ len => 0 ≤ len
  | .mrtClose => False
  | _ => True

instance (act : Action) : Decidable (OpenUse act) :=
  match act with
  | .mrtReceive1 _ len => inferInstanceAs (Decidable (0 ≤ len))
  | .mrtClose => isFalse id
  | .mainHandler _ _ | .mrtAccept1Dequeue | .mrtAccept1Enqueue _ | .checker _ => isTrue trivial

/-- No `DATA` shorter than a header carries the fragment number that its sender's
record expects next. -/
def NoShortExpectedData (s : State) : Action → Prop
  | .mainHandler addr dg =>
    dispatchedType s dg = some mrtData → (s.record addr).map Sender.nextFrag =
      some (dispatchedFrag s dg) → mrtHeaderLength ≤ (stored dg).length
  | _ => True

instance (s : State) (act : Action) : Decidable (NoShortExpectedData s act) :=
  match act with
  | .mainHandler addr dg =>
    inferInstanceAs (Decidable (dispatchedType s dg = some mrtData →
      (s.record addr).map Sender.nextFrag = some (dispatchedFrag s dg) →
        mrtHeaderLength ≤ (stored dg).length))
  | .mrtAccept1Dequeue | .mrtAccept1Enqueue _ | .checker _ | .mrtReceive1 _ _ | .mrtClose =>
    isTrue trivial

/-- A connected record is one of the records. -/
theorem mem_records_of_record {s : State} {addr : SockaddrIn} {r : Sender}
    (h : s.record addr = some r) : r ∈ s.records :=
  List.mem_append_right _ (List.mem_append_right _ (List.mem_of_find?_eq_some h))

/-- A record after a change in place is an old one or the changed one. -/
theorem mem_records_updateRecord {s : State} {id : SockaddrIn} {f : Sender → Sender} {r : Sender}
    (h : r ∈ (s.updateRecord id f).records) :
    r ∈ s.records ∨ ∃ r₀, s.record id = some r₀ ∧ r = f r₀ := by
  rcases List.mem_append.mp h with h | h
  · exact Or.inl (List.mem_append_left _ h)
  rcases List.mem_append.mp h with h | h
  · exact Or.inl (List.mem_append_right _ (List.mem_append_left _ h))
  · rcases mem_updateFirst h with h | h
    · exact Or.inl (List.mem_append_right _ (List.mem_append_right _ h))
    · exact Or.inr h

/-- A change in place that keeps the unread bytes within the buffer. -/
theorem BuffersFit.updateRecord {s : State} (h : BuffersFit s) {id : SockaddrIn}
    {f : Sender → Sender} (hf : ∀ r, s.record id = some r → (f r).Fits) :
    BuffersFit (s.updateRecord id f) := by
  intro r hr
  rcases mem_records_updateRecord hr with hr | ⟨r₀, hr₀, rfl⟩
  · exact h r hr
  · exact hf r₀ hr₀

/-- A reply leaves the numbers of unread bytes unchanged, so that all buffers fit as before. -/
theorem BuffersFit.replyAdat {s : State} (h : BuffersFit s) (addr : SockaddrIn) (r : Sender) :
    BuffersFit (replyAdat s addr r) :=
  BuffersFit.updateRecord h fun r₀ hr₀ => h r₀ (mem_records_of_record hr₀)

/-- An iteration of the checker keeps the unread bytes. -/
@[simp] theorem tick_bytesUnread (r : Sender) : r.tick.bytesUnread = r.bytesUnread := by
  unfold Sender.tick
  split <;> rfl

/-- Reading leaves between zero and the old number of bytes unread. -/
theorem Sender.Fits.consume {r : Sender} (h : r.Fits) {n : ℤ} (hn : 0 ≤ n) :
    (r.consume n).Fits := by
  obtain ⟨hlo, hhi⟩ := h
  unfold Sender.consume
  split
  · constructor <;> dsimp only <;> omega
  · exact ⟨Int.le_refl 0, by simp⟩

/-- A buffered payload is as long as the test computed. -/
theorem length_dispatchedPayload (s : State) (dg : Datagram) :
    (dispatchedPayload s dg).length = (((stored dg).length : ℤ) - mrtHeaderLength).toNat :=
  Memory.length_read _ _ _

/-- Every successful step keeps the buffers in bounds. A step that would leave them is an error
in the model. -/
theorem buffersFit_step {s s' : State} {act : Action} (h : BuffersFit s)
    (hstep : step s act = .ok s') : BuffersFit s' := by
  cases effect_of_step hstep with
  | idle | closing | dropped _ _ | reacknowledged _ _ => exact h
  | closed hclose =>
    intro r hr
    have hmem : r ∈ s.accepting := by simpa [State.records, cleanUp] using hr
    exact h r (List.mem_append_right _ (List.mem_append_left _ hmem))
  | requested hclose htype hpending hrecord =>
    intro r hr
    simp only [State.records, enqQ, List.append_assoc, List.mem_append, List.mem_singleton] at hr
    rcases hr with hr | rfl | hr
    · exact h r (List.mem_append_left _ hr)
    · exact ⟨Int.le_refl 0, by simp [newSender]⟩
    · exact h r (List.mem_append_right _ (List.mem_append.mpr hr))
  | @refused addr dg r hclose htype hrecord hadmits => exact BuffersFit.replyAdat h addr r
  | @buffered addr dg r hclose htype hrecord hadmits hbounds =>
    have happend : BuffersFit ((s.store dg).updateRecord addr fun r =>
        r.append (dispatchedPayload s dg)) := by
      refine BuffersFit.updateRecord h fun r₀ hr₀ => ?_
      cases hrecord.symm.trans hr₀
      obtain ⟨hoffset, hlength, hend⟩ := hbounds
      have hlen := length_dispatchedPayload s dg
      constructor <;> simp only [Sender.append] <;> omega
    exact BuffersFit.replyAdat (s := (s.store dg).appendPayload addr (dispatchedPayload s dg))
      happend addr (r.append (dispatchedPayload s dg))
  | @disconnected addr dg r hclose htype hrecord =>
    exact BuffersFit.updateRecord h fun r₀ hr₀ => h r₀ (mem_records_of_record hr₀)
  | withdrawn htype hrecord =>
    intro r hr
    rcases List.mem_append.mp hr with hr | hr
    · exact h r (List.mem_append_left _ (List.mem_of_mem_eraseP hr))
    · exact h r (List.mem_append_right _ hr)
  | taken hqueue =>
    intro r hr
    apply h r
    simp only [State.records, hqueue, List.mem_append, List.mem_cons,
      List.not_mem_nil, or_false] at hr ⊢
    tauto
  | @accepted i r₀ hopen hr₀ =>
    intro r hr
    simp only [State.records, State.sendTo, enqQ, List.mem_append, List.mem_singleton] at hr
    rcases hr with hr | hr | hr | rfl
    · exact h r (List.mem_append_left _ hr)
    · exact h r (List.mem_append_right _ (List.mem_append_left _ (List.mem_of_mem_eraseIdx hr)))
    · exact h r (List.mem_append_right _ (List.mem_append_right _ hr))
    · exact h r₀ (List.mem_append_right _ (List.mem_append_left _ (List.mem_of_getElem? hr₀)))
  | ticked i =>
    intro r hr
    simp only [State.records, checker, List.mem_append] at hr
    rcases hr with hr | hr | hr
    · exact h r (List.mem_append_left _ hr)
    · exact h r (List.mem_append_right _ (List.mem_append_left _ hr))
    · rcases mem_modify hr with hr | ⟨r₀, hr₀, rfl⟩
      · exact h r (List.mem_append_right _ (List.mem_append_right _ hr))
      · simpa [Sender.Fits] using h r₀ (List.mem_append_right _ (List.mem_append_right _ hr₀))
  | @consumed id len r hrecord hunread hbounds =>
    refine BuffersFit.updateRecord h fun r₀ hr₀ => ?_
    cases hrecord.symm.trans hr₀
    exact (h r (mem_records_of_record hrecord)).consume hbounds.1.2.1

/-- The receiver is open and its buffers are in bounds. -/
structure OpenAndFit (s : State) : Prop where
  shouldClose_eq : s.shouldClose = false
  closed_eq : s.closed = false
  fit : BuffersFit s

/-- Nothing is recorded when the module is opened. -/
theorem openAndFit_initial : OpenAndFit initial :=
  ⟨rfl, rfl, fun r hr => by simp [State.records, initial] at hr⟩

/-- While `mrt_close` is not called the receiver stays open and in bounds. -/
theorem openAndFit_step {s s' : State} {act : Action} (h : OpenAndFit s) (huse : OpenUse act)
    (hstep : step s act = .ok s') : OpenAndFit s' := by
  have hfit := buffersFit_step h.fit hstep
  cases effect_of_step hstep with
  | closing => exact huse.elim
  | closed hclose => exact absurd hclose (by simp [h.shouldClose_eq])
  | _ => exact ⟨h.shouldClose_eq, h.closed_eq, hfit⟩

/-- The copy of the `MRT_DATA` case stays in bounds unless a datagram shorter than a
header carries the expected number. -/
theorem handleData_ok_iff {s : State} (h : BuffersFit s) (addr : SockaddrIn) (n frag : ℤ) :
    (∃ s', handleData s addr n frag = .ok s') ↔
      ((s.record addr).map Sender.nextFrag = some frag → mrtHeaderLength ≤ n) := by
  unfold handleData
  cases hrecord : s.record addr with
  | none => simp
  | some r =>
    obtain ⟨hlo, hhi⟩ := h r (mem_records_of_record hrecord)
    simp only [Option.map_some, Option.some.injEq]
    by_cases hadmits : r.admits (n - mrtHeaderLength) frag = true
    · obtain ⟨hspace, hfrag⟩ := r.admits_iff.mp hadmits
      rw [if_pos hadmits]
      by_cases hbounds : Memory.InBounds receiverMaxWindowSize r.bytesUnread (n - mrtHeaderLength)
      · rw [if_pos hbounds]
        obtain ⟨hoffset, hlength, hend⟩ := hbounds
        exact iff_of_true ⟨_, rfl⟩ fun _ => by omega
      · rw [if_neg hbounds]
        refine iff_of_false (fun ⟨s', hs'⟩ => by cases hs') fun hlong => hbounds ?_
        have hlength := hlong hfrag
        exact ⟨hlo, by omega, by omega⟩
    · rw [if_neg hadmits]
      refine iff_of_true ⟨_, rfl⟩ fun hfrag => ?_
      have hspace : ¬n - mrtHeaderLength ≤ receiverMaxWindowSize - r.bytesUnread :=
        fun hspace => hadmits (r.admits_iff.mpr ⟨hspace, hfrag⟩)
      omega

/-- Both copies of `mrt_receive1` stay in bounds: the one to the user and the one that moves the
rest to the front. -/
theorem Sender.Fits.copiesInBounds {r : Sender} (h : r.Fits) {len : ℤ} (hlen : 0 ≤ len) :
    r.CopiesInBounds (r.bytesRead len) := by
  obtain ⟨hlo, hhi⟩ := h
  have hread : 0 ≤ r.bytesRead len ∧ r.bytesRead len ≤ r.bytesUnread := by
    unfold Sender.bytesRead
    split <;> constructor <;> omega
  obtain ⟨hreadLo, hreadHi⟩ := hread
  refine ⟨⟨Int.le_refl 0, hreadLo, by omega⟩, ⟨hreadLo, by omega, by omega⟩⟩

/-- In an open receiver a step that the users may take succeeds exactly when it is
no short `DATA` carrying the expected number. -/
theorem openAndFit_step_ok_iff {s : State} {act : Action} (h : OpenAndFit s)
    (huse : OpenUse act) : (∃ s', step s act = .ok s') ↔ NoShortExpectedData s act := by
  have hopen : ¬s.closed = true := by simp [h.closed_eq]
  have hclose : ¬s.shouldClose = true := by simp [h.shouldClose_eq]
  cases act with
  | mainHandler addr dg =>
    have hdata := handleData_ok_iff (s := s.store dg) h.fit addr (stored dg).length
      (dispatchedFrag s dg)
    rw [step, if_neg hopen, mainHandler, if_neg hclose]
    simp only [NoShortExpectedData, dispatchedType]
    split
    · rename_i hvalid
      split
      · rename_i hrcon
        exact iff_of_true ⟨_, rfl⟩ fun htype => by
          rw [Option.some.injEq, hrcon] at htype
          cases htype
      · split
        · rename_i hdataType
          simp only [hdataType, forall_const]
          exact_mod_cast hdata
        · rename_i hdataType
          refine iff_of_true ?_ fun htype => absurd (Option.some.inj htype) hdataType
          split <;> exact ⟨_, rfl⟩
    · exact iff_of_true ⟨_, rfl⟩ fun htype => by cases htype
  | mrtAccept1Dequeue => exact iff_of_true ⟨_, if_neg hopen⟩ trivial
  | mrtAccept1Enqueue i => exact iff_of_true ⟨_, if_neg hopen⟩ trivial
  | checker i => exact iff_of_true ⟨_, if_neg hopen⟩ trivial
  | mrtReceive1 id len =>
    refine iff_of_true ?_ trivial
    rw [step, if_neg hopen, mrtReceive1]
    cases hrecord : s.record id with
    | none => exact ⟨_, rfl⟩
    | some r =>
      dsimp only
      split
      · split <;> exact ⟨_, rfl⟩
      · rw [if_pos ((h.fit r (mem_records_of_record hrecord)).copiesInBounds huse)]
        exact ⟨_, rfl⟩
  | mrtClose => exact huse.elim

/-- A step that sends nothing advertises nothing, and has nothing to show. -/
theorem advertisesFreeSpace_of_outbox_eq {s s' : State} (h : s'.outbox = s.outbox) :
    AdvertisesFreeSpace s s' := by
  intro addr dg hout
  have hlen := congrArg List.length (h.symm.trans hout)
  simp at hlen

/-- A step that sends a transmission of another type advertises nothing. -/
theorem advertisesFreeSpace_of_sent {s s' : State} {addr : SockaddrIn} {dg : Datagram}
    (hout : s'.outbox = s.outbox ++ [(addr, dg)]) (htype : typeField dg ≠ mrtAdat) :
    AdvertisesFreeSpace s s' := by
  intro addr' dg' hout'
  have hsent := List.append_cancel_left (hout.symm.trans hout')
  cases hsent
  exact fun h => absurd h htype

/-- The reply to `DATA` advertises the free space of the record it is about. -/
theorem advertisesFreeSpace_replyAdat {s s₀ : State} {addr : SockaddrIn} {r : Sender}
    (hout : s.outbox = s₀.outbox) (hrecord : s.record addr = some r) (hr : r.Fits) :
    AdvertisesFreeSpace s₀ (replyAdat s addr r) := by
  intro addr' dg hsent htype
  obtain ⟨hlo, hhi⟩ := hr
  have hreply : (replyAdat s addr r).outbox =
      s₀.outbox ++ [(addr, adatDatagram (r.nextFrag - 1) r.currWindowSize)] := by
    simp [replyAdat, hout]
  have heq := List.append_cancel_left (hreply.symm.trans hsent)
  cases heq
  have hwindow : wrapInt r.currWindowSize = receiverMaxWindowSize - r.bytesUnread := by
    refine wrapInt_of_mem ?_ ?_ <;>
      simp only [Sender.currWindowSize, receiverMaxWindowSize, maxMrtPayloadLength,
        maxUdpPayloadLength, mrtHeaderLength] at hhi ⊢ <;> omega
  refine ⟨{ r with inactiveTime := 0 }, ?_, ?_, ?_, ?_⟩
  · exact record_updateRecord_self (f := fun r => { r with inactiveTime := 0 })
      (fun _ => rfl) hrecord
  all_goals rw [windowField_adatDatagram, hwindow]
  all_goals omega

/-- Every successful step of a receiver whose buffers fit advertises free space. -/
theorem advertisesFreeSpace_step {s s' : State} {act : Action} (h : BuffersFit s)
    (hstep : step s act = .ok s') : AdvertisesFreeSpace s s' := by
  cases effect_of_step hstep with
  | reacknowledged htype hrecord =>
    exact advertisesFreeSpace_of_sent rfl (by simp)
  | @refused addr dg r hclose htype hrecord hadmits =>
    exact advertisesFreeSpace_replyAdat rfl hrecord (h r (mem_records_of_record hrecord))
  | @buffered addr dg r hclose htype hrecord hadmits hbounds =>
    have hfound := record_appendPayload_self (s := s.store dg) hrecord (dispatchedPayload s dg)
    obtain ⟨hoffset, hlength, hend⟩ := hbounds
    have hlen := length_dispatchedPayload s dg
    refine advertisesFreeSpace_replyAdat rfl hfound ⟨?_, ?_⟩ <;> simp only [Sender.append] <;> omega
  | disconnected hclose htype hrecord =>
    exact advertisesFreeSpace_of_sent rfl (by simp)
  | accepted hopen hr =>
    exact advertisesFreeSpace_of_sent rfl (by simp)
  | _ => exact advertisesFreeSpace_of_outbox_eq rfl

/-- Within their use by `main_handler`, `mrt_accept1`, the checkers and `mrt_receive1`, the
receiver's buffers stay in bounds exactly in the runs in which no `DATA` shorter than
a header carries the fragment number expected next. -/
theorem staysInBounds_iff {acts : List Action} (huse : ∀ act ∈ acts, OpenUse act) :
    Safely step StaysInBounds initial acts ↔ Meets step NoShortExpectedData initial acts := by
  refine safely_iff_meets OpenAndFit (fun s act => openAndFit_step_ok_iff) ?_
    openAndFit_initial huse
  intro s act s' hs hact hstep
  have hnext := openAndFit_step hs hact hstep
  exact ⟨⟨hnext.fit, advertisesFreeSpace_step hs.fit hstep⟩, hnext⟩

/-- A sender connects, sends three bytes and an empty `DATA`, and two bytes are read. -/
theorem staysInBounds_one_sender :
    Safely step StaysInBounds initial
      [.mainHandler (loopback 0x9210) rconDatagram, .mrtAccept1Dequeue, .mrtAccept1Enqueue 0,
        .mainHandler (loopback 0x9210) (dataDatagram 1 [0, 0, 0, 0] [65, 66, 67]),
        .mainHandler (loopback 0x9210) dataEmptyDatagram,
        .mrtReceive1 (loopback 0x9210) 2] :=
  (staysInBounds_iff (by simp [OpenUse])).mpr (by decide +kernel)

/-- A request that proposes the fragment number -2 makes the empty `DATA` of its sender
the expected one, and a payload of -4 bytes is copied. -/
theorem staysInBounds_fails_for_empty_data :
    (∀ act ∈ [.mainHandler (loopback 0x9210) (header mrtRcon ++ intBytes (-2)),
        .mrtAccept1Dequeue, .mrtAccept1Enqueue 0,
        .mainHandler (loopback 0x9210) dataEmptyDatagram], OpenUse act) ∧
      run step initial
        [.mainHandler (loopback 0x9210) (header mrtRcon ++ intBytes (-2)),
          .mrtAccept1Dequeue, .mrtAccept1Enqueue 0,
          .mainHandler (loopback 0x9210) dataEmptyDatagram] = .error .outOfBounds ∧
      ¬Safely step StaysInBounds initial
        [.mainHandler (loopback 0x9210) (header mrtRcon ++ intBytes (-2)),
          .mrtAccept1Dequeue, .mrtAccept1Enqueue 0,
          .mainHandler (loopback 0x9210) dataEmptyDatagram] := by
  have hrun : run step initial
      [.mainHandler (loopback 0x9210) (header mrtRcon ++ intBytes (-2)),
        .mrtAccept1Dequeue, .mrtAccept1Enqueue 0,
        .mainHandler (loopback 0x9210) dataEmptyDatagram] = .error .outOfBounds :=
    eq_error_of_failsWith (by decide +kernel)
  exact ⟨by simp [OpenUse], hrun, not_safely_of_run_eq_error hrun⟩

end NetworkLabs.Mrt.Receiver
