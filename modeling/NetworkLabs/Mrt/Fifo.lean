import NetworkLabs.Foundations.History
import NetworkLabs.Mrt.Stream

/-!
# The connection of every sender is a queue

The ledger of an address notes the numbers its requests propose and the fragments accepted
from it, as they stand in its datagrams. Whatever the senders send, the bytes read from a
connected record and its unread bytes are the payloads of the ledger, the numbers in the ledger
count up from that of the request, and every `ADAT` carries the last of them. A second record
that was registered for an address is never found again and stays empty.
-/

namespace NetworkLabs.Mrt.Receiver

open Foundations

/-- The datagrams of one address that the receiver worked on. -/
structure Ledger where
  /-- The numbers that requests propose. -/
  requested : List ℤ
  /-- The numbers and payloads of the accepted fragments. -/
  accepted : List (ℤ × List Byte)

/-- The numbers that a section is asked to start from by an address. -/
def requests (s : State) (id : SockaddrIn) : Action → List ℤ
  | .mainHandler addr dg =>
    if addr = id ∧ dispatchedType s dg = some mrtRcon then [fragField dg] else []
  | _ => []

/-- The section handles `DATA` of an address that passes the test of the connected record. -/
def AcceptsFrom (s : State) (id : SockaddrIn) : Action → Prop
  | .mainHandler addr dg =>
    addr = id ∧ dispatchedType s dg = some mrtData ∧
      (s.record id).any (fun r =>
        r.admits ((stored dg).length - mrtHeaderLength) (dispatchedFrag s dg)) = true
  | _ => False

instance (s : State) (id : SockaddrIn) (act : Action) : Decidable (AcceptsFrom s id act) :=
  match act with
  | .mainHandler _ _ => inferInstanceAs (Decidable (_ ∧ _ ∧ _))
  | .mrtAccept1Dequeue | .mrtAccept1Enqueue _ | .checker _ | .mrtReceive1 _ _ | .mrtClose =>
    isFalse fun h => h

/-- The fragment of a datagram: its number and all bytes behind the header. -/
def fragment : Action → List (ℤ × List Byte)
  | .mainHandler _ dg => [(fragField dg, (stored dg).drop mrtHeaderLength)]
  | _ => []

/-- The ledgers after a section of an open receiver, to which it adds what it has requested or
accepted. -/
def noteSection (s : State) (act : Action) (ledgers : SockaddrIn → Ledger) (id : SockaddrIn) :
    Ledger where
  requested := (ledgers id).requested ++ requests s id act
  accepted := (ledgers id).accepted ++ if AcceptsFrom s id act then fragment act else []

/-- A receiver with the ledgers of all addresses, which no section of the module reads. -/
abbrev Noted := State × (SockaddrIn → Ledger)

/-- The receiver and its ledgers when the module is opened. -/
def initialNoted : Noted := (initial, fun _ => ⟨[], []⟩)

/-- The users keep the receiver open, no short `DATA` carries the expected number, and a
request contains its number. -/
def FieldsPresent (s : State) (act : Action) : Prop :=
  OpenUse act ∧ NoShortExpectedData s act ∧
    match act with
    | .mainHandler _ dg => dispatchedType s dg = some mrtRcon → 16 ≤ (stored dg).length
    | _ => True

instance (s : State) (act : Action) : Decidable (FieldsPresent s act) :=
  match act with
  | .mainHandler _ dg =>
    inferInstanceAs (Decidable (_ ∧ _ ∧ (dispatchedType s dg = some mrtRcon →
      16 ≤ (stored dg).length)))
  | .mrtAccept1Dequeue | .mrtAccept1Enqueue _ | .checker _ | .mrtReceive1 _ _ | .mrtClose =>
    inferInstanceAs (Decidable (_ ∧ _ ∧ True))

/-- The number of the last accepted fragment, or that of the request. -/
def Ledger.lastFrag (ledger : Ledger) (first : ℤ) : ℤ :=
  (ledger.accepted.map Prod.fst).getLast?.getD first

/-- The connected record of an address is the queue of the fragments accepted from it since
the request that proposed `first`. -/
structure FaithfulStream (s : State) (ledger : Ledger) (id : SockaddrIn) (r : Sender)
    (first : ℤ) : Prop where
  /-- The sender of the address asked for the number and was told so. -/
  requested : first ∈ ledger.requested
  announced : (s.sentTo id).head? = some (aconDatagram first)
  /-- What was returned and what is unread are the accepted payloads. -/
  stream : s.returnedBytes id ++ r.unread = (ledger.accepted.map Prod.snd).flatten
  /-- The accepted numbers are consecutive 32-bit numbers. -/
  numbers : ledger.accepted.map Prod.fst =
    (List.range ledger.accepted.length).map fun (k : ℕ) => wrapInt (first + 1 + k)

/-- What holds after a section of an open receiver, of its buffers and of what it has sent. -/
structure Faithful (w w' : Noted) : Prop where
  /-- Every connection is faithful, and an `ADAT` that the section sent tells the last accepted
  number and the free space. -/
  connection : ∀ id r, w'.1.record id = some r → ∃ first,
    FaithfulStream w'.1 (w'.2 id) id r first ∧
      ∀ dg, w'.1.outbox = w.1.outbox ++ [(id, dg)] → typeField dg = mrtAdat →
        fragField dg = (w'.2 id).lastFrag first ∧
          windowField dg = receiverMaxWindowSize - r.bytesUnread
  /-- Only connected senders get an `ADAT`. -/
  adat : ∀ id dg, w'.1.outbox = w.1.outbox ++ [(id, dg)] → typeField dg = mrtAdat →
    (w'.1.record id).isSome
  /-- A record behind another one of its address has accepted nothing. -/
  shadowed : w'.1.connectedSendersQ.Pairwise fun r r' => r.addr = r'.addr → r'.bytesUnread = 0

/-- The records of an address, whether pending, held by `mrt_accept1` or connected. -/
def State.recordsOf (s : State) (id : SockaddrIn) : List Sender :=
  s.records.filter (senderMatcher id)

/-! ### The fields of a datagram -/

/-- A number that the datagram contains is read from it. -/
theorem dispatchedFrag_eq (s : State) {dg : Datagram} (hlong : 16 ≤ (stored dg).length) :
    dispatchedFrag s dg = fragField dg := by
  have hread := read_receiveInto s.incomingBuffer
    (show mrtFragmentLocation + mrtFragmentLength ≤ (stored dg).length from hlong)
  have hfield : ((stored dg).drop mrtFragmentLocation).take mrtFragmentLength =
      (dg.drop mrtFragmentLocation).take mrtFragmentLength := by
    rw [stored, List.drop_take, List.take_take, Nat.min_eq_left (by decide)]
  rw [dispatchedFrag, fragHolder, hread, hfield, fragField]

/-- A number is a 32-bit number, so that it is the one that `main_handler` compares. -/
theorem wrapInt_fragField (dg : Datagram) : wrapInt (fragField dg) = fragField dg := by
  obtain ⟨hlo, hhi⟩ := wrapInt_mem (ofLittleEndian ((dg.drop 12).take 4))
  exact wrapInt_of_mem hlo hhi

/-- The payload of a datagram that is no shorter than a header. -/
theorem dispatchedPayload_eq (s : State) {dg : Datagram}
    (hlong : mrtHeaderLength ≤ (stored dg).length) :
    dispatchedPayload s dg = (stored dg).drop mrtHeaderLength := by
  have hlength : (((stored dg).length : ℤ) - mrtHeaderLength).toNat =
      (stored dg).length - mrtHeaderLength := by omega
  have hread := read_receiveInto s.incomingBuffer
    (show mrtHeaderLength + ((stored dg).length - mrtHeaderLength) ≤ (stored dg).length by omega)
  rw [List.take_of_length_le (Nat.le_of_eq List.length_drop)] at hread
  rw [dispatchedPayload, hlength]
  exact hread

/-! ### Counting the accepted fragments -/

/-- The number that a record expects counts the fragments accepted since its request. -/
structure Numbered (v : View) (ledger : Ledger) (r : Sender) (first : ℤ) : Prop where
  first_int : wrapInt first = first
  requested : first ∈ ledger.requested
  announced : v.sent.head? = some (aconDatagram first)
  expected : r.nextFrag = wrapInt (first + 1 + ledger.accepted.length)
  numbers : ledger.accepted.map Prod.fst =
    (List.range ledger.accepted.length).map fun (k : ℕ) => wrapInt (first + 1 + k)

/-- The first datagram sent to an address stays the first. -/
theorem head?_append_of_head? {α : Type*} {xs ys : List α} {x : α} (h : xs.head? = some x) :
    (xs ++ ys).head? = some x := by
  cases xs with
  | nil => cases h
  | cons y xs => exact h

/-- More requests and transmissions change nothing, as long as the expected number is
the same. -/
theorem Numbered.kept {v v' : View} {ledger : Ledger} {r r' : Sender} {first : ℤ}
    (h : Numbered v ledger r first) {sent : List Datagram} (hsent : v'.sent = v.sent ++ sent)
    (hfrag : r'.nextFrag = r.nextFrag) (requested : List ℤ) :
    Numbered v' ⟨ledger.requested ++ requested, ledger.accepted⟩ r' first where
  first_int := h.first_int
  requested := List.mem_append_left _ h.requested
  announced := hsent ▸ head?_append_of_head? h.announced
  expected := hfrag.trans h.expected
  numbers := h.numbers

/-- A fragment with the expected number is counted, and the expected number moves on. -/
theorem Numbered.accepted {v v' : View} {ledger : Ledger} {r r' : Sender} {first : ℤ}
    (h : Numbered v ledger r first) {sent : List Datagram} (hsent : v'.sent = v.sent ++ sent)
    (hfrag : r'.nextFrag = wrapInt (r.nextFrag + 1)) (requested : List ℤ) (payload : List Byte) :
    Numbered v' ⟨ledger.requested ++ requested, ledger.accepted ++ [(r.nextFrag, payload)]⟩ r'
      first := by
  refine ⟨h.first_int, List.mem_append_left _ h.requested,
    hsent ▸ head?_append_of_head? h.announced, ?_, ?_⟩
  · rw [hfrag, h.expected, wrapInt_wrapInt_add, List.length_append, List.length_singleton]
    congr 1
    omega
  · rw [List.map_append, h.numbers, List.length_append, List.length_singleton, List.range_succ,
      List.map_append, List.map_singleton, List.map_singleton, h.expected]

/-- The last accepted number precedes the expected one, also where the numbers wrap around. -/
theorem Numbered.lastFrag_eq {v : View} {ledger : Ledger} {r : Sender} {first : ℤ}
    (h : Numbered v ledger r first) : ledger.lastFrag first = wrapInt (r.nextFrag - 1) := by
  have hexpected : wrapInt (r.nextFrag - 1) = wrapInt (first + ledger.accepted.length) := by
    rw [h.expected, Int.sub_eq_add_neg, wrapInt_wrapInt_add]
    congr 1
    omega
  rw [hexpected, Ledger.lastFrag, h.numbers]
  cases hlength : ledger.accepted.length with
  | zero =>
    rw [Int.natCast_zero, Int.add_zero, h.first_int]
    rfl
  | succ n =>
    rw [List.range_succ, List.map_append, List.map_singleton, List.getLast?_append,
      List.getLast?_singleton, Option.some_or, Option.getD_some]
    congr 1
    omega

/-- The receiver is open, and its ledgers agree with its records. -/
structure LedgersKept (w : Noted) : Prop where
  open_fit : OpenAndFit w.1
  streams : StreamsKept w.1
  /-- The payloads buffered are those of the accepted fragments. -/
  payloads : ∀ id, (w.2 id).accepted.map Prod.snd = w.1.bufferedPayloads id
  /-- A record that is not registered starts behind the number of a request. -/
  waiting : ∀ r ∈ w.1.waiting, ∃ first ∈ (w.2 r.addr).requested,
    wrapInt first = first ∧ r.nextFrag = wrapInt (first + 1)
  numbered : ∀ id r, w.1.record id = some r → ∃ first, Numbered (w.1.view id) (w.2 id) r first
  shadowed : w.1.connectedSendersQ.Pairwise fun r r' => r.addr = r'.addr → r'.bytesUnread = 0

/-- An open receiver handles `DATA` in its case of the dispatch. -/
theorem step_of_data {s : State} (hopen : s.closed = false) (hclose : s.shouldClose = false)
    {addr : SockaddrIn} {dg : Datagram} (htype : dispatchedType s dg = some mrtData) :
    step s (.mainHandler addr dg) =
      handleData (s.store dg) addr (stored dg).length (dispatchedFrag s dg) := by
  unfold dispatchedType at htype
  dsimp only at htype
  split at htype
  · rename_i hvalid
    rw [step, if_neg (by simp [hopen]), mainHandler, if_neg (by simp [hclose])]
    dsimp only
    rw [if_pos hvalid, if_neg (by rw [Option.some.inj htype]; decide),
      if_pos (Option.some.inj htype)]
    rfl
  · cases htype

/-- `DATA` that passes the test is buffered when the step succeeds. -/
theorem handleData_of_admits {s s' : State} {addr : SockaddrIn} {dg : Datagram} {r : Sender}
    (hrecord : s.record addr = some r)
    (hadmits : r.admits ((stored dg).length - mrtHeaderLength) (dispatchedFrag s dg) = true)
    (h : handleData (s.store dg) addr (stored dg).length (dispatchedFrag s dg) = .ok s') :
    s' = replyAdat ((s.store dg).appendPayload addr (dispatchedPayload s dg)) addr
      (r.append (dispatchedPayload s dg)) := by
  have hfound : (s.store dg).record addr = some r := hrecord
  rw [handleData, hfound] at h
  dsimp only at h
  rw [if_pos hadmits] at h
  split at h
  · exact (Except.ok.inj h).symm
  · cases h

/-- `DATA` that passes the test is appended to the record and to the ledger. -/
theorem view_of_accepts {s s' : State} {id : SockaddrIn} {act : Action} (h : OpenAndFit s)
    (hpresent : NoShortExpectedData s act) (haccepts : AcceptsFrom s id act)
    (hstep : step s act = .ok s') : ∃ r payload, s.record id = some r ∧
      fragment act = [(r.nextFrag, payload)] ∧ s'.view id =
        { s.view id with
          record := some { r.append payload with inactiveTime := 0 }
          bufferedPayloads := s.bufferedPayloads id ++ [payload]
          sent := s.sentTo id ++ [adatDatagram ((r.append payload).nextFrag - 1)
            (r.append payload).currWindowSize] } := by
  cases act with
  | mainHandler addr dg =>
    obtain ⟨rfl, htype, hadmits⟩ := haccepts
    obtain ⟨r, hrecord, hadmits⟩ := (Option.any_eq_true _ _).mp hadmits
    obtain ⟨hspace, hfrag⟩ := r.admits_iff.mp hadmits
    have hlong : mrtHeaderLength ≤ (stored dg).length :=
      hpresent htype ((congrArg _ hrecord).trans (congrArg some hfrag))
    have hfield : dispatchedFrag s dg = fragField dg :=
      dispatchedFrag_eq s (Nat.le_trans (by decide) hlong)
    refine ⟨r, dispatchedPayload s dg, hrecord, ?_, ?_⟩
    · rw [fragment, hfrag, hfield, dispatchedPayload_eq s hlong]
    · rw [step_of_data h.closed_eq h.shouldClose_eq htype] at hstep
      rw [handleData_of_admits hrecord hadmits hstep]
      exact view_appendPayload hrecord
  | _ => exact haccepts.elim

/-- A section that buffers `DATA` accepts a fragment, which the ledger takes note of. -/
theorem acceptsFrom_of_buffered {s : State} {id : SockaddrIn} {dg : Datagram} {r : Sender}
    (htype : dispatchedType s dg = some mrtData) (hrecord : s.record id = some r)
    (hadmits : r.admits ((stored dg).length - mrtHeaderLength) (dispatchedFrag s dg) = true) :
    AcceptsFrom s id (.mainHandler id dg) :=
  ⟨rfl, htype, (Option.any_eq_true _ _).mpr ⟨r, hrecord, hadmits⟩⟩

/-- An iteration of the checker keeps the expected number. -/
@[simp] theorem tick_nextFrag (r : Sender) : r.tick.nextFrag = r.nextFrag := by
  unfold Sender.tick
  split <;> rfl

/-- Reading keeps the expected number, and moves only the bytes of the buffer. -/
@[simp] theorem consume_nextFrag (r : Sender) (n : ℤ) : (r.consume n).nextFrag = r.nextFrag := by
  unfold Sender.consume
  split <;> rfl

/-- The address of a registered record is told the number that its request proposed. -/
theorem numbered_registered {v : View} {ledger : Ledger} {r : Sender} {first : ℤ}
    (hint : wrapInt first = first) (hrequested : first ∈ ledger.requested)
    (hfrag : r.nextFrag = wrapInt (first + 1)) (hempty : ledger.accepted = [])
    (hsent : v.sent = [aconDatagram (r.nextFrag - 1)]) : Numbered v ledger r first := by
  refine ⟨hint, hrequested, ?_, by simp [hempty, hfrag], by simp [hempty]⟩
  have hbytes : intBytes (r.nextFrag - 1) = intBytes first := by
    rw [hfrag, Int.sub_eq_add_neg, intBytes_wrapInt_add, Int.add_neg_cancel_right]
  rw [hsent, aconDatagram, hbytes]
  rfl

/-- Every successful step keeps the numbers of every connection. Only an accepted fragment moves
them. -/
theorem numbered_step {w : Noted} {s' : State} {act : Action} (h : LedgersKept w)
    (hpresent : NoShortExpectedData w.1 act) (hstep : step w.1 act = .ok s') {id : SockaddrIn}
    {r' : Sender} (hrecord' : (s'.view id).record = some r') :
    ∃ first, Numbered (s'.view id) (noteSection w.1 act w.2 id) r' first := by
  by_cases haccepts : AcceptsFrom w.1 id act
  · obtain ⟨r, payload, hrecord, hfragment, hview⟩ :=
      view_of_accepts h.open_fit hpresent haccepts hstep
    obtain ⟨first, hnumbered⟩ := h.numbered id r hrecord
    rw [hview] at hrecord' ⊢
    cases hrecord'
    rw [noteSection, if_pos haccepts, hfragment]
    exact ⟨first, hnumbered.accepted rfl rfl _ payload⟩
  · have hledger : noteSection w.1 act w.2 id =
        ⟨(w.2 id).requested ++ requests w.1 id act, (w.2 id).accepted⟩ := by
      rw [noteSection, if_neg haccepts, List.append_nil]
    have hkept : ∀ {r v' sent}, w.1.record id = some r → v'.sent = (w.1.view id).sent ++ sent →
        r'.nextFrag = r.nextFrag → ∃ first, Numbered v' (noteSection w.1 act w.2 id) r' first := by
      intro r v' sent hrecord hsent hfrag
      obtain ⟨first, hnumbered⟩ := h.numbered id r hrecord
      rw [hledger]
      exact ⟨first, hnumbered.kept hsent hfrag _⟩
    have heffect := addressEffect_of_step hstep id
    generalize s'.view id = v' at heffect hrecord'
    cases heffect with
    | kept => exact hkept hrecord' (List.append_nil _).symm rfl
    | @ticked i r hrecord =>
      cases hrecord'
      exact hkept hrecord (List.append_nil _).symm (tick_nextFrag r)
    | @registered i r hopen hrecord hr haddr =>
      cases hrecord'
      obtain ⟨-, hbuffered, hsent⟩ := (h.streams.accounts id).unknown hrecord hopen
      obtain ⟨first, hrequested, hint, hfrag⟩ := h.waiting r hr
      rw [haddr] at hrequested
      have hempty : (w.2 id).accepted = [] :=
        List.map_eq_nil_iff.mp ((h.payloads id).trans hbuffered)
      rw [hledger]
      refine ⟨first, numbered_registered hint (List.mem_append_left _ hrequested) hfrag hempty ?_⟩
      exact congrArg (· ++ [aconDatagram (r.nextFrag - 1)]) hsent
    | acknowledged frag hrecord => exact hkept hrecord' rfl rfl
    | refused hclose htype hrecord hadmits =>
      cases hrecord'
      exact hkept hrecord rfl rfl
    | buffered hclose htype hrecord hadmits hbounds =>
      exact absurd (acceptsFrom_of_buffered htype hrecord hadmits) haccepts
    | disconnected hclose htype hrecord =>
      cases hrecord'
      exact hkept hrecord rfl rfl
    | consumed hrecord hunread hbounds =>
      cases hrecord'
      exact hkept hrecord (List.append_nil _).symm (consume_nextFrag _ _)
    | cleaned => cases hrecord'

/-- Every successful step buffers the payloads that it accepts, and no others. -/
theorem payloads_step {w : Noted} {s' : State} {act : Action} (h : LedgersKept w)
    (hpresent : NoShortExpectedData w.1 act) (hstep : step w.1 act = .ok s') (id : SockaddrIn) :
    (noteSection w.1 act w.2 id).accepted.map Prod.snd = (s'.view id).bufferedPayloads := by
  have hold := h.payloads id
  by_cases haccepts : AcceptsFrom w.1 id act
  · obtain ⟨r, payload, hrecord, hfragment, hview⟩ :=
      view_of_accepts h.open_fit hpresent haccepts hstep
    rw [hview, noteSection, if_pos haccepts, hfragment, List.map_append, hold]
    rfl
  · rw [noteSection, if_neg haccepts, List.append_nil, hold]
    have heffect := addressEffect_of_step hstep id
    generalize s'.view id = v' at heffect
    cases heffect with
    | buffered hclose htype hrecord hadmits hbounds =>
      exact absurd (acceptsFrom_of_buffered htype hrecord hadmits) haccepts
    | _ => rfl

/-- A request that becomes a record starts behind the number that its datagram proposes. -/
theorem waiting_step {w : Noted} {s' : State} {act : Action} (h : LedgersKept w)
    (hpresent : FieldsPresent w.1 act) (hstep : step w.1 act = .ok s') {r : Sender}
    (hr : r ∈ s'.waiting) : ∃ first ∈ (noteSection w.1 act w.2 r.addr).requested,
      wrapInt first = first ∧ r.nextFrag = wrapInt (first + 1) := by
  rcases mem_waiting_of_step hstep hr with hold | ⟨addr, dg, rfl, htype, rfl⟩
  · obtain ⟨first, hrequested, hfrag⟩ := h.waiting r hold
    exact ⟨first, List.mem_append_left _ hrequested, hfrag⟩
  · obtain ⟨-, -, hlong⟩ := hpresent
    rw [dispatchedFrag_eq w.1 (hlong htype)]
    refine ⟨fragField dg, List.mem_append_right _ ?_, wrapInt_fragField dg, by rw [newSender]⟩
    rw [requests, if_pos ⟨rfl, htype⟩]
    exact List.mem_singleton_self _

/-- Every successful step keeps the records behind the first of their address empty. -/
theorem shadowed_step {s s' : State} {act : Action} (h : StreamsKept s)
    (hshadowed : s.connectedSendersQ.Pairwise fun r r' => r.addr = r'.addr → r'.bytesUnread = 0)
    (hstep : step s act = .ok s') :
    s'.connectedSendersQ.Pairwise fun r r' => r.addr = r'.addr → r'.bytesUnread = 0 := by
  -- a change in place concerns the first record of its address only
  have hupdate : ∀ {queue : List Sender} {id : SockaddrIn} {f : Sender → Sender},
      (∀ r, (f r).addr = r.addr) →
      queue.Pairwise (fun r r' => r.addr = r'.addr → r'.bytesUnread = 0) →
      (updateItemQ queue (senderMatcher id) f).Pairwise
        fun r r' => r.addr = r'.addr → r'.bytesUnread = 0 := by
    intro queue id f hf hqueue
    refine pairwise_updateFirst (fun r r' hr hr' heq => ?_) (fun r r' _ hrel heq => ?_) hqueue
    · rw [hf] at heq
      simp only [senderMatcher, beq_eq_false_iff_ne, beq_iff_eq] at hr hr'
      exact absurd (heq.trans hr') hr
    · exact hrel ((hf r).symm.trans heq)
  cases effect_of_step hstep with
  | closed hclose => exact List.Pairwise.nil
  | refused hclose htype hrecord hadmits => exact hupdate (fun _ => rfl) hshadowed
  | buffered hclose htype hrecord hadmits hbounds =>
    exact hupdate (fun _ => rfl) (hupdate (fun _ => rfl) hshadowed)
  | disconnected hclose htype hrecord => exact hupdate (fun _ => rfl) hshadowed
  | accepted hopen hr =>
    have hempty := (h.waiting_empty _ (List.mem_append_right _ (List.mem_of_getElem? hr))).1
    refine List.pairwise_append.mpr ⟨hshadowed, List.pairwise_singleton _ _, ?_⟩
    rintro r - r' hr' -
    rw [List.mem_singleton.mp hr']
    exact hempty
  | ticked i =>
    refine pairwise_modify (fun r r' hrel heq => ?_) (fun r r' hrel heq => ?_) hshadowed i
    · exact hrel ((tick_addr r).symm.trans heq)
    · rw [tick_bytesUnread]
      exact hrel (heq.trans (tick_addr r'))
  | consumed hrecord hunread hbounds => exact hupdate (fun r => consume_addr r _) hshadowed
  | _ => exact hshadowed

/-- An `ADAT` that a section sends tells the number before the expected one. -/
theorem adat_of_step {s s' : State} {act : Action} (hstep : step s act = .ok s')
    {id : SockaddrIn} {dg : Datagram} (hsent : (s'.view id).sent = s.sentTo id ++ [dg])
    (htype : typeField dg = mrtAdat) :
    ∃ r, (s'.view id).record = some r ∧ fragField dg = wrapInt (r.nextFrag - 1) := by
  have hnothing : s.sentTo id ≠ s.sentTo id ++ [dg] := fun h => by
    simpa using congrArg List.length h
  have heffect := addressEffect_of_step hstep id
  generalize s'.view id = v' at heffect hsent
  cases heffect with
  | kept | ticked _ | consumed _ _ _ | cleaned => exact absurd hsent hnothing
  | registered hopen hrecord hr haddr =>
    rw [← List.singleton_inj.mp (List.append_cancel_left hsent), typeField_aconDatagram] at htype
    cases htype
  | acknowledged frag hrecord =>
    rw [← List.singleton_inj.mp (List.append_cancel_left hsent), typeField_aconDatagram] at htype
    cases htype
  | disconnected hclose hdg hrecord =>
    rw [← List.singleton_inj.mp (List.append_cancel_left hsent), typeField_aclsDatagram] at htype
    cases htype
  | refused hclose hdg hrecord hadmits =>
    rw [← List.singleton_inj.mp (List.append_cancel_left hsent)]
    exact ⟨_, rfl, fragField_adatDatagram _ _⟩
  | buffered hclose hdg hrecord hadmits hbounds =>
    rw [← List.singleton_inj.mp (List.append_cancel_left hsent)]
    exact ⟨_, rfl, fragField_adatDatagram _ _⟩

/-- Nothing is noted when the module is opened, and nothing is recorded. -/
theorem ledgersKept_initial : LedgersKept initialNoted where
  open_fit := openAndFit_initial
  streams := streamsKept_initial
  payloads _ := rfl
  waiting r hr := by simp [State.waiting, initialNoted, initial] at hr
  numbered id r hrecord := by simp [State.record, getItemQ, initialNoted, initial] at hrecord
  shadowed := List.Pairwise.nil

/-- Every successful step with the fields present keeps the ledgers. -/
theorem ledgersKept_step {w : Noted} {s' : State} {act : Action} (h : LedgersKept w)
    (hpresent : FieldsPresent w.1 act) (hstep : step w.1 act = .ok s') :
    LedgersKept (s', noteSection w.1 act w.2) where
  open_fit := openAndFit_step h.open_fit hpresent.1 hstep
  streams := streamsKept_step h.streams hstep
  payloads := payloads_step h hpresent.2.1 hstep
  waiting _ hr := waiting_step h hpresent hstep hr
  numbered _ _ hrecord := numbered_step h hpresent.2.1 hstep hrecord
  shadowed := shadowed_step h.streams h.shadowed hstep

/-- A step that keeps the ledgers leaves every connection faithful. -/
theorem faithful_step {w : Noted} {s' : State} {act : Action}
    (h' : LedgersKept (s', noteSection w.1 act w.2)) (hfit : BuffersFit w.1)
    (hstep : step w.1 act = .ok s') : Faithful w (s', noteSection w.1 act w.2) := by
  have hsent : ∀ {id dg}, s'.outbox = w.1.outbox ++ [(id, dg)] →
      (s'.view id).sent = w.1.sentTo id ++ [dg] := by
    intro id dg hout
    simp [State.sentTo, hout]
  refine ⟨fun id r hrecord => ?_, fun id dg hout htype => ?_, h'.shadowed⟩
  · obtain ⟨first, hnumbered⟩ := h'.numbered id r hrecord
    refine ⟨first, ⟨hnumbered.requested, hnumbered.announced, ?_, hnumbered.numbers⟩,
      fun dg hout htype => ⟨?_, ?_⟩⟩
    · rw [h'.payloads id]
      exact (h'.streams.accounts id).stream r hrecord
    · obtain ⟨r', hrecord', hfrag⟩ := adat_of_step hstep (hsent hout) htype
      cases hrecord.symm.trans hrecord'
      exact hfrag.trans hnumbered.lastFrag_eq.symm
    · obtain ⟨r', hrecord', hwindow, -⟩ := advertisesFreeSpace_step hfit hstep id dg hout htype
      cases hrecord.symm.trans hrecord'
      exact hwindow
  · obtain ⟨r', hrecord', -⟩ := adat_of_step hstep (hsent hout) htype
    exact Option.isSome_iff_exists.mpr ⟨r', hrecord'⟩

/-! ### Datagrams of other addresses -/

/-- An address has no record of another address, so that what is done to a record concerns one
address. -/
theorem senderMatcher_of_ne {id addr : SockaddrIn} (hid : id ≠ addr) {r : Sender}
    (hr : senderMatcher addr r = true) : senderMatcher id r = false := by
  simp only [senderMatcher, beq_iff_eq, beq_eq_false_iff_ne] at hr ⊢
  rw [hr]
  exact Ne.symm hid

/-- A change in place of a record leaves the records of other addresses alone. -/
theorem recordsOf_updateRecord (s : State) {id addr : SockaddrIn} {f : Sender → Sender}
    (hf : ∀ r, (f r).addr = r.addr) (hid : id ≠ addr) :
    (s.updateRecord addr f).recordsOf id = s.recordsOf id := by
  have hframe : (updateItemQ s.connectedSendersQ (senderMatcher addr) f).filter
      (senderMatcher id) = s.connectedSendersQ.filter (senderMatcher id) :=
    filter_updateFirst_of_disjoint (fun r hr => ⟨senderMatcher_of_ne hid hr,
      senderMatcher_of_ne hid (by simpa [senderMatcher, hf] using hr)⟩) _
  simp only [State.recordsOf, State.records, State.updateRecord, List.filter_append, hframe]

/-- The datagrams of an address leave the records of every other address unchanged. -/
theorem recordsOf_mainHandler {s s' : State} {addr id : SockaddrIn} {dg : Datagram}
    (hclose : s.shouldClose = false) (hstep : step s (.mainHandler addr dg) = .ok s')
    (hid : id ≠ addr) : s'.recordsOf id = s.recordsOf id := by
  cases effect_of_step hstep with
  | idle | dropped _ _ | reacknowledged _ _ => rfl
  | closed hflag => exact absurd (hclose.symm.trans hflag) Bool.noConfusion
  | requested _ htype hpending hrecord =>
    have hnew : senderMatcher id (newSender addr (dispatchedFrag s dg)) = false :=
      senderMatcher_of_ne hid (beq_self_eq_true addr)
    simp [State.recordsOf, State.records, enqQ, hnew]
  | refused _ htype hrecord hadmits =>
    exact recordsOf_updateRecord (s.store dg) (fun _ => rfl) hid
  | @buffered _ _ r _ htype hrecord hadmits hbounds =>
    have happend := recordsOf_updateRecord (s.store dg)
      (f := fun r => r.append (dispatchedPayload s dg)) (fun _ => rfl) hid
    have hreply := recordsOf_updateRecord ((s.store dg).appendPayload addr (dispatchedPayload s dg))
      (f := fun r => { r with inactiveTime := 0 }) (fun _ => rfl) hid
    exact hreply.trans happend
  | disconnected _ htype hrecord =>
    exact recordsOf_updateRecord (s.store dg) (fun _ => rfl) hid
  | withdrawn htype hrecord =>
    have hframe : (popItemQ s.pendingSendersQ (senderMatcher addr)).filter (senderMatcher id) =
        s.pendingSendersQ.filter (senderMatcher id) :=
      filter_eraseP_of_disjoint (fun r => senderMatcher_of_ne hid) _
    simp [State.recordsOf, State.records, hframe]

/-- Whatever the senders send, in every run of an open receiver the connection of every sender
is a queue of the fragments accepted from it, and the datagrams of an address leave the records
of every other address unchanged. -/
theorem connections_faithful {acts : List Action} (hmeets : Meets step FieldsPresent initial acts) :
    Safely (noted step noteSection) Faithful initialNoted acts ∧
      ∀ {s s' : State} {addr id : SockaddrIn} {dg : Datagram}, s.shouldClose = false →
        step s (.mainHandler addr dg) = .ok s' → id ≠ addr → s'.recordsOf id = s.recordsOf id := by
  refine ⟨safely_of_meets LedgersKept (fun w act h hpresent => ?_) ledgersKept_initial
    (meets_noted hmeets), recordsOf_mainHandler⟩
  obtain ⟨s', hstep⟩ := (openAndFit_step_ok_iff h.open_fit hpresent.1).mpr hpresent.2.1
  have hnext := ledgersKept_step h hpresent hstep
  exact ⟨_, noted_eq_ok hstep, faithful_step hnext h.open_fit.fit hstep, hnext⟩

/-- Two senders connect, and one of them sends two fragments while the receiver reads. -/
def twoConnections : List Action :=
  [.mainHandler (loopback 0x9210) rconDatagram, .mainHandler (loopback 0x9211) rconDatagram,
    .mrtAccept1Dequeue, .mrtAccept1Dequeue, .mrtAccept1Enqueue 0, .mrtAccept1Enqueue 0,
    .mainHandler (loopback 0x9210) (dataDatagram 1 [0, 0, 0, 0] [65, 66, 67]),
    .mrtReceive1 (loopback 0x9210) 2,
    .mainHandler (loopback 0x9210) (dataDatagram 1 [0, 0, 0, 0] [65, 66, 67]),
    .mainHandler (loopback 0x9210) (dataDatagram 2 [0, 0, 0, 0] [68]),
    .mainHandler (loopback 0x9211) dataEmptyDatagram, .mrtReceive1 (loopback 0x9210) 2]

/-- Both connections are faithful throughout, although one fragment comes in twice. -/
theorem connections_faithful_two :
    Safely (noted step noteSection) Faithful initialNoted twoConnections :=
  (connections_faithful (by decide +kernel)).1

end NetworkLabs.Mrt.Receiver
