import NetworkLabs.Mrt.ReceiverEffects

/-!
# What one critical section means for one address

Records never leave the connected queue before the clean-up, and a search finds
the first one, so the connection of an address is the record found for it together
with what was buffered, returned and sent for it. `AddressEffect` lists how a
section changes this view; most sections leave the view of most addresses alone.
-/

namespace NetworkLabs.Mrt.Receiver

open Foundations

/-- What the receiver has for one address: its record, what was buffered, returned and sent to
it, and whether the receiver is closed. -/
@[ext] structure View where
  record : Option Sender
  bufferedPayloads : List (List Byte)
  returnedBytes : List Byte
  sent : List Datagram
  closed : Bool

/-- The datagrams sent to an address, in order, of all that the receiver has sent. -/
def State.sentTo (s : State) (id : SockaddrIn) : List Datagram :=
  (s.outbox.filter fun entry => entry.1 == id).map Prod.snd

/-- The view of an address, which is all that its user and its sender can notice. -/
@[simps] def State.view (s : State) (id : SockaddrIn) : View where
  record := s.record id
  bufferedPayloads := s.bufferedPayloads id
  returnedBytes := s.returnedBytes id
  sent := s.sentTo id
  closed := s.closed

/-- The records that are pending or held by a call of `mrt_accept1`. -/
def State.waiting (s : State) : List Sender := s.pendingSendersQ ++ s.accepting

/-- The changes of a view, of which most sections make none. -/
inductive AddressEffect (s : State) (id : SockaddrIn) : Action → View → Prop
  /-- The section does not concern the address. -/
  | kept (act : Action) : AddressEffect s id act (s.view id)
  /-- The checker of the record runs. -/
  | ticked {i : ℕ} {r : Sender} (hrecord : s.record id = some r) :
      AddressEffect s id (.checker i) { s.view id with record := some r.tick }
  /-- A taken record is registered. -/
  | registered {i : ℕ} {r : Sender} (hopen : s.closed = false) (hrecord : s.record id = none)
      (hr : r ∈ s.waiting) (haddr : r.addr = id) :
      AddressEffect s id (.mrtAccept1Enqueue i)
        { s.view id with
          record := some { r with checkerThread := .running }
          sent := s.sentTo id ++ [aconDatagram (r.nextFrag - 1)] }
  /-- An `ACON` is sent and the record stays. -/
  | acknowledged {act : Action} {r : Sender} (frag : ℤ) (hrecord : s.record id = some r) :
      AddressEffect s id act { s.view id with sent := s.sentTo id ++ [aconDatagram frag] }
  /-- Data is acknowledged without being buffered. -/
  | refused {dg : Datagram} {r : Sender} (hclose : s.shouldClose = false)
      (htype : dispatchedType s dg = some mrtData) (hrecord : s.record id = some r)
      (hadmits : r.admits ((stored dg).length - mrtHeaderLength) (dispatchedFrag s dg) = false) :
      AddressEffect s id (.mainHandler id dg)
        { s.view id with
          record := some { r with inactiveTime := 0 }
          sent := s.sentTo id ++ [adatDatagram (r.nextFrag - 1) r.currWindowSize] }
  /-- Data is buffered and acknowledged. -/
  | buffered {dg : Datagram} {r : Sender} (hclose : s.shouldClose = false)
      (htype : dispatchedType s dg = some mrtData) (hrecord : s.record id = some r)
      (hadmits : r.admits ((stored dg).length - mrtHeaderLength) (dispatchedFrag s dg) = true)
      (hbounds : Memory.InBounds receiverMaxWindowSize r.bytesUnread
        ((stored dg).length - mrtHeaderLength)) :
      AddressEffect s id (.mainHandler id dg)
        { s.view id with
          record := some { r.append (dispatchedPayload s dg) with inactiveTime := 0 }
          bufferedPayloads := s.bufferedPayloads id ++ [dispatchedPayload s dg]
          sent := s.sentTo id ++ [adatDatagram ((r.append (dispatchedPayload s dg)).nextFrag - 1)
            (r.append (dispatchedPayload s dg)).currWindowSize] }
  /-- A connected sender asks to disconnect. -/
  | disconnected {dg : Datagram} {r : Sender} (hclose : s.shouldClose = false)
      (htype : dispatchedType s dg = some mrtRcls) (hrecord : s.record id = some r) :
      AddressEffect s id (.mainHandler id dg)
        { s.view id with
          record := some { r with inactiveTime := timeoutThreshold }
          sent := s.sentTo id ++ [aclsDatagram] }
  /-- Bytes are read from the record. -/
  | consumed {len : ℤ} {r : Sender} (hrecord : s.record id = some r)
      (hunread : 0 < r.bytesUnread) (hbounds : r.CopiesInBounds (r.bytesRead len)) :
      AddressEffect s id (.mrtReceive1 id len)
        { s.view id with
          record := some (r.consume (r.bytesRead len))
          returnedBytes := s.returnedBytes id ++ r.buffer.read 0 (r.bytesRead len).toNat }
  /-- `main_handler` cleans up. -/
  | cleaned {act : Action} :
      AddressEffect s id act { s.view id with record := none, closed := true }

/-- The record found after a change in place, which concerns no other address. -/
theorem record_updateRecord (s : State) (addr id : SockaddrIn) {f : Sender → Sender}
    (hf : ∀ r, (f r).addr = r.addr) : (s.updateRecord addr f).record id =
      if addr = id then (s.record id).map f else s.record id := by
  by_cases haddr : addr = id
  · subst haddr
    rw [if_pos rfl]
    exact find?_updateFirst (fun r hr => by simpa [senderMatcher, hf] using hr) _
  · rw [if_neg haddr]
    refine find?_updateFirst_of_disjoint (fun r hr => ?_) _
    have hr' : r.addr = addr := by simpa [senderMatcher] using hr
    simp [senderMatcher, hf, hr', haddr]

/-- The record found for the changed address. -/
theorem record_updateRecord_self {s : State} {id : SockaddrIn} {r : Sender} {f : Sender → Sender}
    (hf : ∀ r, (f r).addr = r.addr) (hrecord : s.record id = some r) :
    (s.updateRecord id f).record id = some (f r) := by
  rw [record_updateRecord s id id hf, if_pos rfl, hrecord, Option.map_some]

/-- The record found after a payload was appended to it. -/
theorem record_appendPayload_self {s : State} {addr : SockaddrIn} {r : Sender}
    (hrecord : s.record addr = some r) (payload : List Byte) :
    (s.appendPayload addr payload).record addr = some (r.append payload) :=
  record_updateRecord_self (f := fun r => r.append payload) (fun _ => rfl) hrecord

/-- The datagrams sent to an address after one more transmission. -/
theorem sentTo_sendTo (s : State) (out : Memory Byte) (length : ℕ) (addr id : SockaddrIn) :
    (s.sendTo out length addr).sentTo id =
      s.sentTo id ++ if addr = id then [out.read 0 length] else [] := by
  by_cases haddr : addr = id <;> simp [State.sentTo, haddr]

/-- A transmission to another address does not change the view. -/
theorem view_sendTo_of_ne (s : State) (out : Memory Byte) (length : ℕ) {addr id : SockaddrIn}
    (haddr : addr ≠ id) : (s.sendTo out length addr).view id = s.view id := by
  ext1
  case sent => simp [sentTo_sendTo, haddr]
  all_goals rfl

/-- A change in place of another record does not change the view. -/
theorem view_updateRecord_of_ne (s : State) {addr id : SockaddrIn} {f : Sender → Sender}
    (hf : ∀ r, (f r).addr = r.addr) (haddr : addr ≠ id) :
    (s.updateRecord addr f).view id = s.view id := by
  ext1
  case record => simp [record_updateRecord s addr id hf, haddr]
  all_goals rfl

/-- A reply to another address does not change the view. -/
theorem view_replyAdat_of_ne (s : State) (r : Sender) {addr id : SockaddrIn} (haddr : addr ≠ id) :
    (replyAdat s addr r).view id = s.view id :=
  (view_sendTo_of_ne _ _ _ haddr).trans (view_updateRecord_of_ne s (fun _ => rfl) haddr)

/-- A reply resets the counter of the record and sends an `ADAT`. -/
theorem view_replyAdat {s : State} {r r' : Sender} {addr : SockaddrIn}
    (hrecord : s.record addr = some r) : (replyAdat s addr r').view addr =
      { s.view addr with
        record := some { r with inactiveTime := 0 }
        sent := s.sentTo addr ++ [adatDatagram (r'.nextFrag - 1) r'.currWindowSize] } := by
  ext1
  case record =>
    exact record_updateRecord_self (f := fun r => { r with inactiveTime := 0 })
      (fun _ => rfl) hrecord
  case sent => simp [replyAdat, sentTo_sendTo]; rfl
  all_goals rfl

/-- The view of a sender whose payload is buffered and acknowledged. -/
theorem view_appendPayload {s : State} {dg : Datagram} {r : Sender} {addr : SockaddrIn}
    {payload : List Byte} (hrecord : s.record addr = some r) :
    (replyAdat ((s.store dg).appendPayload addr payload) addr (r.append payload)).view addr =
      { s.view addr with
        record := some { r.append payload with inactiveTime := 0 }
        bufferedPayloads := s.bufferedPayloads addr ++ [payload]
        sent := s.sentTo addr ++
          [adatDatagram ((r.append payload).nextFrag - 1) (r.append payload).currWindowSize] } := by
  rw [view_replyAdat (record_appendPayload_self (s := s.store dg) hrecord payload)]
  ext1
  case bufferedPayloads => simp
  all_goals rfl

/-- The record found after another one is registered, which is found only if there was none
before. -/
theorem record_enqQ (s : State) (r : Sender) (id : SockaddrIn) :
    getItemQ (enqQ s.connectedSendersQ r) (senderMatcher id) =
      (s.record id).or (if r.addr = id then some r else none) := by
  have hsingle : [r].find? (senderMatcher id) = if r.addr = id then some r else none := by
    by_cases haddr : r.addr = id <;> simp [senderMatcher, haddr]
  exact List.find?_append.trans (congrArg _ hsingle)

/-- Registering a record of another address, or a second one, does not change the
record found. -/
theorem record_enqQ_of_some {s : State} {r r' : Sender} {id : SockaddrIn}
    (hrecord : s.record id = some r') :
    getItemQ (enqQ s.connectedSendersQ r) (senderMatcher id) = some r' := by
  rw [record_enqQ, hrecord, Option.some_or]

/-- Every successful step changes the view of every address in one of the listed ways. -/
theorem addressEffect_of_step {s s' : State} {act : Action} (h : step s act = .ok s')
    (id : SockaddrIn) : AddressEffect s id act (s'.view id) := by
  cases effect_of_step h with
  | idle | dropped _ _ | closing | requested _ _ _ _ | withdrawn _ _ | taken _ =>
    exact .kept _
  | closed hclose => exact .cleaned
  | @reacknowledged addr dg r htype hrecord =>
    by_cases haddr : addr = id
    · subst haddr
      convert (AddressEffect.acknowledged (dispatchedFrag s dg) hrecord :
        AddressEffect s addr (.mainHandler addr dg) _) using 1
      ext1
      case sent => simp [State.sentTo]
      all_goals rfl
    · rw [view_sendTo_of_ne _ _ _ haddr]
      exact .kept _
  | @refused addr dg r hclose htype hrecord hadmits =>
    by_cases haddr : addr = id
    · subst haddr
      rw [view_replyAdat (s := s.store dg) hrecord]
      exact .refused hclose htype hrecord hadmits
    · rw [view_replyAdat_of_ne _ r haddr]
      exact .kept _
  | @buffered addr dg r hclose htype hrecord hadmits hbounds =>
    by_cases haddr : addr = id
    · subst haddr
      rw [view_appendPayload hrecord]
      exact .buffered hclose htype hrecord hadmits hbounds
    · rw [view_replyAdat_of_ne _ _ haddr]
      have hview : ((s.store dg).appendPayload addr (dispatchedPayload s dg)).view id =
          s.view id := by
        ext1
        case record =>
          exact (record_updateRecord (s.store dg) addr id
            (f := fun r => r.append (dispatchedPayload s dg)) fun _ => rfl).trans (if_neg haddr)
        case bufferedPayloads => simp [Function.update_of_ne (Ne.symm haddr)]
        all_goals rfl
      rw [hview]
      exact .kept _
  | @disconnected addr dg r hclose htype hrecord =>
    by_cases haddr : addr = id
    · subst haddr
      convert AddressEffect.disconnected hclose htype hrecord using 1
      ext1
      case record =>
        exact record_updateRecord_self (s := s.store dg)
          (f := fun r => { r with inactiveTime := timeoutThreshold }) (fun _ => rfl) hrecord
      case sent => simp [State.sentTo]
      all_goals rfl
    · rw [view_sendTo_of_ne _ _ _ haddr, view_updateRecord_of_ne (s.store dg)
        (f := fun r => { r with inactiveTime := timeoutThreshold }) (fun _ => rfl) haddr]
      exact .kept _
  | @accepted i r hopen hr =>
    by_cases haddr : r.addr = id
    · cases hrecord : s.record id with
      | none =>
        have hwaiting : r ∈ s.waiting := List.mem_append_right _ (List.mem_of_getElem? hr)
        convert AddressEffect.registered hopen hrecord hwaiting haddr using 1
        ext1
        case record => exact (record_enqQ s _ id).trans (by simp [hrecord, haddr])
        case sent => simp [State.sentTo, haddr]
        all_goals rfl
      | some r' =>
        convert AddressEffect.acknowledged (r.nextFrag - 1) hrecord using 1
        ext1
        case record => exact (record_enqQ_of_some hrecord).trans hrecord.symm
        case sent => simp [State.sentTo, haddr]
        all_goals rfl
    · rw [view_sendTo_of_ne _ _ _ haddr]
      convert AddressEffect.kept _ using 1
      ext1
      case record => exact (record_enqQ s _ id).trans (by simp [haddr])
      all_goals rfl
  | ticked i =>
    have hmatch : ∀ r, senderMatcher id (Sender.tick r) = senderMatcher id r := by
      simp [senderMatcher]
    rcases find?_modify hmatch s.connectedSendersQ i with hfound | hfound
    · convert AddressEffect.kept _ using 1
      ext1
      case record => exact hfound
      all_goals rfl
    · cases hrecord : s.record id with
      | none =>
        convert AddressEffect.kept _ using 1
        ext1
        case record =>
          refine (hfound.trans (congrArg _ hrecord)).trans ?_
          rw [State.view_record, hrecord]
          rfl
        all_goals rfl
      | some r =>
        convert AddressEffect.ticked hrecord using 1
        ext1
        case record => exact hfound.trans (congrArg _ hrecord)
        all_goals rfl
  | @consumed addr len r hrecord hunread hbounds =>
    by_cases haddr : addr = id
    · subst haddr
      convert AddressEffect.consumed hrecord hunread hbounds using 1
      ext1
      case record =>
        exact (record_updateRecord_self (f := fun r => r.consume (r.bytesRead len))
          (fun r => consume_addr r _) hrecord)
      case returnedBytes => simp
      all_goals rfl
    · convert AddressEffect.kept _ using 1
      ext1
      case record =>
        exact (record_updateRecord s addr id (f := fun r => r.consume (r.bytesRead len))
          fun r => consume_addr r _).trans (if_neg haddr)
      case returnedBytes => simp [Function.update_of_ne (Ne.symm haddr)]
      all_goals rfl

/-- A record that waits after a step has waited before or belongs to a new request. -/
theorem mem_waiting_of_step {s s' : State} {act : Action} (h : step s act = .ok s') {r : Sender}
    (hr : r ∈ s'.waiting) : r ∈ s.waiting ∨ ∃ addr dg, act = .mainHandler addr dg ∧
      dispatchedType s dg = some mrtRcon ∧ r = newSender addr (dispatchedFrag s dg) := by
  cases effect_of_step h with
  | closed hclose =>
    exact Or.inl (List.mem_append_right _ (by simpa [State.waiting, cleanUp] using hr))
  | @requested addr dg hclose htype hpending hrecord =>
    simp only [State.waiting, enqQ, List.append_assoc, List.mem_append, List.mem_singleton] at hr
    rcases hr with hr | rfl | hr
    · exact Or.inl (List.mem_append_left _ hr)
    · exact Or.inr ⟨addr, dg, rfl, htype, rfl⟩
    · exact Or.inl (List.mem_append_right _ hr)
  | withdrawn htype hrecord =>
    rcases List.mem_append.mp hr with hr | hr
    · exact Or.inl (List.mem_append_left _ (List.mem_of_mem_eraseP hr))
    · exact Or.inl (List.mem_append_right _ hr)
  | taken hqueue =>
    simp only [State.waiting, hqueue, List.mem_append, List.mem_cons, List.not_mem_nil,
      or_false] at hr ⊢
    tauto
  | accepted hopen hr₀ =>
    rcases List.mem_append.mp hr with hr | hr
    · exact Or.inl (List.mem_append_left _ hr)
    · exact Or.inl (List.mem_append_right _ (List.mem_of_mem_eraseIdx hr))
  | _ => exact Or.inl hr

end NetworkLabs.Mrt.Receiver
