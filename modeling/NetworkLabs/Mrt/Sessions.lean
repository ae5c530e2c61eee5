import NetworkLabs.Mrt.Refinement

/-!
# The numbering of sessions

The receiver keeps the record of an address for ever and answers a new request from it
with an `ACON` for the number in the request. So the two sides agree on the numbering of
a new session only if no fragment of an earlier one was buffered.
-/

namespace NetworkLabs.Mrt

open Foundations

/-- The receiver has accepted an address or is closed. Before that it sends nothing there. -/
def Receiver.View.Known (v : Receiver.View) : Prop := v.record ≠ none ∨ v.closed = true

/-- Records leave the receiver only when it is closed, as the garbage collection of its checkers
is commented out. -/
theorem known_step {r r' : Receiver.State} {act : Receiver.Action} {addr : SockaddrIn}
    (h : (r.view addr).Known) (hstep : Receiver.step r act = .ok r') : (r'.view addr).Known := by
  have heffect := Receiver.addressEffect_of_step hstep addr
  generalize r'.view addr = v at heffect
  cases heffect with
  | cleaned => exact Or.inr rfl
  | kept => exact h
  | acknowledged frag hrecord => exact h
  | _ => exact Or.inl (Option.some_ne_none _)

/-- A sender that has received something handles it or has received it in this step. -/
theorem handlerThread_step {s s' : Sender.State} {act : Sender.Action}
    (hstep : Sender.step s act = .ok s') (hbusy : s'.handlerThread ≠ .recvfrom) :
    s.handlerThread ≠ .recvfrom ∨ ∃ dg, act = .handlerRecvfrom dg := by
  cases Sender.effect_of_step hstep with
  | @received dg hthread => exact Or.inr ⟨dg, rfl⟩
  | closing hthread _ | dispatched hthread _ | refreshed hthread | freed hthread =>
    refine Or.inl fun hidle => ?_
    cases hthread.symm.trans hidle
  | acknowledged hthread hdifference =>
    refine Or.inl fun hidle => ?_
    cases hthread.symm.trans hidle
  | connected _ _ | reconnected _ _ | outdated _ _ | shifted _ _ | closedByPeer _ =>
    exact absurd rfl hbusy
  | _ => exact Or.inl hbusy

/-- Only a sender that handles something changes the acknowledged number. -/
theorem handlerThread_of_ack_ne {s s' : Sender.State} {act : Sender.Action}
    (hstep : Sender.step s act = .ok s')
    (hack : s'.conn.lastAcknowledgedFrag ≠ s.conn.lastAcknowledgedFrag) :
    s.handlerThread ≠ .recvfrom := by
  intro hidle
  cases Sender.effect_of_step hstep with
  | connected hthread hfirst => cases hthread.symm.trans hidle
  | acknowledged hthread hdifference => cases hthread.symm.trans hidle
  | _ => exact hack rfl

namespace Network

/-- A step keeps the two sides of a connection in agreement about the fragment numbers. -/
structure AgreesOnNumbering (w w' : World) (addr : SockaddrIn) : Prop where
  /-- When the first `ACON` is handled, the receiver expects fragment 1. -/
  first_acon : (w.senders addr).conn.lastAcknowledgedFrag = -1 →
    (w'.senders addr).conn.lastAcknowledgedFrag = 0 → w'.receiver.closed = false →
    ∃ r, w'.receiver.record addr = some r ∧ r.nextFrag = 1
  /-- Every `ADAT` in flight acknowledges fragments that the session has buffered. -/
  acknowledges_buffered : ∀ dg ∈ w'.inFlight addr, typeField dg = mrtAdat →
    fragField dg ≤ (w'.senders addr).bufferedFragments.length

/-- The invariant behind `AgreesOnNumbering`. A `handler` that is not waiting was sent
something, so that the receiver knows its address. -/
structure SessionsHold (w : World) : Prop where
  network : NetworkHolds w
  known : ∀ addr, (w.senders addr).handlerThread ≠ .recvfrom → (w.receiver.view addr).Known

/-- Nothing is received initially, and every `handler` waits. -/
theorem sessionsHold_initial : SessionsHold initial :=
  ⟨networkHolds_initial, fun _ hbusy => absurd rfl hbusy⟩

/-- What is in flight to a sender was sent by a receiver that knows it. -/
theorem known_of_mem_inFlight {w : World} (h : NetworkHolds w) {addr : SockaddrIn} {dg : Datagram}
    (hdg : dg ∈ w.inFlight addr) : (w.receiver.view addr).Known := by
  by_contra hunknown
  obtain ⟨hrecord, hclosed⟩ := not_or.mp hunknown
  obtain ⟨-, -, hsent⟩ := (h.streams.accounts addr).unknown (not_not.mp hrecord)
    (Bool.eq_false_iff.mpr hclosed)
  have hmem : dg ∈ (w.receiver.view addr).sent := List.mem_of_mem_drop hdg
  rw [hsent] at hmem
  cases hmem

/-- What the receiver has accepted stays known in the network. -/
theorem known_of_step {w w' : World} {act : Action} {addr : SockaddrIn}
    (h : (w.receiver.view addr).Known) (hstep : step w act = .ok w') :
    (w'.receiver.view addr).Known := by
  cases effect_of_step hstep with
  | receiver hdelivers hsub => exact known_step h hsub
  | _ => exact h

/-- A step that keeps the numbering of new sessions keeps the invariant. -/
theorem sessionsHold_step {w w' : World} {act : Action} (h : SessionsHold w)
    (hfew : FewFragments w act) (hfresh : FreshSession w act) (hstep : step w act = .ok w') :
    SessionsHold w' := by
  refine ⟨networkHolds_step h.network hfew hfresh hstep, fun addr hbusy => ?_⟩
  have hchange := senderChange_of_step hstep addr
  generalize w'.senders addr = s' at hchange hbusy
  cases hchange with
  | kept => exact known_of_step (h.known addr hbusy) hstep
  | stepped hreturns hsub =>
    rcases handlerThread_step hsub hbusy with hold | ⟨dg, rfl⟩
    · exact known_of_step (h.known addr hold) hstep
    · exact known_of_step (known_of_mem_inFlight h.network hreturns) hstep
  | reopened hended => exact absurd rfl hbusy

/-- A section of a sender leaves the receiver alone. -/
theorem receiver_of_sender_step {w w' : World} {addr : SockaddrIn} {act : Sender.Action}
    (hstep : step w (.sender addr act) = .ok w') : w'.receiver = w.receiver := by
  cases effect_of_step hstep with
  | idle => rfl
  | sender hreturns hsub => rfl

/-- No `ADAT` in flight is ahead of the sender, when only sessions without data are followed by
others. -/
theorem fragField_le_of_mem_inFlight {w : World} (h : NetworkHolds w) {addr : SockaddrIn}
    {dg : Datagram} (hdg : dg ∈ w.inFlight addr) (htype : typeField dg = mrtAdat) :
    fragField dg ≤ (w.senders addr).bufferedFragments.length := by
  obtain ⟨g, hg⟩ := h.refines addr
  have hsound := hg.reachable.sound
  cases hg.receiver.inFlight dg hdg with
  | acon frag => cases (typeField_aconDatagram frag).symm.trans htype
  | acls => cases typeField_aclsDatagram.symm.trans htype
  | @adat n window hack =>
    have hle : n ≤ (w.senders addr).bufferedFragments.length := by
      rw [← hg.sender.fragments]
      exact Nat.le_trans (hsound.acks_delivered n hack) hsound.delivered_written.length_le
    have hnumbered := hg.sender.numbered
    rw [fragField_adatDatagram, wrapInt_of_mem (by omega) (by omega)]
    omega

/-- Before the first `ACON` nothing is delivered, so fragment 1 is expected. -/
theorem nextFrag_of_first {w : World} (h : NetworkHolds w) {addr : SockaddrIn}
    (hfirst : (w.senders addr).conn.lastAcknowledgedFrag = -1) {r : Receiver.Sender}
    (hrecord : w.receiver.record addr = some r) : r.nextFrag = 1 := by
  obtain ⟨g, hg⟩ := h.refines addr
  have hexpected := hg.receiver.expected r hrecord
  rcases hg.sender.connection with hunconnected | hconnected
  · rw [hexpected, ← hg.receiver.delivered, hunconnected.unused.delivered]
    rfl
  · have hack := hconnected.acknowledged
    omega

/-- The two sides agree on the numbering in every run in which a session opens only at an
address from which the receiver has buffered nothing. -/
theorem agreesOnNumbering_of_meets {acts : List Action}
    (hfew : Meets step FewFragments initial acts) (hfresh : Meets step FreshSession initial acts) :
    Always step (fun w w' => ∀ addr, AgreesOnNumbering w w' addr) initial acts := by
  refine always_of_meets (fun w act w' h hcondition hstep => ?_) sessionsHold_initial
    (hfew.and hfresh)
  have hnext := sessionsHold_step h hcondition.1 hcondition.2 hstep
  refine ⟨fun addr => ?_, hnext⟩
  constructor
  · intro hfirst hconnected hopen
    have hchange := senderChange_of_step hstep addr
    generalize w'.senders addr = s' at hchange hconnected
    cases hchange with
    | kept => cases hfirst.symm.trans hconnected
    | stepped hreturns hsub =>
      have hbusy := handlerThread_of_ack_ne hsub (by rw [hfirst, hconnected]; decide)
      have hknown := known_of_step (h.known addr hbusy) hstep
      have hrecord := hknown.resolve_right (Bool.eq_false_iff.mp hopen)
      obtain ⟨r, hr⟩ := Option.ne_none_iff_exists'.mp hrecord
      refine ⟨r, hr, nextFrag_of_first h.network hfirst ?_⟩
      rw [← receiver_of_sender_step hstep]
      exact hr
    | reopened hended => cases hconnected
  · intro dg hdg htype
    exact fragField_le_of_mem_inFlight hnext.network hdg htype

/-- The sender of an address disconnects, `handler` ends, and the next session opens. -/
def nextSession (addr : SockaddrIn) : List Action :=
  [.sender addr .mrtDisconnect, .sender addr (.mrtDisconnectContinue 0),
    .sender addr (.mrtDisconnectContinue 0), .sender addr (.mrtDisconnectContinue 0),
    .sender addr (.mrtDisconnectContinue 0), .receiver (.mainHandler addr rclsDatagram),
    .sender addr (.checker 0), .sender addr (.checker 0),
    .sender addr (.handlerRecvfrom aclsDatagram), .sender addr .handler,
    .sender addr (.sender 0), .sender addr .handler, .reopen addr]

/-- The sender of a connected address requests a connection again. -/
def reconnect (addr : SockaddrIn) : List Action :=
  [.sender addr .mrtConnect, .sender addr .mrtConnect, .receiver (.mainHandler addr rconDatagram),
    .sender addr (.handlerRecvfrom (aconDatagram 0)), .sender addr .handler,
    .sender addr .handler]

/-- The second session after one without data agrees with the receiver. -/
theorem agreesOnNumbering_second_session :
    Always step (fun w w' => ∀ addr, AgreesOnNumbering w w' addr) initial
      (handshake (loopback 4242) ++ nextSession (loopback 4242) ++ reconnect (loopback 4242)) :=
  agreesOnNumbering_of_meets (by decide +kernel) (by decide +kernel)

/-- A session with one fragment, and a second one at the same address. -/
def sessionAfterData : List Action :=
  sentAndAcknowledged ++ [.sender (loopback 4242) .handler] ++ nextSession (loopback 4242) ++
    reconnect (loopback 4242)

/-- When the second session is connected, the receiver still expects fragment 2. -/
theorem agreesOnNumbering_fails_after_data :
    ¬Always step (fun w w' => ∀ addr, AgreesOnNumbering w w' addr) initial sessionAfterData := by
  have hrun : someStep step (fun w w' => decide
      ((w.senders (loopback 4242)).conn.lastAcknowledgedFrag = -1 ∧
        (w'.senders (loopback 4242)).conn.lastAcknowledgedFrag = 0 ∧
        w'.receiver.closed = false ∧
        (w'.receiver.record (loopback 4242)).map Receiver.Sender.nextFrag = some 2)) initial
      sessionAfterData = true := by
    decide +kernel
  refine not_always_of_someStep (fun w w' htest hagrees => ?_) hrun
  obtain ⟨hfirst, hconnected, hopen, hnext⟩ := of_decide_eq_true htest
  obtain ⟨r, hrecord, hone⟩ := (hagrees (loopback 4242)).first_acon hfirst hconnected hopen
  rw [hrecord, Option.map_some, hone] at hnext
  cases hnext

end Network

end NetworkLabs.Mrt
