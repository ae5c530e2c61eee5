import NetworkLabs.Mrt.Progress

/-!
# Connecting can always be completed

A call of `mrt_connect` repeats its request until it finds the connection established, the
receiver acknowledges a request from an address that it knows and queues any other one, and
`mrt_accept1` takes the queued requests in their order. So as long as no `checker` flags the
connection, its call can return, whatever became of the requests and the `ACON` so far.
-/

namespace NetworkLabs.Mrt

open Foundations

namespace Receiver

/-! ### Requests -/

variable {s : State} {addr : SockaddrIn}

/-- An `ACON` was sent to an address, with whatever number. It may still be on its way. -/
def State.Acknowledged (s : State) (addr : SockaddrIn) : Prop :=
  ∃ frag, aconDatagram frag ∈ s.sentTo addr

/-- A request of an address is pending or taken, and not yet registered. -/
def State.Waits (s : State) (addr : SockaddrIn) : Prop := ∃ r ∈ s.waiting, r.addr = addr

/-- An open receiver handles a datagram that passes the validation by its type. -/
theorem step_of_dispatchedType (hopen : s.closed = false) (hclose : s.shouldClose = false)
    {dg : Datagram} {type : ℤ} (htype : dispatchedType s dg = some type) :
    step s (.mainHandler addr dg) =
      if type = mrtRcon then .ok (handleRcon (s.store dg) addr (dispatchedFrag s dg))
      else if type = mrtData then
        handleData (s.store dg) addr (stored dg).length (dispatchedFrag s dg)
      else if type = mrtRcls then .ok (handleRcls (s.store dg) addr)
      else .ok (s.store dg) := by
  unfold dispatchedType at htype
  dsimp only at htype
  split at htype
  · rename_i hvalid
    rw [step, if_neg (by simp [hopen]), mainHandler, if_neg (by simp [hclose])]
    dsimp only
    rw [if_pos hvalid, Option.some.inj htype]
    rfl
  · cases htype

/-- A transmission of an `ACON` acknowledges the request of its address. -/
theorem acknowledged_sendTo (s : State) (out : Memory Byte) (frag : ℤ) (addr : SockaddrIn) :
    (s.sendTo (buildAcon out frag) mrtHeaderLength addr).Acknowledged addr := by
  refine ⟨frag, ?_⟩
  rw [sentTo_sendTo, if_pos rfl]
  exact List.mem_append_right _ (by simp)

/-- A request is acknowledged at once, when its sender is connected already, or waits to be
accepted. -/
theorem handleRcon_answers (s : State) (addr : SockaddrIn) (frag : ℤ) :
    (handleRcon s addr frag).Acknowledged addr ∨ (handleRcon s addr frag).Waits addr := by
  unfold handleRcon
  cases hpending : getItemQ s.pendingSendersQ (senderMatcher addr) with
  | some r =>
    have hmatch : senderMatcher addr r = true := List.find?_some hpending
    exact Or.inr ⟨r, List.mem_append_left _ (List.mem_of_find?_eq_some hpending), eq_of_beq hmatch⟩
  | none =>
    cases hrecord : s.record addr with
    | none =>
      have hlast : newSender addr frag ∈ enqQ s.pendingSendersQ (newSender addr frag) :=
        List.mem_append_right _ (List.mem_singleton_self _)
      exact Or.inr ⟨newSender addr frag, List.mem_append_left _ hlast, rfl⟩
    | some r => exact Or.inl (acknowledged_sendTo s s.outgoingBuffer frag addr)

/-- The sections of `mrt_accept1`, of which the first may have to be taken again until a request
is pending. -/
def Accepts : Action → Prop
  | .mrtAccept1Dequeue | .mrtAccept1Enqueue _ => True
  | _ => False

/-- A request that waits can be accepted after those before it. -/
theorem State.Waits.canAccept (hwaits : s.Waits addr) (hopen : s.closed = false) :
    CanReach step Accepts (State.Acknowledged · addr) s := by
  refine canReach_of_measure (fun s => s.Waits addr ∧ s.closed = false)
    (fun s => s.pendingSendersQ.length) (fun s hs => ?_) ⟨hwaits, hopen⟩
  obtain ⟨⟨r, hr, haddr⟩, hopen⟩ := hs
  have hclosed : ¬s.closed = true := by simp [hopen]
  rcases List.mem_append.mp hr with hpending | htaken
  · cases hqueue : s.pendingSendersQ with
    | nil =>
      rw [hqueue] at hpending
      cases hpending
    | cons first queue =>
      have hstep : step s .mrtAccept1Dequeue =
          .ok { s with pendingSendersQ := queue, accepting := s.accepting ++ [first] } := by
        rw [step, if_neg hclosed, mrtAccept1Dequeue, hqueue]
        rfl
      have haccepts : Accepts .mrtAccept1Dequeue := trivial
      refine canReach_step haccepts hstep (canReach_now (Or.inr ?_))
      refine ⟨⟨⟨r, ?_, haddr⟩, hopen⟩, Nat.lt_succ_self _⟩
      rw [hqueue] at hpending
      rcases List.mem_cons.mp hpending with rfl | hlater
      · exact List.mem_append_right _ (List.mem_append_right _ (List.mem_singleton_self _))
      · exact List.mem_append_left _ hlater
  · obtain ⟨i, hi⟩ := List.getElem?_of_mem htaken
    have hstep : step s (.mrtAccept1Enqueue i) = .ok (mrtAccept1Enqueue s i) := by
      rw [step, if_neg hclosed]
    have haccepts : Accepts (.mrtAccept1Enqueue i) := trivial
    refine canReach_step haccepts hstep (canReach_now (Or.inl ?_))
    unfold mrtAccept1Enqueue
    rw [hi, ← haddr]
    exact acknowledged_sendTo _ _ _ _

end Receiver

namespace Sender

/-! ### The call of `mrt_connect` -/

variable {s : State}

/-- A section of `mrt_connect` that is not kept out by a lock, which happens only in the middle
of an `ADAT`. -/
theorem step_mrtConnect (hlive : s.live = true) (hidle : s.handlerThread = .recvfrom) :
    step s .mrtConnect = .ok (match s.connectCall with
      | .poll =>
        { s with
          connectCall := if s.conn.lastAcknowledgedFrag ≠ -1 then .returned else .sendRcon }
      | .sendRcon =>
        { s.sendTo (buildRcon s.conn.outgoingBuffer)
            (mrtHashLength + mrtTypeLength + mrtFragmentLength) with
          connectCall := .poll }
      | .returned => s) := by
  have hunlocked : s.receiverLockHeld = false := by rw [State.receiverLockHeld, hidle]
  rw [step, mrtConnect]
  cases s.connectCall with
  | poll =>
    dsimp only
    rw [State.lockReceiver, State.useConnection, if_pos hlive, hunlocked]
    rfl
  | sendRcon => exact if_pos hlive
  | returned => rfl

/-- The call can send a request before the connection is established. -/
theorem canRequest (hlive : s.live = true) (hidle : s.handlerThread = .recvfrom)
    (hfirst : s.conn.lastAcknowledgedFrag = -1) (hcall : s.connectCall ≠ .returned) :
    CanReach step (· = .mrtConnect)
      (fun t => rconDatagram ∈ t.outbox ∧ t.handlerThread = .recvfrom) s := by
  have hsend : ∀ t : State, t.live = true → t.handlerThread = .recvfrom →
      t.connectCall = .sendRcon → CanReach step (· = .mrtConnect)
        (fun t => rconDatagram ∈ t.outbox ∧ t.handlerThread = .recvfrom) t := by
    intro t hlive hidle hcall
    have hstep := step_mrtConnect hlive hidle
    rw [hcall] at hstep
    refine canReach_step rfl hstep (canReach_now ⟨?_, hidle⟩)
    exact List.mem_append_right _ (by simp)
  cases hposition : s.connectCall with
  | poll =>
    have hstep := step_mrtConnect hlive hidle
    rw [hposition, hfirst] at hstep
    exact canReach_step rfl hstep (hsend _ hlive hidle rfl)
  | sendRcon => exact hsend s hlive hidle hposition
  | returned => exact absurd hposition hcall

/-- The call can return when the connection is established, by its next test. -/
theorem canReturn (hlive : s.live = true) (hidle : s.handlerThread = .recvfrom)
    (hestablished : s.conn.lastAcknowledgedFrag ≠ -1) :
    CanReach step (· = .mrtConnect) (fun t => t.connectCall = .returned) s := by
  have hpoll : ∀ t : State, t.live = true → t.handlerThread = .recvfrom →
      t.conn.lastAcknowledgedFrag ≠ -1 → t.connectCall = .poll →
      CanReach step (· = .mrtConnect) (fun t => t.connectCall = .returned) t := by
    intro t hlive hidle hestablished hcall
    have hstep := step_mrtConnect hlive hidle
    rw [hcall] at hstep
    exact canReach_step rfl hstep (canReach_now (if_pos hestablished))
  cases hposition : s.connectCall with
  | poll => exact hpoll s hlive hidle hestablished hposition
  | sendRcon =>
    have hstep := step_mrtConnect hlive hidle
    rw [hposition] at hstep
    exact canReach_step rfl hstep (hpoll _ hlive hidle hestablished rfl)
  | returned => exact canReach_now hposition

/-- An `ACON` establishes the connection, whether it is the first one or not. -/
theorem handler_establishes (hthread : s.handlerThread = .acon) :
    ∃ s', step s .handler = .ok s' ∧ s'.handlerThread = .recvfrom ∧
      s'.conn.lastAcknowledgedFrag ≠ -1 := by
  rw [step, handler, hthread]
  refine ⟨_, rfl, ?_⟩
  unfold handleAcon
  split
  · exact ⟨rfl, show (0 : ℤ) ≠ -1 by decide⟩
  · rename_i hestablished
    exact ⟨rfl, hestablished⟩

end Sender

namespace Network

variable {w w' : World} {addr : SockaddrIn}

/-! ### Stages of connecting -/

/-- The sections that connect an address: of its call of `mrt_connect` and its `handler`, of
`main_handler` for its datagrams, and of calls of `mrt_accept1`. -/
def Connects (addr : SockaddrIn) : Action → Prop
  | .receiver (.mainHandler id _) => id = addr
  | .receiver act => Receiver.Accepts act
  | .sender id .mrtConnect | .sender id (.handlerRecvfrom _) | .sender id .handler => id = addr
  | _ => False

/-- Connecting is a reliable use, as `mrt_send` is not called and nothing is closed. -/
theorem reliableUse_of_connects {act : Action} (hact : Connects addr act) (w : World) :
    ReliableUse w act ∧ OnSender (Sender.OnSend Sender.SendsConnected) w act := by
  cases act with
  | receiver act =>
    cases act with
    | mainHandler _ _ | mrtAccept1Dequeue | mrtAccept1Enqueue _ => exact ⟨trivial, trivial⟩
    | _ => exact hact.elim
  | sender id act =>
    cases act with
    | mrtConnect | handlerRecvfrom _ | handler => exact ⟨trivial, trivial⟩
    | _ => exact hact.elim
  | reopen id => exact hact.elim

/-- Connecting does not flag the connection, as no `checker` is among these sections. -/
theorem Open.connects {act : Action} (h : Open w addr) (hact : Connects addr act)
    (hstep : step w act = .ok w') : Open w' addr := by
  obtain ⟨huse, hconnected⟩ := reliableUse_of_connects hact w
  refine h.kept huse hconnected (fun i hi => ?_) hstep
  subst hi
  exact hact

/-- What connecting can reach, it can reach without flagging the connection. -/
theorem Open.canReach {goal : World → Prop} (h : Open w addr)
    (hgoal : CanReach step (Connects addr) goal w) :
    CanReach step (Connects addr) (fun t => Open t addr ∧ goal t) w :=
  hgoal.keeping (fun _ _ _ ht hact hstep => ht.connects hact hstep) h

/-- What the call of `mrt_connect` can reach alone, it can reach in the network. -/
theorem canReach_mrtConnect {goal : Sender.State → Prop}
    (h : CanReach Sender.step (· = .mrtConnect) goal (w.senders addr)) :
    CanReach step (Connects addr) (fun t => ∃ s, goal s ∧ t = w.setSender addr s) w := by
  refine (canReach_sender (fun act hact s => ?_) h).mono (fun act hact => ?_) fun t ht => ht
  · subst hact
    trivial
  · obtain ⟨act, rfl, rfl⟩ := hact
    rfl

/-- What calls of `mrt_accept1` can reach alone, they can reach in the network. -/
theorem canReach_accepts {goal : Receiver.State → Prop}
    (h : CanReach Receiver.step Receiver.Accepts goal w.receiver) :
    CanReach step (Connects addr)
      (fun t => ∃ r, goal r ∧ t = { w with receiver := r }) w := by
  refine h.embed (fun r => { w with receiver := r }) Action.receiver (fun act hact => ?_)
    (fun r act r' hact hstep => ?_)
  · cases act with
    | mrtAccept1Dequeue | mrtAccept1Enqueue _ => trivial
    | _ => exact hact.elim
  · cases act with
    | mrtAccept1Dequeue | mrtAccept1Enqueue _ => exact step_receiver trivial hstep
    | _ => exact hact.elim

/-- A request in flight can be acknowledged. It is handled, taken with those before it, and
registered. -/
theorem Open.accepts (h : Open w addr) (hrcon : rconDatagram ∈ (w.senders addr).outbox) :
    CanReach step (Connects addr)
      (fun t => t.senders = w.senders ∧ t.receiver.Acknowledged addr) w := by
  have hopen := h.holds.reliable.isOpen
  have hstep : step w (.receiver (.mainHandler addr rconDatagram)) = .ok _ :=
    step_receiver hrcon
      (Receiver.step_of_dispatchedType hopen.closed_eq hopen.shouldClose_eq
        (dispatchedType_rcon w.receiver))
  have hconnects : Connects addr (.receiver (.mainHandler addr rconDatagram)) := rfl
  have hnext := (h.connects hconnects hstep).holds.reliable.isOpen
  refine canReach_step hconnects hstep ?_
  rcases Receiver.handleRcon_answers _ addr _ with hacknowledged | hwaits
  · exact canReach_now ⟨rfl, hacknowledged⟩
  · refine (canReach_accepts (hwaits.canAccept hnext.closed_eq)).mono (fun _ => id) ?_
    rintro t ⟨r, hr, rfl⟩
    exact ⟨rfl, hr⟩

/-- An `ACON` in flight can establish the connection, when `handler` has received and handled
it. -/
theorem Open.establishes (h : Open w addr) (hidle : (w.senders addr).handlerThread = .recvfrom)
    (hacknowledged : w.receiver.Acknowledged addr) : CanReach step (Connects addr)
      (fun t => (t.senders addr).handlerThread = .recvfrom ∧
        (t.senders addr).conn.lastAcknowledgedFrag ≠ -1) w := by
  obtain ⟨frag, hfrag⟩ := hacknowledged
  have hflight : aconDatagram frag ∈ w.inFlight addr := by
    rw [World.inFlight, h.holds.first, List.drop_zero]
    exact hfrag
  obtain ⟨s₁, hs₁, hthread⟩ := Sender.handler_dispatches hidle h.unflagged (aconDatagram frag)
  rw [dispatch_acon] at hthread
  obtain ⟨s₂, hs₂, hidle', hestablished⟩ := Sender.handler_establishes hthread
  have hreceives : Connects addr (.sender addr (.handlerRecvfrom (aconDatagram frag))) := rfl
  have hhandles : Connects addr (.sender addr .handler) := rfl
  refine canReach_step hreceives (step_sender hflight rfl)
    (canReach_step hhandles (step_setSender trivial hs₁)
      (canReach_step hhandles (step_setSender trivial hs₂) (canReach_now ?_)))
  rw [setSender_self]
  exact ⟨hidle', hestablished⟩

/-- The connection of an address is established, its call of `mrt_connect` has returned, and
the receiver has accepted it. -/
structure Establishes (addr : SockaddrIn) (t : World) : Prop where
  returned : (t.senders addr).connectCall = .returned
  established : (t.senders addr).conn.lastAcknowledgedFrag ≠ -1
  runs : Sender.EstablishedRuns (t.senders addr)
  accepted : t.receiver.record addr ≠ none
  unflagged : (t.senders addr).conn.shouldClose = false

/-- The call of `mrt_connect` for an established connection can return. -/
theorem InUse.returns (h : InUse w addr) (hidle : (w.senders addr).handlerThread = .recvfrom) :
    CanReach step (Connects addr) (Establishes addr) w := by
  have hreturn := Sender.canReturn h.live hidle h.established
  refine (h.toOpen.canReach (canReach_mrtConnect hreturn)).mono (fun _ => id) ?_
  rintro t ⟨ht, s, hs, rfl⟩
  have hreturned : ((w.setSender addr s).senders addr).connectCall = .returned := by
    rw [setSender_self]
    exact hs
  have hthreads := ht.holds.threads addr
  have hestablished := hthreads.returned hreturned
  obtain ⟨r, hrecord, -⟩ := InUse.record ⟨ht, hestablished⟩
  exact ⟨hreturned, hestablished, hthreads.establishedRuns, by simp [hrecord], ht.unflagged⟩

/-- A connection that is not flagged can be connected, in the stages above. -/
theorem Open.connected (h : Open w addr) :
    CanReach step (Connects addr) (Establishes addr) w := by
  have hsettles : CanReach step (Connects addr)
      (fun t => Open t addr ∧ (t.senders addr).handlerThread = .recvfrom) w := by
    refine h.settles.mono (fun act hact => ?_) fun t ht => ⟨ht.1, ht.2.2⟩
    subst hact
    rfl
  refine hsettles.trans ?_
  rintro t ⟨ht, hidle⟩
  by_cases hfirst : (t.senders addr).conn.lastAcknowledgedFrag = -1
  · have hcall : (t.senders addr).connectCall ≠ .returned := fun hreturned =>
      (ht.holds.threads addr).returned hreturned hfirst
    have hrequest := Sender.canRequest ht.live hidle hfirst hcall
    refine (ht.canReach (canReach_mrtConnect hrequest)).trans ?_
    rintro u ⟨hu, s, ⟨hrcon, hidle⟩, rfl⟩
    rw [← setSender_self t addr s] at hrcon hidle
    refine (hu.canReach (hu.accepts hrcon)).trans ?_
    rintro v ⟨hv, hsenders, hacknowledged⟩
    rw [← hsenders] at hidle
    refine (hv.canReach (hv.establishes hidle hacknowledged)).trans ?_
    rintro x ⟨hx, hidle, hestablished⟩
    exact InUse.returns ⟨hx, hestablished⟩ hidle
  · exact InUse.returns ⟨ht, hfirst⟩ hidle

/-- From every state that a reliable use can reach, the connection of an address that is not
flagged to close can be established: further sections of its call of `mrt_connect`, its
`handler`, `main_handler` and `mrt_accept1` alone can make the call return. -/
theorem connects_of_run {acts : List Action} (huse : Meets step ReliableUse initial acts)
    (hconnected : Meets step (OnSender (Sender.OnSend Sender.SendsConnected)) initial acts)
    (hrun : run step initial acts = .ok w)
    (hopen : (w.senders addr).conn.shouldClose = false) :
    CanReach step (Connects addr) (Establishes addr) w := by
  have hholds := invariant_of_run
    (fun w act w' h hcondition hstep => connectionsHold_step h hcondition.1 hcondition.2 hstep)
    connectionsHold_initial (huse.and hconnected) hrun
  exact Open.connected ⟨hholds, hopen⟩

/-- Two senders have sent requests, and only the one of the other address has come through. -/
def requestLost : List Action :=
  [.sender (loopback 4242) .mrtConnect, .sender (loopback 4242) .mrtConnect,
    .sender (loopback 4243) .mrtConnect, .sender (loopback 4243) .mrtConnect,
    .receiver (.mainHandler (loopback 4243) rconDatagram)]

/-- The first one can still be connected, as it sends its request again. -/
theorem connects_after_loss : ∃ w, run step initial requestLost = .ok w ∧
    w.receiver.record (loopback 4242) = none ∧
    w.receiver.pendingSendersQ.map Receiver.Sender.addr = [loopback 4243] ∧
    CanReach step (Connects (loopback 4242)) (Establishes (loopback 4242)) w := by
  have hrun : endsWith (run step initial requestLost) (fun w =>
      (w.receiver.record (loopback 4242)).isNone && decide
        (w.receiver.pendingSendersQ.map Receiver.Sender.addr = [loopback 4243] ∧
          (w.senders (loopback 4242)).conn.shouldClose = false)) = true := by
    decide +kernel
  obtain ⟨w, hw, htest⟩ := exists_of_endsWith hrun
  obtain ⟨hnone, htest⟩ := Bool.and_eq_true_iff.mp htest
  obtain ⟨hpending, hopen⟩ := of_decide_eq_true htest
  exact ⟨w, hw, Option.isNone_iff_eq_none.mp hnone, hpending,
    connects_of_run (by decide +kernel) (by decide +kernel) hw hopen⟩

end Network

end NetworkLabs.Mrt
