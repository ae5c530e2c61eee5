import NetworkLabs.Mrt.Connecting
import NetworkLabs.Mrt.Drop

/-!
# A graceful close can always be completed

When everything is acknowledged a call of `mrt_disconnect` can return, the receiver answers
its `RCLS` and the next tick of the receiver's `checker` ends the stream. The `checker` of the
connection sets the flag, with which its `sender` and then its `handler` end, so that the
connection is removed and freed and nothing of it is left.
-/

namespace NetworkLabs.Mrt

open Foundations

namespace Sender

variable {s₀ s s' : State}

/-! ### A connection at rest -/

/-- Everything is acknowledged and `handler` waits; the calls of `mrt_send` are where they were
in a state. -/
structure Rests (s₀ s : State) : Prop where
  usable : Usable s
  threads : ThreadsMatch s
  established : s.conn.lastAcknowledgedFrag ≠ -1
  registered : s.registered = true
  live : s.live = true
  idle : s.handlerThread = .recvfrom
  empty : s.conn.lastPayloadIndex = -1
  sendCall : s.sendCall = s₀.sendCall
  submitted : s.submitted = s₀.submitted

/-- The sections of `mrt_disconnect`, `checker` and `sender`, which need nothing from the
receiver. -/
def Retires : Action → Prop
  | .mrtDisconnect | .mrtDisconnectContinue _ | .checker _ | .sender _ => True
  | _ => False

/-- They leave the connection at rest. What they send or count is no part of this. -/
theorem Rests.step {act : Action} (h : Rests s₀ s) (hact : Retires act)
    (hstep : Sender.step s act = .ok s') : Rests s₀ s' := by
  have husable := usable_step h.usable hstep
  have hcondition : OnHandler KeepsFlag s act := by
    cases act with
    | handler => exact hact.elim
    | _ => trivial
  have hthreads := threadsMatch_step h.threads hcondition hstep
  cases effect_of_step hstep with
  | idle => exact h
  | disconnecting | disconnectMoved _ | sentRcls | requestedClose | senderMoved _ _ | reset _ _
  | sentPayload _ _ _ _ | sentEmpty _ _ | ticked _ | flagged _ =>
    exact ⟨husable, hthreads, h.established, h.registered, h.live, h.idle, h.empty, h.sendCall,
      h.submitted⟩
  | _ => exact hact.elim

/-- It has one `sender` thread, which the first `ACON` has started. -/
theorem Rests.oneSender (h : Rests s₀ s) : ∃ th, s.senderThreads = [th] := by
  have hsenders := h.threads.senders
  rw [Connection.threadsDue, if_neg h.established] at hsenders
  exact List.length_eq_one_iff.mp hsenders

/-- And one `checker` thread, for the same reason. -/
theorem Rests.oneChecker (h : Rests s₀ s) : ∃ th, s.checkerThreads = [th] := by
  have hcheckers := h.threads.checkers
  rw [Connection.threadsDue, if_neg h.established] at hcheckers
  exact List.length_eq_one_iff.mp hcheckers

/-! ### Calls of `mrt_disconnect` -/

/-- The sections of a call before it returns, when the buffer is empty. -/
def DisconnectCall.untilReturned : DisconnectCall → ℕ
  | .lookup => 4
  | .bufferCheck => 3
  | .sendRcls => 2
  | .setInactive => 1
  | .returned => 0

/-- A call will still send an `RCLS`, as it has not come to the setting of the counter. -/
def DisconnectCall.WillRequest (call : DisconnectCall) : Prop := 1 < call.untilReturned

/-- An `RCLS` was sent, or will be. So the receiver can learn that the sender is done. -/
def State.Informs (s : State) : Prop :=
  rclsDatagram ∈ s.outbox ∨ ∃ call ∈ s.disconnectCalls, call.WillRequest

/-- The sections of all calls before they return, when they find an empty buffer. -/
def State.untilDisconnected (s : State) : ℕ :=
  (s.disconnectCalls.map DisconnectCall.untilReturned).sum

/-- What a section of a call has done: it has taken this call on and left the others where they
are. -/
structure Disconnects (s : State) (i : ℕ) (call : DisconnectCall) (s' : State) : Prop where
  moved : ∃ call', s'.disconnectCalls = s.disconnectCalls.set i call' ∧
    call'.untilReturned < call.untilReturned ∧
    (call.WillRequest → call'.WillRequest ∨ rclsDatagram ∈ s'.outbox)
  outbox : ∀ dg ∈ s.outbox, dg ∈ s'.outbox

/-- A call that has not returned goes on, as a connection at rest is registered, live
and empty. -/
theorem Rests.disconnects (h : Rests s₀ s) {i : ℕ} {call : DisconnectCall}
    (hcall : s.disconnectCalls[i]? = some call) (hruns : call ≠ .returned) :
    ∃ s', Sender.step s (.mrtDisconnectContinue i) = .ok s' ∧ Disconnects s i call s' := by
  rw [Sender.step, mrtDisconnectContinue, hcall]
  dsimp only
  cases call with
  | lookup =>
    rw [disconnectSection, h.registered]
    exact ⟨_, rfl, ⟨.bufferCheck, rfl, Nat.lt_succ_self 3, fun _ => Or.inl (Nat.lt_add_left 1
      (Nat.lt_succ_self 1))⟩, fun _ => id⟩
  | bufferCheck =>
    rw [disconnectSection, State.useConnection, if_pos h.live, h.empty]
    exact ⟨_, rfl, ⟨.sendRcls, rfl, Nat.lt_succ_self 2, fun _ => Or.inl (Nat.lt_succ_self 1)⟩,
      fun _ => id⟩
  | sendRcls =>
    refine ⟨_, if_pos h.live, ⟨.setInactive, rfl, Nat.lt_succ_self 1, fun _ => Or.inr ?_⟩, ?_⟩
    · exact List.mem_append_right _ (by simp)
    · exact fun dg hdg => List.mem_append_left _ hdg
  | setInactive =>
    refine ⟨_, if_pos h.live, ⟨.returned, rfl, Nat.zero_lt_one, fun hwill => ?_⟩, fun _ => id⟩
    exact absurd hwill (Nat.lt_irrefl 1)
  | returned => exact absurd rfl hruns

/-- A section of a call does not lose its `RCLS`. -/
theorem Disconnects.informs {i : ℕ} {call : DisconnectCall} (h : Disconnects s i call s')
    (hcall : s.disconnectCalls[i]? = some call) (hinforms : s.Informs) : s'.Informs := by
  obtain ⟨call', hmoved, -, hwill⟩ := h.moved
  have hi : i < s.disconnectCalls.length := (List.getElem?_eq_some_iff.mp hcall).1
  rcases hinforms with hsent | ⟨other, hother, hrequest⟩
  · exact Or.inl (h.outbox _ hsent)
  · obtain ⟨k, hk⟩ := List.getElem?_of_mem hother
    by_cases hsame : i = k
    · subst hsame
      rw [hcall] at hk
      cases hk
      refine (hwill hrequest).symm.imp_right fun hlater => ⟨call', ?_, hlater⟩
      rw [hmoved]
      exact List.mem_of_getElem? (List.getElem?_set_self hi)
    · refine Or.inr ⟨other, ?_, hrequest⟩
      rw [hmoved]
      exact List.mem_of_getElem? ((List.getElem?_set_ne hsame).trans hk)

/-- All calls can return, when one more call is made, and an `RCLS` was sent then. -/
theorem Rests.canDisconnect (h : Rests s₀ s) : CanReach Sender.step Retires
    (fun t => Rests s₀ t ∧ (∀ call ∈ t.disconnectCalls, call = .returned) ∧
      rclsDatagram ∈ t.outbox) s := by
  have hcalls : Retires .mrtDisconnect := trivial
  refine canReach_step hcalls rfl (canReach_of_measure (fun t => Rests s₀ t ∧ t.Informs)
    State.untilDisconnected (fun t ht => ?_) ⟨h.step hcalls rfl, Or.inr ⟨.lookup, ?_, ?_⟩⟩)
  · obtain ⟨hrests, hinforms⟩ := ht
    by_cases hall : ∀ call ∈ t.disconnectCalls, call = .returned
    · refine canReach_now (Or.inl ⟨hrests, hall, hinforms.resolve_right ?_⟩)
      rintro ⟨call, hcall, hwill⟩
      rw [hall call hcall] at hwill
      exact Nat.not_lt_zero _ hwill
    · push Not at hall
      obtain ⟨call, hmem, hruns⟩ := hall
      obtain ⟨i, hi⟩ := List.getElem?_of_mem hmem
      obtain ⟨t', hstep, hdisconnects⟩ := hrests.disconnects hi hruns
      obtain ⟨call', hmoved, hless, -⟩ := hdisconnects.moved
      have hcontinues : Retires (.mrtDisconnectContinue i) := trivial
      refine canReach_step hcontinues hstep (canReach_now (Or.inr ⟨⟨hrests.step hcontinues hstep,
        hdisconnects.informs hi hinforms⟩, ?_⟩))
      rw [State.untilDisconnected, hmoved]
      exact sum_map_set_lt hi hless
  · exact List.mem_append_right _ (List.mem_singleton_self _)
  · exact Nat.lt_add_left 2 (Nat.lt_succ_self 1)

/-! ### The end of the threads -/

/-- The sections of `checker` and `sender`, which come to the end of their loops when the
counter is above the threshold. -/
def Ends : Action → Prop
  | .checker _ | .sender _ => True
  | _ => False

/-- These sections are among those that leave the connection at rest. -/
theorem Ends.retires {act : Action} (hact : Ends act) : Retires act := by
  cases act with
  | checker _ | sender _ => trivial
  | _ => exact hact.elim

/-- They leave the calls of `mrt_disconnect` alone, so that these have returned when the threads
end. -/
theorem disconnectCalls_of_ends {act : Action} (hact : Ends act)
    (hstep : Sender.step s act = .ok s') : s'.disconnectCalls = s.disconnectCalls := by
  cases effect_of_step hstep with
  | disconnecting | disconnectMoved _ | sentRcls | requestedClose => exact hact.elim
  | _ => rfl

/-- The sections of `checker` before it ends, of which each adds to `inactive_time`. -/
def State.untilFlagged (s : State) : ℕ :=
  match s.checkerThreads with
  | .tick :: _ => (closeTimeoutThreshold - s.conn.inactiveTime).toNat + 2
  | .setClose :: _ => 1
  | _ => 0

/-- The `checker` of a connection that is left alone sets the flag. -/
theorem Rests.canFlag (h : Rests s₀ s) : CanReach Sender.step Ends
    (fun t => (Rests s₀ t ∧ t.disconnectCalls = s.disconnectCalls) ∧
      t.conn.shouldClose = true ∧ ∀ th ∈ t.checkerThreads, th = .ended) s := by
  refine canReach_of_measure
    (fun t => Rests s₀ t ∧ t.disconnectCalls = s.disconnectCalls) State.untilFlagged
    (fun t ht => ?_) ⟨h, rfl⟩
  obtain ⟨hrests, hcalls⟩ := ht
  obtain ⟨th, hth⟩ := hrests.oneChecker
  have hends : Ends (.checker 0) := trivial
  have hkept : ∀ t', Sender.step t (.checker 0) = .ok t' →
      Rests s₀ t' ∧ t'.disconnectCalls = s.disconnectCalls := fun t' hstep =>
    ⟨hrests.step hends.retires hstep, (disconnectCalls_of_ends hends hstep).trans hcalls⟩
  cases th with
  | tick =>
    obtain ⟨t', hstep, hnext⟩ : ∃ t', Sender.step t (.checker 0) = .ok t' ∧
        t'.untilFlagged < t.untilFlagged := by
      rw [Sender.step, checker, hth]
      refine ⟨_, if_pos hrests.live, ?_⟩
      simp only [State.untilFlagged, hth, List.set_cons_zero]
      by_cases hover : closeTimeoutThreshold < t.conn.inactiveTime + closeTimeoutIncrement
      · rw [if_pos hover]
        exact Nat.lt_add_left _ (Nat.lt_succ_self 1)
      · rw [if_neg hover]
        simp only [closeTimeoutThreshold, closeTimeoutIncrement, emptyDataPeriod, expectedRtt]
          at hover ⊢
        omega
    exact canReach_step hends hstep (canReach_now (Or.inr ⟨hkept t' hstep, hnext⟩))
  | setClose =>
    obtain ⟨t', hstep, hclose, hended⟩ : ∃ t', Sender.step t (.checker 0) = .ok t' ∧
        t'.conn.shouldClose = true ∧ t'.checkerThreads = [.ended] := by
      rw [Sender.step, checker, hth]
      exact ⟨_, if_pos hrests.live, rfl, rfl⟩
    refine canReach_step hends hstep (canReach_now (Or.inl ⟨hkept t' hstep, hclose, ?_⟩))
    rw [hended]
    exact fun th hmem => List.mem_singleton.mp hmem
  | ended =>
    have hclose := hrests.usable.checker_ended (by rw [hth]; exact List.mem_singleton_self _)
    refine canReach_now (Or.inl ⟨⟨hrests, hcalls⟩, hclose, ?_⟩)
    rw [hth]
    exact fun th hmem => List.mem_singleton.mp hmem

/-- The sections of a `sender` thread before it ends, when the flag is set. -/
def SenderPosition.untilEnded : SenderPosition → ℕ
  | .select => 3
  | .sendEmpty => 2
  | .closeCheck => 1
  | .ended => 0

/-- A section of a `sender` thread leaves the other threads and the flag alone. -/
theorem frame_of_sender {i : ℕ} (hstep : Sender.step s (.sender i) = .ok s') :
    s'.checkerThreads = s.checkerThreads ∧ s'.conn.shouldClose = s.conn.shouldClose := by
  cases effect_of_step hstep <;> exact ⟨rfl, rfl⟩

/-- A connection at rest has nothing to send, so that its `sender` sends empty `DATA` only. -/
theorem Rests.mustWait (h : Rests s₀ s) : s.conn.mustWait = true := by
  have hindex := h.usable.steady.index_lo
  refine Bool.or_eq_true_iff.mpr (Or.inr (decide_eq_true ?_))
  rw [h.empty, Connection.nextPayloadIndex]
  omega

/-- The `sender` of a flagged connection comes closer to its end. -/
theorem Rests.sender_closer (h : Rests s₀ s) (hclose : s.conn.shouldClose = true)
    {th : SenderThread} (hth : s.senderThreads = [th]) (hruns : th.position ≠ .ended) :
    ∃ s' th', Sender.step s (.sender 0) = .ok s' ∧ s'.senderThreads = [th'] ∧
      th'.position.untilEnded < th.position.untilEnded := by
  obtain ⟨position, resendTime⟩ := th
  have hfirst : s.senderThreads[0]? = some ⟨position, resendTime⟩ := by rw [hth]; rfl
  rw [Sender.step, sender, hfirst]
  cases position with
  | closeCheck =>
    refine ⟨_, ⟨.ended, resendTime⟩, if_pos h.live, ?_, Nat.zero_lt_one⟩
    rw [State.setSender_senderThreads, hth, hclose]
    rfl
  | select =>
    have hunlocked : s.receiverLockHeld = false := by rw [State.receiverLockHeld, h.idle]
    obtain ⟨-, time, hwaits⟩ := senderWait_spec s (List.getElem?_eq_some_iff.mp hfirst).1 resendTime
    refine ⟨senderWait s 0 resendTime, ⟨.sendEmpty, time⟩, ?_, ?_, Nat.lt_succ_self 2⟩
    · dsimp only
      rw [State.lockReceiver, State.useConnection, if_pos h.live, hunlocked, h.mustWait]
      rfl
    · have hlength : (senderWait s 0 resendTime).senderThreads.length = 1 := by
        unfold senderWait
        split
        · split <;> simp [hth]
        · simp [hth]
      obtain ⟨th', hth'⟩ := List.length_eq_one_iff.mp hlength
      rw [hth'] at hwaits ⊢
      cases hwaits
      rfl
  | sendEmpty =>
    refine ⟨_, ⟨.closeCheck, resendTime⟩, if_pos h.live, ?_, Nat.lt_succ_self 1⟩
    rw [State.sendTo_senderThreads, State.setSender_senderThreads, hth]
    rfl
  | ended => exact absurd rfl hruns

/-- The threads of the connection but `handler` have ended, which is what its clean-up waits
for. -/
structure Ended (s : State) : Prop where
  shouldClose : s.conn.shouldClose = true
  checkers : ∀ th ∈ s.checkerThreads, th = .ended
  senders : ∀ th ∈ s.senderThreads, th.position = .ended

/-- The threads of a connection that is left alone can end. -/
theorem Rests.canEnd (h : Rests s₀ s) : CanReach Sender.step Ends
    (fun t => (Rests s₀ t ∧ t.disconnectCalls = s.disconnectCalls) ∧ Ended t) s := by
  refine h.canFlag.trans fun t ht => ?_
  refine canReach_of_measure
    (fun t => (Rests s₀ t ∧ t.disconnectCalls = s.disconnectCalls) ∧
      t.conn.shouldClose = true ∧ ∀ th ∈ t.checkerThreads, th = .ended)
    (fun t => (t.position 0).untilEnded) (fun t ht => ?_) ht
  obtain ⟨⟨hrests, hcalls⟩, hclose, hcheckers⟩ := ht
  obtain ⟨th, hth⟩ := hrests.oneSender
  by_cases hended : th.position = .ended
  · refine canReach_now (Or.inl ⟨⟨hrests, hcalls⟩, hclose, hcheckers, ?_⟩)
    rw [hth]
    intro th' hmem
    rw [List.mem_singleton.mp hmem, hended]
  · obtain ⟨t', th', hstep, hth', hless⟩ := hrests.sender_closer hclose hth hended
    obtain ⟨hcheckers', hclose'⟩ := frame_of_sender hstep
    have hends : Ends (.sender 0) := trivial
    refine canReach_step hends hstep (canReach_now (Or.inr ⟨⟨⟨hrests.step hends.retires hstep, ?_⟩,
      hclose'.trans hclose, ?_⟩, ?_⟩))
    · exact (disconnectCalls_of_ends hends hstep).trans hcalls
    · rw [hcheckers']
      exact hcheckers
    · rw [State.position, State.position, hth, hth']
      exact hless

/-- `handler` frees the connection when the other threads have ended and one more datagram
comes in. -/
theorem Rests.frees (h : Rests s₀ s) (hended : Ended s) (dg : Datagram) : ∃ s₁ s₂ incoming,
    Sender.step (handlerRecvfrom s dg) .handler = .ok s₁ ∧ Sender.step s₁ .handler = .ok s₂ ∧
      s₂ = { s with
        conn := { s.conn with incomingBuffer := incoming }
        registered := false
        live := false
        handlerThread := .ended } := by
  have hjoined : s.joined = true := by
    have hlast {α : Type} {p : α → Bool} {xs : List α} (hall : ∀ x ∈ xs, p x = true) :
        xs.getLast?.all p = true := by
      cases hlast : xs.getLast? with
      | none => rfl
      | some x => exact hall x (List.mem_of_getLast? hlast)
    rw [State.joined, Bool.and_eq_true]
    exact ⟨hlast fun th hth => beq_iff_eq.mpr (hended.checkers th hth),
      hlast fun th hth => beq_iff_eq.mpr (hended.senders th hth)⟩
  have hreceived : handlerRecvfrom s dg = { s with
      conn := { s.conn with
        incomingBuffer := receiveInto s.conn.incomingBuffer (dg.take mrtHeaderLength) }
      handlerThread := .closeCheck } := by
    rw [handlerRecvfrom, h.idle]
  rw [hreceived]
  refine ⟨_, _, receiveInto s.conn.incomingBuffer (dg.take mrtHeaderLength), rfl, ?_, rfl⟩
  rw [Sender.step, handler, hended.shouldClose]
  exact if_pos hjoined

end Sender

namespace Receiver

variable {s s' : State} {addr : SockaddrIn} {r : Sender}

/-! ### The end of the stream -/

/-- The `checker` of the record of an address runs, so that the receiver has not dropped the
connection. -/
def State.Checks (s : State) (addr : SockaddrIn) : Prop :=
  ∃ r, s.record addr = some r ∧ r.checkerThread = .running

/-- It runs on while no `checker` ticks, whatever datagrams are handled and bytes are read. -/
theorem State.Checks.step {act : Action} (h : s.Checks addr) (hopen : OpenAndFit s)
    (huse : OpenUse act) (hact : ∀ i, act ≠ .checker i)
    (hstep : Receiver.step s act = .ok s') : s'.Checks addr := by
  obtain ⟨r, hr, hrunning⟩ := h
  have hopen' : (s'.view addr).closed = false := (openAndFit_step hopen huse hstep).closed_eq
  have hkept : ∃ r, (s'.view addr).record = some r ∧ r.checkerThread = .running := by
    have heffect := addressEffect_of_step hstep addr
    generalize s'.view addr = v at heffect hopen' ⊢
    cases heffect with
    | kept => exact ⟨r, hr, hrunning⟩
    | ticked hrecord => exact absurd rfl (hact _)
    | registered hopen hrecord hwaits haddr => cases hrecord.symm.trans hr
    | acknowledged frag hrecord => exact ⟨r, hr, hrunning⟩
    | refused hclose htype hrecord hadmits =>
      cases hrecord.symm.trans hr
      exact ⟨_, rfl, hrunning⟩
    | buffered hclose htype hrecord hadmits hbounds =>
      cases hrecord.symm.trans hr
      exact ⟨_, rfl, hrunning⟩
    | disconnected hclose htype hrecord =>
      cases hrecord.symm.trans hr
      exact ⟨_, rfl, hrunning⟩
    | consumed hrecord hunread hbounds =>
      cases hrecord.symm.trans hr
      exact ⟨_, rfl, (consume_inactive r _).2.trans hrunning⟩
    | cleaned => cases hopen'
  exact hkept

/-- What an `RCLS` means for the record of its sender. -/
theorem view_handleRcls (hrecord : s.record addr = some r) : (handleRcls s addr).view addr =
    { s.view addr with
      record := some { r with inactiveTime := timeoutThreshold }
      sent := s.sentTo addr ++ [aclsDatagram] } := by
  unfold handleRcls
  rw [hrecord]
  ext1
  case record =>
    exact record_updateRecord_self (f := fun r => { r with inactiveTime := timeoutThreshold })
      (fun _ => rfl) hrecord
  case sent => simp [sentTo_sendTo]; rfl
  all_goals rfl

/-- Some `checker` ticks for the record of an address, as each connected record has one. -/
theorem exists_checker (hrecord : s.record addr = some r) :
    ∃ i, (checker s i).view addr = { s.view addr with record := some r.tick } := by
  have hmatch : ∀ r, senderMatcher addr (Sender.tick r) = senderMatcher addr r := by
    simp [senderMatcher]
  obtain ⟨i, hi⟩ := exists_find?_modify hmatch s.connectedSendersQ
  refine ⟨i, ?_⟩
  ext1
  case record => exact hi.trans (congrArg _ hrecord)
  all_goals rfl

/-- A tick after an `RCLS` drops the connection, since the `RCLS` has set the counter to the
threshold. -/
theorem inactiveTime_tick (hrunning : r.checkerThread = .running)
    (hinactive : r.inactiveTime = timeoutThreshold) :
    timeoutThreshold < r.tick.inactiveTime := by
  rw [Sender.tick, if_pos hrunning, hinactive]
  exact show timeoutThreshold < timeoutThreshold + checkerPeriod by decide

/-- The receiver answers an `RCLS`, and the next tick of its `checker` ends the stream. -/
theorem ends_of_rcls (hopen : OpenAndFit s) (hrecord : s.record addr = some r)
    (hrunning : r.checkerThread = .running) (hempty : r.bytesUnread = 0) : ∃ s₁ s₂ i,
      step s (.mainHandler addr rclsDatagram) = .ok s₁ ∧ step s₁ (.checker i) = .ok s₂ ∧
        aclsDatagram ∈ s₂.sentTo addr ∧ s₂.returnedBytes addr = s.returnedBytes addr ∧
          ∀ len, mrtReceive1 s₂ addr len = .ok (s₂, .returns []) := by
  have hanswer : step s (.mainHandler addr rclsDatagram) =
      .ok (handleRcls (s.store rclsDatagram) addr) :=
    step_of_dispatchedType hopen.closed_eq hopen.shouldClose_eq (dispatchedType_rcls s)
  have hview := view_handleRcls (s := s.store rclsDatagram) hrecord
  have hdropped := congrArg View.record hview
  have hsent : (handleRcls (s.store rclsDatagram) addr).sentTo addr = _ :=
    congrArg View.sent hview
  have hreturned : (handleRcls (s.store rclsDatagram) addr).returnedBytes addr = _ :=
    congrArg View.returnedBytes hview
  have hclosed : (handleRcls (s.store rclsDatagram) addr).closed = false :=
    (congrArg View.closed hview).trans hopen.closed_eq
  obtain ⟨i, hticked⟩ := exists_checker hdropped
  have hrecord' := congrArg View.record hticked
  refine ⟨_, _, i, hanswer, if_neg (Bool.eq_false_iff.mp hclosed), ?_, hreturned, fun len => ?_⟩
  · rw [show (checker _ i).sentTo addr = _ from hsent]
    exact List.mem_append_right _ (List.mem_singleton_self _)
  · refine mrtReceive1_of_inactive hrecord' ?_ (inactiveTime_tick hrunning rfl)
    unfold Sender.tick
    split <;> exact Int.le_of_eq hempty

end Receiver

namespace Network

variable {w w' t : World} {addr : SockaddrIn}

/-! ### Stages of a close -/

/-- The sections of a graceful close: those that send, those of calls of `mrt_disconnect` and
of the `checker` of the connection, and the ticks of the `checker` threads of the receiver. -/
def Closes (addr : SockaddrIn) (act : Action) : Prop :=
  Sends addr act ∨ (∃ a, Sender.Retires a ∧ act = .sender addr a) ∨
    ∃ i, act = .receiver (.checker i)

/-- What the threads of a connection at rest can reach alone, they can reach in the network. -/
theorem canReach_retires {goal : Sender.State → Prop}
    (h : CanReach Sender.step Sender.Retires goal (w.senders addr)) :
    CanReach step (Closes addr) (fun t => ∃ s, goal s ∧ t = w.setSender addr s) w := by
  refine (canReach_sender (fun act hact s => ?_) h).mono
    (fun _ hact => Or.inr (Or.inl hact)) fun _ => id
  cases act with
  | mrtDisconnect | mrtDisconnectContinue _ | checker _ | sender _ => trivial
  | _ => exact hact.elim

/-- While data is sent the receiver stays open and its `checker` for the address runs on. -/
theorem checks_of_sends {act : Action}
    (h : Receiver.OpenAndFit w.receiver ∧ w.receiver.Checks addr) (hact : Sends addr act)
    (hstep : step w act = .ok w') :
    Receiver.OpenAndFit w'.receiver ∧ w'.receiver.Checks addr := by
  cases act with
  | sender id act =>
    rw [receiver_of_sender_step hstep]
    exact h
  | reopen id => exact hact.elim False.elim (fun hcontinues => by cases hcontinues)
  | receiver act =>
    have hcarries : Carries addr (.receiver act) :=
      hact.resolve_right fun hcontinues => by cases hcontinues
    have huse := (reliableUse_of_carries hcarries w).1
    have hchecker : ∀ i, act ≠ .checker i := by
      rintro i rfl
      exact hcarries
    cases effect_of_step hstep with
    | idle => exact h
    | receiver hdelivers hsub =>
      exact ⟨Receiver.openAndFit_step h.1 huse hsub, h.2.step h.1 huse hchecker hsub⟩

/-- Everything that was submitted in a state was returned by `mrt_receive1`, and the connection
is at rest. -/
structure Quiet (addr : SockaddrIn) (w t : World) : Prop where
  rests : Sender.Rests (t.senders addr) (t.senders addr)
  first : t.sentBefore addr = 0
  read : ∃ r, t.receiver.record addr = some r ∧ r.bytesUnread = 0
  returned_eq : t.receiver.returnedBytes addr = (t.senders addr).submitted.flatten
  submitted_kept : (t.senders addr).submitted = (w.senders addr).submitted
  finished : (t.senders addr).sendCall.Finished
  succeeded : ¬(w.senders addr).sendCall.Finished → (t.senders addr).sendCall = .returned 1

/-- A connection in use can come to rest: what was submitted can be delivered and acknowledged,
and then nothing is buffered. -/
theorem InUse.canRest (h : InUse w addr)
    (hcan : (w.senders addr).sendCall.CanSucceed (w.senders addr).bufferedFragments.length) :
    CanReach step (Sends addr) (Quiet addr w) w := by
  refine (h.completes hcan).trans ?_
  rintro t ⟨⟨ht, hsync, hall⟩, hcompletes⟩
  refine (ht.canReach ht.drains).mono (fun _ => Or.inl) ?_
  rintro u ⟨⟨hu, hforward⟩, hsenders, r, hrecord, hempty⟩
  have hidle := hsync.idle
  obtain ⟨hsubmitted, -, hacknowledged, hfinished, hsucceeded, -⟩ := hcompletes
  rw [← hsenders] at hidle hsubmitted hacknowledged hfinished hsucceeded
  have hall' : u.delivered addr = (u.senders addr).bufferedFragments.length := by
    have hgrows : t.delivered addr ≤ u.delivered addr := hforward.delivered
    have hwritten := hu.trails.2.1
    rw [← hsenders] at hall
    omega
  have hstream := hu.stream_eq hall' hfinished
  unfold Receiver.View.stream at hstream
  rw [Receiver.State.view_returnedBytes, Receiver.State.view_record, hrecord, Option.map_some,
    Receiver.unread_eq_nil (Int.le_of_eq hempty)] at hstream
  exact {
    rests := ⟨hu.holds.usable addr, hu.holds.threads addr, hu.established, hu.registered, hu.live,
      hidle, hacknowledged, rfl, rfl⟩
    first := hu.holds.first addr
    read := ⟨r, hrecord, hempty⟩
    returned_eq := (List.append_nil _).symm.trans hstream
    submitted_kept := hsubmitted
    finished := hfinished
    succeeded := hsucceeded }

/-- A connection was closed gracefully: everything that was submitted was returned by
`mrt_receive1`, all calls have returned, all threads have ended, and the connection is removed
and freed. In this state a call of `mrt_receive1` returns 0 and changes nothing; a `DATA` that
is still on its way can make later calls wait again. -/
structure ClosesGracefully (addr : SockaddrIn) (w t : World) : Prop where
  submitted_kept : (t.senders addr).submitted = (w.senders addr).submitted
  returned_eq : t.receiver.returnedBytes addr = (t.senders addr).submitted.flatten
  ends : ∀ len, Receiver.mrtReceive1 t.receiver addr len = .ok (t.receiver, .returns [])
  finished : (t.senders addr).sendCall.Finished
  succeeded : ¬(w.senders addr).sendCall.Finished → (t.senders addr).sendCall = .returned 1
  disconnected : ∀ call ∈ (t.senders addr).disconnectCalls, call = .returned
  ended : Sender.Ended (t.senders addr)
  handler_ended : (t.senders addr).handlerThread = .ended
  removed : (t.senders addr).registered = false
  freed : (t.senders addr).live = false

/-- A connection at rest can be closed, first by the calls of the user, then by the threads and
by the receiver. -/
theorem Quiet.canClose (h : Quiet addr w t) (hopen : Receiver.OpenAndFit t.receiver)
    (hchecks : t.receiver.Checks addr) :
    CanReach step (Closes addr) (ClosesGracefully addr w) t := by
  refine (canReach_retires h.rests.canDisconnect).trans ?_
  rintro u ⟨s, ⟨hrests, hdisconnected, hrcls⟩, rfl⟩
  -- The receiver answers the `RCLS`, and its `checker` ticks.
  obtain ⟨r, hr, hempty⟩ := h.read
  obtain ⟨r', hr', hrunning⟩ := hchecks
  cases hr'.symm.trans hr
  obtain ⟨r₁, r₂, i, hr₁, hr₂, hacls, hreturned, hends⟩ :=
    Receiver.ends_of_rcls hopen hr hrunning hempty
  have hdelivers : (t.setSender addr s).Delivers (.mainHandler addr rclsDatagram) := by
    rw [World.Delivers, setSender_self]
    exact hrcls
  have hcarries : Carries addr (.receiver (.mainHandler addr rclsDatagram)) := rfl
  refine canReach_step (Or.inl (Or.inl hcarries)) (step_receiver hdelivers hr₁)
    (canReach_step (Or.inr (Or.inr ⟨i, rfl⟩)) (step_receiver trivial hr₂) ?_)
  -- The threads of the sender end.
  have hrests' : Sender.Rests (t.senders addr)
      ((({ t with receiver := r₂ } : World).setSender addr s).senders addr) := by
    rw [setSender_self]
    exact hrests
  have hend := hrests'.canEnd.mono (fun _ => Sender.Ends.retires) fun _ => id
  refine (canReach_retires hend).trans ?_
  rintro v ⟨s', ⟨⟨hrests'', hcalls⟩, hended⟩, rfl⟩
  rw [setSender_self] at hcalls
  rw [setSender_setSender]
  -- `handler` receives the `ACLS` and frees the connection.
  obtain ⟨s₁, s₂, incoming, hs₁, hs₂, rfl⟩ := hrests''.frees hended aclsDatagram
  have hflight : aclsDatagram ∈
      (({ t with receiver := r₂ } : World).setSender addr s').inFlight addr := by
    have hfirst : (({ t with receiver := r₂ } : World).setSender addr s').sentBefore addr = 0 :=
      h.first
    rw [World.inFlight, hfirst, List.drop_zero]
    exact hacls
  have hreceives : Carries addr (.sender addr (.handlerRecvfrom aclsDatagram)) := rfl
  have hhandles : Carries addr (.sender addr .handler) := rfl
  refine canReach_step (Or.inl (Or.inl hreceives)) (step_setSender hflight rfl)
    (canReach_step (Or.inl (Or.inl hhandles)) (step_setSender trivial hs₁)
      (canReach_step (Or.inl (Or.inl hhandles)) (step_setSender trivial hs₂) (canReach_now ?_)))
  constructor
  case ends => exact hends
  all_goals rw [setSender_self]
  · exact hrests''.submitted.trans h.submitted_kept
  · exact hreturned.trans (h.returned_eq.trans (congrArg List.flatten hrests''.submitted.symm))
  · exact hrests''.sendCall ▸ h.finished
  · exact fun hruns => hrests''.sendCall.trans (h.succeeded hruns)
  · rw [hcalls]
    exact hdisconnected
  · exact ⟨hended.shouldClose, hended.checkers, hended.senders⟩

/-- A connection in use can be closed, as it can come to rest and be closed from there. -/
theorem InUse.canClose (h : InUse w addr)
    (hcan : (w.senders addr).sendCall.CanSucceed (w.senders addr).bufferedFragments.length)
    (hchecks : w.receiver.Checks addr) :
    CanReach step (Closes addr) (ClosesGracefully addr w) w := by
  have hrest := (h.canRest hcan).keeping
    (fun t act t' ht hact hstep => checks_of_sends ht hact hstep) ⟨h.holds.reliable.isOpen, hchecks⟩
  refine (hrest.mono (fun _ => Or.inl) fun _ => id).trans ?_
  rintro t ⟨⟨hopen, hchecks'⟩, hquiet⟩
  exact hquiet.canClose hopen hchecks'

/-- From every state that a reliable use can reach, an established connection that neither
side has flagged or dropped can be closed gracefully: by further sections of its own threads
and calls, with one more call of `mrt_disconnect`, and of `main_handler`, `mrt_receive1` and
the `checker` threads of the receiver. -/
theorem closes_of_run {acts : List Action} (huse : Meets step ReliableUse initial acts)
    (hconnected : Meets step (OnSender (Sender.OnSend Sender.SendsConnected)) initial acts)
    (hrun : run step initial acts = .ok w)
    (hestablished : (w.senders addr).conn.lastAcknowledgedFrag ≠ -1)
    (hopen : (w.senders addr).conn.shouldClose = false)
    (hcan : (w.senders addr).sendCall.CanSucceed (w.senders addr).bufferedFragments.length)
    (hchecks : w.receiver.Checks addr) :
    CanReach step (Closes addr) (ClosesGracefully addr w) w := by
  have hholds := invariant_of_run
    (fun w act w' h hcondition hstep => connectionsHold_step h hcondition.1 hcondition.2 hstep)
    connectionsHold_initial (huse.and hconnected) hrun
  exact InUse.canClose ⟨⟨hholds, hopen⟩, hestablished⟩ hcan hchecks

/-- A connection with a call in progress can be closed. -/
theorem closes_one_byte : ∃ w, run step initial calledOnce = .ok w ∧
    (w.senders (loopback 4242)).submitted = [[7]] ∧
    CanReach step (Closes (loopback 4242)) (ClosesGracefully (loopback 4242) w) w := by
  have hrun : endsWith (run step initial calledOnce) (fun w => decide
      ((w.senders (loopback 4242)).conn.lastAcknowledgedFrag ≠ -1 ∧
        (w.senders (loopback 4242)).conn.shouldClose = false ∧
        (w.senders (loopback 4242)).sendCall.CanSucceed
          (w.senders (loopback 4242)).bufferedFragments.length ∧
        (w.receiver.record (loopback 4242)).map Receiver.Sender.checkerThread = some .running ∧
        (w.senders (loopback 4242)).submitted = [[7]])) = true := by
    decide +kernel
  obtain ⟨w, hw, htest⟩ := exists_of_endsWith hrun
  obtain ⟨hestablished, hopen, hcan, hchecks, hsubmitted⟩ := of_decide_eq_true htest
  exact ⟨w, hw, hsubmitted, closes_of_run (by decide +kernel) (by decide +kernel) hw hestablished
    hopen hcan (Option.map_eq_some_iff.mp hchecks)⟩

end Network

end NetworkLabs.Mrt
