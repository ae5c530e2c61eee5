import NetworkLabs.Mrt.Network

/-!
# User calls on a connection that is freed

Each iteration of `mrt_send` and `mrt_disconnect` looks the connection up under `q_lock`
and then uses the pointer in later sections. `handler` may free the connection between
two of them, so a call is safe as long as no clean-up finds it past a look-up.
-/

namespace NetworkLabs.Mrt.Sender

open Foundations

/-- The call of `mrt_send` goes on to use the connection that its look-up found. -/
def SendCall.HoldsPointer : SendCall → Bool
  | .lastBuffered _ | .ackCheck _ _ _ | .copy _ _ _ => true
  | .none | .firstLookup _ | .lookup _ _ _ | .returned _ => false

/-- The call of `mrt_disconnect` goes on to use the connection that its look-up found. -/
def DisconnectCall.HoldsPointer : DisconnectCall → Bool
  | .bufferCheck | .sendRcls | .setInactive => true
  | .lookup | .returned => false

/-- The call of `mrt_send` has found the connection once and has not returned. -/
def SendCall.InProgress : SendCall → Prop
  | .lastBuffered _ | .lookup _ _ _ | .ackCheck _ _ _ | .copy _ _ _ => True
  | .none | .firstLookup _ | .returned _ => False

/-- The user calls touch the connection only while it is live, and return when it has
disappeared. -/
structure UserCallsSafe (s : State) : Prop where
  /-- The next section of `mrt_send` uses no freed connection. -/
  send_live : step s .mrtSendContinue ≠ .error .useAfterFree
  /-- The next section of a call of `mrt_disconnect` uses no freed connection. -/
  disconnect_live : ∀ i, step s (.mrtDisconnectContinue i) ≠ .error .useAfterFree
  /-- When the connection has disappeared `mrt_send` returns 0. -/
  send_returns : s.registered = false → s.sendCall.InProgress →
    ∃ s', step s .mrtSendContinue = .ok s' ∧ s'.sendCall = .returned 0
  /-- When the connection has disappeared `mrt_disconnect` returns and sends nothing. -/
  disconnect_returns : s.registered = false → ∀ i call, s.disconnectCalls[i]? = some call →
    ∃ s', step s (.mrtDisconnectContinue i) = .ok s' ∧
      s'.disconnectCalls[i]? = some .returned ∧ s'.outbox = s.outbox

/-- No user call is past a look-up, so that no pointer to the connection is left when it is
freed. -/
def State.NoPointerHeld (s : State) : Prop :=
  s.sendCall.HoldsPointer = false ∧ ∀ call ∈ s.disconnectCalls, call.HoldsPointer = false

instance (s : State) : Decidable s.NoPointerHeld := inferInstanceAs (Decidable (_ ∧ _))

/-- `handler` frees the connection only while no user call is past a look-up. -/
def FreesReleased (s : State) : HandlerThread → Prop
  | .cleanUp => s.joined = true → s.NoPointerHeld
  | _ => True

instance (s : State) (thread : HandlerThread) : Decidable (FreesReleased s thread) :=
  match thread with
  | .cleanUp => inferInstanceAs (Decidable (_ → _))
  | .recvfrom | .closeCheck | .acon | .adatTimeout _ _ | .adatAck _ _ | .adatShift _ | .acls
  | .ended => isTrue trivial

/-- The invariant behind `UserCallsSafe`, about the pointers that user calls keep between two
critical sections. -/
structure PointersReleased (s : State) : Prop where
  /-- A connection is live exactly while the look-up finds it. -/
  live_eq : s.live = s.registered
  /-- No user call holds a pointer to a connection that was freed. -/
  released : s.registered = false → s.NoPointerHeld

/-- A section that uses a live connection is not one that uses a freed one. -/
theorem useConnection_ne {s : State} {next : Except Fault State} (hlive : s.live = true)
    (hnext : next ≠ .error .useAfterFree) : s.useConnection next ≠ .error .useAfterFree := by
  rw [State.useConnection, if_pos hlive]
  exact hnext

/-- The same under `receiver_lock`, where the section may have to wait. -/
theorem lockReceiver_ne {s : State} {next : Except Fault State} (hlive : s.live = true)
    (hnext : next ≠ .error .useAfterFree) : s.lockReceiver next ≠ .error .useAfterFree := by
  refine useConnection_ne hlive ?_
  split
  · exact nofun
  · exact hnext

/-- The copy of `mrt_send` may leave its arrays, but uses no freed memory. -/
theorem mrtSendCopy_ne {s : State} {args : SendArgs} {finalFrag : ℤ} {copied : ℕ} :
    mrtSendCopy s args finalFrag copied ≠ .error .useAfterFree := by
  unfold mrtSendCopy
  split
  · dsimp only
    split <;> simp
  · simp

/-- While the connection is live no user call uses a freed one. -/
theorem mrtSendContinue_ne {s : State} (hlive : s.live = true) :
    mrtSendContinue s ≠ .error .useAfterFree := by
  unfold mrtSendContinue
  split
  · exact nofun
  · exact nofun
  · exact nofun
  · exact lockReceiver_ne hlive nofun
  · exact nofun
  · exact lockReceiver_ne hlive nofun
  · exact useConnection_ne hlive mrtSendCopy_ne

/-- While the connection is live no call of `mrt_disconnect` uses a freed one. -/
theorem mrtDisconnectContinue_ne {s : State} (i : ℕ) (hlive : s.live = true) :
    mrtDisconnectContinue s i ≠ .error .useAfterFree := by
  unfold mrtDisconnectContinue
  split
  · exact nofun
  · rename_i call hcall
    cases call with
    | lookup | returned => exact nofun
    | bufferCheck | sendRcls | setInactive => exact useConnection_ne hlive nofun

/-- A call of `mrt_disconnect` that holds no pointer to a connection that has disappeared
returns. -/
theorem disconnect_of_released {s : State} {i : ℕ} {call : DisconnectCall}
    (hregistered : s.registered = false) (hcall : s.disconnectCalls[i]? = some call)
    (hreleased : call.HoldsPointer = false) :
    step s (.mrtDisconnectContinue i) = .ok (s.setDisconnect i .returned) := by
  rw [step, mrtDisconnectContinue, hcall]
  cases call with
  | lookup => simp [disconnectSection, hregistered]
  | returned =>
    have hsame : s.disconnectCalls.set i .returned = s.disconnectCalls := by
      obtain ⟨hi, hget⟩ := List.getElem?_eq_some_iff.mp hcall
      rw [← hget]
      exact List.set_getElem_self hi
    simp only [disconnectSection, State.setDisconnect, hsame]
  | bufferCheck | sendRcls | setInactive => cases hreleased

/-- Under the invariant the user calls are safe: a connection that a call points to is live. -/
theorem PointersReleased.userCallsSafe {s : State} (h : PointersReleased s) :
    UserCallsSafe s := by
  cases hregistered : s.registered with
  | true =>
    have hlive : s.live = true := h.live_eq.trans hregistered
    constructor
    · exact mrtSendContinue_ne hlive
    · intro i
      exact mrtDisconnectContinue_ne i hlive
    · intro hgone
      rw [hregistered] at hgone
      cases hgone
    · intro hgone
      rw [hregistered] at hgone
      cases hgone
  | false =>
    obtain ⟨hsend, hdisconnect⟩ := h.released hregistered
    have hreturns : ∀ i call, s.disconnectCalls[i]? = some call →
        step s (.mrtDisconnectContinue i) = .ok (s.setDisconnect i .returned) :=
      fun i call hcall => disconnect_of_released hregistered hcall
        (hdisconnect call (List.mem_of_getElem? hcall))
    constructor
    · rw [step, mrtSendContinue]
      cases hcall : s.sendCall <;> simp_all [SendCall.HoldsPointer]
    · intro i
      cases hcall : s.disconnectCalls[i]? with
      | none =>
        rw [step, mrtDisconnectContinue, hcall]
        intro hfault
        cases hfault
      | some call =>
        rw [hreturns i call hcall]
        intro hfault
        cases hfault
    · intro _ hprogress
      cases hcall : s.sendCall with
      | lookup args finalFrag copied =>
        refine ⟨{ s with sendCall := .returned 0 }, ?_, rfl⟩
        rw [step, mrtSendContinue, hcall]
        simp [hregistered]
      | lastBuffered | ackCheck | copy =>
        rw [hcall] at hsend
        cases hsend
      | none | firstLookup | returned =>
        rw [hcall] at hprogress
        cases hprogress
    · intro _ i call hcall
      refine ⟨s.setDisconnect i .returned, hreturns i call hcall, ?_, rfl⟩
      have hi : i < s.disconnectCalls.length := (List.getElem?_eq_some_iff.mp hcall).1
      exact List.getElem?_set_self hi

/-- A call of `mrt_disconnect` takes no pointer to a connection that has disappeared. -/
theorem pointersReleased_disconnect {s s' : State} {i : ℕ} (h : PointersReleased s)
    (hregistered : s.registered = false) (hstep : step s (.mrtDisconnectContinue i) = .ok s') :
    PointersReleased s' := by
  obtain ⟨hsend, hcalls⟩ := h.released hregistered
  cases hcall : s.disconnectCalls[i]? with
  | none =>
    rw [step, mrtDisconnectContinue, hcall] at hstep
    cases hstep
    exact h
  | some call =>
    rw [disconnect_of_released hregistered hcall (hcalls call (List.mem_of_getElem? hcall))]
      at hstep
    cases hstep
    constructor
    · exact h.live_eq
    · intro _
      refine ⟨hsend, fun call hcall => ?_⟩
      rcases List.mem_or_eq_of_mem_set hcall with hcall | rfl
      · exact hcalls call hcall
      · rfl

/-- The clean-up frees the connection only when it has joined the threads. -/
theorem joined_of_freed {s s' : State} (hthread : s.handlerThread = .cleanUp)
    (hregistered : s.registered = true) (hgone : s'.registered = false)
    (hstep : step s .handler = .ok s') : s.joined = true := by
  rw [step, handler, hthread] at hstep
  dsimp only at hstep
  split at hstep
  · assumption
  · cases hstep
    exact absurd hgone (by simp [hregistered])

/-- A step that frees the connection only when no user call is past a look-up keeps the
invariant. -/
theorem pointersReleased_step {s s' : State} {act : Action} (h : PointersReleased s)
    (hcondition : OnHandler FreesReleased s act) (hstep : step s act = .ok s') :
    PointersReleased s' := by
  cases hregistered : s.registered with
  | true =>
    have hkept : s'.live = s.live → s'.registered = s.registered → PointersReleased s' := by
      intro hlive hsame
      refine ⟨by rw [hlive, hsame, h.live_eq], fun hgone => ?_⟩
      rw [hsame, hregistered] at hgone
      cases hgone
    cases effect_of_step hstep with
    | freed hthread =>
      simp only [OnHandler, hthread, FreesReleased] at hcondition
      exact ⟨rfl, fun _ => hcondition (joined_of_freed hthread hregistered rfl hstep)⟩
    | _ => exact hkept rfl rfl
  | false =>
    obtain ⟨hsend, hcalls⟩ := h.released hregistered
    have hlive := h.live_eq
    cases effect_of_step hstep with
    | idle => exact h
    | disconnectMoved _ | sentRcls | requestedClose =>
      exact pointersReleased_disconnect h hregistered hstep
    | disconnecting =>
      refine ⟨hlive, fun _ => ⟨hsend, fun call hcall => ?_⟩⟩
      rcases List.mem_append.mp hcall with hcall | hcall
      · exact hcalls call hcall
      · rw [List.mem_singleton.mp hcall]
        rfl
    | freed hthread => exact ⟨rfl, fun _ => ⟨hsend, hcalls⟩⟩
    | found hcall | foundAgain hcall =>
      refine ⟨hlive, fun _ => ⟨?_, hcalls⟩⟩
      simp [hregistered, SendCall.HoldsPointer]
    | estimated hcall _ | succeeded hcall _ _ | unacknowledged hcall _ _ | buffered hcall _ _
    | full hcall =>
      rw [hcall] at hsend
      cases hsend
    | submitted _ => exact ⟨hlive, fun _ => ⟨rfl, hcalls⟩⟩
    | _ => exact ⟨hlive, fun _ => ⟨hsend, hcalls⟩⟩

/-- At the start there is no user call, and the connection is registered. -/
theorem pointersReleased_initial : PointersReleased initial :=
  ⟨rfl, fun hgone => by cases hgone⟩

/-- A call of `mrt_send` that holds a pointer to a freed connection uses it. -/
theorem send_useAfterFree {s : State} (hlive : s.live = false)
    (hcall : s.sendCall.HoldsPointer = true) :
    step s .mrtSendContinue = .error .useAfterFree := by
  have huse : ∀ next, s.useConnection next = .error .useAfterFree := by
    intro next
    rw [State.useConnection, if_neg (by simp [hlive])]
  rw [step, mrtSendContinue]
  cases hsend : s.sendCall with
  | lastBuffered args | ackCheck args finalFrag copied | copy args finalFrag copied => exact huse _
  | none | firstLookup args | lookup args finalFrag copied | returned value =>
    rw [hsend] at hcall
    cases hcall

/-- A call of `mrt_disconnect` that holds a pointer to a freed connection uses it. -/
theorem disconnect_useAfterFree {s : State} {i : ℕ} {call : DisconnectCall}
    (hlive : s.live = false) (hget : s.disconnectCalls[i]? = some call)
    (hcall : call.HoldsPointer = true) :
    step s (.mrtDisconnectContinue i) = .error .useAfterFree := by
  have huse : ∀ next, s.useConnection next = .error .useAfterFree := by
    intro next
    rw [State.useConnection, if_neg (by simp [hlive])]
  rw [step, mrtDisconnectContinue, hget]
  cases call with
  | bufferCheck | sendRcls | setInactive => exact huse _
  | lookup | returned => cases hcall

/-- The user calls are safe in exactly the runs in which `handler` frees the connection
only while no user call is past a look-up. -/
theorem userCallsSafe_iff (acts : List Action) :
    Always step (fun _ s' => UserCallsSafe s') initial acts ↔
      Meets step (OnHandler FreesReleased) initial acts := by
  refine always_iff_meets PointersReleased (fun s act s' h hcondition hstep => ?_)
    (fun s act h hbroken => ?_) pointersReleased_initial
  · have hnext := pointersReleased_step h hcondition hstep
    exact ⟨hnext.userCallsSafe, hnext⟩
  · cases act with
    | handler =>
      cases hthread : s.handlerThread with
      | cleanUp =>
        simp only [OnHandler, hthread, FreesReleased, Classical.not_imp, State.NoPointerHeld,
          not_and_or, not_forall, Bool.not_eq_false] at hbroken
        obtain ⟨hjoined, hheld⟩ := hbroken
        refine ⟨{ s with registered := false, live := false, handlerThread := .ended }, ?_,
          fun hsafe => ?_⟩
        · rw [step, handler, hthread]
          exact if_pos hjoined
        · rcases hheld with hsend | ⟨call, hmem, hcall⟩
          · exact hsafe.send_live (send_useAfterFree rfl hsend)
          · obtain ⟨i, hget⟩ := List.getElem?_of_mem hmem
            exact hsafe.disconnect_live i (disconnect_useAfterFree rfl hget hcall)
      | _ => exact absurd (by rw [OnHandler, hthread]; trivial) hbroken
    | _ => exact absurd trivial hbroken

/-- A call of `mrt_send` has looked the connection up when the connection times out and
`handler` frees it. -/
def freedDuringSend : List Action :=
  [.handlerRecvfrom (aconDatagram 0), .handler, .handler, .mrtSend Network.oneByte,
    .mrtSendContinue, .mrtSendContinue, .mrtSendContinue, .checker 0, .checker 0, .checker 0,
    .checker 0, .checker 0, .sender 0, .handlerRecvfrom (adatDatagram 0 2440), .handler,
    .handler]

/-- The next section of that call uses the freed connection, although its look-up had
found it. -/
theorem userCallsSafe_fails_during_send :
    ¬Always step (fun _ s' => UserCallsSafe s') initial freedDuringSend := by
  have hrun : someStep step (fun _ s' => failsWith (step s' .mrtSendContinue) .useAfterFree)
      initial freedDuringSend = true := by
    decide +kernel
  refine not_always_of_someStep (fun s s' htest hsafe => ?_) hrun
  exact hsafe.send_live (eq_error_of_failsWith htest)

end NetworkLabs.Mrt.Sender
