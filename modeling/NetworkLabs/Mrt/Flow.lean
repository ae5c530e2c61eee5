import NetworkLabs.Foundations.Run
import NetworkLabs.Mrt.SenderEffects

/-!
# Flow control

`sender` sends a payload only when the window it knows admits the longest one. The
`ADAT` case raises that window and never lowers it, so what `sender` knows is the
latest advertisement as long as the advertised windows never shrink.
-/

namespace NetworkLabs.Mrt.Sender

open Foundations

/-- The window `sender` obeys is the latest advertised one, and it sends no payload under one
that is too small. -/
structure ObeysAdvertisement (s : State) : Prop where
  /-- The window size is that of the latest `ADAT` that was not outdated. -/
  window_eq : s.conn.receiverWindowSize = s.latestWindow
  /-- A payload is sent only when the latest window admits the longest one. -/
  sends_payload : ∀ i resendTime s', s.senderThreads[i]? = some ⟨.select, resendTime⟩ →
    step s (.sender i) = .ok s' → s'.outbox ≠ s.outbox → maxMrtPayloadLength ≤ s.latestWindow
  /-- Under a smaller window `sender` goes on to send an empty `DATA`. -/
  waits : ∀ i resendTime s', s.senderThreads[i]? = some ⟨.select, resendTime⟩ →
    s.receiverLockHeld = false → step s (.sender i) = .ok s' →
    s.latestWindow < maxMrtPayloadLength →
    s'.outbox = s.outbox ∧ ∃ resendTime', s'.senderThreads[i]? = some ⟨.sendEmpty, resendTime'⟩
  /-- The empty `DATA` is sent next. -/
  sends_empty : ∀ i resendTime s', s.senderThreads[i]? = some ⟨.sendEmpty, resendTime⟩ →
    step s (.sender i) = .ok s' → s'.outbox = s.outbox ++ [dataEmptyDatagram]

/-- An `ADAT` leaves the window known and the window advertised equal: it is not
outdated and does not shrink the window, or it is outdated and ignored. The other
two cases are overflows of the difference without a consequence. -/
def Connection.WindowKept (c : Connection) (frag window : ℤ) : Prop :=
  if c.lastAcknowledgedFrag ≤ frag then
    0 ≤ c.fragDifference frag ∧ c.receiverWindowSize ≤ window ∨ c.receiverWindowSize = window
  else c.fragDifference frag < 0 ∨ window ≤ c.receiverWindowSize

instance (c : Connection) (frag window : ℤ) : Decidable (c.WindowKept frag window) :=
  inferInstanceAs (Decidable (if c.lastAcknowledgedFrag ≤ frag then
    0 ≤ c.fragDifference frag ∧ c.receiverWindowSize ≤ window ∨ c.receiverWindowSize = window
  else c.fragDifference frag < 0 ∨ window ≤ c.receiverWindowSize))

/-- The section of `handler` is not one that shrinks the window. -/
def KeepsWindow (s : State) : HandlerThread → Prop
  | .adatAck frag window => s.conn.WindowKept frag window
  | _ => True

instance (s : State) (thread : HandlerThread) : Decidable (KeepsWindow s thread) :=
  match thread with
  | .adatAck frag window => inferInstanceAs (Decidable (s.conn.WindowKept frag window))
  | .recvfrom | .closeCheck | .acon | .adatTimeout _ _ | .adatShift _ | .acls | .cleanUp
  | .ended => isTrue trivial

/-- A `sender` thread that selects what to send waits for the lock, or decides by the window and
the buffer. -/
theorem sender_of_select {s : State} {i : ℕ} {resendTime : ℤ}
    (hth : s.senderThreads[i]? = some ⟨.select, resendTime⟩) :
    step s (.sender i) = s.lockReceiver
      (if s.conn.mustWait then .ok (senderWait s i resendTime) else senderSendPayload s i) := by
  rw [step, sender, hth]

/-- Without enough window `sender` must wait, whatever is buffered. -/
theorem mustWait_of_window {c : Connection} (h : c.receiverWindowSize < maxMrtPayloadLength) :
    c.mustWait = true :=
  Bool.or_eq_true_iff.mpr (Or.inl (decide_eq_true h))

/-- Waiting sends nothing and leads to the empty `DATA`, in the next section of the thread. -/
theorem senderWait_spec (s : State) {i : ℕ} (hi : i < s.senderThreads.length) (resendTime : ℤ) :
    (senderWait s i resendTime).outbox = s.outbox ∧ ∃ resendTime',
      (senderWait s i resendTime).senderThreads[i]? = some ⟨.sendEmpty, resendTime'⟩ := by
  unfold senderWait
  split
  · split
    · exact ⟨rfl, _, List.getElem?_set_self hi⟩
    · exact ⟨rfl, _, List.getElem?_set_self hi⟩
  · exact ⟨rfl, _, List.getElem?_set_self hi⟩

/-- `sender` obeys the window it knows, so it obeys the latest one where it knows that. -/
theorem obeysAdvertisement_of_eq {s : State} (h : s.conn.receiverWindowSize = s.latestWindow) :
    ObeysAdvertisement s := by
  refine ⟨h, fun i resendTime s' hth hstep hsent => ?_,
    fun i resendTime s' hth hlock hstep hsmall => ?_, fun i resendTime s' hth hstep => ?_⟩
  · have hi : i < s.senderThreads.length := (List.getElem?_eq_some_iff.mp hth).1
    rw [sender_of_select hth] at hstep
    obtain ⟨-, rfl | ⟨-, hstep⟩⟩ := of_lockReceiver hstep
    · exact absurd rfl hsent
    · by_contra hsmall
      rw [if_pos (mustWait_of_window (by omega))] at hstep
      cases hstep
      exact hsent (senderWait_spec s hi resendTime).1
  · have hi : i < s.senderThreads.length := (List.getElem?_eq_some_iff.mp hth).1
    rw [sender_of_select hth, State.lockReceiver, hlock,
      if_pos (mustWait_of_window (by omega))] at hstep
    obtain ⟨-, hstep⟩ := of_useConnection hstep
    cases hstep
    exact senderWait_spec s hi resendTime
  · rw [step, sender, hth] at hstep
    obtain ⟨-, hstep⟩ := of_useConnection hstep
    cases hstep
    simp

/-- The window known and the window advertised after an `ADAT`. -/
theorem handleAdatAck_window (s : State) (frag window : ℤ) :
    (handleAdatAck s frag window).conn.receiverWindowSize =
        (if 0 ≤ s.conn.fragDifference frag ∧ s.conn.receiverWindowSize < window then window
          else s.conn.receiverWindowSize) ∧
      (handleAdatAck s frag window).latestWindow =
        if s.conn.lastAcknowledgedFrag ≤ frag then window else s.latestWindow := by
  unfold handleAdatAck
  by_cases hdifference : 0 ≤ s.conn.fragDifference frag
  · simp only [hdifference, if_true, true_and, and_self]
  · simp only [hdifference, false_and, if_false, and_self]

/-- An `ADAT` keeps the two windows equal exactly when it does not shrink them. -/
theorem windowKept_iff {s : State} (h : s.conn.receiverWindowSize = s.latestWindow)
    (frag window : ℤ) : s.conn.WindowKept frag window ↔
      (handleAdatAck s frag window).conn.receiverWindowSize =
        (handleAdatAck s frag window).latestWindow := by
  obtain ⟨hknown, hlatest⟩ := handleAdatAck_window s frag window
  rw [hknown, hlatest, ← h, Connection.WindowKept]
  split <;> split <;> omega

/-- A step that shrinks no window keeps the window known up to date. -/
theorem window_eq_step {s s' : State} {act : Action}
    (h : s.conn.receiverWindowSize = s.latestWindow) (hcondition : OnHandler KeepsWindow s act)
    (hstep : step s act = .ok s') : s'.conn.receiverWindowSize = s'.latestWindow := by
  cases effect_of_step hstep with
  | @acknowledged frag window hthread hdifference =>
    have hstate := handler_of_adatAck hthread
    simp only [OnHandler, hthread, KeepsWindow] at hcondition
    rw [Except.ok.inj (hstep.symm.trans hstate)]
    exact (windowKept_iff h frag window).mp hcondition
  | @outdated frag window hthread hdifference =>
    have hstate := handler_of_adatAck hthread
    simp only [OnHandler, hthread, KeepsWindow] at hcondition
    rw [Except.ok.inj (hstep.symm.trans hstate)]
    exact (windowKept_iff h frag window).mp hcondition
  | _ => exact h

/-- `sender` obeys the latest advertisement in exactly the runs in which no `ADAT` shrinks the
window, since the window size is only raised. -/
theorem obeysAdvertisement_iff (acts : List Action) :
    Always step (fun _ s' => ObeysAdvertisement s') initial acts ↔
      Meets step (OnHandler KeepsWindow) initial acts := by
  refine always_iff_meets (fun s => s.conn.receiverWindowSize = s.latestWindow)
    (fun s act s' h hcondition hstep => ?_) (fun s act h hbroken => ?_) rfl
  · have hnext := window_eq_step h hcondition hstep
    exact ⟨obeysAdvertisement_of_eq hnext, hnext⟩
  · cases act with
    | handler =>
      cases hthread : s.handlerThread with
      | adatAck frag window =>
        simp only [OnHandler, hthread, KeepsWindow] at hbroken
        refine ⟨handleAdatAck s frag window, handler_of_adatAck hthread, fun hobeys => ?_⟩
        exact hbroken ((windowKept_iff h frag window).mpr hobeys.window_eq)
      | _ => exact absurd (by rw [OnHandler, hthread]; trivial) hbroken
    | _ => exact absurd trivial hbroken

/-- After a connection was advertised a window of 2440 bytes and then an empty one, the
window it knows is still the first one. -/
theorem obeysAdvertisement_fails_for_smaller_window :
    ¬Always step (fun _ s' => ObeysAdvertisement s') initial
      [.handlerRecvfrom (aconDatagram 0), .handler, .handler,
        .handlerRecvfrom (adatDatagram 0 2440), .handler, .handler, .handler,
        .handlerRecvfrom (adatDatagram 0 0), .handler, .handler, .handler] := by
  have hrun : someStep step
      (fun _ s' => decide (s'.conn.receiverWindowSize ≠ s'.latestWindow)) initial
      [.handlerRecvfrom (aconDatagram 0), .handler, .handler,
        .handlerRecvfrom (adatDatagram 0 2440), .handler, .handler, .handler,
        .handlerRecvfrom (adatDatagram 0 0), .handler, .handler, .handler] = true := by
    decide +kernel
  refine not_always_of_someStep (fun s s' htest hobeys => ?_) hrun
  exact of_decide_eq_true htest hobeys.window_eq

end NetworkLabs.Mrt.Sender
