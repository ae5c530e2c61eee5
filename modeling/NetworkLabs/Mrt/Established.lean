import NetworkLabs.Mrt.Network

/-!
# When a connection counts as established

The number -1 stands for a connection that no `ACON` has established yet. The first
`ACON` starts the two threads and sets the number, but an `ADAT` sets the same number
and starts nothing.
-/

namespace NetworkLabs.Mrt.Sender

open Foundations

/-- A connection counts as established exactly when its threads run. -/
structure EstablishedRuns (s : State) : Prop where
  /-- The number is not -1 exactly when both threads were started. -/
  established_iff :
    s.conn.lastAcknowledgedFrag ≠ -1 ↔ s.senderThreads ≠ [] ∧ s.checkerThreads ≠ []
  /-- At most one `sender` thread was started. -/
  sender_once : s.senderThreads.length ≤ 1
  /-- At most one `checker` thread was started. -/
  checker_once : s.checkerThreads.length ≤ 1
  /-- `mrt_connect` returns only for a connection whose threads were started. -/
  returned : s.connectCall = .returned → s.senderThreads ≠ [] ∧ s.checkerThreads ≠ []

/-- An `ADAT` that is not outdated carries the number -1 exactly when no `ACON` was
handled. -/
def Connection.FlagKept (c : Connection) (frag : ℤ) : Prop :=
  0 ≤ c.fragDifference frag → (frag = -1 ↔ c.lastAcknowledgedFrag = -1)

instance (c : Connection) (frag : ℤ) : Decidable (c.FlagKept frag) :=
  inferInstanceAs (Decidable (_ → _))

/-- The section of `handler` is not one that confuses the flag. -/
def KeepsFlag (s : State) : HandlerThread → Prop
  | .adatAck frag _ => s.conn.FlagKept frag
  | _ => True

instance (s : State) (thread : HandlerThread) : Decidable (KeepsFlag s thread) :=
  match thread with
  | .adatAck frag _ => inferInstanceAs (Decidable (s.conn.FlagKept frag))
  | .recvfrom | .closeCheck | .acon | .adatTimeout _ _ | .adatShift _ | .acls | .cleanUp
  | .ended => isTrue trivial

/-- The number of threads of each kind that were started. -/
def Connection.threadsDue (c : Connection) : ℕ := if c.lastAcknowledgedFrag = -1 then 0 else 1

/-- The invariant behind `EstablishedRuns`. One thread of each kind is due as soon as the
connection is established. -/
structure ThreadsMatch (s : State) : Prop where
  /-- The `sender` thread was started as often as is due. -/
  senders : s.senderThreads.length = s.conn.threadsDue
  /-- The `checker` thread was started as often as is due. -/
  checkers : s.checkerThreads.length = s.conn.threadsDue
  /-- `mrt_connect` has seen the number. -/
  returned : s.connectCall = .returned → s.conn.lastAcknowledgedFrag ≠ -1

/-- Both threads are due once the number is not -1. -/
theorem ThreadsMatch.started_iff {s : State} (h : ThreadsMatch s) :
    s.conn.lastAcknowledgedFrag ≠ -1 ↔ s.senderThreads ≠ [] ∧ s.checkerThreads ≠ [] := by
  have hsenders := h.senders
  have hcheckers := h.checkers
  rw [← List.length_pos_iff, ← List.length_pos_iff, hsenders, hcheckers]
  unfold Connection.threadsDue
  split <;> simp_all

/-- The invariant contains the claim about the threads, of which one of each kind is due. -/
theorem ThreadsMatch.establishedRuns {s : State} (h : ThreadsMatch s) : EstablishedRuns s := by
  have hdue : s.conn.threadsDue ≤ 1 := by
    unfold Connection.threadsDue
    split <;> omega
  constructor
  · exact h.started_iff
  · exact Nat.le_trans (Nat.le_of_eq h.senders) hdue
  · exact Nat.le_trans (Nat.le_of_eq h.checkers) hdue
  · intro hreturned
    exact h.started_iff.mp (h.returned hreturned)

/-- A step that keeps the number of threads and whether the number is -1 keeps the
invariant. -/
theorem ThreadsMatch.of_eq {s s' : State} (h : ThreadsMatch s)
    (hsenders : s'.senderThreads.length = s.senderThreads.length)
    (hcheckers : s'.checkerThreads.length = s.checkerThreads.length)
    (hflag : s'.conn.lastAcknowledgedFrag = -1 ↔ s.conn.lastAcknowledgedFrag = -1)
    (hreturned : s'.connectCall = .returned → s.conn.lastAcknowledgedFrag ≠ -1) :
    ThreadsMatch s' := by
  have hdue : s'.conn.threadsDue = s.conn.threadsDue := by
    simp only [Connection.threadsDue, hflag]
  constructor
  · rw [hsenders, hdue]
    exact h.senders
  · rw [hcheckers, hdue]
    exact h.checkers
  · intro hcall
    exact mt hflag.mp (hreturned hcall)

/-- A step that does not confuse the flag keeps the invariant. -/
theorem threadsMatch_step {s s' : State} {act : Action} (h : ThreadsMatch s)
    (hcondition : OnHandler KeepsFlag s act) (hstep : step s act = .ok s') : ThreadsMatch s' := by
  cases effect_of_step hstep with
  | idle => exact h
  | polled =>
    refine h.of_eq rfl rfl Iff.rfl ?_
    intro hreturned
    by_contra hnone
    simp [hnone] at hreturned
  | requested =>
    refine h.of_eq rfl rfl Iff.rfl ?_
    intro hreturned
    cases hreturned
  | senderMoved _ _ | reset _ _ | sentPayload _ _ _ _ | sentEmpty _ _ =>
    refine h.of_eq ?_ rfl Iff.rfl h.returned
    exact List.length_set
  | ticked _ | flagged _ =>
    refine h.of_eq rfl ?_ Iff.rfl h.returned
    exact List.length_set
  | connected hthread hack =>
    have hsenders := h.senders
    have hcheckers := h.checkers
    rw [Connection.threadsDue, if_pos hack] at hsenders hcheckers
    constructor
    · rw [List.length_append, hsenders]
      rfl
    · rw [List.length_append, hcheckers]
      rfl
    · intro _ hfirst
      cases hfirst
  | acknowledged hthread hdifference =>
    simp only [OnHandler, hthread, KeepsFlag] at hcondition
    exact h.of_eq rfl rfl (hcondition hdifference) h.returned
  | _ => exact h.of_eq rfl rfl Iff.rfl h.returned

/-- At the start no thread was started. -/
theorem threadsMatch_initial : ThreadsMatch initial :=
  ⟨rfl, rfl, fun hreturned => by cases hreturned⟩

/-- A connection counts as established exactly when its threads run, in exactly the runs in
which no `ADAT` confuses the flag: takes the number away from -1 before the first `ACON`, or
back to it. -/
theorem establishedRuns_iff (acts : List Action) :
    Always step (fun _ s' => EstablishedRuns s') initial acts ↔
      Meets step (OnHandler KeepsFlag) initial acts := by
  refine always_iff_meets ThreadsMatch (fun s act s' h hcondition hstep => ?_)
    (fun s act h hbroken => ?_) threadsMatch_initial
  · have hnext := threadsMatch_step h hcondition hstep
    exact ⟨hnext.establishedRuns, hnext⟩
  · cases act with
    | handler =>
      cases hthread : s.handlerThread with
      | adatAck frag window =>
        simp only [OnHandler, hthread, KeepsFlag, Connection.FlagKept, Classical.not_imp]
          at hbroken
        obtain ⟨hdifference, hconfused⟩ := hbroken
        refine ⟨handleAdatAck s frag window, handler_of_adatAck hthread, fun hruns => ?_⟩
        have hiff := hruns.established_iff
        simp only [handleAdatAck, if_pos hdifference] at hiff
        exact hconfused (not_iff_not.mp (hiff.trans h.started_iff.symm))
      | _ => exact absurd (by rw [OnHandler, hthread]; trivial) hbroken
    | _ => exact absurd trivial hbroken

/-- A fragment is buffered before the first `ACON`, and an `ADAT` of an earlier session
arrives that acknowledges it. -/
def acknowledgedEarly : List Action :=
  [.mrtSend Network.oneByte, .mrtSendContinue, .mrtSendContinue, .mrtSendContinue,
    .mrtSendContinue, .mrtSendContinue, .handlerRecvfrom (adatDatagram 0 2440), .handler,
    .handler, .handler, .handler, .mrtConnect]

/-- Then the call of `mrt_connect` returns although no thread was started, and nothing would
ever be sent. -/
theorem establishedRuns_fails_for_early_adat :
    ¬Always step (fun _ s' => EstablishedRuns s') initial acknowledgedEarly := by
  have hrun : someStep step (fun _ s' =>
      decide (s'.connectCall = .returned ∧ s'.senderThreads = [])) initial
      acknowledgedEarly = true := by
    decide +kernel
  refine not_always_of_someStep (fun s s' htest hruns => ?_) hrun
  obtain ⟨hreturned, hnone⟩ := of_decide_eq_true htest
  exact (hruns.returned hreturned).1 hnone

end NetworkLabs.Mrt.Sender
