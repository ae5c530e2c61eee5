import NetworkLabs.Foundations.Run
import NetworkLabs.Mrt.ReceiverEffects

/-!
# Calls that outlive the receiver's queues

The clean-up of `main_handler` deletes both queues and every connected record, and leaves
the handles as they are. Here each user call and each `checker` has a position of its own,
so that the clean-up can find it anywhere between two of its critical sections.
-/

namespace NetworkLabs.Mrt.Lifetime

open Foundations Receiver

/-- A call of `mrt_receive1` by the critical section it is before. -/
inductive ReceiveCall where
  | firstLookup (id : SockaddrIn) (len : ℤ)
  /-- In the loop, possibly asleep. -/
  | lookup (id : SockaddrIn) (len : ℤ)
  | returned (value : ℤ)
  deriving DecidableEq

/-- A call of `mrt_accept1`, or of `mrt_accept_all`, which makes such calls. -/
inductive AcceptCall where
  /-- `mrt_accept_all` looks at the pending requests. -/
  | peek
  | dequeue (all : Bool)
  | enqueue (all : Bool)
  | returned
  deriving DecidableEq

/-- Where the `checker` of a connected record is. This decides whether `pthread_cancel` stops
it. -/
inductive CheckerPosition where
  /-- Before or in `pthread_mutex_lock`, which is no cancellation point. -/
  | locking
  /-- In `usleep`, where a thread can be cancelled. -/
  | sleeping
  | ended
  | cancelled
  deriving DecidableEq

/-- The receiver with the user calls made so far and the `checker` of each record; `holders`
are the calls that hold the records taken but not yet registered. -/
structure State where
  shared : Receiver.State
  receiveCalls : List ReceiveCall
  acceptCalls : List AcceptCall
  holders : List ℕ
  checkers : List CheckerPosition

/-- The state after `mrt_open` has succeeded, without calls and checkers. -/
def initial : State :=
  { shared := Receiver.initial, receiveCalls := [], acceptCalls := [], holders := [],
    checkers := [] }

/-- A critical section that uses the queues or a record in them, which is a use after free once
they are deleted. -/
def State.useQueues {α : Type} (s : State) (next : Except Fault α) : Except Fault α :=
  if s.shared.closed then .error .useAfterFree else next

/-- Move a call of `mrt_receive1` on, and leave all other calls where they are. -/
def State.setReceive (s : State) (i : ℕ) (call : ReceiveCall) : State :=
  { s with receiveCalls := s.receiveCalls.set i call }

/-- Move a call of `mrt_accept1` or `mrt_accept_all` on, and leave all other calls where they
are. -/
def State.setAccept (s : State) (i : ℕ) (call : AcceptCall) : State :=
  { s with acceptCalls := s.acceptCalls.set i call }

/-- The next section of a call of `mrt_receive1`. It looks the record up before its loop and in
each iteration. -/
def receiveSection (s : State) (i : ℕ) : ReceiveCall → Except Fault State
  | .firstLookup id len =>
    s.useQueues <| match s.shared.record id with
      | none => .ok (s.setReceive i (.returned (-1)))
      | some _ => .ok (s.setReceive i (.lookup id len))
  | .lookup id len =>
    s.useQueues <| match mrtReceive1 s.shared id len with
      | .ok (_, .spurious) => .ok (s.setReceive i (.returned 0))
      | .ok (_, .waits) => .ok s
      | .ok (shared, .returns bytes) =>
        .ok (State.setReceive { s with shared := shared } i (.returned bytes.length))
      | .error e => .error e
  | .returned _ => .ok s

/-- The next section of a call of `mrt_accept1` or `mrt_accept_all`. -/
def acceptSection (s : State) (i : ℕ) : AcceptCall → Except Fault State
  | .peek =>
    s.useQueues <| match s.shared.pendingSendersQ with
      | [] => .ok (s.setAccept i .returned)
      | _ :: _ => .ok (s.setAccept i (.dequeue true))
  | .dequeue all =>
    s.useQueues <| match s.shared.pendingSendersQ with
      | [] => .ok s
      | _ :: _ =>
        .ok (State.setAccept
          { s with shared := mrtAccept1Dequeue s.shared, holders := s.holders ++ [i] } i
          (.enqueue all))
  | .enqueue all =>
    s.useQueues <| .ok (State.setAccept
      { s with
        shared := mrtAccept1Enqueue s.shared (s.holders.idxOf i)
        holders := s.holders.eraseIdx (s.holders.idxOf i)
        checkers := s.checkers ++ [.locking] } i
      (if all then .peek else .returned))
  | .returned => .ok s

/-- The critical section of the `checker` of the `i`-th connected record. -/
def checkerSection (s : State) (i : ℕ) : CheckerPosition → Except Fault State
  | .locking =>
    s.useQueues <|
      let shared := checker s.shared i
      let runs := shared.connectedSendersQ[i]?.any (·.checkerThread == .running)
      .ok { s with
            shared := shared
            checkers := s.checkers.set i (if runs then .sleeping else .ended) }
  | .sleeping | .ended | .cancelled => .ok s

/-- `probe_for_one`; the test is for a target that was already found, and what is found then
is assigned to the local copy of the pointer. -/
def probeForOne (s : State) (target : Option SockaddrIn) (_ : SockaddrIn) :
    Except Fault (Option SockaddrIn) :=
  match target with
  | some _ => s.useQueues (.ok target)
  | none => .ok target

/-- `mrt_probe`, which calls `probe_for_one` for every identifier of the queue and starts with
no target. -/
def mrtProbe (s : State) (probeQ : List SockaddrIn) : Except Fault (Option SockaddrIn) :=
  probeQ.foldlM (probeForOne s) none

/-- `pthread_cancel` stops a thread in `usleep`. One that waits in `pthread_mutex_lock` goes on
and is not stopped before its next `usleep`. -/
def CheckerPosition.cancel : CheckerPosition → CheckerPosition
  | .sleeping => .cancelled
  | .locking => .locking
  | .ended => .ended
  | .cancelled => .cancelled

/-- The steps of the user's threads and of the module's. -/
inductive Action where
  /-- `main_handler` receives a datagram and handles it, or cleans up. -/
  | mainHandler (addr : SockaddrIn) (dg : Datagram)
  | mrtClose
  /-- A new call of `mrt_receive1`. -/
  | mrtReceive1 (id : SockaddrIn) (len : ℤ)
  | mrtReceive1Continue (i : ℕ)
  /-- A new call of `mrt_accept1`. -/
  | mrtAccept1
  /-- A new call of `mrt_accept_all`. -/
  | mrtAcceptAll
  | mrtAcceptContinue (i : ℕ)
  | mrtProbe (probeQ : List SockaddrIn)
  /-- A `checker` wakes up. -/
  | checkerWakes (i : ℕ)
  | checkerContinue (i : ℕ)
  deriving DecidableEq

/-- The clean-up is made when the close flag is seen for the first time. -/
def State.Closes (s : State) : Prop := s.shared.shouldClose = true ∧ s.shared.closed = false

instance (s : State) : Decidable s.Closes := inferInstanceAs (Decidable (_ ∧ _))

/-- One step. A section that uses the queues or a record after the clean-up is an error. -/
def step (s : State) : Action → Except Fault State
  | .mainHandler addr dg =>
    (Receiver.step s.shared (.mainHandler addr dg)).map fun shared =>
      { s with
        shared := shared
        checkers := if s.Closes then s.checkers.map CheckerPosition.cancel else s.checkers }
  | .mrtClose => (Receiver.step s.shared .mrtClose).map fun shared => { s with shared := shared }
  | .mrtReceive1 id len =>
    .ok { s with receiveCalls := s.receiveCalls ++ [.firstLookup id len] }
  | .mrtReceive1Continue i =>
    match s.receiveCalls[i]? with
    | some call => receiveSection s i call
    | none => .ok s
  | .mrtAccept1 => .ok { s with acceptCalls := s.acceptCalls ++ [.dequeue false] }
  | .mrtAcceptAll => .ok { s with acceptCalls := s.acceptCalls ++ [.peek] }
  | .mrtAcceptContinue i =>
    match s.acceptCalls[i]? with
    | some call => acceptSection s i call
    | none => .ok s
  | .mrtProbe probeQ => (mrtProbe s probeQ).map fun _ => s
  | .checkerWakes i =>
    .ok (if s.checkers[i]? = some .sleeping then { s with checkers := s.checkers.set i .locking }
      else s)
  | .checkerContinue i =>
    match s.checkers[i]? with
    | some position => checkerSection s i position
    | none => .ok s

/-- No thread uses what the clean-up deleted, and a waiting `mrt_receive1` returns 0. -/
structure QueuesSafe (s : State) : Prop where
  receive_live : ∀ i, step s (.mrtReceive1Continue i) ≠ .error .useAfterFree
  accept_live : ∀ i, step s (.mrtAcceptContinue i) ≠ .error .useAfterFree
  checker_live : ∀ i, step s (.checkerContinue i) ≠ .error .useAfterFree
  probe_live : ∀ probeQ, step s (.mrtProbe probeQ) ≠ .error .useAfterFree
  receive_returns : s.shared.closed = true → ∀ i id len,
    s.receiveCalls[i]? = some (.lookup id len) →
    ∃ s', step s (.mrtReceive1Continue i) = .ok s' ∧ s'.receiveCalls[i]? = some (.returned 0)

/-- The call of `mrt_receive1` has returned, with whatever value. -/
def ReceiveCall.HasReturned : ReceiveCall → Prop
  | .returned _ => True
  | .firstLookup _ _ | .lookup _ _ => False

instance (call : ReceiveCall) : Decidable call.HasReturned :=
  match call with
  | .returned _ => isTrue trivial
  | .firstLookup _ _ | .lookup _ _ => isFalse id

/-- No user call is in progress and no `checker` is about to use its record. -/
structure State.Quiet (s : State) : Prop where
  receives : ∀ call ∈ s.receiveCalls, call.HasReturned
  accepts : ∀ call ∈ s.acceptCalls, call = .returned
  checkers : .locking ∉ s.checkers

instance (s : State) : Decidable s.Quiet :=
  decidable_of_iff ((∀ call ∈ s.receiveCalls, call.HasReturned) ∧
    (∀ call ∈ s.acceptCalls, call = .returned) ∧ .locking ∉ s.checkers)
    ⟨fun ⟨h, h', h''⟩ => ⟨h, h', h''⟩, fun ⟨h, h', h''⟩ => ⟨h, h', h''⟩⟩

/-- The clean-up finds no thread that goes on to use the queues, and no call is made after
it. -/
def ClosesQuietly (s : State) : Action → Prop
  | .mainHandler _ _ => s.Closes → s.Quiet
  | .mrtReceive1 _ _ | .mrtAccept1 | .mrtAcceptAll => s.shared.closed = false
  | _ => True

instance (s : State) (act : Action) : Decidable (ClosesQuietly s act) :=
  match act with
  | .mainHandler _ _ => inferInstanceAs (Decidable (_ → _))
  | .mrtReceive1 _ _ | .mrtAccept1 | .mrtAcceptAll =>
    inferInstanceAs (Decidable (s.shared.closed = false))
  | .mrtClose | .mrtReceive1Continue _ | .mrtAcceptContinue _ | .mrtProbe _ | .checkerWakes _
  | .checkerContinue _ => isTrue trivial

/-- The invariant behind `QueuesSafe`: after the clean-up no call is in progress and no checker
sleeps. -/
def ClosedQuiet (s : State) : Prop :=
  s.shared.closed = true → s.Quiet ∧ .sleeping ∉ s.checkers

/-- Before the clean-up a section uses live queues. -/
theorem useQueues_ne {α : Type} {s : State} {next : Except Fault α}
    (hopen : s.shared.closed = false) (hnext : next ≠ .error .useAfterFree) :
    s.useQueues next ≠ .error .useAfterFree := by
  rw [State.useQueues, hopen]
  exact hnext

/-- After the clean-up it uses deleted ones. -/
theorem useQueues_of_closed {α : Type} {s : State} (hclosed : s.shared.closed = true)
    (next : Except Fault α) : s.useQueues next = .error .useAfterFree := by
  rw [State.useQueues, hclosed]
  rfl

/-- A section that succeeds has used live queues. -/
theorem of_useQueues {α : Type} {s : State} {next : Except Fault α} {x : α}
    (h : s.useQueues next = .ok x) : s.shared.closed = false ∧ next = .ok x := by
  unfold State.useQueues at h
  cases hclosed : s.shared.closed with
  | true => simp [hclosed] at h
  | false => simpa [hclosed] using h

/-- `mrt_receive1` may read out of bounds, but uses no freed memory itself. -/
theorem mrtReceive1_ne {s : Receiver.State} {id : SockaddrIn} {len : ℤ} :
    mrtReceive1 s id len ≠ .error .useAfterFree := by
  unfold mrtReceive1
  split
  · exact nofun
  · split
    · split <;> exact nofun
    · split <;> simp

/-- `mrt_probe` never finds a target and so never looks one up. -/
theorem mrtProbe_eq (s : State) (probeQ : List SockaddrIn) : mrtProbe s probeQ = .ok none := by
  induction probeQ with
  | nil => rfl
  | cons id probeQ ih => exact ih

/-- Before the clean-up every section uses live queues, whatever calls are in progress. -/
theorem queuesSafe_of_open {s : State} (hopen : s.shared.closed = false) : QueuesSafe s := by
  constructor
  · intro i
    rw [step]
    split
    · rename_i call hcall
      cases call with
      | firstLookup id len =>
        apply useQueues_ne hopen
        split <;> exact nofun
      | lookup id len =>
        apply useQueues_ne hopen
        split
        · exact nofun
        · exact nofun
        · exact nofun
        · rename_i e he
          intro hfault
          cases hfault
          exact mrtReceive1_ne he
      | returned value => exact nofun
    · exact nofun
  · intro i
    rw [step]
    split
    · rename_i call hcall
      cases call with
      | peek | dequeue all =>
        apply useQueues_ne hopen
        split <;> exact nofun
      | enqueue all => exact useQueues_ne hopen nofun
      | returned => exact nofun
    · exact nofun
  · intro i
    rw [step]
    split
    · rename_i position hposition
      cases position with
      | locking => exact useQueues_ne hopen nofun
      | sleeping | ended | cancelled => exact nofun
    · exact nofun
  · intro probeQ
    rw [step, mrtProbe_eq]
    exact nofun
  · intro hclosed
    rw [hopen] at hclosed
    cases hclosed

/-- A call of `mrt_receive1` that has returned does nothing, and uses no queue. -/
theorem receive_of_quiet {s : State} (h : s.Quiet) (i : ℕ) :
    step s (.mrtReceive1Continue i) = .ok s := by
  rw [step]
  cases hcall : s.receiveCalls[i]? with
  | none => rfl
  | some call =>
    have hreturned := h.receives call (List.mem_of_getElem? hcall)
    cases call with
    | returned value => rfl
    | firstLookup id len | lookup id len => cases hreturned

/-- A call of `mrt_accept1` or `mrt_accept_all` that has returned does nothing, and uses no
queue. -/
theorem accept_of_quiet {s : State} (h : s.Quiet) (i : ℕ) :
    step s (.mrtAcceptContinue i) = .ok s := by
  rw [step]
  cases hcall : s.acceptCalls[i]? with
  | none => rfl
  | some call =>
    obtain rfl := h.accepts call (List.mem_of_getElem? hcall)
    rfl

/-- A `checker` that is not about to lock `q_lock` uses nothing. -/
theorem checker_of_quiet {s : State} (h : s.Quiet) (i : ℕ) :
    step s (.checkerContinue i) = .ok s := by
  rw [step]
  cases hposition : s.checkers[i]? with
  | none => rfl
  | some position =>
    cases position with
    | locking => exact absurd (List.mem_of_getElem? hposition) h.checkers
    | sleeping | ended | cancelled => rfl

/-- When everything is quiet no section uses the queues, be they deleted or not. -/
theorem State.Quiet.queuesSafe {s : State} (h : s.Quiet) : QueuesSafe s := by
  constructor
  · intro i
    rw [receive_of_quiet h]
    exact nofun
  · intro i
    rw [accept_of_quiet h]
    exact nofun
  · intro i
    rw [checker_of_quiet h]
    exact nofun
  · intro probeQ
    rw [step, mrtProbe_eq]
    exact nofun
  · intro _ i addr len hcall
    exact absurd (h.receives _ (List.mem_of_getElem? hcall)) id

/-- Under the invariant the queues are safe, before the clean-up as well as after it. -/
theorem ClosedQuiet.queuesSafe {s : State} (h : ClosedQuiet s) : QueuesSafe s := by
  cases hclosed : s.shared.closed with
  | true => exact (h hclosed).1.queuesSafe
  | false => exact queuesSafe_of_open hclosed

/-- A step of the receiver closes it only in the clean-up. -/
theorem closed_of_step {r r' : Receiver.State} {act : Receiver.Action}
    (hstep : Receiver.step r act = .ok r') (hclosed : r'.closed = true) :
    r.closed = true ∨ r.shouldClose = true ∧ ∃ addr dg, act = .mainHandler addr dg := by
  cases effect_of_step hstep with
  | @closed addr dg hclose => exact Or.inr ⟨hclose, addr, dg, rfl⟩
  | _ => exact Or.inl hclosed

/-- The sections of `mrt_receive1` do not close the receiver. -/
theorem receive_open {s s' : State} {i : ℕ} (hopen : s.shared.closed = false)
    (hstep : step s (.mrtReceive1Continue i) = .ok s') : s'.shared.closed = false := by
  rw [step] at hstep
  split at hstep
  · rename_i call hcall
    cases call with
    | firstLookup id len =>
      have hnext := (of_useQueues hstep).2
      split at hnext <;> cases hnext <;> exact hopen
    | lookup id len =>
      have hnext := (of_useQueues hstep).2
      split at hnext
      · cases hnext
        exact hopen
      · cases hnext
        exact hopen
      · rename_i shared bytes hreceive
        cases hnext
        have hshared : Receiver.step s.shared (.mrtReceive1 id len) = .ok shared := by
          rw [Receiver.step, if_neg (by simp [hopen]), hreceive]
          rfl
        rw [Bool.eq_false_iff]
        intro hclosed
        obtain hclosed | ⟨-, addr, dg, hact⟩ := closed_of_step hshared hclosed
        · exact absurd hclosed (by simp [hopen])
        · cases hact
      · cases hnext
    | returned value =>
      cases hstep
      exact hopen
  · cases hstep
    exact hopen

/-- The sections of `mrt_accept1` and `mrt_accept_all` do not close the receiver. -/
theorem accept_open {s s' : State} {i : ℕ} (hopen : s.shared.closed = false)
    (hstep : step s (.mrtAcceptContinue i) = .ok s') : s'.shared.closed = false := by
  rw [step] at hstep
  split at hstep
  · rename_i call hcall
    cases call with
    | peek =>
      have hnext := (of_useQueues hstep).2
      split at hnext <;> cases hnext <;> exact hopen
    | dequeue all =>
      have hnext := (of_useQueues hstep).2
      split at hnext
      · cases hnext
        exact hopen
      · rename_i r queue hqueue
        cases hnext
        simpa [State.setAccept, mrtAccept1Dequeue, hqueue, deqQ] using hopen
    | enqueue all =>
      cases (of_useQueues hstep).2
      unfold State.setAccept mrtAccept1Enqueue
      split <;> exact hopen
    | returned =>
      cases hstep
      exact hopen
  · cases hstep
    exact hopen

/-- The section of a `checker` does not close the receiver. -/
theorem checker_open {s s' : State} {i : ℕ} (hopen : s.shared.closed = false)
    (hstep : step s (.checkerContinue i) = .ok s') : s'.shared.closed = false := by
  rw [step] at hstep
  split at hstep
  · rename_i position hposition
    cases position with
    | locking =>
      cases (of_useQueues hstep).2
      exact hopen
    | sleeping | ended | cancelled =>
      cases hstep
      exact hopen
  · cases hstep
    exact hopen

/-- A step that does nothing in a quiet state and does not close the receiver keeps the
invariant. -/
theorem ClosedQuiet.of_section {s s' : State} {act : Action} (h : ClosedQuiet s)
    (hquiet : s.Quiet → step s act = .ok s)
    (hopen : s.shared.closed = false → s'.shared.closed = false)
    (hstep : step s act = .ok s') : ClosedQuiet s' := by
  cases hclosed : s.shared.closed with
  | true =>
    rw [hquiet (h hclosed).1] at hstep
    cases hstep
    exact h
  | false =>
    intro hnow
    rw [hopen hclosed] at hnow
    cases hnow

/-- The clean-up cancels the sleeping checkers and leaves the others. -/
theorem mem_map_cancel (checkers : List CheckerPosition) :
    .sleeping ∉ checkers.map CheckerPosition.cancel ∧
      (.locking ∈ checkers.map CheckerPosition.cancel ↔ .locking ∈ checkers) := by
  constructor
  · intro hmem
    obtain ⟨position, -, hposition⟩ := List.mem_map.mp hmem
    cases position <;> cases hposition
  · constructor
    · intro hmem
      obtain ⟨position, hold, hposition⟩ := List.mem_map.mp hmem
      cases position with
      | locking => exact hold
      | sleeping | ended | cancelled => cases hposition
    · intro hmem
      exact List.mem_map.mpr ⟨.locking, hmem, rfl⟩

/-- A datagram keeps the invariant if the clean-up, when there is one, is quiet. -/
theorem closedQuiet_mainHandler {s s' : State} {addr : SockaddrIn} {dg : Datagram}
    (h : ClosedQuiet s) (hquiet : s.Closes → s.Quiet)
    (hstep : step s (.mainHandler addr dg) = .ok s') : ClosedQuiet s' := by
  rw [step] at hstep
  cases hshared : Receiver.step s.shared (.mainHandler addr dg) with
  | error e =>
    rw [hshared] at hstep
    cases hstep
  | ok shared =>
    rw [hshared] at hstep
    cases hstep
    intro hclosed
    by_cases hcloses : s.Closes
    · obtain ⟨hreceives, haccepts, hcheckers⟩ := hquiet hcloses
      obtain ⟨hsleeping, hlocking⟩ := mem_map_cancel s.checkers
      simp only [if_pos hcloses]
      exact ⟨⟨hreceives, haccepts, fun hmem => hcheckers (hlocking.mp hmem)⟩, hsleeping⟩
    · simp only [if_neg hcloses]
      have hbefore : s.shared.closed = true := by
        obtain hbefore | ⟨hclose, -⟩ := closed_of_step hshared hclosed
        · exact hbefore
        · by_contra hopen
          exact hcloses ⟨hclose, Bool.eq_false_iff.mpr hopen⟩
      obtain ⟨⟨hreceives, haccepts, hcheckers⟩, hsleeping⟩ := h hbefore
      exact ⟨⟨hreceives, haccepts, hcheckers⟩, hsleeping⟩

/-- A step that closes quietly keeps the invariant. After the clean-up no call is made, and
before it there is nothing to show. -/
theorem closedQuiet_step {s s' : State} {act : Action} (h : ClosedQuiet s)
    (hcondition : ClosesQuietly s act) (hstep : step s act = .ok s') : ClosedQuiet s' := by
  have hcall : s.shared.closed = false → s'.shared = s.shared → ClosedQuiet s' := by
    intro hopen hsame hclosed
    rw [hsame, hopen] at hclosed
    cases hclosed
  cases act with
  | mainHandler addr dg => exact closedQuiet_mainHandler h hcondition hstep
  | mrtClose =>
    cases hstep
    intro hclosed
    obtain ⟨⟨hreceives, haccepts, hcheckers⟩, hsleeping⟩ := h hclosed
    exact ⟨⟨hreceives, haccepts, hcheckers⟩, hsleeping⟩
  | mrtReceive1 id len | mrtAccept1 | mrtAcceptAll =>
    cases hstep
    exact hcall hcondition rfl
  | mrtReceive1Continue i =>
    exact h.of_section (fun hquiet => receive_of_quiet hquiet i)
      (fun hopen => receive_open hopen hstep) hstep
  | mrtAcceptContinue i =>
    exact h.of_section (fun hquiet => accept_of_quiet hquiet i)
      (fun hopen => accept_open hopen hstep) hstep
  | checkerContinue i =>
    exact h.of_section (fun hquiet => checker_of_quiet hquiet i)
      (fun hopen => checker_open hopen hstep) hstep
  | mrtProbe probeQ =>
    rw [step, mrtProbe_eq] at hstep
    cases hstep
    exact h
  | checkerWakes i =>
    cases hstep
    split
    · rename_i hposition
      intro hclosed
      exact absurd (List.mem_of_getElem? hposition) (h hclosed).2
    · exact h

/-- At the start the receiver is open, so that nothing is claimed yet. -/
theorem closedQuiet_initial : ClosedQuiet initial := by
  intro hclosed
  cases hclosed

/-- A call of `mrt_receive1` in progress uses the deleted queue. -/
theorem receive_useAfterFree {s : State} {i : ℕ} {call : ReceiveCall}
    (hclosed : s.shared.closed = true) (hcall : s.receiveCalls[i]? = some call)
    (hprogress : ¬call.HasReturned) :
    step s (.mrtReceive1Continue i) = .error .useAfterFree := by
  rw [step, hcall]
  cases call with
  | firstLookup id len | lookup id len => exact useQueues_of_closed hclosed _
  | returned value => exact absurd trivial hprogress

/-- A call of `mrt_accept1` in progress uses the deleted queue. -/
theorem accept_useAfterFree {s : State} {i : ℕ} {call : AcceptCall}
    (hclosed : s.shared.closed = true) (hcall : s.acceptCalls[i]? = some call)
    (hprogress : call ≠ .returned) :
    step s (.mrtAcceptContinue i) = .error .useAfterFree := by
  rw [step, hcall]
  cases call with
  | peek | dequeue all | enqueue all => exact useQueues_of_closed hclosed _
  | returned => exact absurd rfl hprogress

/-- A closed receiver with anything in progress is not safe. -/
theorem QueuesSafe.quiet {s : State} (h : QueuesSafe s)
    (hclosed : s.shared.closed = true) : s.Quiet := by
  constructor
  · intro call hmem
    obtain ⟨i, hi⟩ := List.getElem?_of_mem hmem
    by_contra hprogress
    exact h.receive_live i (receive_useAfterFree hclosed hi hprogress)
  · intro call hmem
    obtain ⟨i, hi⟩ := List.getElem?_of_mem hmem
    by_contra hprogress
    exact h.accept_live i (accept_useAfterFree hclosed hi hprogress)
  · intro hmem
    obtain ⟨i, hi⟩ := List.getElem?_of_mem hmem
    apply h.checker_live i
    rw [step, hi]
    exact useQueues_of_closed hclosed _

/-- A step that does not close quietly leaves the queues unsafe. -/
theorem not_queuesSafe_of_step {s : State} {act : Action} (hbroken : ¬ClosesQuietly s act) :
    ∃ s', step s act = .ok s' ∧ ¬QueuesSafe s' := by
  have hclosed_of : ¬s.shared.closed = false → s.shared.closed = true := by simp
  cases act with
  | mainHandler addr dg =>
    obtain ⟨hcloses, hbusy⟩ := Classical.not_imp.mp hbroken
    have hshared : Receiver.step s.shared (.mainHandler addr dg) = .ok (cleanUp s.shared) := by
      rw [Receiver.step, if_neg (by simp [hcloses.2]), mainHandler, if_pos hcloses.1]
    refine ⟨_, by rw [step, hshared]; rfl, fun hsafe => hbusy ?_⟩
    obtain ⟨hreceives, haccepts, hcheckers⟩ := hsafe.quiet rfl
    refine ⟨hreceives, haccepts, fun hmem => hcheckers ?_⟩
    simp only [if_pos hcloses]
    exact (mem_map_cancel _).2.mpr hmem
  | mrtReceive1 id len =>
    refine ⟨_, rfl, fun hsafe => ?_⟩
    have hquiet := hsafe.quiet (hclosed_of hbroken)
    exact hquiet.receives (.firstLookup id len) (List.mem_append_right _ List.mem_cons_self)
  | mrtAccept1 =>
    refine ⟨_, rfl, fun hsafe => ?_⟩
    have hquiet := hsafe.quiet (hclosed_of hbroken)
    cases hquiet.accepts (.dequeue false) (List.mem_append_right _ List.mem_cons_self)
  | mrtAcceptAll =>
    refine ⟨_, rfl, fun hsafe => ?_⟩
    have hquiet := hsafe.quiet (hclosed_of hbroken)
    cases hquiet.accepts .peek (List.mem_append_right _ List.mem_cons_self)
  | _ => exact absurd trivial hbroken

/-- The queues are used safely in exactly the runs in which the clean-up finds no thread
that goes on to use them and no call is made after it. -/
theorem queuesSafe_iff (acts : List Action) :
    Always step (fun _ s' => QueuesSafe s') initial acts ↔
      Meets step ClosesQuietly initial acts := by
  apply always_iff_meets ClosedQuiet
  · intro s act s' h hcondition hstep
    have hnext := closedQuiet_step h hcondition hstep
    exact ⟨hnext.queuesSafe, hnext⟩
  · intro s act _ hbroken
    exact not_queuesSafe_of_step hbroken
  · exact closedQuiet_initial

/-- A sender is accepted, a call of `mrt_receive1` waits for its data, and the receiver is
closed. -/
def closedWhileWaiting : List Action :=
  [.mainHandler (loopback 0x9210) rconDatagram, .mrtAccept1, .mrtAcceptContinue 0,
    .mrtAcceptContinue 0, .checkerContinue 0, .mrtReceive1 (loopback 0x9210) 1,
    .mrtReceive1Continue 0, .mrtReceive1Continue 0, .mrtClose,
    .mainHandler (loopback 0x9210) rconDatagram]

/-- The waiting call uses the deleted queue instead of returning 0, as the comment of
`mrt_receive1` promises. -/
theorem queuesSafe_fails_while_waiting :
    ¬Always step (fun _ s' => QueuesSafe s') initial closedWhileWaiting := by
  have hrun : someStep step
      (fun _ s' => failsWith (step s' (.mrtReceive1Continue 0)) .useAfterFree)
      initial closedWhileWaiting = true := by
    decide +kernel
  refine not_always_of_someStep (fun s s' htest hsafe => ?_) hrun
  exact hsafe.receive_live 0 (eq_error_of_failsWith htest)

end NetworkLabs.Mrt.Lifetime
