import NetworkLabs.Mrt.Receiver
import NetworkLabs.Queue.Refinement

/-!
# Set-up calls that fail

One call of `mrt_connect` or `mrt_open` that no other thread disturbs, with every outcome of
the functions it calls. A call that waits for a mutex or for an `ACON` that never comes does
not return.
-/

namespace NetworkLabs.Mrt.SetUp

open Foundations

/-- `make_q` on lists. It returns `NULL` exactly when its `malloc` does. -/
def makeQ {α : Type} (allocated : Bool) : Option (List α) := if allocated then some [] else none

/-- `enq_q` on lists, with its result; `allocated` tells whether it gets its node. -/
def enqQ {α : Type} (allocated : Bool) (queue : Option (List α)) (item : α) :
    Option (List α) × ℤ :=
  match queue with
  | none => (none, -1)
  | some xs => if allocated then (some (Mrt.enqQ xs item), 0) else (some xs, -1)

/-- `enq_q` of the linked queue does to the items and returns what it does on lists. -/
theorem enqQ_refines {α : Type} [DecidableEq α] {h₀ h : Heap α} {q : LinkedQueue.Queue}
    {cells : List (ℕ × α)} (hrep : LinkedQueue.Represents h₀ h q cells) (item : α)
    (choice : Option ℕ) :
    ∃ h' q' cells' value, LinkedQueue.enqQ h (some q) item choice = .ok (h', some q', value) ∧
      LinkedQueue.Represents h₀ h' q' cells' ∧
      enqQ (h.malloc choice).isSome (some (LinkedQueue.items cells)) item =
        (some (LinkedQueue.items cells'), value) := by
  cases hmalloc : h.malloc choice with
  | none => exact ⟨h, q, cells, -1, by rw [LinkedQueue.enqQ, hmalloc], hrep, rfl⟩
  | some node =>
    obtain ⟨h', q', hcall, hrep'⟩ := hrep.enqQ_eq (x := item) hmalloc
    exact ⟨h', q', _, 0, hcall, hrep', by simp [enqQ, Mrt.enqQ]⟩

/-! ### `mrt_connect` -/

/-- The mutexes of a `connection_t`, in the order in which they are initialized. -/
inductive ConnectionMutex where
  | bufferLock
  | receiverLock
  | timeoutLock
  | closeLock
  | outgoingLock
  deriving DecidableEq

/-- What the functions that `mrt_connect` calls return; `acon` tells whether `handler` ever
gets an `ACON`. -/
structure ConnectOutcomes where
  makeQ : Bool
  calloc : Bool
  pthreadMutexInit : ConnectionMutex → ℤ
  socket : ℤ
  bind : ℤ
  enqQ : Bool
  pthreadCreate : ℤ
  acon : Bool

/-- The globals of the sender module; a connection is known by its id. -/
structure SenderModule where
  qLockHeld : Bool
  connectionsQ : Option (List ℕ)
  nextId : ℕ
  deriving DecidableEq

/-- The connections in `connections_q`, of which there are none when the pointer is `NULL`. -/
def SenderModule.connections (m : SenderModule) : List ℕ := m.connectionsQ.getD []

/-- All mutexes of the connection are initialized, which each call of `pthread_mutex_init` tells
by returning 0. -/
def ConnectOutcomes.mutexesMade (o : ConnectOutcomes) : Bool :=
  [.bufferLock, .receiverLock, .timeoutLock, .closeLock, .outgoingLock].all
    fun mutex => o.pthreadMutexInit mutex == 0

/-- `connection_t_init`, with the id of the connection it makes. The counter moves on only when
all else has succeeded. -/
def connectionTInit (o : ConnectOutcomes) (m : SenderModule) : SenderModule × Option ℕ :=
  if o.calloc = false then (m, none)
  else if o.mutexesMade = false then (m, none)
  else if o.socket < 0 then (m, none)
  else if o.bind < 0 then (m, none)
  else ({ m with nextId := m.nextId + 1 }, some m.nextId)

/-- `mrt_connect` from its second critical section on, with the waiting for an `ACON`. -/
def enqueueConnection (o : ConnectOutcomes) (m : SenderModule) (id : ℕ) :
    SenderModule × Option ℤ :=
  -- the result of enq_q is ignored
  let m := { m with connectionsQ := (enqQ o.enqQ m.connectionsQ id).1 }
  if o.pthreadCreate ≠ 0 then (m, some (-1))
  else (m, if o.acon then some id else none)

/-- `mrt_connect`, with what it returns; nothing stands for a call that waits for ever, as for a
lock that is never released or an `ACON` that never comes. -/
def mrtConnect (o : ConnectOutcomes) (m : SenderModule) : SenderModule × Option ℤ :=
  if m.qLockHeld then (m, none)
  else
    match m.connectionsQ <|> makeQ o.makeQ with
    | none => ({ m with qLockHeld := true }, some (-1))
    | some queue =>
      match connectionTInit o { m with connectionsQ := some queue } with
      | (m, none) => (m, some (-1))
      | (m, some id) => enqueueConnection o m id

/-- A call of `mrt_connect` that fails leaves the module as it was, and one that succeeds has
enqueued its connection. -/
structure ConnectsCleanly (o : ConnectOutcomes) (m : SenderModule) : Prop where
  failed : (mrtConnect o m).2 = some (-1) → (mrtConnect o m).1.qLockHeld = false ∧
    (mrtConnect o m).1.connections = m.connections
  enqueued : ∀ id, (mrtConnect o m).2 = some id → 0 ≤ id →
    (mrtConnect o m).1.connections = m.connections ++ [id.toNat]

/-- `connection_t_init` succeeds, as every function that it calls does. -/
def ConnectOutcomes.InitSucceeds (o : ConnectOutcomes) : Prop :=
  o.calloc = true ∧ o.mutexesMade = true ∧ 0 ≤ o.socket ∧ 0 ≤ o.bind

/-- The queue can be made if it has to be, a connection that was enqueued gets its `handler`,
and one that was not gets none or no `ACON`. -/
structure ConnectOutcomes.Handled (o : ConnectOutcomes) (m : SenderModule) : Prop where
  made : m.connectionsQ = none → o.makeQ = true
  created : o.InitSucceeds → o.enqQ = true → o.pthreadCreate = 0
  enqueued : o.InitSucceeds → o.pthreadCreate = 0 → o.acon = true → o.enqQ = true

/-- `connection_t_init` returns a connection exactly when all its parts succeed. -/
theorem connectionTInit_eq (o : ConnectOutcomes) (m : SenderModule) :
    o.InitSucceeds ∧
        connectionTInit o m = ({ m with nextId := m.nextId + 1 }, some m.nextId) ∨
      ¬o.InitSucceeds ∧ connectionTInit o m = (m, none) := by
  unfold connectionTInit
  split
  · rename_i hcalloc
    exact .inr ⟨fun h => by simp [h.1] at hcalloc, rfl⟩
  · rename_i hcalloc
    split
    · rename_i hmutexes
      exact .inr ⟨fun h => by simp [h.2.1] at hmutexes, rfl⟩
    · rename_i hmutexes
      split
      · exact .inr ⟨fun h => absurd h.2.2.1 (by omega), rfl⟩
      · split
        · exact .inr ⟨fun h => absurd h.2.2.2 (by omega), rfl⟩
        · exact .inl ⟨⟨by simpa using hcalloc, by simpa using hmutexes, by omega, by omega⟩, rfl⟩

variable {o : ConnectOutcomes} {m : SenderModule}

/-- The queue that `mrt_connect` goes on with holds the same connections. -/
theorem connections_eq {queue : List ℕ} (hqueue : (m.connectionsQ <|> makeQ o.makeQ) = some queue) :
    m.connections = queue ∧ (m.connectionsQ = none → o.makeQ = true) := by
  unfold SenderModule.connections
  cases hq : m.connectionsQ with
  | none =>
    cases hmake : o.makeQ with
    | false => simp [hq, hmake, makeQ] at hqueue
    | true => simpa [hq, hmake, makeQ] using hqueue
  | some xs => simpa [hq] using hqueue

/-- A call that cannot make the queue returns with `q_lock` held. -/
theorem mrtConnect_of_unmade (hfree : m.qLockHeld = false)
    (hqueue : (m.connectionsQ <|> makeQ o.makeQ) = none) :
    mrtConnect o m = ({ m with qLockHeld := true }, some (-1)) := by
  rw [mrtConnect, hfree, if_neg Bool.false_ne_true, hqueue]

/-- A call whose connection cannot be initialized changes no connection. -/
theorem mrtConnect_of_initFails {queue : List ℕ} (hfree : m.qLockHeld = false)
    (hqueue : (m.connectionsQ <|> makeQ o.makeQ) = some queue) (hinit : ¬o.InitSucceeds) :
    mrtConnect o m = ({ m with connectionsQ := some queue }, some (-1)) := by
  obtain ⟨hsucceeds, -⟩ | ⟨-, heq⟩ := connectionTInit_eq o { m with connectionsQ := some queue }
  · exact absurd hsucceeds hinit
  · rw [mrtConnect, if_neg (by simp [hfree]), hqueue]
    dsimp only
    rw [heq]

/-- A call whose connection is initialized goes on with it. -/
theorem mrtConnect_of_initSucceeds {queue : List ℕ} (hfree : m.qLockHeld = false)
    (hqueue : (m.connectionsQ <|> makeQ o.makeQ) = some queue) (hinit : o.InitSucceeds) :
    mrtConnect o m = ({ m with
        connectionsQ := some (if o.enqQ then queue ++ [m.nextId] else queue)
        nextId := m.nextId + 1 },
      if o.pthreadCreate ≠ 0 then some (-1) else if o.acon then some (m.nextId : ℤ) else none) := by
  obtain ⟨-, heq⟩ | ⟨hfails, -⟩ := connectionTInit_eq o { m with connectionsQ := some queue }
  · rw [mrtConnect, if_neg (by simp [hfree]), hqueue]
    dsimp only
    rw [heq]
    unfold enqueueConnection enqQ Mrt.enqQ
    cases o.enqQ <;> by_cases hcreate : o.pthreadCreate = 0 <;> simp [hcreate]
  · exact absurd hinit hfails

/-- Once its connection is initialized, a failing call is clean unless it has enqueued it. -/
theorem failed_iff {queue : List ℕ} (hfree : m.qLockHeld = false)
    (hqueue : (m.connectionsQ <|> makeQ o.makeQ) = some queue) (hinit : o.InitSucceeds) :
    ((mrtConnect o m).2 = some (-1) → (mrtConnect o m).1.qLockHeld = false ∧
        (mrtConnect o m).1.connections = m.connections) ↔
      (o.enqQ = true → o.pthreadCreate = 0) := by
  rw [mrtConnect_of_initSucceeds hfree hqueue hinit, (connections_eq hqueue).1]
  dsimp only
  by_cases hcreate : o.pthreadCreate = 0
  · -- an id is not -1
    refine iff_of_true (fun hvalue => ?_) fun _ => hcreate
    cases o.acon <;> simp [hcreate] at hvalue
  · cases henq : o.enqQ with
    | false => simp [hfree, SenderModule.connections]
    | true => simp [hcreate, SenderModule.connections]

/-- And an id that it returns is that of an enqueued connection, unless `enq_q` has failed. -/
theorem enqueued_iff {queue : List ℕ} (hfree : m.qLockHeld = false)
    (hqueue : (m.connectionsQ <|> makeQ o.makeQ) = some queue) (hinit : o.InitSucceeds) :
    (∀ id, (mrtConnect o m).2 = some id → 0 ≤ id →
        (mrtConnect o m).1.connections = m.connections ++ [id.toNat]) ↔
      (o.pthreadCreate = 0 → o.acon = true → o.enqQ = true) := by
  rw [mrtConnect_of_initSucceeds hfree hqueue hinit, (connections_eq hqueue).1]
  dsimp only
  by_cases hcreate : o.pthreadCreate = 0
  · cases hacon : o.acon with
    | false => simp [hcreate]
    | true =>
      cases henq : o.enqQ with
      | false => simp [hcreate, SenderModule.connections]
      | true => simp [hcreate, SenderModule.connections]
  · refine iff_of_true (fun id hvalue hid => ?_) fun h => absurd h hcreate
    rw [if_pos hcreate, Option.some.injEq] at hvalue
    omega

/-- `mrt_connect` fails cleanly and registers what it returns in exactly these cases. -/
theorem connectsCleanly_iff (hfree : m.qLockHeld = false) : ConnectsCleanly o m ↔ o.Handled m := by
  cases hqueue : m.connectionsQ <|> makeQ o.makeQ with
  | none =>
    have hcall := mrtConnect_of_unmade hfree hqueue
    refine iff_of_false (fun hclean => ?_) fun hhandled => ?_
    · have hheld := (hclean.failed (by rw [hcall])).1
      rw [hcall] at hheld
      cases hheld
    · cases hq : m.connectionsQ with
      | none => simp [hq, hhandled.made hq, makeQ] at hqueue
      | some xs => simp [hq] at hqueue
  | some queue =>
    obtain ⟨hconnections, hmade⟩ := connections_eq hqueue
    by_cases hinit : o.InitSucceeds
    · have hfailed := failed_iff hfree hqueue hinit
      have henqueued := enqueued_iff hfree hqueue hinit
      constructor
      · intro hclean
        exact ⟨hmade, fun _ => hfailed.mp hclean.failed, fun _ => henqueued.mp hclean.enqueued⟩
      · intro hhandled
        exact ⟨hfailed.mpr (hhandled.created hinit), henqueued.mpr (hhandled.enqueued hinit)⟩
    · have hcall := mrtConnect_of_initFails hfree hqueue hinit
      refine iff_of_true ⟨fun _ => ?_, fun id hid hnonneg => ?_⟩
        ⟨hmade, fun h => absurd h hinit, fun h => absurd h hinit⟩
      · rw [hcall, hconnections]
        exact ⟨hfree, rfl⟩
      · rw [hcall, Option.some.injEq] at hid
        omega

/-! ### `mrt_open` -/

/-- What the functions that `mrt_open` calls return, in the order of the calls. -/
structure OpenOutcomes where
  socket : ℤ
  bind : ℤ
  makePendingQ : Bool
  makeConnectedQ : Bool
  pthreadCreate : ℤ

/-- The globals of the receiver module that `mrt_open` sets, and whether `q_lock` is held when a
call returns. -/
structure ReceiverModule where
  receSockfd : ℤ
  qLockHeld : Bool
  pendingSendersQ : Option (List Receiver.Sender)
  connectedSendersQ : Option (List Receiver.Sender)

/-- `mrt_open` from its critical section on. When a queue cannot be made it returns with
`q_lock` held. -/
def makeQueues (o : OpenOutcomes) (r : ReceiverModule) : ReceiverModule × Option ℤ :=
  if r.qLockHeld then (r, none)
  else
    let r := { r with
      pendingSendersQ := makeQ o.makePendingQ
      connectedSendersQ := makeQ o.makeConnectedQ }
    if r.pendingSendersQ.isNone || r.connectedSendersQ.isNone then
      ({ r with qLockHeld := true }, some (-1))
    else if o.pthreadCreate ≠ 0 then (r, some (-1))
    else (r, some 0)

/-- `mrt_open`, with what it returns. A failure of `socket` or `bind` comes before the critical
section and touches neither the lock nor the queues. -/
def mrtOpen (o : OpenOutcomes) (r : ReceiverModule) : ReceiverModule × Option ℤ :=
  let r := { r with receSockfd := o.socket }
  if o.socket < 0 then (r, some (-1))
  else if o.bind < 0 then (r, some (-1))
  else makeQueues o r

/-- The first critical section of `mrt_accept1`, with the sender that it takes; it does not end
while `q_lock` is held. -/
def mrtAccept1Dequeue (r : ReceiverModule) : Option (ReceiverModule × Option Receiver.Sender) :=
  if r.qLockHeld then none
  else
    match r.pendingSendersQ.bind deqQ with
    | none => some (r, none)
    | some (s, queue) => some ({ r with pendingSendersQ := some queue }, some s)

/-- A call of `mrt_open` that fails leaves `q_lock` to later calls. -/
structure OpensCleanly (o : OpenOutcomes) (r : ReceiverModule) : Prop where
  released : (mrtOpen o r).2 = some (-1) → (mrtOpen o r).1.qLockHeld = false
  open_returns : (mrtOpen o r).2 = some (-1) → ∀ o', (mrtOpen o' (mrtOpen o r).1).2 ≠ none
  accept_takes : (mrtOpen o r).2 = some (-1) → mrtAccept1Dequeue (mrtOpen o r).1 ≠ none

/-- Both queues are made when the call gets so far. -/
def OpenOutcomes.MakesQueues (o : OpenOutcomes) : Prop :=
  0 ≤ o.socket → 0 ≤ o.bind → o.makePendingQ = true ∧ o.makeConnectedQ = true

/-- A call of `mrt_open` ends when nobody holds `q_lock`, with success or with a failure. -/
theorem mrtOpen_returns {r : ReceiverModule} (hfree : r.qLockHeld = false) (o : OpenOutcomes) :
    (mrtOpen o r).2 ≠ none := by
  unfold mrtOpen
  dsimp only
  split
  · exact Option.some_ne_none _
  · split
    · exact Option.some_ne_none _
    · unfold makeQueues
      rw [if_neg (by simp [hfree])]
      dsimp only
      split
      · exact Option.some_ne_none _
      · split <;> exact Option.some_ne_none _

/-- `mrt_accept1` takes `q_lock` when nobody holds it. -/
theorem mrtAccept1Dequeue_ne {r : ReceiverModule} (hfree : r.qLockHeld = false) :
    mrtAccept1Dequeue r ≠ none := by
  rw [mrtAccept1Dequeue, if_neg (by simp [hfree])]
  split <;> exact Option.some_ne_none _

/-- A call of `mrt_open` keeps `q_lock` exactly when it cannot make its queues. -/
theorem qLockHeld_mrtOpen {r : ReceiverModule} (hfree : r.qLockHeld = false) (o : OpenOutcomes) :
    (mrtOpen o r).1.qLockHeld = false ↔ o.MakesQueues := by
  unfold mrtOpen OpenOutcomes.MakesQueues
  dsimp only
  split
  · exact iff_of_true hfree fun hsocket => by omega
  · split
    · exact iff_of_true hfree fun _ hbind => by omega
    · unfold makeQueues makeQ
      rw [if_neg (by simp [hfree])]
      rename_i hsocket hbind
      have hreached : 0 ≤ o.socket ∧ 0 ≤ o.bind := by omega
      by_cases hcreate : o.pthreadCreate = 0 <;> cases o.makePendingQ <;>
        cases o.makeConnectedQ <;> simp [hreached, hcreate, hfree]

/-- A call of `mrt_open` that keeps `q_lock` has failed, as one that succeeds has
released it. -/
theorem mrtOpen_of_held {r : ReceiverModule} (hfree : r.qLockHeld = false) {o : OpenOutcomes}
    (hheld : (mrtOpen o r).1.qLockHeld ≠ false) : (mrtOpen o r).2 = some (-1) := by
  unfold mrtOpen at hheld ⊢
  dsimp only at hheld ⊢
  split
  · rfl
  · rename_i hsocket
    rw [if_neg hsocket] at hheld
    split
    · rfl
    · rename_i hbind
      rw [if_neg hbind] at hheld
      unfold makeQueues at hheld ⊢
      rw [if_neg (by simp [hfree])] at hheld ⊢
      dsimp only at hheld ⊢
      split
      · rfl
      · rename_i hmade
        rw [if_neg hmade] at hheld
        split at hheld <;> exact absurd hfree hheld

/-- `mrt_open` fails cleanly exactly when it can make its queues or does not get so far. -/
theorem opensCleanly_iff {r : ReceiverModule} (hfree : r.qLockHeld = false) (o : OpenOutcomes) :
    OpensCleanly o r ↔ o.MakesQueues := by
  rw [← qLockHeld_mrtOpen hfree]
  constructor
  · intro hclean
    by_contra hheld
    exact hheld (hclean.released (mrtOpen_of_held hfree hheld))
  · intro hreleased
    exact ⟨fun _ => hreleased, fun _ => mrtOpen_returns hreleased,
      fun _ => mrtAccept1Dequeue_ne hreleased⟩

/-- Called while nobody holds `q_lock`, the two set-up calls leave their modules clean in
exactly these cases: every queue that is to be made is made, and no connection is enqueued
without its `handler` or the other way round. -/
theorem setUpClean_iff (o : ConnectOutcomes) (m : SenderModule) (o' : OpenOutcomes)
    (r : ReceiverModule) (hsender : m.qLockHeld = false) (hreceiver : r.qLockHeld = false) :
    ConnectsCleanly o m ∧ OpensCleanly o' r ↔ o.Handled m ∧ o'.MakesQueues :=
  and_congr (connectsCleanly_iff hsender) (opensCleanly_iff hreceiver o')

/-- Everything succeeds but what is given, so that each example names its failing
function only. -/
def succeeding : ConnectOutcomes :=
  { makeQ := true, calloc := true, pthreadMutexInit := fun _ => 0, socket := 3, bind := 0
    enqQ := true, pthreadCreate := 0, acon := true }

/-- With a connection open and `bind` failing, `mrt_connect` and `mrt_open` fail cleanly. -/
theorem setUpClean_bindFails :
    ConnectsCleanly { succeeding with bind := -1 } ⟨false, some [0], 1⟩ ∧
      OpensCleanly ⟨3, -1, true, true, 0⟩ ⟨0, false, none, none⟩ :=
  (setUpClean_iff _ _ _ _ rfl rfl).mpr
    ⟨⟨fun h => absurd h (Option.some_ne_none _), fun h => absurd h.2.2.2 (by decide),
      fun _ _ _ => rfl⟩, fun _ hbind => absurd hbind (by decide)⟩

/-- They do not when `make_q` fails, in either call, when the second connection gets no node,
and when it gets no thread for its `handler`. -/
theorem setUpClean_fails :
    (¬ConnectsCleanly { succeeding with makeQ := false } ⟨false, none, 0⟩) ∧
      (¬ConnectsCleanly { succeeding with enqQ := false } ⟨false, some [0], 1⟩) ∧
      (¬ConnectsCleanly { succeeding with pthreadCreate := 11 } ⟨false, some [0], 1⟩) ∧
      ¬OpensCleanly ⟨3, 0, false, true, 0⟩ ⟨0, false, none, none⟩ := by
  refine ⟨fun h => ?_, fun h => ?_, fun h => ?_, fun h => ?_⟩
  · exact absurd (h.failed rfl).1 (by decide)
  · exact absurd (h.enqueued 1 rfl (by decide)) (by decide)
  · exact absurd (h.failed rfl).2 (by decide)
  · exact absurd (h.released rfl) (by decide)

end NetworkLabs.Mrt.SetUp
