import Mathlib.Data.Int.Notation
import NetworkLabs.Foundations.LinkedList

/-!
# The linked queue

`Queue.c` of both labs over a heap of nodes. The queue is `NULL` when `make_q` failed. A
loop has fuel for its iterations, and `lastNode` is not set before the first of them; what
the callers' integers are is given to the call that reads them.
-/

namespace NetworkLabs.LinkedQueue

open Foundations

/-- `q_t`, with pointers to the first and to the last node. -/
structure Queue where
  head : Option ℕ
  tail : Option ℕ
  deriving DecidableEq

variable {ι : Type}

/-- `make_q`, which returns `NULL` when its `malloc` does and else an empty queue. -/
def makeQ (allocated : Bool) : Option Queue :=
  if allocated then some { head := none, tail := none } else none

/-- `enq_q`; `choice` is what `malloc` would like to return. It fails without a node and for no
queue. -/
def enqQ (h : Heap ι) (queue : Option Queue) (item : ι) (choice : Option ℕ) :
    Except HeapFault (Heap ι × Option Queue × ℤ) :=
  match queue with
  | none => .ok (h, none, -1)
  | some q =>
    match h.malloc choice with
    | none => .ok (h, some q, -1)
    | some node =>
      let h := h.put node { item := item, next := none }
      if q.head = none then .ok (h, some { head := some node, tail := some node }, 0)
      else do
        let h ← h.setNext q.tail (some node)
        .ok (h, some { q with tail := some node }, 0)

/-- `deq_q`. The node is freed, its item is the caller's, and `tail` is `NULL` again when the
last node has gone. -/
def deqQ (h : Heap ι) (queue : Option Queue) :
    Except HeapFault (Heap ι × Option Queue × Option ι) :=
  match queue with
  | none => .ok (h, none, none)
  | some q =>
    match q.head with
    | none => .ok (h, some q, none)
    | some head => do
      let node ← h.load (some head)
      let h ← h.free head
      let tail := if node.next = none then none else q.tail
      .ok (h, some { head := node.next, tail := tail }, some node.item)

/-- `peek_q`, the first item, which stays in the queue. There is none in no queue. -/
def peekQ (h : Heap ι) (queue : Option Queue) : Except HeapFault (Option ι) :=
  match queue with
  | none => .ok none
  | some q =>
    match q.head with
    | none => .ok none
    | some head => (h.load (some head)).map fun node => some node.item

/-- The loop of `iterate_q`; the function is applied to the items through its argument. -/
def iterateLoop {σ : Type} (itemfunc : σ → ι → σ) (h : Heap ι) :
    ℕ → σ → Option ℕ → Except HeapFault σ
  | 0, _, _ => .error .outOfFuel
  | _ + 1, argument, none => .ok argument
  | fuel + 1, argument, some currNode => do
    let node ← h.load (some currNode)
    iterateLoop itemfunc h fuel (itemfunc argument node.item) node.next

/-- `iterate_q`, with what `itemfunc` does to `argument` as a fold. -/
def iterateQ {σ : Type} (fuel : ℕ) (h : Heap ι) (queue : Option Queue) (itemfunc : σ → ι → σ)
    (argument : σ) : Except HeapFault σ :=
  match queue with
  | none => .ok argument
  | some q => iterateLoop itemfunc h fuel argument q.head

/-- The loop of `get_item_q`, which stops at the first item that the matcher accepts. -/
def getItemLoop (itemMatcher : ι → Bool) (h : Heap ι) :
    ℕ → Option ℕ → Except HeapFault (Option ι)
  | 0, _ => .error .outOfFuel
  | _ + 1, none => .ok none
  | fuel + 1, some currNode => do
    let node ← h.load (some currNode)
    if itemMatcher node.item then .ok (some node.item)
    else getItemLoop itemMatcher h fuel node.next

/-- `get_item_q`, which changes nothing and returns `NULL` for no queue as for no match. -/
def getItemQ (fuel : ℕ) (h : Heap ι) (queue : Option Queue) (itemMatcher : ι → Bool) :
    Except HeapFault (Option ι) :=
  match queue with
  | none => .ok none
  | some q => getItemLoop itemMatcher h fuel q.head

/-- The four cases in which `pop_item_q` and `delete_integer_targets_q` unlink a node: the
only one, the head, the tail, or one in the middle. -/
def unlink (h : Heap ι) (q : Queue) (lastNode : Option ℕ) (currNode : ℕ)
    (nodeBehind : Option ℕ) : Except HeapFault (Heap ι × Queue) :=
  if q.head = some currNode then
    if q.tail = some currNode then .ok (h, { head := none, tail := none })
    else .ok (h, { q with head := nodeBehind })
  else if q.tail = some currNode then do
    let h ← h.setNext lastNode none
    .ok (h, { q with tail := lastNode })
  else do
    let h ← h.setNext lastNode nodeBehind
    .ok (h, q)

/-- The loop of `pop_item_q`. `lastNode` follows one node behind, as the link that has to change
is in that node. -/
def popItemLoop (itemMatcher : ι → Bool) (h : Heap ι) (q : Queue) :
    ℕ → Option ℕ → Option ℕ → Except HeapFault (Heap ι × Queue × Option ι)
  | 0, _, _ => .error .outOfFuel
  | _ + 1, _, none => .ok (h, q, none)
  | fuel + 1, lastNode, some currNode => do
    let node ← h.load (some currNode)
    if itemMatcher node.item then
      let (h, q) ← unlink h q lastNode currNode node.next
      let h ← h.free currNode
      .ok (h, q, some node.item)
    else popItemLoop itemMatcher h q fuel (some currNode) node.next

/-- `pop_item_q`, which takes the first matching node out, frees it and returns its item. -/
def popItemQ (fuel : ℕ) (h : Heap ι) (queue : Option Queue) (itemMatcher : ι → Bool) :
    Except HeapFault (Heap ι × Option Queue × Option ι) :=
  match queue with
  | none => .ok (h, none, none)
  | some q => do
    let (h, q, item) ← popItemLoop itemMatcher h q fuel none q.head
    .ok (h, some q, item)

/-- The node that `delete_integer_targets_q` goes on with, in the cases of `unlink`: `q` is the
queue before the removal, `h'` and `q'` are the heap and the queue after it. -/
def nodeAfterRemoved (h' : Heap ι) (q q' : Queue) (lastNode : Option ℕ) (currNode : ℕ) :
    Except HeapFault (Option ℕ) :=
  if q.head = some currNode then .ok q'.head
  else if q.tail = some currNode then .ok none
  else (h'.load lastNode).map Node.next

variable [DecidableEq ι]

/-- The integer that an item points to, unless it was freed. -/
def readInt (ints : ι → Option ℤ) (freed : List ι) (item : ι) : Except HeapFault ℤ :=
  if item ∈ freed then .error .invalidAccess
  else
    match ints item with
    | some number => .ok number
    | none => .error .invalidAccess

/-- The loop of `delete_integer_targets_q`, where `frees` tells whether the integers are
freed too. -/
def deleteLoop (frees : Bool) (ints : ι → Option ℤ) (target : ℤ) :
    ℕ → Heap ι → Queue → List ι → Option ℕ → Option ℕ →
    Except HeapFault (Heap ι × Queue × List ι)
  | 0, _, _, _, _, _ => .error .outOfFuel
  | _ + 1, h, q, freed, _, none => .ok (h, q, freed)
  | fuel + 1, h, q, freed, lastNode, some currNode => do
    let node ← h.load (some currNode)
    let currNumber ← readInt ints freed node.item
    if currNumber = target then
      let (h', q') ← unlink h q lastNode currNode node.next
      let h' ← h'.free currNode
      let currNode' ← nodeAfterRemoved h' q q' lastNode currNode
      deleteLoop frees ints target fuel h' q' (if frees then freed ++ [node.item] else freed)
        lastNode currNode'
    else deleteLoop frees ints target fuel h q freed (some currNode) node.next

/-- The two copies of the module. The copy of lab3 has more functions; of those that both have
only `delete_integer_targets_q` does something else. -/
inductive Version where
  | lab2
  | lab3
  deriving DecidableEq

/-- Only the copy of lab2 frees the integers that it deletes. -/
def Version.freesInts : Version → Bool
  | .lab2 => true
  | .lab3 => false

/-- `delete_integer_targets_q`, with the integers it freed. It reads through every item of the
queue, so that a dangling one is undefined behaviour. -/
def deleteIntegerTargetsQ (version : Version) (fuel : ℕ) (h : Heap ι) (queue : Option Queue)
    (ints : ι → Option ℤ) (target : ℤ) : Except HeapFault (Heap ι × Option Queue × List ι) :=
  match queue with
  | none => .ok (h, none, [])
  | some q => do
    let (h, q, freed) ← deleteLoop version.freesInts ints target fuel h q [] none q.head
    .ok (h, some q, freed)

/-- A call of one of the module's functions, with what the caller gives it. -/
inductive Call (ι : Type) where
  | enqQ (item : ι) (choice : Option ℕ)
  | deqQ
  | peekQ
  | iterateQ
  | getItemQ (itemMatcher : ι → Bool)
  | popItemQ (itemMatcher : ι → Bool)
  | deleteIntegerTargetsQ (ints : ι → Option ℤ) (target : ℤ)

/-- What a call returns: a code, an item or `NULL`, the items in the order in which a
function is applied to them, or the integers freed. -/
inductive Result (ι : Type) where
  | code (value : ℤ)
  | item (x : Option ι)
  | visited (xs : List ι)
  | freed (xs : List ι)
  deriving DecidableEq

/-- A call in a heap, with the new heap and the new queue beside what it returns. -/
def perform (version : Version) (fuel : ℕ) (h : Heap ι) (queue : Option Queue) :
    Call ι → Except HeapFault (Heap ι × Option Queue × Result ι)
  | .enqQ item choice => do
    let (h, queue, value) ← enqQ h queue item choice
    .ok (h, queue, .code value)
  | .deqQ => do
    let (h, queue, x) ← deqQ h queue
    .ok (h, queue, .item x)
  | .peekQ => do
    let x ← peekQ h queue
    .ok (h, queue, .item x)
  | .iterateQ => do
    let xs ← iterateQ fuel h queue (fun visited x => visited ++ [x]) []
    .ok (h, queue, .visited xs)
  | .getItemQ itemMatcher => do
    let x ← getItemQ fuel h queue itemMatcher
    .ok (h, queue, .item x)
  | .popItemQ itemMatcher => do
    let (h, queue, x) ← popItemQ fuel h queue itemMatcher
    .ok (h, queue, .item x)
  | .deleteIntegerTargetsQ ints target => do
    let (h, queue, xs) ← deleteIntegerTargetsQ version fuel h queue ints target
    .ok (h, queue, .freed xs)

end NetworkLabs.LinkedQueue
