import NetworkLabs.Foundations.FirstMatch

/-!
# Queues as lists

The functions of `Queue.c` on the sequence of items a queue holds, first item
first. An item found by `get_item_q` is a pointer, so its owner may change the
item in place; `updateItemQ` is that change. All of this is code shared by the
senders and the receiver.
-/

namespace NetworkLabs.Mrt

open Foundations

variable {α : Type*}

/-- `enq_q`, when the node can be allocated. The item becomes the last one. -/
def enqQ (queue : List α) (item : α) : List α := queue ++ [item]

/-- `deq_q`, with the item it returns and the queue it leaves. -/
def deqQ : List α → Option (α × List α)
  | [] => none
  | item :: queue => some (item, queue)

/-- `get_item_q`, on the list of the items. -/
def getItemQ (queue : List α) (itemMatcher : α → Bool) : Option α := queue.find? itemMatcher

/-- `pop_item_q`, with the queue it leaves; the returned item is the one that
`get_item_q` returns. -/
def popItemQ (queue : List α) (itemMatcher : α → Bool) : List α := queue.eraseP itemMatcher

/-- A change of the item that `get_item_q` returns, through the returned pointer. -/
def updateItemQ (queue : List α) (itemMatcher : α → Bool) (f : α → α) : List α :=
  updateFirst itemMatcher f queue

end NetworkLabs.Mrt
