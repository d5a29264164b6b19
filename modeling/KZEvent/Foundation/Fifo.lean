import Mathlib.Data.List.Basic

/-!
# First-in first-out queues

The abstract queue is a list, oldest item first.  Its operations are the
purpose of a byte queue: append at the back, drop from the front, empty it.
-/

namespace KZEvent
namespace Foundation

variable {α : Type*}

/-- What can be asked of a queue of `α`. -/
inductive QueueOp (α : Type*)
  | enqueue (items : List α)
  | dequeue (count : Nat)
  | empty

namespace QueueOp

/-- The contents after one operation. -/
def apply (contents : List α) : QueueOp α → List α
  | enqueue items => contents ++ items
  | dequeue count => contents.drop count
  | empty => []

/-- The contents after a sequence of operations. -/
def applyAll (contents : List α) (ops : List (QueueOp α)) : List α :=
  ops.foldl apply contents

end QueueOp

end Foundation
end KZEvent
