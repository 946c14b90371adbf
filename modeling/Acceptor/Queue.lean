/-!
# First in, first out

The queue of the standard library keeps its elements in two lists.  Here it
is described by the one list of its elements in the order in which they will
leave.
-/

namespace Acceptor

universe u

variable {α : Type u}

/-- The elements of a queue in the order in which they leave it. -/
def waiting (queue : Std.Queue α) : List α :=
  queue.dList ++ queue.eList.reverse

@[simp]
theorem waiting_empty : waiting (∅ : Std.Queue α) = [] := rfl

@[simp]
theorem waiting_enqueue (queue : Std.Queue α) (element : α) :
    waiting (queue.enqueue element) = waiting queue ++ [element] := by
  simp [waiting, Std.Queue.enqueue]

/-- Nothing leaves an empty queue. -/
theorem waiting_of_dequeue?_eq_none {queue : Std.Queue α} (none : queue.dequeue? = none) :
    waiting queue = [] := by
  unfold Std.Queue.dequeue? at none
  split at none
  · cases none
  · next front =>
      split at none
      · next back => simp [waiting, front, back]
      · cases none

/-- The element that leaves is the one that has waited longest. -/
theorem waiting_of_dequeue?_eq_some {queue rest : Std.Queue α} {element : α}
    (some : queue.dequeue? = some (element, rest)) :
    waiting queue = element :: waiting rest := by
  unfold Std.Queue.dequeue? at some
  split at some
  · next front =>
      cases some
      simp [waiting, front]
  · next front =>
      split at some
      · cases some
      · next back =>
          cases some
          simp [waiting, front, back]

end Acceptor
