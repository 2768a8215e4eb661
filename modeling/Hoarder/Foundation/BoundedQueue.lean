/-
Module: Hoarder.Foundation.BoundedQueue
Purpose: The first-in first-out queue of bounded capacity, as a specification: the items waiting,
  oldest first, never more than the capacity.
Trusted boundary: none
Main exports: BoundedQueue, BoundedQueue.Call, BoundedQueue.Answer, BoundedQueue.respond,
  BoundedQueue.respond_push_room, BoundedQueue.respond_push_full, BoundedQueue.respond_pop
-/
import Mathlib

namespace Hoarder.Foundation

/-- The items waiting, oldest first. -/
structure BoundedQueue (α : Type*) (capacity : Nat) where
  items : List α
  bounded : items.length ≤ capacity

namespace BoundedQueue

variable {α ε : Type*} {capacity : Nat}

/-- The queue of the first items of a list. -/
def ofFirst (items : List α) : BoundedQueue α capacity :=
  { items := items.take capacity, bounded := List.length_take_le capacity items }

/-- What a client asks for. -/
inductive Call (α : Type*) where
  | push (item : α)
  | pop
deriving DecidableEq, Repr

/-- What it gets.  A push that finds the queue full is refused with an error. -/
inductive Answer (ε α : Type*) where
  | pushed (result : Except ε Unit)
  | popped (item : Option α)
deriving DecidableEq, Repr

/-- A push appends exactly when there is room; a pop takes the oldest item exactly when there is
one. -/
def respond (refusal : ε) (queue : BoundedQueue α capacity) :
    Call α → Answer ε α × BoundedQueue α capacity
  | .push item =>
      if room : queue.items.length < capacity then
        (.pushed (.ok ()),
          { items := queue.items ++ [item]
            bounded := by rw [List.length_append]; exact room })
      else (.pushed (.error refusal), queue)
  | .pop =>
      (.popped queue.items.head?,
        { items := queue.items.tail
          bounded := by rw [List.length_tail]; exact (Nat.sub_le _ 1).trans queue.bounded })

variable {refusal : ε} {queue : BoundedQueue α capacity}

theorem respond_push_room (refusal : ε) (item : α) (room : queue.items.length < capacity) :
    (queue.respond refusal (.push item)).1 = .pushed (.ok ()) ∧
      (queue.respond refusal (.push item)).2.items = queue.items ++ [item] := by
  rw [respond, dif_pos room]
  exact ⟨rfl, rfl⟩

theorem respond_push_full {item : α} (full : ¬ queue.items.length < capacity) :
    queue.respond refusal (.push item) = (.pushed (.error refusal), queue) := by
  rw [respond, dif_neg full]

theorem respond_pop (refusal : ε) (queue : BoundedQueue α capacity) :
    (queue.respond refusal .pop).1 = .popped queue.items.head? ∧
      (queue.respond refusal .pop).2.items = queue.items.tail :=
  ⟨rfl, rfl⟩

end BoundedQueue

end Hoarder.Foundation
