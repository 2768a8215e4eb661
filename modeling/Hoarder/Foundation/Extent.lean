/-
Module: Hoarder.Foundation.Extent
Purpose: Extents of a flat memory: when one lies in another, when two share no place, and the equal
  slots a block is divided into.
Trusted boundary: none
Main exports: Extent, Extent.Within, Extent.Apart, Extent.slot, Extent.drop, Extent.drop_within,
  Extent.slots_apart, Extent.Apart.within
-/
import Mathlib

namespace Hoarder.Foundation

/-- So many places from `start` on. -/
structure Extent where
  start : Nat
  len : Nat
deriving DecidableEq, Repr

namespace Extent

/-- The first place behind the extent. -/
def finish (extent : Extent) : Nat :=
  extent.start + extent.len

/-- The one extent lies in the other. -/
def Within (inner outer : Extent) : Prop :=
  outer.start ≤ inner.start ∧ inner.finish ≤ outer.finish

/-- The extents share no place. -/
def Apart (first second : Extent) : Prop :=
  first.finish ≤ second.start ∨ second.finish ≤ first.start

/-- One of the slots of a block that is divided into slots of one size. -/
def slot (base size index : Nat) : Extent :=
  ⟨base + index * size, size⟩

/-- The extent without its first `offset` places. -/
def drop (extent : Extent) (offset : Nat) : Extent :=
  ⟨extent.start + offset, extent.len - offset⟩

variable {inner inner' outer outer' extent : Extent} {base size index index' offset : Nat}

theorem drop_finish (inside : offset ≤ extent.len) : (extent.drop offset).finish = extent.finish := by
  simp only [finish, drop]
  omega

theorem drop_within (inside : offset ≤ extent.len) : (extent.drop offset).Within extent :=
  ⟨Nat.le_add_right _ _, (drop_finish inside).le⟩

/-- What lies in extents that are apart is apart. -/
theorem Apart.within (apart : outer.Apart outer') (first : inner.Within outer)
    (second : inner'.Within outer') : inner.Apart inner' := by
  rcases apart with before | after
  · exact .inl (first.2.trans (before.trans second.1))
  · exact .inr (second.2.trans (after.trans first.1))

/-- A slot ends where the next one starts, or before any later one. -/
theorem slot_before (earlier : index < index') :
    (slot base size index).finish ≤ (slot base size index').start := by
  have room : (index + 1) * size ≤ index' * size := Nat.mul_le_mul_right size earlier
  simp only [slot, finish]
  rw [Nat.succ_mul] at room
  omega

theorem slots_apart (different : index ≠ index') :
    (slot base size index).Apart (slot base size index') := by
  rcases Nat.lt_or_gt_of_ne different with earlier | later
  · exact .inl (slot_before earlier)
  · exact .inr (slot_before later)

end Extent

end Hoarder.Foundation
