/-
Module: Hoarder.Foundation.Window
Purpose: Windows of a circular store: the cells met by walking `len` places from `start`, modulo
  the size of the store.  The lemmas say what writing behind the window, dropping its first cell
  and touching a cell outside it do to the walk.
Trusted boundary: none
Main exports: Window.cells, Window.cells_write_end, Window.cells_cons, Window.cells_update_outside
-/
import Mathlib

namespace Hoarder.Foundation.Window

variable {α : Type*} {store : Nat → α} {size start len : Nat}

/-- The cells of the window, in walking order. -/
def cells (store : Nat → α) (size start len : Nat) : List α :=
  (List.range len).map fun i => store ((start + i) % size)

@[simp] theorem cells_length : (cells store size start len).length = len := by
  simp [cells]

@[simp] theorem cells_zero : cells store size start 0 = [] := rfl

/-- Two places of a window no longer than the store coincide only if they are the same place. -/
theorem place_injective (room : len ≤ size) {i j : Nat} (hi : i < len) (hj : j < len)
    (same : (start + i) % size = (start + j) % size) : i = j := by
  have congruent : i % size = j % size := by
    have shifted : start + i ≡ start + j [MOD size] := same
    exact Nat.ModEq.add_left_cancel' start shifted
  rwa [Nat.mod_eq_of_lt (by omega), Nat.mod_eq_of_lt (by omega)] at congruent

/-- Changing a cell the window does not contain leaves the walk alone. -/
theorem cells_update_outside {place : Nat} (value : α)
    (outside : ∀ i < len, (start + i) % size ≠ place) :
    cells (Function.update store place value) size start len = cells store size start len := by
  apply List.map_congr_left
  intro i member
  rw [Function.update_of_ne (outside i (List.mem_range.mp member))]

/-- Writing the place just behind a window that does not fill the store appends the value. -/
theorem cells_write_end (room : len < size) (value : α) :
    cells (Function.update store ((start + len) % size) value) size start (len + 1) =
      cells store size start len ++ [value] := by
  have outside : ∀ i < len, (start + i) % size ≠ (start + len) % size := by
    intro i hi same
    have := place_injective (Nat.succ_le_of_lt room) (by omega) (by omega) same
    omega
  have kept : cells (Function.update store ((start + len) % size) value) size start len =
      cells store size start len := cells_update_outside value outside
  unfold cells at kept ⊢
  rw [List.range_succ, List.map_append, kept]
  simp

/-- A non-empty window is its first cell followed by the window one place further on. -/
theorem cells_cons (inside : start < size) :
    cells store size start (len + 1) = store start :: cells store size ((start + 1) % size) len := by
  unfold cells
  rw [List.range_succ_eq_map, List.map_cons, List.map_map, Nat.add_zero,
    Nat.mod_eq_of_lt inside]
  congr 1
  apply List.map_congr_left
  intro i _
  simp only [Function.comp_apply, Nat.mod_add_mod]
  congr 2
  omega

/-- Clearing the first cell does not touch the window behind it. -/
theorem cells_drop_first (inside : start < size) (room : len + 1 ≤ size) (value : α) :
    cells (Function.update store start value) size ((start + 1) % size) len =
      cells store size ((start + 1) % size) len := by
  apply cells_update_outside
  intro i hi same
  rw [Nat.mod_add_mod, Nat.add_assoc] at same
  have wrapped : (start + (1 + i)) % size = (start + 0) % size := by
    rw [same, Nat.add_zero, Nat.mod_eq_of_lt inside]
  have := place_injective room (by omega) (by omega) wrapped
  omega

end Hoarder.Foundation.Window
