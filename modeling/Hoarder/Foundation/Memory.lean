/-
Module: Hoarder.Foundation.Memory
Purpose: Flat memories as functions from places to values, with reading and writing of segments.
Trusted boundary: none
Main exports: Memory.read, Memory.write, Memory.read_append, Memory.read_write_before,
  Memory.read_write_apart, Memory.write_append, Memory.read_write_self, Memory.read_write_behind
-/
import Mathlib

namespace Hoarder.Foundation.Memory

variable {α : Type*} {mem : Nat → α} {data : List α}

/-- The `len` values from `start` on. -/
def read (mem : Nat → α) (start len : Nat) : List α :=
  (List.range len).map fun i => mem (start + i)

/-- Store `data` from `start` on. -/
def write (mem : Nat → α) (start : Nat) (data : List α) : Nat → α :=
  fun place => if start ≤ place then data.getD (place - start) (mem place) else mem place

@[simp] theorem read_length (mem : Nat → α) (start len : Nat) :
    (read mem start len).length = len := by
  simp [read]

@[simp] theorem read_zero (mem : Nat → α) (start : Nat) : read mem start 0 = [] := rfl

theorem read_append (mem : Nat → α) (start len more : Nat) :
    read mem start (len + more) = read mem start len ++ read mem (start + len) more := by
  simp [read, List.range_add, Nat.add_assoc]

/-- A segment that ends where the write begins is unchanged. -/
theorem read_write_before {start len place : Nat} (before : start + len ≤ place) :
    read (write mem place data) start len = read mem start len := by
  apply List.map_congr_left
  intro i member
  have := List.mem_range.mp member
  simp only [write, if_neg (show ¬ place ≤ start + i by omega)]

/-- A segment that begins behind the written data is unchanged. -/
theorem read_write_after {start len place : Nat} (after : place + data.length ≤ start) :
    read (write mem place data) start len = read mem start len := by
  apply List.map_congr_left
  intro i _
  have outside : data.length ≤ start + i - place := by omega
  simp only [write, if_pos (show place ≤ start + i by omega), List.getD_eq_default _ _ outside]

/-- A segment apart from the written data is unchanged. -/
theorem read_write_apart {start len place : Nat}
    (apart : start + len ≤ place ∨ place + data.length ≤ start) :
    read (write mem place data) start len = read mem start len := by
  rcases apart with before | after
  · exact read_write_before before
  · exact read_write_after after

@[simp] theorem write_nil (mem : Nat → α) (place : Nat) : write mem place [] = mem := by
  funext other
  simp [write]

/-- Two writes, one behind the other, are one. -/
theorem write_append (mem : Nat → α) (place : Nat) (first second : List α) :
    write (write mem place first) (place + first.length) second =
      write mem place (first ++ second) := by
  funext other
  simp only [write]
  by_cases before : other < place
  · rw [if_neg (by omega), if_neg (by omega), if_neg (by omega)]
  by_cases inFirst : other < place + first.length
  · rw [if_neg (by omega), if_pos (by omega), if_pos (by omega), List.getD_append _ _ _ _ (by omega)]
  · rw [if_pos (by omega), if_pos (by omega), if_pos (by omega),
      List.getD_append_right _ _ _ _ (by omega), List.getD_eq_default first _ (by omega),
      Nat.sub_add_eq]

/-- Reading back what was written. -/
theorem read_write_self (mem : Nat → α) (place : Nat) (data : List α) :
    read (write mem place data) place data.length = data := by
  apply List.ext_getElem (by simp)
  intro i _ inside
  simp [read, write, inside]

/-- A segment together with what was written behind it. -/
theorem read_write_behind (mem : Nat → α) (start len : Nat) (data : List α) :
    read (write mem (start + len) data) start (len + data.length) = read mem start len ++ data := by
  rw [read_append, read_write_before (Nat.le_refl _), read_write_self]

end Hoarder.Foundation.Memory
