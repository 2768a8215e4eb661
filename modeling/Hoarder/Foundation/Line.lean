/-
Module: Hoarder.Foundation.Line
Purpose: Waiting lines that are joined at the end and served at the front.  Whoever stays in the line
  is overtaken by nobody: those ahead only become fewer.
Trusted boundary: none
Main exports: Line.Move, Line.Move.nodup, Line.ahead, Line.Move.ahead_suffix
-/
import Mathlib

namespace Hoarder.Foundation.Line

universe u

variable {α : Type u}

/-- One move of a line. -/
inductive Move : List α → List α → Prop where
  | stay (line : List α) : Move line line
  | join (line : List α) (newcomer : α) (fresh : newcomer ∉ line) : Move line (line ++ [newcomer])
  | serve (first : α) (line : List α) : Move (first :: line) line

variable {line line' : List α} {member : α}

/-- Nobody stands in a line twice. -/
theorem Move.nodup (move : Move line line') (nodup : line.Nodup) : line'.Nodup := by
  cases move with
  | stay => exact nodup
  | join newcomer fresh => exact List.nodup_append.mpr ⟨nodup, List.nodup_singleton _, by grind⟩
  | serve first => exact (List.nodup_cons.mp nodup).2

variable [DecidableEq α]

/-- Those who stand before a member of the line. -/
def ahead (member : α) (line : List α) : List α :=
  line.takeWhile (· ≠ member)

theorem ahead_cons_self (member : α) (line : List α) : ahead member (member :: line) = [] := by
  simp [ahead]

theorem ahead_cons_of_ne {first : α} (different : first ≠ member) (line : List α) :
    ahead member (first :: line) = first :: ahead member line := by
  simp [ahead, different]

/-- Who joins a line joins it behind its members. -/
theorem ahead_append (waits : member ∈ line) (more : List α) :
    ahead member (line ++ more) = ahead member line := by
  induction line with
  | nil => cases waits
  | cons first line inductionHypothesis =>
      rcases eq_or_ne first member with rfl | different
      · rw [List.cons_append, ahead_cons_self, ahead_cons_self]
      · have behind := (List.mem_cons.mp waits).resolve_left (Ne.symm different)
        rw [List.cons_append, ahead_cons_of_ne different, ahead_cons_of_ne different,
          inductionHypothesis behind]

/-- A move lets nobody past a member that stays. -/
theorem Move.ahead_suffix (move : Move line line') (nodup : line.Nodup) (waits : member ∈ line)
    (stays : member ∈ line') : ahead member line' <:+ ahead member line := by
  cases move with
  | stay => exact List.suffix_rfl
  | join newcomer fresh =>
      rw [ahead_append waits]
  | serve first =>
      have different : first ≠ member := by
        rintro rfl
        exact (List.nodup_cons.mp nodup).1 stays
      rw [ahead_cons_of_ne different]
      exact List.suffix_cons _ _

end Hoarder.Foundation.Line
