/-
Module: Hoarder.Foundation.Outcome
Purpose: Sequencing of fallible computations in `Except`: how `bind` computes, and how a successful
  run of a sequence splits into the runs of its parts.
Trusted boundary: none
Main exports: Outcome.ok_bind, Outcome.error_bind, Outcome.bind_eq_ok, Outcome.bind_eq_error,
  Outcome.bind_ne_error, Outcome.mapM_ne_error
-/
import Mathlib

namespace Hoarder.Foundation.Outcome

universe u v

variable {ε : Type v} {α β : Type u}

@[simp] theorem ok_bind (value : α) (next : α → Except ε β) :
    (Except.ok value >>= next) = next value := rfl

@[simp] theorem error_bind (error : ε) (next : α → Except ε β) :
    ((Except.error error : Except ε α) >>= next) = .error error := rfl

@[simp] theorem pure_eq_ok (value : α) : (pure value : Except ε α) = .ok value := rfl

/-- A sequence that succeeds is a first part that succeeds with a value, and the rest run on it. -/
theorem bind_eq_ok {first : Except ε α} {next : α → Except ε β} {result : β} :
    (first >>= next) = .ok result ↔ ∃ value, first = .ok value ∧ next value = .ok result := by
  cases first with
  | error error => simp
  | ok value => simp

/-- A sequence that fails does so in the first part, or after it. -/
theorem bind_eq_error {first : Except ε α} {next : α → Except ε β} {error : ε} :
    (first >>= next) = .error error ↔
      first = .error error ∨ ∃ value, first = .ok value ∧ next value = .error error := by
  cases first with
  | error other => simp
  | ok value => simp

/-- A sequence none of whose parts fails with an error does not fail with it. -/
theorem bind_ne_error {first : Except ε α} {next : α → Except ε β} {error : ε}
    (firstSafe : first ≠ .error error)
    (nextSafe : ∀ value, first = .ok value → next value ≠ .error error) :
    (first >>= next) ≠ .error error := by
  intro failed
  rcases bind_eq_error.mp failed with failed | ⟨value, ran, failed⟩
  · exact firstSafe failed
  · exact nextSafe value ran failed

/-- A list of computations none of which fails with an error does not fail with it. -/
theorem mapM_ne_error {each : α → Except ε β} {error : ε} {list : List α}
    (safe : ∀ value, each value ≠ .error error) : list.mapM each ≠ .error error := by
  induction list with
  | nil => simp
  | cons value rest inductionHypothesis =>
      rw [List.mapM_cons]
      exact bind_ne_error (safe value) fun _ _ => bind_ne_error inductionHypothesis (by simp)

end Hoarder.Foundation.Outcome
