/-
Module: Hoarder.Foundation.Simulation
Purpose: Machines that are seen through a view.  If under an invariant every step of the machine shows
  as a move of an abstract relation, or not at all, its runs show as runs of the relation.
Trusted boundary: none
Main exports: Machine.LeadsBy, Machine.LeadsBy.reach, Machine.LeadsBy.leads,
  Machine.LeadsBy.invariant, Machine.Reach.simulated, Machine.exists_leadsBy_of_start
-/
import Hoarder.Foundation.Machine

namespace Hoarder.Foundation.Machine

universe u v w

variable {State : Type u} {Label : Type v} (M : Machine State Label) (guard : Guard State Label)

/-- Some steps of the machine that meet the guard lead from one state to the other. -/
abbrev LeadsBy : State → State → Prop :=
  Relation.ReflTransGen fun s s' => ∃ label, M.step s label = some s' ∧ guard s label s'

variable {M guard} {s s' : State}

/-- What follows a state that the guard lets the machine reach is reached under it as well. -/
theorem LeadsBy.reach (leads : M.LeadsBy guard s s') (reached : M.Reach guard s) :
    M.Reach guard s' := by
  induction leads with
  | refl => exact reached
  | tail _ stepped inductionHypothesis =>
      obtain ⟨label, stepped, met⟩ := stepped
      exact .step label inductionHypothesis stepped met

/-- Forgetting the guard. -/
theorem LeadsBy.leads (leads : M.LeadsBy guard s s') : M.Leads s s' := by
  induction leads with
  | refl => exact .refl
  | tail _ stepped inductionHypothesis =>
      obtain ⟨label, stepped, _⟩ := stepped
      exact inductionHypothesis.tail ⟨label, stepped⟩

/-- The induction rule from a state on: what holds there, and is kept by every guarded step of a run,
holds later. -/
theorem LeadsBy.invariant (leads : M.LeadsBy guard s s') (reached : M.Reach guard s)
    (Inv : State → Prop) (holds : Inv s)
    (kept : ∀ s label s', M.Reach guard s → Inv s → M.step s label = some s' → guard s label s' →
      Inv s') : Inv s' := by
  induction leads with
  | refl => exact holds
  | tail leads stepped inductionHypothesis =>
      obtain ⟨label, stepped, met⟩ := stepped
      exact kept _ label _ (LeadsBy.reach leads reached) inductionHypothesis stepped met

/-- The simulation rule: the invariant holds in every run, and the run shows as one of the abstract
relation. -/
theorem Reach.simulated {Abstract : Type w} {Move : Abstract → Abstract → Prop}
    (reached : M.Reach guard s) (Inv : State → Prop) (view : State → Abstract) (origin : Abstract)
    (base : ∀ s, M.initial s → Inv s ∧ view s = origin)
    (kept : ∀ s label s', Inv s → M.step s label = some s' → guard s label s' →
      Inv s' ∧ (view s' = view s ∨ Move (view s) (view s'))) :
    Inv s ∧ Relation.ReflTransGen Move origin (view s) := by
  refine reached.invariant (fun s => Inv s ∧ Relation.ReflTransGen Move origin (view s)) ?_ ?_
  · intro s started
    obtain ⟨inv, same⟩ := base s started
    exact ⟨inv, same ▸ .refl⟩
  · rintro s label s' ⟨inv, run⟩ stepped met
    obtain ⟨inv', same | move⟩ := kept s label s' inv stepped met
    · exact ⟨inv', same ▸ run⟩
    · exact ⟨inv', run.tail move⟩

/-- An executed schedule leads to its last state. -/
theorem run_leadsBy {check : State → Label → State → Bool}
    (sound : ∀ s label s', check s label s' = true → guard s label s') {labels : List Label}
    (ran : M.run check s labels = some s') : M.LeadsBy guard s s' := by
  induction labels generalizing s with
  | nil =>
      cases ran
      exact .refl
  | cons label labels inductionHypothesis =>
      obtain ⟨next, stepped, rest⟩ := Option.bind_eq_some_iff.mp ran
      split at rest
      · rename_i passed
        exact .head ⟨label, stepped, sound _ _ _ passed⟩ (inductionHypothesis rest)
      · cases rest

/-- Two schedules, one after the other, whose last states pass a test. -/
theorem exists_leadsBy_of_start {ε α : Type*} {start : Except ε α} (make : α → State)
    (initial : ∀ made, start = .ok made → M.initial (make made))
    (check : State → Label → State → Bool)
    (sound : ∀ s label s', check s label s' = true → guard s label s') (labels labels' : List Label)
    (test : State → State → Bool)
    (passed : (start.toOption.bind fun made => M.run check (make made) labels).any
      (fun s => (M.run check s labels').any (test s)) = true) :
    ∃ s s', M.Reach guard s ∧ M.LeadsBy guard s s' ∧ test s s' = true := by
  obtain ⟨s, reached, passed⟩ := exists_reach_of_start make initial check sound labels _ passed
  obtain ⟨s', ran, tested⟩ := (Option.any_eq_true _ _).mp passed
  exact ⟨s, s', reached, run_leadsBy sound ran, tested⟩

end Hoarder.Foundation.Machine
