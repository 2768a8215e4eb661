/-
Module: Hoarder.Foundation.Machine
Purpose: Labelled machines given by an executable step function, guarded reachability, and the
  invariant rules used for every run-level result of the development.
Trusted boundary: none
Main exports: Machine, Machine.Reach, Machine.Reachable, Machine.Reach.invariant,
  Machine.Reach.mono, Machine.Leads, Machine.Leads.reachable, Machine.Stuck, Machine.run,
  Machine.run_reach, Machine.run_leads, Machine.exists_reach_of_start
-/
import Mathlib

namespace Hoarder.Foundation

universe u v

/-- A machine: initial states, and a step function that fails on a label that is not enabled. -/
structure Machine (State : Type u) (Label : Type v) where
  initial : State → Prop
  step : State → Label → Option State

namespace Machine

variable {State : Type u} {Label : Type v} (M : Machine State Label)

/-- A condition on single steps: the state before, the label, and the state after. -/
abbrev Guard (State : Type u) (Label : Type v) := State → Label → State → Prop

/-- States reached from an initial state by steps that all meet the guard. -/
inductive Reach (guard : Guard State Label) : State → Prop where
  | initial {s : State} (start : M.initial s) : Reach guard s
  | step {s s' : State} (label : Label) (reached : Reach guard s)
      (stepped : M.step s label = some s') (met : guard s label s') : Reach guard s'

/-- States reached by any steps whatever. -/
abbrev Reachable (s : State) : Prop :=
  M.Reach (fun _ _ _ => True) s

variable {M}

/-- The induction rule: what holds initially and is kept by every guarded step holds at every
state the guard lets the machine reach. -/
theorem Reach.invariant {guard : Guard State Label} {s : State} (reached : M.Reach guard s)
    (Inv : State → Prop) (base : ∀ s, M.initial s → Inv s)
    (kept : ∀ s label s', Inv s → M.step s label = some s' → guard s label s' → Inv s') :
    Inv s := by
  induction reached with
  | initial start => exact base _ start
  | step label _ stepped met inductionHypothesis =>
      exact kept _ _ _ inductionHypothesis stepped met

/-- A weaker guard reaches more. -/
theorem Reach.mono {guard weaker : Guard State Label} {s : State} (reached : M.Reach guard s)
    (implies : ∀ s label s', guard s label s' → weaker s label s') : M.Reach weaker s := by
  induction reached with
  | initial start => exact .initial start
  | step label _ stepped met inductionHypothesis =>
      exact .step label inductionHypothesis stepped (implies _ _ _ met)

/-- Forgetting the guard. -/
theorem Reach.reachable {guard : Guard State Label} {s : State}
    (reached : M.Reach guard s) : M.Reachable s :=
  reached.mono fun _ _ _ _ => trivial

/-- A guard that an invariant of the unguarded machine already implies excludes no state. -/
theorem Reach.of_invariant {guard : Guard State Label} {s : State} (reached : M.Reachable s)
    (Inv : State → Prop) (base : ∀ s, M.initial s → Inv s)
    (kept : ∀ s label s', Inv s → M.step s label = some s' → Inv s')
    (implied : ∀ s label s', Inv s → M.step s label = some s' → guard s label s') :
    M.Reach guard s := by
  suffices both : M.Reach guard s ∧ Inv s from both.1
  induction reached with
  | initial start => exact ⟨.initial start, base _ start⟩
  | step label _ stepped _ inductionHypothesis =>
      exact ⟨.step label inductionHypothesis.1 stepped (implied _ _ _ inductionHypothesis.2 stepped),
        kept _ _ _ inductionHypothesis.2 stepped⟩

variable (M)

/-- Some steps of the machine lead from one state to the other. -/
abbrev Leads : State → State → Prop :=
  Relation.ReflTransGen fun s s' => ∃ label, M.step s label = some s'

variable {M}

/-- What follows a reachable state is reachable. -/
theorem Leads.reachable {s s' : State} (leads : M.Leads s s') (reached : M.Reachable s) :
    M.Reachable s' := by
  induction leads with
  | refl => exact reached
  | tail _ stepped inductionHypothesis =>
      obtain ⟨label, stepped⟩ := stepped
      exact .step label inductionHypothesis stepped trivial

variable (M)

/-- No step is enabled: the run is over, or blocked. -/
def Stuck (s : State) : Prop :=
  ∀ label, M.step s label = none

/-- Execute a list of labels, failing at the first step that is not enabled or does not pass. -/
def run (check : State → Label → State → Bool) (s : State) : List Label → Option State
  | [] => some s
  | label :: labels => (M.step s label).bind fun next =>
      if check s label next then run check next labels else none

variable {M}

/-- An executed schedule ends in a state that the guard lets the machine reach, when every step
that passes meets the guard. -/
theorem run_reach {guard : Guard State Label} {check : State → Label → State → Bool}
    (sound : ∀ s label s', check s label s' = true → guard s label s') {s s' : State}
    {labels : List Label} (reached : M.Reach guard s) (ran : M.run check s labels = some s') :
    M.Reach guard s' := by
  induction labels generalizing s with
  | nil =>
      cases ran
      exact reached
  | cons label labels inductionHypothesis =>
      obtain ⟨next, stepped, rest⟩ := Option.bind_eq_some_iff.mp ran
      split at rest
      · rename_i passed
        exact inductionHypothesis (.step label reached stepped (sound _ _ _ passed)) rest
      · cases rest

/-- An executed schedule leads to the state it ends in. -/
theorem run_leads {check : State → Label → State → Bool} {s s' : State} {labels : List Label}
    (ran : M.run check s labels = some s') : M.Leads s s' := by
  induction labels generalizing s with
  | nil =>
      cases ran
      exact .refl
  | cons label labels inductionHypothesis =>
      obtain ⟨next, stepped, rest⟩ := Option.bind_eq_some_iff.mp ran
      split at rest
      · exact .head ⟨label, stepped⟩ (inductionHypothesis rest)
      · cases rest

/-- A schedule whose last state passes a test reaches a state that passes it. -/
theorem exists_reach_of_run {guard : Guard State Label} (check : State → Label → State → Bool)
    (sound : ∀ s label s', check s label s' = true → guard s label s') {s : State}
    (start : M.initial s) (labels : List Label) (test : State → Bool)
    (passed : (M.run check s labels).any test = true) :
    ∃ s', M.Reach guard s' ∧ test s' = true := by
  cases ran : M.run check s labels with
  | none => simp [ran] at passed
  | some s' =>
      exact ⟨s', run_reach sound (.initial start) ran, by simpa [ran] using passed⟩

/-- The case without a guard. -/
theorem exists_reachable_of_run {s : State} (start : M.initial s) (labels : List Label)
    (test : State → Bool) (passed : (M.run (fun _ _ _ => true) s labels).any test = true) :
    ∃ s', M.Reachable s' ∧ test s' = true :=
  exists_reach_of_run (fun _ _ _ => true) (fun _ _ _ _ => trivial) start labels test passed

/-- A schedule run from a state that is made of the result of a computation that may fail. -/
theorem exists_reach_of_start {ε α : Type*} {guard : Guard State Label} {start : Except ε α}
    (make : α → State) (initial : ∀ made, start = .ok made → M.initial (make made))
    (check : State → Label → State → Bool)
    (sound : ∀ s label s', check s label s' = true → guard s label s') (labels : List Label)
    (test : State → Bool)
    (passed : (start.toOption.bind fun made => M.run check (make made) labels).any test = true) :
    ∃ s', M.Reach guard s' ∧ test s' = true := by
  cases start with
  | error failure => cases passed
  | ok made => exact exists_reach_of_run check sound (initial made rfl) labels test passed

end Machine

end Hoarder.Foundation
