/-
Module: Hoarder.Foundation.Ghost
Purpose: Values carried beside the state of a machine that no step depends on, to say in a statement
  what a run did before.  They restrict no run.  Tags beside the elements of lists are kept in step
  with the lists by the rules of the last section.
Trusted boundary: none
Main exports: Machine.withGhost, Machine.Guard.onState, Machine.withGhost_step,
  Machine.Reach.forget, Machine.Reach.ghost_invariant, Machine.Reach.exists_ghost,
  Machine.Reachable.forget, Machine.Reachable.ghost_invariant, forall₂_snoc,
  forall₂_eraseIdx, forall₂_getElem?
-/
import Hoarder.Foundation.Machine

namespace Hoarder.Foundation

universe u v w

namespace Machine

variable {State : Type u} {Label : Type v} {Ghost : Type w} (M : Machine State Label)
  (start : State → Ghost) (trace : State → Ghost → Label → State → Ghost)

/-- The machine with a ghost beside its state. -/
def withGhost : Machine (State × Ghost) Label where
  initial p := M.initial p.1 ∧ p.2 = start p.1
  step p label := (M.step p.1 label).map fun next => (next, trace p.1 p.2 label next)

/-- A condition on the steps of the state. -/
def Guard.onState (guard : Guard State Label) : Guard (State × Ghost) Label :=
  fun p label p' => guard p.1 label p'.1

variable {M start trace} {guard : Guard State Label}

theorem withGhost_step {p p' : State × Ghost} {label : Label} :
    (M.withGhost start trace).step p label = some p' ↔
      M.step p.1 label = some p'.1 ∧ p'.2 = trace p.1 p.2 label p'.1 := by
  obtain ⟨s', g'⟩ := p'
  simp only [withGhost, Option.map_eq_some_iff, Prod.mk.injEq]
  constructor
  · rintro ⟨next, stepped, rfl, rfl⟩
    exact ⟨stepped, rfl⟩
  · rintro ⟨stepped, rfl⟩
    exact ⟨s', stepped, rfl, rfl⟩

/-- A run with the ghost is a run. -/
theorem Reach.forget {p : State × Ghost} (reached : (M.withGhost start trace).Reach guard.onState p) :
    M.Reach guard p.1 := by
  induction reached with
  | initial started => exact .initial started.1
  | step label _ stepped met inductionHypothesis =>
      exact .step label inductionHypothesis (withGhost_step.mp stepped).1 met

/-- The induction rule: what holds of an initial state with its ghost, and is kept when both move. -/
theorem Reach.ghost_invariant {p : State × Ghost}
    (reached : (M.withGhost start trace).Reach guard.onState p) (Inv : State → Ghost → Prop)
    (base : ∀ s, M.initial s → Inv s (start s))
    (kept : ∀ s ghost label s', Inv s ghost → M.step s label = some s' → guard s label s' →
      Inv s' (trace s ghost label s')) : Inv p.1 p.2 := by
  refine reached.invariant (fun p => Inv p.1 p.2) ?_ ?_
  · intro p started
    rw [started.2]
    exact base p.1 started.1
  · intro p label p' inv stepped met
    obtain ⟨ran, traced⟩ := withGhost_step.mp stepped
    rw [traced]
    exact kept p.1 p.2 label p'.1 inv ran met

/-- Every run has its ghost. -/
theorem Reach.exists_ghost {s : State} (reached : M.Reach guard s) :
    ∃ ghost, (M.withGhost start trace).Reach guard.onState (s, ghost) := by
  induction reached with
  | @initial s started => exact ⟨start s, .initial ⟨started, rfl⟩⟩
  | @step s s' label _ stepped met inductionHypothesis =>
      obtain ⟨ghost, reached⟩ := inductionHypothesis
      have stepped' : (M.withGhost start trace).step (s, ghost) label =
          some (s', trace s ghost label s') := withGhost_step.mpr ⟨stepped, rfl⟩
      exact ⟨_, .step label reached stepped' met⟩

/-- Without a guard. -/
theorem Reachable.forget {p : State × Ghost} (reached : (M.withGhost start trace).Reachable p) :
    M.Reachable p.1 :=
  Reach.forget (M := M) (reached.mono fun _ _ _ _ => trivial)

/-- The induction rule, without a guard. -/
theorem Reachable.ghost_invariant {p : State × Ghost}
    (reached : (M.withGhost start trace).Reachable p) (Inv : State → Ghost → Prop)
    (base : ∀ s, M.initial s → Inv s (start s))
    (kept : ∀ s ghost label s', Inv s ghost → M.step s label = some s' →
      Inv s' (trace s ghost label s')) : Inv p.1 p.2 := by
  have guarded : (M.withGhost start trace).Reach (Guard.onState fun _ _ _ => True) p :=
    reached.mono fun _ _ _ _ => trivial
  exact guarded.ghost_invariant Inv base fun s ghost label s' inv stepped _ =>
    kept s ghost label s' inv stepped

end Machine

/-! ### Tags beside lists -/

variable {α : Type u} {β : Type v} {relation : α → β → Prop} {left : List α} {right : List β}

/-- An element is added with its tag. -/
theorem forall₂_snoc (tagged : List.Forall₂ relation left right) {last : α} {tag : β}
    (related : relation last tag) : List.Forall₂ relation (left ++ [last]) (right ++ [tag]) :=
  List.rel_append tagged (.cons related .nil)

/-- An element is taken out with its tag. -/
theorem forall₂_eraseIdx (tagged : List.Forall₂ relation left right) (index : Nat) :
    List.Forall₂ relation (left.eraseIdx index) (right.eraseIdx index) := by
  rw [List.eraseIdx_eq_take_drop_succ, List.eraseIdx_eq_take_drop_succ]
  exact List.rel_append (List.forall₂_take index tagged) (List.forall₂_drop (index + 1) tagged)

/-- An element has its tag at the same place. -/
theorem forall₂_getElem? (tagged : List.Forall₂ relation left right) {index : Nat} {element : α}
    (found : left[index]? = some element) : ∃ tag, right[index]? = some tag ∧ relation element tag := by
  induction tagged generalizing index with
  | nil => cases found
  | cons related _ inductionHypothesis =>
      cases index with
      | zero =>
          cases found
          exact ⟨_, rfl, related⟩
      | succ index => exact inductionHypothesis found

end Hoarder.Foundation
