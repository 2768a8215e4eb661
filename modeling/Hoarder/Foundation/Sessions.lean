/-
Module: Hoarder.Foundation.Sessions
Purpose: What a server does for its peers, whatever carries it out.  A session is connected if there
  is a place for it, receives once there is a room, hangs up, and is released.  The order of the
  stages is that of the life of a session: no move takes one back.
Trusted boundary: none
Main exports: Session, Session.Before, Sessions, Sessions.connected, Sessions.receiving,
  Sessions.Move, Sessions.PutOff, Sessions.Move.advances
-/
import Mathlib

namespace Hoarder.Foundation

universe u v

/-- The stages of a session. -/
inductive Session (α : Type u) where
  | waiting
  | receiving (got : List α)
  | leaving
deriving DecidableEq, Repr

/-- The sessions there are, by their names. -/
abbrev Sessions (ι : Type v) (α : Type u) := ι → Option (Session α)

variable {ι : Type v} {α : Type u}

namespace Session

/-- The first stage is not later than the second: what was received is a beginning of what is
received later. -/
inductive Before : Session α → Session α → Prop where
  | waiting (later : Session α) : Before .waiting later
  | receiving {got more : List α} (grows : got <+: more) : Before (.receiving got) (.receiving more)
  | leaving (earlier : Session α) : Before earlier .leaving

theorem Before.refl (session : Session α) : Before session session := by
  cases session with
  | waiting => exact .waiting _
  | receiving got => exact .receiving List.prefix_rfl
  | leaving => exact .leaving _

theorem Before.trans {first second third : Session α} (before : Before first second)
    (next : Before second third) : Before first third := by
  cases before with
  | waiting => exact .waiting third
  | receiving grows =>
      cases next with
      | receiving grows' => exact .receiving (grows.trans grows')
      | leaving => exact .leaving _
  | leaving =>
      cases next with
      | leaving => exact .leaving first

end Session

namespace Sessions

/-- The sessions that have a place. -/
def connected (t : Sessions ι α) : Set ι := {i | (t i).isSome}

/-- The sessions that have a room. -/
def receiving (t : Sessions ι α) : Set ι := {i | ∃ got, t i = some (.receiving got)}

variable [DecidableEq ι]

/-- One move of a server with so many places to wait and so many rooms to receive in. -/
inductive Move (places rooms : Nat) (t : Sessions ι α) : Sessions ι α → Prop where
  | connect (i : ι) (absent : t i = none) (place : t.connected.ncard < places) :
      Move places rooms t (Function.update t i (some .waiting))
  | enter (i : ι) (waiting : t i = some .waiting) (room : t.receiving.ncard < rooms) :
      Move places rooms t (Function.update t i (some (.receiving [])))
  | putOff (i : ι) (waiting : t i = some .waiting) (full : t.receiving.ncard = rooms) :
      Move places rooms t t
  | receive (i : ι) (got more : List α) (receiving : t i = some (.receiving got))
      (nonempty : more ≠ []) :
      Move places rooms t (Function.update t i (some (.receiving (got ++ more))))
  | hangUp (i : ι) (got : List α) (receiving : t i = some (.receiving got)) :
      Move places rooms t (Function.update t i (some .leaving))
  | release (i : ι) (leaving : t i = some .leaving) :
      Move places rooms t (Function.update t i none)

/-- A session asks for a room, and is put off: it waits, every room is taken, and nothing changes. -/
structure PutOff (rooms : Nat) (t : Sessions ι α) (i : ι) (t' : Sessions ι α) : Prop where
  waiting : t i = some .waiting
  full : t.receiving.ncard = rooms
  same : t' = t

variable {places rooms : Nat} {t t' : Sessions ι α}

/-- To be put off is a move. -/
theorem PutOff.move {i : ι} (putOff : PutOff rooms t i t') : Move places rooms t t' := by
  rw [putOff.same]
  exact .putOff i putOff.waiting putOff.full

/-- A move brings a session forward, or releases it. -/
theorem Move.advances (move : Move places rooms t t') {i : ι} {session : Session α}
    (present : t i = some session) :
    t' i = none ∨ ∃ later, t' i = some later ∧ session.Before later := by
  have updated : ∀ {j : ι} {next : Option (Session α)}, t' = Function.update t j next →
      (j = i → next = none ∨ ∃ later, next = some later ∧ session.Before later) →
      t' i = none ∨ ∃ later, t' i = some later ∧ session.Before later := by
    rintro j next rfl forward
    rcases eq_or_ne i j with rfl | different
    · rw [Function.update_self]
      exact forward rfl
    · rw [Function.update_of_ne different]
      exact .inr ⟨session, present, .refl session⟩
  cases move with
  | putOff => exact .inr ⟨session, present, .refl session⟩
  | connect j absent place =>
      refine updated rfl ?_
      rintro rfl
      rw [present] at absent
      cases absent
  | enter j waiting room =>
      refine updated rfl ?_
      rintro rfl
      cases present.symm.trans waiting
      exact .inr ⟨_, rfl, .waiting _⟩
  | receive j got more receiving nonempty =>
      refine updated rfl ?_
      rintro rfl
      cases present.symm.trans receiving
      exact .inr ⟨_, rfl, .receiving (List.prefix_append got more)⟩
  | hangUp j got receiving =>
      refine updated rfl ?_
      rintro rfl
      exact .inr ⟨_, rfl, .leaving session⟩
  | release j leaving => exact updated rfl fun _ => .inl rfl

end Sessions

end Hoarder.Foundation
