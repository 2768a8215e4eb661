/-
Module: Hoarder.Foundation.Service
Purpose: Objects that answer calls.  `serve` makes a list of calls to an object whose calls may fail;
  `respond` makes them to a specification, whose calls never fail.  An object that simulates a
  specification call by call gives the same answers to every list of calls.
Trusted boundary: none
Main exports: Service.serve, Service.respond, Service.Simulates, Service.Simulates.serve
-/
import Mathlib

namespace Hoarder.Foundation.Service

universe u

variable {ε : Type*} {State Call Answer : Type u} {Abstract : Type*}

/-- The answers of an object to a list of calls, and the object after the last one. -/
def serve (call : State → Call → Except ε (Answer × State)) :
    State → List Call → Except ε (List Answer × State)
  | state, [] => .ok ([], state)
  | state, first :: calls => do
      let (answer, state) ← call state first
      let (answers, state) ← serve call state calls
      return (answer :: answers, state)

/-- The answers a specification prescribes, and its state after the last call. -/
def respond (spec : Abstract → Call → Answer × Abstract) :
    Abstract → List Call → List Answer × Abstract
  | state, [] => ([], state)
  | state, first :: calls =>
      let (answer, state) := spec state first
      let (answers, state) := respond spec state calls
      (answer :: answers, state)

variable {call : State → Call → Except ε (Answer × State)}
  {spec : Abstract → Call → Answer × Abstract} {Related : Abstract → State → Prop}

/-- The object answers one call as the specification does, and stays related to it. -/
def Simulates (call : State → Call → Except ε (Answer × State))
    (spec : Abstract → Call → Answer × Abstract) (Related : Abstract → State → Prop) : Prop :=
  ∀ abstract state request, Related abstract state →
    ∃ state', call state request = .ok ((spec abstract request).1, state') ∧
      Related (spec abstract request).2 state'

/-- A simulation of single calls is one of lists of calls. -/
theorem Simulates.serve (simulates : Simulates call spec Related) {abstract : Abstract}
    {state : State} (related : Related abstract state) (calls : List Call) :
    ∃ state', Service.serve call state calls = .ok ((respond spec abstract calls).1, state') ∧
      Related (respond spec abstract calls).2 state' := by
  induction calls generalizing abstract state with
  | nil => exact ⟨state, rfl, related⟩
  | cons first calls inductionHypothesis =>
      obtain ⟨next, answered, related'⟩ := simulates abstract state first related
      obtain ⟨last, rest, related''⟩ := inductionHypothesis related'
      refine ⟨last, ?_, related''⟩
      rw [Service.serve, answered]
      change (Service.serve call next calls >>= _) = _
      rw [rest]
      rfl

end Hoarder.Foundation.Service
