/-
Module: Hoarder.Foundation.Channel
Purpose: A channel that loses, repeats and reorders nothing: what was sent is what was received,
  followed by what is in transit.  Beside it, the account of requests that are answered any number
  of times and withdrawn once.
Trusted boundary: none
Main exports: Channel, Channel.send, Channel.receive, Account, Account.accept, Account.reply,
  Account.settle
-/
import Mathlib

namespace Hoarder.Foundation

variable {α β : Type*}

/-- What was sent was received, in order, or is still in transit. -/
def Channel (sent transit received : List α) : Prop :=
  sent = received ++ transit

namespace Channel

variable {sent transit received more : List α} {item : α}

theorem empty : Channel ([] : List α) [] [] := rfl

/-- What is sent joins what is in transit. -/
theorem send (channel : Channel sent transit received) (more : List α) :
    Channel (sent ++ more) (transit ++ more) received := by
  rw [Channel, channel, List.append_assoc]

/-- What was in transit longest is received. -/
theorem receive {first : List α} (channel : Channel sent (first ++ transit) received) :
    Channel sent transit (received ++ first) := by
  rw [Channel, channel, List.append_assoc]

end Channel

/-- The requests that were accepted are those being worked on and those whose last answer was
given; an answer is to a request that was accepted. -/
structure Account (last : α × β → Bool) (accepted working : List α) (answers : List (α × β)) :
    Prop where
  balanced : accepted.Perm (working ++ (answers.filter last).map Prod.fst)
  answered : ∀ answer ∈ answers, answer.1 ∈ accepted

namespace Account

variable {last : α × β → Bool} {accepted working : List α} {answers : List (α × β)} {request : α}
  {answer : β}

theorem empty (last : α × β → Bool) : Account last [] [] [] :=
  ⟨.refl _, by simp⟩

/-- A request is accepted, and worked on. -/
theorem accept (account : Account last accepted working answers) (request : α) :
    Account last (accepted ++ [request]) (working ++ [request]) answers := by
  refine ⟨?_, fun answer member => List.mem_append_left _ (account.answered answer member)⟩
  calc (accepted ++ [request]).Perm (working ++ (answers.filter last).map Prod.fst ++ [request]) :=
        account.balanced.append_right _
    _ |>.Perm (working ++ [request] ++ (answers.filter last).map Prod.fst) := by
        simp only [List.append_assoc]
        exact List.perm_append_comm.append_left _

/-- What is worked on was accepted. -/
theorem accepted_of_working (account : Account last accepted working answers)
    (member : request ∈ working) : request ∈ accepted :=
  account.balanced.symm.subset (List.mem_append_left _ member)

/-- An answer that is not the last leaves the request being worked on. -/
theorem reply (account : Account last accepted working answers) (member : request ∈ working)
    (more : last (request, answer) = false) :
    Account last accepted working (answers ++ [(request, answer)]) := by
  refine ⟨?_, fun other isAnswer => ?_⟩
  · rw [List.filter_append, List.filter_cons_of_neg (by simp [more]), List.filter_nil,
      List.append_nil]
    exact account.balanced
  · rcases List.mem_append.mp isAnswer with before | same
    · exact account.answered other before
    · obtain rfl := List.mem_singleton.mp same
      exact account.accepted_of_working member

/-- The last answer settles the request. -/
theorem settle {rest : List α} (account : Account last accepted working answers)
    (taken : working.Perm (request :: rest)) (final : last (request, answer) = true) :
    Account last accepted rest (answers ++ [(request, answer)]) := by
  refine ⟨?_, fun other isAnswer => ?_⟩
  · rw [List.filter_append, List.filter_cons_of_pos final, List.filter_nil, List.map_append,
      List.map_singleton, ← List.append_assoc]
    calc accepted.Perm (working ++ (answers.filter last).map Prod.fst) := account.balanced
      _ |>.Perm (request :: rest ++ (answers.filter last).map Prod.fst) := taken.append_right _
      _ |>.Perm (rest ++ (answers.filter last).map Prod.fst ++ [request]) :=
        (List.perm_append_singleton _ _).symm
  · rcases List.mem_append.mp isAnswer with before | same
    · exact account.answered other before
    · obtain rfl := List.mem_singleton.mp same
      exact account.accepted_of_working (taken.symm.subset (List.mem_cons_self ..))

end Account

end Hoarder.Foundation
