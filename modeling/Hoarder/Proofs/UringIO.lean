/-
Module: Hoarder.Proofs.UringIO
Purpose: The fast and the slow path of `submit_and_wait`.  Both leave enough completions; the fast path
  makes no system call and leaves pending entries where they are.
Trusted boundary: none
Main exports: UringIO.submitAndWait_cases, UringIO.submitAndWait_available,
  UringIO.KeepsPromise, UringIO.keepsPromise_iff
-/
import Hoarder.Core.UringIO

namespace Hoarder.UringIO

variable {crate : IoUringCrate} {self self' : UringIO} {want got : Nat}

/-- Without `SQPOLL` a call returns at once, with the ring as it was, or it returns from the crate. -/
theorem submitAndWait_cases (documented : crate.Documented) (noSqpoll : self.ring.sqpoll = false)
    (ran : submitAndWait crate self want = (.ok got, self')) :
    (want ≤ self.ring.completion.length ∧ self' = self) ∨
      (self.ring.completion.length < want ∧
        crate.submitAndWait self.ring want = (.ok got, self'.ring)) := by
  have asleep := documented.needWakeup self.ring noSqpoll
  simp only [submitAndWait, asleep, Bool.not_false, Bool.true_and, decide_eq_true_eq] at ran
  split at ran
  · rename_i enough
    cases ran
    exact .inl ⟨enough, rfl⟩
  · rename_i few
    split at ran
    · rename_i returned
      cases ran
      exact .inr ⟨Nat.lt_of_not_le few, returned⟩
    · cases ran

/-- When enough completions are available the call returns at once. -/
theorem submitAndWait_fast (documented : crate.Documented) (noSqpoll : self.ring.sqpoll = false)
    (enough : want ≤ self.ring.completion.length) :
    submitAndWait crate self want = (.ok self.ring.completion.length, self) := by
  simp [submitAndWait, documented.needWakeup self.ring noSqpoll, enough]

/-- A call that returns `Ok` leaves enough completions, on either path. -/
theorem submitAndWait_available (documented : crate.Documented)
    (noSqpoll : self.ring.sqpoll = false)
    (ran : submitAndWait crate self want = (.ok got, self')) :
    want ≤ self'.ring.completion.length := by
  rcases submitAndWait_cases documented noSqpoll ran with ⟨enough, rfl⟩ | ⟨_, returned⟩
  · exact enough
  · exact documented.waits _ _ _ _ noSqpoll returned

/-- What the trait promises of a call that returns `Ok`: every entry pushed before has been handed to
the kernel, and enough completions are available. -/
def KeepsPromise (crate : IoUringCrate) (self : UringIO) (want : Nat) : Prop :=
  ∀ got self', submitAndWait crate self want = (.ok got, self') →
    (self'.ring.submission = [] ∧
      self'.ring.submitted = self.ring.submitted ++ self.ring.submission) ∧
    want ≤ self'.ring.completion.length

/-- For every ring without `SQPOLL` and every `want`, the promise is kept if and only if nothing is
pending or too few completions are available for the fast path. -/
theorem keepsPromise_iff (documented : crate.Documented) (noSqpoll : self.ring.sqpoll = false)
    (want : Nat) :
    KeepsPromise crate self want ↔
      self.ring.submission = [] ∨ self.ring.completion.length < want := by
  constructor
  · intro kept
    by_contra neither
    rw [not_or, Nat.not_lt] at neither
    obtain ⟨pending, enough⟩ := neither
    have fast := submitAndWait_fast documented noSqpoll enough
    exact pending (kept _ _ fast).1.1
  · intro quiet got self' ran
    refine ⟨?_, submitAndWait_available documented noSqpoll ran⟩
    rcases submitAndWait_cases documented noSqpoll ran with ⟨enough, rfl⟩ | ⟨_, returned⟩
    · rcases quiet with none | few
      · exact ⟨none, by rw [none, List.append_nil]⟩
      · exact absurd enough (Nat.not_le.mpr few)
    · exact documented.submits _ _ _ _ noSqpoll returned

/-- A crate whose kernel completes every entry with result 0 as it is submitted, and interrupts a
wait that would never end. -/
def immediate : IoUringCrate where
  needWakeup ring := ring.sqpoll
  submitAndWait ring want :=
    let ring' :=
      { ring with
        submission := []
        submitted := ring.submitted ++ ring.submission
        completion := ring.completion ++
          ring.submission.map fun sqe => { userData := sqe.userData, result := 0, flags := 0 } }
    if want ≤ ring'.completion.length then (.ok ring.submission.length, ring')
    else (.error Errno.EINTR.val, ring')

theorem immediate_documented : immediate.Documented where
  needWakeup _ noSqpoll := noSqpoll
  submits ring want got ring' _ returned := by
    simp only [immediate] at returned
    split at returned <;> cases returned
    exact ⟨rfl, rfl⟩
  waits ring want got ring' _ returned := by
    simp only [immediate] at returned
    split at returned <;> cases returned
    assumption

/-- A ring with one close pending and the completion of another close available. -/
def closing : UringIO where
  ring :=
    { entries := 8, sqpoll := false, submission := [⟨.close 1, 11⟩], submitted := [⟨.close 0, 10⟩]
      completion := [⟨10, 0, 0⟩] }

/-- Waiting for a second completion takes the slow path. -/
theorem keepsPromise_two : KeepsPromise immediate closing 2 :=
  (keepsPromise_iff immediate_documented rfl 2).mpr (.inr (by decide))

/-- Waiting for one completion returns `Ok` with the close still pending. -/
theorem promise_broken :
    submitAndWait immediate closing 1 = (.ok 1, closing) ∧ closing.ring.submission ≠ [] ∧
      ¬ KeepsPromise immediate closing 1 := by
  refine ⟨rfl, by decide, fun kept => ?_⟩
  have handed := (kept 1 closing rfl).1.1
  exact absurd handed (by decide)

end Hoarder.UringIO
