/-
Module: Hoarder.Proofs.RingBufferRefinement
Purpose: The ring buffer refines the bounded FIFO queue, call by call and up to its `Drop`.  The
  slots outside the window of the queue hold no value, so what `pop` reads was written and not popped
  before, and the loop of `Drop` leaves no value behind.
Trusted boundary: none
Main exports: RingBuffer.call, RingBuffer.ClearOutside, RingBuffer.Refines, RingBuffer.call_simulates,
  RingBuffer.drop_spec, RingBuffer.refines_bounded_queue
-/
import Hoarder.Foundation.BoundedQueue
import Hoarder.Foundation.Outcome
import Hoarder.Foundation.Service
import Hoarder.Proofs.RingBuffer

namespace Hoarder.RingBuffer

open Foundation

variable {T : Type} {rb rb' : RingBuffer T} {items : List T} {data : T} {size : Nat}

/-- One call of a client. -/
def call (self : RingBuffer T) :
    BoundedQueue.Call T → Except Fault (BoundedQueue.Answer HoarderError T × RingBuffer T)
  | .push item =>
      let (result, self) := self.push item
      .ok (.pushed result, self)
  | .pop => do
      let (item, self) ← self.pop
      return (.popped item, self)

/-- Only the slots of the window hold a value. -/
def ClearOutside (rb : RingBuffer T) : Prop :=
  ∀ place, (∀ i < rb.len, (rb.readIdx + i) % rb.size ≠ place) → rb.ptr place = none

/-- The buffer holds the items of the queue in the window that starts at `read_idx`, and nothing
anywhere else. -/
structure Refines (queue : BoundedQueue T size) (rb : RingBuffer T) : Prop where
  represents : rb.Represents queue.items
  sized : rb.size = size
  clear : rb.ClearOutside

theorem clearOutside_new [Sized T] (made : RingBuffer.new size = .ok rb) : rb.ClearOutside := by
  unfold RingBuffer.new at made
  split at made
  · split at made <;> cases made
    intro place _
    rfl
  · cases made

/-- A push writes the slot behind the window, which the window then takes in. -/
theorem ClearOutside.push (clear : rb.ClearOutside) (represents : rb.Represents items)
    (pushed : rb.push data = (.ok (), rb')) : rb'.ClearOutside := by
  unfold RingBuffer.push at pushed
  split at pushed <;> cases pushed
  intro place outside
  have notWritten : place ≠ rb.writeIdx := by
    rw [represents.writeIdx]
    exact (outside rb.len (Nat.lt_succ_self _)).symm
  change Function.update rb.ptr rb.writeIdx (some data) place = none
  rw [Function.update_of_ne notWritten]
  exact clear place fun i inside => outside i (Nat.lt_succ_of_lt inside)

/-- A pop empties the first slot of the window, which the window then leaves out. -/
theorem ClearOutside.pop {popped : Option T} (clear : rb.ClearOutside)
    (represents : rb.Represents items) (ran : rb.pop = .ok (popped, rb')) : rb'.ClearOutside := by
  unfold RingBuffer.pop at ran
  split at ran
  · split at ran <;> cases ran
    intro place outside
    change Function.update rb.ptr rb.readIdx none place = none
    by_cases first : place = rb.readIdx
    · rw [first, Function.update_self]
    · rw [Function.update_of_ne first]
      apply clear place
      intro i inside
      cases i with
      | zero =>
          rw [Nat.add_zero, Nat.mod_eq_of_lt represents.readInside]
          exact fun same => first same.symm
      | succ i =>
          have later := outside i (by simp only; omega)
          simp only [Nat.mod_add_mod] at later
          rwa [Nat.add_right_comm] at later
  · cases ran
    exact clear

/-- A buffer that represents nothing, with clear slots outside its window, has only clear slots. -/
theorem ClearOutside.all (clear : rb.ClearOutside) (represents : rb.Represents []) (place : Nat) :
    rb.ptr place = none := by
  apply clear place
  intro i inside
  rw [represents.len] at inside
  cases inside

/-- A pop that returned took the head of the contents, if there was one. -/
theorem pop_contents {popped : Option T} (wf : rb.WF) (ran : rb.pop = .ok (popped, rb')) :
    popped = rb.contents.head? ∧ rb'.contents = rb.contents.tail ∧ rb'.WF ∧
      rb'.size = rb.size := by
  rcases pop_inv wf ran with ⟨rfl, empty, rfl⟩ | ⟨data, rfl, holds, wf', sized⟩
  · rw [empty]
    exact ⟨rfl, rfl, wf, rfl⟩
  · rw [holds]
    exact ⟨rfl, rfl, wf', sized⟩

/-- The buffer answers each call as the bounded queue does. -/
theorem call_simulates :
    Service.Simulates call (BoundedQueue.respond .pushError)
      (Refines : BoundedQueue T size → RingBuffer T → Prop) := by
  intro queue rb request refines
  have wf := refines.represents.wf
  have contents := refines.represents.contents_eq
  cases request with
  | push item =>
      by_cases room : queue.items.length < size
      · obtain ⟨answer, items'⟩ :=
          BoundedQueue.respond_push_room HoarderError.pushError item room
        obtain ⟨rb', pushed, wf', sized, contents'⟩ :=
          push_spec wf (by rw [contents, refines.sized]; exact room) item
        refine ⟨rb', ?_, ?_, sized.trans refines.sized,
          refines.clear.push refines.represents pushed⟩
        · rw [answer, call, pushed]
        · rw [items', ← contents, ← contents']
          exact wf'
      · have full : rb.contents.length = rb.size := by
          rw [contents, refines.sized]
          exact Nat.le_antisymm queue.bounded (Nat.le_of_not_lt room)
        rw [BoundedQueue.respond_push_full room]
        refine ⟨rb, ?_, refines⟩
        rw [call, push_full wf full]
  | pop =>
      obtain ⟨answer, items'⟩ :=
        BoundedQueue.respond_pop HoarderError.pushError queue
      obtain ⟨item, rb', popped⟩ := pop_ok wf
      obtain ⟨taken, contents', wf', sized⟩ := pop_contents wf popped
      refine ⟨rb', ?_, ?_, sized.trans refines.sized,
        refines.clear.pop refines.represents popped⟩
      · rw [answer, ← contents, ← taken, call, popped]
        rfl
      · rw [items', ← contents, ← contents']
        exact wf'

/-- The loop of `Drop` ends, having taken every value once and in order. -/
theorem drop_spec (represents : rb.Represents items) (clear : rb.ClearOutside) :
    ∃ last, rb.drop = .ok (items, last) ∧ ∀ place, last.ptr place = none := by
  induction items generalizing rb with
  | nil =>
      have popped := pop_empty represents.wf represents.contents_eq
      refine ⟨rb, ?_, clear.all represents⟩
      unfold drop
      split <;> rename_i ran <;> rw [popped] at ran <;> cases ran
      rfl
  | cons data items inductionHypothesis =>
      obtain ⟨next, popped, _, represents'⟩ := pop_represents represents
      obtain ⟨last, dropped, cleared⟩ :=
        inductionHypothesis represents' (clear.pop represents popped)
      refine ⟨last, ?_, cleared⟩
      unfold drop
      split <;> rename_i ran <;> rw [popped] at ran <;> cases ran
      rw [dropped]
      rfl

/-- From this buffer on, any calls are answered as by the queue of capacity `size` that holds
`items`; after them the buffer still refines the queue, and `Drop` takes what is left. -/
def Serves (rb : RingBuffer T) (queue : BoundedQueue T size) : Prop :=
  ∀ calls, ∃ rb' last,
    Service.serve call rb calls =
      .ok ((Service.respond (BoundedQueue.respond .pushError) queue calls).1, rb') ∧
    Refines (Service.respond (BoundedQueue.respond HoarderError.pushError) queue calls).2 rb' ∧
    rb'.drop =
      .ok ((Service.respond (BoundedQueue.respond HoarderError.pushError) queue calls).2.items,
        last) ∧
    ∀ place, last.ptr place = none

theorem Refines.serves {queue : BoundedQueue T size} (refines : Refines queue rb) :
    rb.Serves queue := by
  intro calls
  obtain ⟨rb', served, refines'⟩ := call_simulates.serve refines calls
  obtain ⟨last, dropped, cleared⟩ := drop_spec refines'.represents refines'.clear
  exact ⟨rb', last, served, refines', dropped, cleared⟩

/-- Filling the buffer keeps the slots outside its window clear. -/
theorem fillFrom_clear {remaining : Nat} {iter : List T} (wf : rb.WF) (clear : rb.ClearOutside)
    (ran : rb.fillFrom remaining iter = .ok rb') : rb'.ClearOutside := by
  induction remaining generalizing rb iter with
  | zero =>
      cases ran
      exact clear
  | succ remaining inductionHypothesis =>
      cases iter with
      | nil => cases ran
      | cons item iter =>
          rw [fillFrom] at ran
          split at ran
          · rename_i next pushed
            obtain ⟨_, wf', _⟩ := push_inv wf pushed
            exact inductionHypothesis wf' (clear.push wf pushed) ran
          · cases ran

/-- `new` returns exactly on the sizes that its assertion and its layout admit.  Every buffer that it
makes serves as an empty queue, and every buffer that `from_fixed_iter` makes, which is full, as the
queue of the first `size` items. -/
theorem refines_bounded_queue [Sized T] (size : Nat) :
    ((∃ rb : RingBuffer T, RingBuffer.new size = .ok rb) ↔
      1 ≤ size ∧ size < isizeMax ∧ (Layout.array T size).isSome) ∧
    (∀ rb : RingBuffer T, RingBuffer.new size = .ok rb →
      rb.Serves (.ofFirst [] : BoundedQueue T size)) ∧
    ∀ iter : List T, (∃ rb : RingBuffer T, RingBuffer.new size = .ok rb) → size ≤ iter.length →
      ∃ rb, fromFixedIter size iter = .ok rb ∧
        rb.isFull = true ∧ rb.Serves (.ofFirst iter : BoundedQueue T size) := by
  refine ⟨new_returns_iff, fun rb made => ?_, fun iter returned enough => ?_⟩
  · obtain ⟨represents, sized⟩ := new_represents made
    have empty : (.ofFirst [] : BoundedQueue T size).items = [] := List.take_nil
    have refines : Refines (.ofFirst [] : BoundedQueue T size) rb :=
      ⟨by rw [empty]; exact represents, sized, clearOutside_new made⟩
    exact refines.serves
  · obtain ⟨start, made⟩ := returned
    obtain ⟨rb, filled, wf, sized', contents⟩ := fromFixedIter_spec made enough
    rw [WF, contents] at wf
    have clear' : rb.ClearOutside := by
      obtain ⟨again, madeAgain, fillRan⟩ := Outcome.bind_eq_ok.mp filled
      rw [made] at madeAgain
      cases madeAgain
      exact fillFrom_clear (new_represents made).1.wf (clearOutside_new made) fillRan
    have refines : Refines (.ofFirst iter : BoundedQueue T size) rb := ⟨wf, sized', clear'⟩
    refine ⟨rb, filled, ?_, refines.serves⟩
    rw [isFull, beq_iff_eq, wf.len, List.length_take, Nat.min_eq_left enough, sized']

/-- Three slots: a fourth push is refused, and a push after a pop wraps around.  No layout holds
`1 << 62` values of four bytes. -/
theorem refines_bounded_queue_wrapped :
    (∃ rb : RingBuffer UInt32, RingBuffer.new 3 = .ok rb ∧ ∃ rb' last,
      Service.serve call rb [.push 1, .push 2, .push 3, .push 4, .pop, .push 5] =
        .ok ([.pushed (.ok ()), .pushed (.ok ()), .pushed (.ok ()), .pushed (.error .pushError),
          .popped (some 1), .pushed (.ok ())], rb') ∧
      rb'.drop = .ok ([2, 3, 5], last)) ∧
    ¬ ∃ rb : RingBuffer UInt32, RingBuffer.new (2 ^ 62) = .ok rb := by
  constructor
  · obtain ⟨returns, serves, _⟩ := refines_bounded_queue (T := UInt32) 3
    obtain ⟨rb, made⟩ := returns.mpr (by decide)
    obtain ⟨rb', last, served, _, dropped, _⟩ :=
      serves rb made [.push 1, .push 2, .push 3, .push 4, .pop, .push 5]
    exact ⟨rb, made, rb', last, served, dropped⟩
  · rw [(refines_bounded_queue (T := UInt32) (2 ^ 62)).1]
    decide

end Hoarder.RingBuffer
