/-
Module: Hoarder.Proofs.RingBuffer
Purpose: The ring buffer refines a bounded FIFO queue.  `Represents` ties the indices and the raw
  slots to an abstract list; `contents` reads that list back; every operation is specified on it.
Trusted boundary: none
Main exports: RingBuffer.Represents, RingBuffer.contents, RingBuffer.WF, RingBuffer.new_wf,
  RingBuffer.new_returns_iff, RingBuffer.push_spec, RingBuffer.push_inv, RingBuffer.pop_spec,
  RingBuffer.pop_inv, RingBuffer.fromFixedIter_spec
-/
import Hoarder.Core.Collections
import Hoarder.Foundation.Window

namespace Hoarder.RingBuffer

open Foundation

variable {T : Type} {rb rb' : RingBuffer T} {queue : List T} {data : T}

/-- `queue` is what the buffer holds, oldest first: the `len` slots from `read_idx` on, modulo
`size`, are written with it. -/
structure Represents (rb : RingBuffer T) (queue : List T) : Prop where
  readInside : rb.readIdx < rb.size
  len : rb.len = queue.length
  room : rb.len ≤ rb.size
  writeIdx : rb.writeIdx = (rb.readIdx + rb.len) % rb.size
  cells : Window.cells rb.ptr rb.size rb.readIdx rb.len = queue.map some

/-- The values held, oldest first. -/
def contents (rb : RingBuffer T) : List T :=
  (Window.cells rb.ptr rb.size rb.readIdx rb.len).reduceOption

/-- A well-formed buffer represents its own contents. -/
def WF (rb : RingBuffer T) : Prop :=
  rb.Represents rb.contents

theorem Represents.contents_eq (represents : rb.Represents queue) : rb.contents = queue := by
  rw [contents, represents.cells, List.reduceOption, List.filterMap_map]
  simp

theorem Represents.wf (represents : rb.Represents queue) : rb.WF := by
  rw [WF, represents.contents_eq]
  exact represents

theorem WF.length_le (wf : rb.WF) : rb.contents.length ≤ rb.size := by
  have := wf.len
  have := wf.room
  omega

theorem WF.size_pos (wf : rb.WF) : 0 < rb.size :=
  Nat.lt_of_le_of_lt (Nat.zero_le _) wf.readInside

/-- A new buffer is empty. -/
theorem new_represents [Sized T] {size : Nat} (made : RingBuffer.new size = .ok rb) :
    rb.Represents [] ∧ rb.size = size := by
  unfold RingBuffer.new at made
  split at made
  · rename_i positive
    split at made <;> cases made
    exact ⟨⟨positive.1, rfl, Nat.zero_le _, by simp, rfl⟩, rfl⟩
  · cases made

/-- `new` returns exactly when its assertion and its `unwrap` pass. -/
theorem new_returns_iff [Sized T] {size : Nat} :
    (∃ rb : RingBuffer T, RingBuffer.new size = .ok rb) ↔
      0 < size ∧ size < isizeMax ∧ (Layout.array T size).isSome := by
  unfold RingBuffer.new
  by_cases asserted : 0 < size ∧ size < isizeMax
  · rw [if_pos asserted]
    cases array : Layout.array T size with
    | none => simp
    | some layout => simp [asserted]
  · rw [if_neg asserted]
    constructor
    · rintro ⟨rb, made⟩
      cases made
    · rintro ⟨positive, small, _⟩
      exact absurd ⟨positive, small⟩ asserted

theorem new_wf [Sized T] {size : Nat} (made : RingBuffer.new size = .ok rb) :
    rb.WF ∧ rb.contents = [] ∧ rb.size = size :=
  have ⟨represents, sized⟩ := new_represents made
  ⟨represents.wf, represents.contents_eq, sized⟩

/-- With room left, `push` succeeds and appends. -/
theorem push_spec (wf : rb.WF) (room : rb.contents.length < rb.size) (data : T) :
    ∃ rb', rb.push data = (.ok (), rb') ∧ rb'.WF ∧ rb'.size = rb.size ∧
      rb'.contents = rb.contents ++ [data] := by
  have len := wf.len
  have notFull : rb.isFull = false := by
    simp only [isFull, beq_eq_false_iff_ne]
    omega
  refine ⟨_, by rw [push, notFull]; rfl, ?_⟩
  suffices represents : Represents
      { rb with
        ptr := Function.update rb.ptr rb.writeIdx (some data)
        writeIdx := (rb.writeIdx + 1) % rb.size
        len := rb.len + 1 } (rb.contents ++ [data]) from
    ⟨represents.wf, rfl, represents.contents_eq⟩
  refine ⟨wf.readInside, by simp [len], by simp only; omega, ?_, ?_⟩
  · simp only [wf.writeIdx, Nat.mod_add_mod, Nat.add_assoc]
  · simp only [wf.writeIdx]
    rw [Window.cells_write_end (by omega), wf.cells]
    simp

/-- A full buffer refuses, and is left as it was. -/
theorem push_full (wf : rb.WF) (full : rb.contents.length = rb.size) (data : T) :
    rb.push data = (.error .pushError, rb) := by
  have isFull : rb.isFull = true := by
    simp only [RingBuffer.isFull, beq_iff_eq, wf.len, full]
  simp [push, isFull]

/-- A push that succeeded found room and appended. -/
theorem push_inv (wf : rb.WF) (pushed : rb.push data = (.ok (), rb')) :
    rb.contents.length < rb.size ∧ rb'.WF ∧ rb'.size = rb.size ∧
      rb'.contents = rb.contents ++ [data] := by
  rcases Nat.lt_or_ge rb.contents.length rb.size with room | full
  · obtain ⟨other, otherPushed, spec⟩ := push_spec wf room data
    rw [otherPushed] at pushed
    cases pushed
    exact ⟨room, spec⟩
  · rw [push_full wf (Nat.le_antisymm wf.length_le full)] at pushed
    cases pushed

theorem isEmpty_iff (wf : rb.WF) : rb.isEmpty = true ↔ rb.contents = [] := by
  rw [isEmpty, beq_iff_eq, wf.len, List.length_eq_zero_iff]

/-- `pop` of a buffer that represents a non-empty queue: the oldest value, which its slot does
hold, and the rest of the queue. -/
theorem pop_represents {rest : List T} (represents : rb.Represents (data :: rest)) :
    ∃ rb', rb.pop = .ok (some data, rb') ∧ rb'.size = rb.size ∧ rb'.Represents rest := by
  obtain ⟨readInside, len, room, writeIdx, cells⟩ := represents
  rw [List.length_cons] at len
  rw [len, Window.cells_cons readInside, List.map_cons] at cells
  obtain ⟨slot, cellsRest⟩ := List.cons.inj cells
  have notEmpty : rb.isEmpty = false := by
    simp [isEmpty, len]
  refine
    ⟨{ rb with
        ptr := Function.update rb.ptr rb.readIdx none
        readIdx := (rb.readIdx + 1) % rb.size
        len := rb.len - 1 },
      by simp [pop, notEmpty, slot], rfl, ?_⟩
  refine ⟨Nat.mod_lt _ (Nat.lt_of_le_of_lt (Nat.zero_le _) readInside), by simp [len],
    by simp only; omega, ?_, ?_⟩
  · simp only [writeIdx, len, Nat.add_sub_cancel, Nat.mod_add_mod]
    congr 1
    omega
  · simp only [len, Nat.add_sub_cancel]
    rw [Window.cells_drop_first readInside (by omega), cellsRest]

/-- Popping a non-empty buffer. -/
theorem pop_spec {rest : List T} (wf : rb.WF) (holds : rb.contents = data :: rest) :
    ∃ rb', rb.pop = .ok (some data, rb') ∧ rb'.WF ∧ rb'.size = rb.size ∧
      rb'.contents = rest := by
  rw [WF, holds] at wf
  obtain ⟨rb', popped, sized, represents⟩ := pop_represents wf
  exact ⟨rb', popped, represents.wf, sized, represents.contents_eq⟩

/-- Popping an empty buffer. -/
theorem pop_empty (wf : rb.WF) (empty : rb.contents = []) : rb.pop = .ok (none, rb) := by
  simp [pop, (isEmpty_iff wf).mpr empty]

/-- What a pop that returned can have been. -/
theorem pop_inv {popped : Option T} (wf : rb.WF) (ran : rb.pop = .ok (popped, rb')) :
    (popped = none ∧ rb.contents = [] ∧ rb' = rb) ∨
      ∃ data, popped = some data ∧ rb.contents = data :: rb'.contents ∧ rb'.WF ∧
        rb'.size = rb.size := by
  cases holds : rb.contents with
  | nil =>
      rw [pop_empty wf holds] at ran
      cases ran
      exact .inl ⟨rfl, rfl, rfl⟩
  | cons data rest =>
      obtain ⟨other, otherPopped, otherWf, sized, otherContents⟩ := pop_spec wf holds
      rw [otherPopped] at ran
      cases ran
      exact .inr ⟨data, rfl, by rw [otherContents], otherWf, sized⟩

/-- A well-formed buffer never reads a slot that holds no value. -/
theorem pop_ok (wf : rb.WF) : ∃ popped rb', rb.pop = .ok (popped, rb') := by
  cases holds : rb.contents with
  | nil => exact ⟨none, rb, pop_empty wf holds⟩
  | cons data rest =>
      obtain ⟨rb', popped, _⟩ := pop_spec wf holds
      exact ⟨some data, rb', popped⟩

/-- The loop of `from_fixed_iter` appends the first `remaining` items. -/
theorem fillFrom_spec {remaining : Nat} {iter : List T} (wf : rb.WF)
    (enough : remaining ≤ iter.length) (room : rb.contents.length + remaining ≤ rb.size) :
    ∃ rb', rb.fillFrom remaining iter = .ok rb' ∧ rb'.WF ∧ rb'.size = rb.size ∧
      rb'.contents = rb.contents ++ iter.take remaining := by
  induction remaining generalizing rb iter with
  | zero => exact ⟨rb, by simp [fillFrom], wf, rfl, by simp⟩
  | succ remaining inductionHypothesis =>
      cases iter with
      | nil => simp at enough
      | cons item iter =>
          obtain ⟨next, pushed, nextWf, nextSize, nextContents⟩ :=
            push_spec wf (by omega) item
          obtain ⟨rb', filled, wf', size', contents'⟩ :=
            inductionHypothesis nextWf (show remaining ≤ iter.length by simpa using enough)
              (by rw [nextContents, nextSize, List.length_append, List.length_singleton]; omega)
          refine ⟨rb', ?_, wf', size'.trans nextSize, ?_⟩
          · simp only [fillFrom, pushed]
            exact filled
          · rw [contents', nextContents]
            simp

/-- `from_fixed_iter` of an iterator that yields at least `size` items. -/
theorem fromFixedIter_spec [Sized T] {size : Nat} {iter : List T} {start : RingBuffer T}
    (made : RingBuffer.new size = .ok start) (enough : size ≤ iter.length) :
    ∃ rb, fromFixedIter size iter = .ok rb ∧ rb.WF ∧ rb.size = size ∧
      rb.contents = iter.take size := by
  obtain ⟨wf, empty, sized⟩ := new_wf made
  obtain ⟨rb, filled, wf', size', contents'⟩ :=
    fillFrom_spec wf enough (by rw [empty, sized]; simp)
  refine ⟨rb, ?_, wf', size'.trans sized, by rw [contents', empty]; rfl⟩
  simp only [fromFixedIter, made]
  exact filled

end Hoarder.RingBuffer
