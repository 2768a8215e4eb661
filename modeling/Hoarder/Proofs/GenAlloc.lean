/-
Module: Hoarder.Proofs.GenAlloc
Purpose: Ownership in the generational allocator.  `Owns` says that the ids held by some owners and
  the free list split the indices and that the held ids are valid; `alloc` and `free` are specified
  on it.  No statement here assumes anything about how often a slot has been used.
Trusted boundary: none
Main exports: GenAlloc.alloc_inv, GenAlloc.free_inv, GenAlloc.Owns, GenAlloc.new_owns,
  GenAlloc.Owns.alloc_ok, GenAlloc.Owns.alloc_some, GenAlloc.Owns.alloc_none,
  GenAlloc.Owns.free_owned, GenAlloc.free_invalid, GenAlloc.NoWrap, GenAlloc.LeftBehind,
  GenAlloc.noWrap_sound
-/
import Hoarder.Core.Alloc
import Hoarder.Foundation.Outcome
import Hoarder.Foundation.SlotPartition
import Hoarder.Proofs.RingBuffer

namespace Hoarder

open Foundation

theorem indexArray_eq_ok {T : Type} {xs : Array T} {index : Nat} {value : T} :
    indexArray xs index = .ok value ↔ xs[index]? = some value := by
  unfold indexArray
  cases xs[index]? <;> simp

namespace GenAlloc

variable {κ : Type*} {a a' : GenAlloc} {owned : κ → Option GenId} {id other : GenId}

/-- The number of slots. -/
def capacity (a : GenAlloc) : Nat := a.generation.size

/-- The indices on the free list, next to be allocated first. -/
def freeIndices (a : GenAlloc) : List Nat :=
  a.freeList.contents.map UInt32.toNat

/-- Mask 0 limits nothing. -/
theorem maskedCapacity_zero (capacity : UInt32) : maskedCapacity capacity 0 = capacity := by
  simp only [maskedCapacity, beq_self_eq_true, if_true]
  exact UInt32.and_neg_one

theorem isValid_iff : a.isValid id = true ↔
    a.generation[id.index.toNat]? = some id.generation := by
  simp only [isValid]
  split
  · rename_i inside
    rw [beq_iff_eq, Array.getElem?_eq_getElem inside, Option.some.injEq]
    exact eq_comm
  · rename_i outside
    rw [Array.getElem?_eq_none (by omega)]
    simp

theorem isValid.index_lt (valid : a.isValid id = true) : id.index.toNat < a.capacity := by
  obtain ⟨inside, _⟩ := Array.getElem?_eq_some_iff.mp (isValid_iff.mp valid)
  exact inside

/-- Valid ids of one slot are equal. -/
theorem isValid.unique (valid : a.isValid id = true) (otherValid : a.isValid other = true)
    (sameIndex : id.index = other.index) : id = other := by
  have first := isValid_iff.mp valid
  have second := isValid_iff.mp otherValid
  rw [sameIndex, second, Option.some.injEq] at first
  cases id
  cases other
  simp_all

/-- What an `alloc` that returned did: it popped the free list, and the id it answers is the popped
index with the generation of its slot. -/
theorem alloc_inv {answer : Option GenId} (ran : a.alloc = .ok (answer, a')) :
    ∃ popped freeList, a.freeList.pop = .ok (popped, freeList) ∧ a' = { a with freeList } ∧
      popped = answer.map GenId.index ∧ ∀ id, answer = some id → a.isValid id = true := by
  unfold alloc at ran
  obtain ⟨⟨popped, freeList⟩, ranPop, ran⟩ := Outcome.bind_eq_ok.mp ran
  cases popped with
  | none =>
      cases ran
      exact ⟨none, freeList, ranPop, rfl, rfl, by simp⟩
  | some index =>
      obtain ⟨generation, found, ran⟩ := Outcome.bind_eq_ok.mp ran
      cases ran
      refine ⟨some index, freeList, ranPop, rfl, rfl, ?_⟩
      rintro id same
      cases same
      exact isValid_iff.mpr (indexArray_eq_ok.mp found)

/-- What a `free` that returned did: it refused an invalid id, or moved the slot of a valid one to
its next generation and pushed its index. -/
theorem free_inv {freed : Bool} (ran : a.free id = .ok (freed, a')) :
    (a.isValid id = false ∧ freed = false ∧ a' = a) ∨
      (a.isValid id = true ∧ freed = true ∧
        a'.generation = a.generation.setIfInBounds id.index.toNat (id.generation + 1) ∧
        a.freeList.push id.index = (.ok (), a'.freeList)) := by
  unfold free at ran
  split at ran
  · rename_i valid
    obtain ⟨generation, found, ran⟩ := Outcome.bind_eq_ok.mp ran
    have current := isValid_iff.mp valid
    rw [indexArray_eq_ok.mp found, Option.some.injEq] at current
    subst current
    split at ran <;> cases ran
    rename_i freeList pushed
    exact .inr ⟨valid, rfl, rfl, pushed⟩
  · rename_i invalid
    cases ran
    exact .inl ⟨by simpa using invalid, rfl, rfl⟩

/-- Moving the slot of a valid id to its next generation makes that id invalid, and no other. -/
theorem isValid_next (valid : a.isValid id = true)
    (generation : a'.generation = a.generation.setIfInBounds id.index.toNat (id.generation + 1)) :
    a'.isValid id = false ∧
      ∀ other, a.isValid other = true → other ≠ id → a'.isValid other = true := by
  refine ⟨?_, fun other otherValid different => ?_⟩
  · rw [← Bool.not_eq_true, isValid_iff, generation,
      Array.getElem?_setIfInBounds_self_of_lt (isValid.index_lt valid), Option.some.injEq]
    intro same
    have one := congrArg (fun word => word - id.generation) same
    simp at one
  · have apart : id.index.toNat ≠ other.index.toNat := fun same =>
      different (isValid.unique otherValid valid (UInt32.toNat_inj.mp same.symm))
    rw [isValid_iff, generation, Array.getElem?_setIfInBounds_ne apart]
    exact isValid_iff.mp otherValid

/-- `alloc` leaves the generations alone. -/
theorem alloc_generation {answer : Option GenId} (ran : a.alloc = .ok (answer, a')) :
    a'.generation = a.generation := by
  obtain ⟨_, _, _, rfl, _⟩ := alloc_inv ran
  rfl

/-- `free` leaves the number of slots alone. -/
theorem free_capacity {freed : Bool} (ran : a.free id = .ok (freed, a')) :
    a'.capacity = a.capacity := by
  rcases free_inv ran with ⟨_, _, rfl⟩ | ⟨_, _, generation, _⟩
  · rfl
  · rw [capacity, generation, Array.size_setIfInBounds, capacity]

/-- The owners hold valid ids of distinct slots, and the free list names exactly the other slots. -/
structure Owns (a : GenAlloc) (owned : κ → Option GenId) : Prop where
  freeList : a.freeList.WF
  sized : a.freeList.size = a.capacity
  partition : SlotPartition a.capacity a.freeIndices
    fun owner => (owned owner).map fun id => id.index.toNat
  current : ∀ owner id, owned owner = some id → a.isValid id = true

/-- Only which ids are held matters, not how the owner map is written. -/
theorem Owns.congr {owned' : κ → Option GenId} (owns : a.Owns owned)
    (same : ∀ owner, owned owner = owned' owner) : a.Owns owned' := by
  obtain rfl : owned = owned' := funext same
  exact owns

/-- The slot of a held id, as the partition sees it. -/
theorem slotOf {owner : κ} (holds : owned owner = some id) :
    ((owned owner).map fun id => id.index.toNat) = some id.index.toNat := by
  simp [holds]

/-- The slots of an owner map that was changed in one place. -/
theorem slotOf_update [DecidableEq κ] (owned : κ → Option GenId) (owner : κ) (held : Option GenId)
    (second : κ) :
    ((Function.update owned owner held second).map fun id => id.index.toNat) =
      Function.update (fun second => (owned second).map fun id => id.index.toNat) owner
        (held.map fun id => id.index.toNat) second :=
  Function.apply_update (fun _ => Option.map fun id : GenId => id.index.toNat) owned owner held second

/-- Owners that hold ids of one slot are the same owner. -/
theorem Owns.exclusive (owns : a.Owns owned) {owner second : κ} (holds : owned owner = some id)
    (otherHolds : owned second = some other) (sameIndex : id.index = other.index) :
    owner = second :=
  owns.partition.exclusive owner second id.index.toNat (slotOf holds)
    (by simp [otherHolds, sameIndex])

/-- A held index is not on the free list. -/
theorem Owns.not_free (owns : a.Owns owned) {owner : κ} (holds : owned owner = some id) :
    id.index.toNat ∉ a.freeIndices :=
  owns.partition.disjoint owner _ (slotOf holds)

/-- A new allocator has every generation at zero and every index free. -/
theorem new_owns {capacity mask : UInt32} (positive : 0 < (maskedCapacity capacity mask).toNat) :
    ∃ a, GenAlloc.new capacity mask = .ok a ∧ a.Owns (fun _ : κ => none) ∧
      a.capacity = (maskedCapacity capacity mask).toNat := by
  have bound := UInt32.toNat_lt (maskedCapacity capacity mask)
  set count := (maskedCapacity capacity mask).toNat with countEq
  have small : count < isizeMax := Nat.lt_trans bound (by decide)
  have array : (Layout.array UInt32 count).isSome :=
    Layout.array_isSome (Nat.le_of_lt (Nat.lt_trans bound (by decide)))
  obtain ⟨layout, layoutEq⟩ := Option.isSome_iff_exists.mp array
  obtain ⟨start, made⟩ := RingBuffer.new_returns_iff.mpr ⟨positive, small, array⟩
  obtain ⟨freeList, filled, wf, sized, contents⟩ :=
    RingBuffer.fromFixedIter_spec made
      (show count ≤ ((List.range count).map UInt32.ofNat).reverse.length by simp)
  refine ⟨⟨Array.replicate count 0, freeList⟩, ?_, ⟨wf, ?_, ?_, by simp⟩, ?_⟩
  · simp [GenAlloc.new, ← countEq, newArray, positive, small, layoutEq, filled]
  · simp [GenAlloc.capacity, sized]
  · have indices : (GenAlloc.mk (Array.replicate count 0) freeList).freeIndices =
        (List.range count).reverse := by
      rw [freeIndices, contents, List.take_of_length_le (by simp), List.map_reverse, List.map_map]
      congr 1
      conv_rhs => rw [← List.map_id (List.range count)]
      apply List.map_congr_left
      intro i member
      have := List.mem_range.mp member
      simp only [Function.comp_apply, UInt32.toNat_ofNat', id]
      exact Nat.mod_eq_of_lt (by omega)
    rw [indices]
    exact SlotPartition.initial (List.nodup_reverse.mpr List.nodup_range)
      (by simp [GenAlloc.capacity])
  · simp [GenAlloc.capacity]

/-- An allocator that `new` returned owns nothing yet. -/
theorem owns_of_new {capacity mask : UInt32} (made : GenAlloc.new capacity mask = .ok a) :
    a.Owns (fun _ : κ => none) ∧ a.capacity = (maskedCapacity capacity mask).toNat := by
  have positive : 0 < (maskedCapacity capacity mask).toNat := by
    unfold GenAlloc.new at made
    obtain ⟨generation, allocated, _⟩ := Outcome.bind_eq_ok.mp made
    unfold newArray at allocated
    split at allocated
    · rename_i size
      exact size.1
    · cases allocated
  obtain ⟨other, otherMade, owns, capacityEq⟩ := new_owns (κ := κ) positive
  rw [otherMade] at made
  cases made
  exact ⟨owns, capacityEq⟩

/-- `alloc` returns: the head of the free list with its current generation, or `None` when the
free list is empty. -/
theorem Owns.alloc_ok (owns : a.Owns owned) :
    (a.alloc = .ok (none, a) ∧ a.freeIndices = []) ∨
      ∃ id a', a.alloc = .ok (some id, a') ∧ a.isValid id = true ∧
        a'.generation = a.generation ∧ a'.freeList.WF ∧ a'.freeList.size = a.freeList.size ∧
        a.freeIndices = id.index.toNat :: a'.freeIndices := by
  cases holds : a.freeList.contents with
  | nil =>
      refine .inl ⟨?_, by simp [freeIndices, holds]⟩
      simp [alloc, RingBuffer.pop_empty owns.freeList holds]
  | cons index rest =>
      right
      obtain ⟨freeList, popped, wf, sized, contents⟩ := RingBuffer.pop_spec owns.freeList holds
      have inside : index.toNat < a.generation.size :=
        owns.partition.freeBound _ (by simp [freeIndices, holds])
      have found : indexArray a.generation index.toNat = .ok a.generation[index.toNat] :=
        indexArray_eq_ok.mpr (Array.getElem?_eq_getElem inside)
      refine ⟨⟨index, a.generation[index.toNat]⟩, { a with freeList }, ?_, ?_, rfl, wf, sized, ?_⟩
      · simp [alloc, popped, found]
      · exact isValid_iff.mpr (Array.getElem?_eq_getElem inside)
      · simp [freeIndices, holds, contents]

/-- A returned id is valid, was nobody's, and can be given to an owner that holds nothing. -/
theorem Owns.alloc_some [DecidableEq κ] (owns : a.Owns owned)
    (allocated : a.alloc = .ok (some id, a')) :
    a.isValid id = true ∧ a'.generation = a.generation ∧
      a.freeIndices = id.index.toNat :: a'.freeIndices ∧
      ∀ owner, owned owner = none → a'.Owns (Function.update owned owner (some id)) := by
  rcases owns.alloc_ok with ⟨none, _⟩ | ⟨id', next, ran, valid, generation, wf, sized, free⟩
  · rw [none] at allocated
    cases allocated
  rw [ran] at allocated
  cases allocated
  have sameValid : ∀ id, a'.isValid id = a.isValid id := by
    intro id
    simp only [isValid, generation]
  refine ⟨valid, generation, free, fun owner idle => ⟨wf, ?_, ?_, ?_⟩⟩
  · rw [sized, owns.sized, capacity, capacity, generation]
  · have partition := owns.partition
    rw [free] at partition
    have taken := partition.take owner (by simp [idle])
    rw [capacity, generation]
    exact taken.congr fun second => (slotOf_update owned owner (some id) second).symm
  · intro second held holds
    rw [sameValid]
    rcases eq_or_ne second owner with rfl | different
    · rw [Function.update_self] at holds
      cases holds
      exact valid
    · rw [Function.update_of_ne different] at holds
      exact owns.current second held holds

/-- `alloc` answers `None` only when no index is free, and then changes nothing. -/
theorem Owns.alloc_none (owns : a.Owns owned) (refused : a.alloc = .ok (none, a')) :
    a' = a ∧ a.freeIndices = [] := by
  rcases owns.alloc_ok with ⟨ran, free⟩ | ⟨_, _, ran, _⟩
  · rw [ran] at refused
    cases refused
    exact ⟨rfl, free⟩
  · rw [ran] at refused
    cases refused

/-- An invalid id is refused, and the allocator is left as it was. -/
theorem free_invalid (invalid : a.isValid id = false) : a.free id = .ok (false, a) := by
  simp [free, invalid]

/-- A held id is accepted: its index goes to the end of the free list and its slot's generation
moves on. -/
theorem Owns.free_owned [DecidableEq κ] (owns : a.Owns owned) {owner : κ}
    (holds : owned owner = some id) :
    ∃ a', a.free id = .ok (true, a') ∧ a'.Owns (Function.update owned owner none) ∧
      a'.generation = a.generation.setIfInBounds id.index.toNat (id.generation + 1) := by
  have valid := owns.current owner id holds
  have found := isValid_iff.mp valid
  have room : a.freeList.contents.length < a.freeList.size := by
    have := owns.partition.free_length_lt owner (slotOf holds)
    rw [freeIndices, List.length_map] at this
    rw [owns.sized]
    exact this
  obtain ⟨freeList, pushed, wf, sized, contents⟩ :=
    RingBuffer.push_spec owns.freeList room id.index
  refine ⟨⟨a.generation.setIfInBounds id.index.toNat (id.generation + 1), freeList⟩, ?_,
    ⟨wf, ?_, ?_, ?_⟩, rfl⟩
  · simp [free, valid, indexArray_eq_ok.mpr found, pushed]
  · simp [sized, owns.sized, capacity]
  · have given := owns.partition.give owner (slotOf holds)
    have indices : (GenAlloc.mk (a.generation.setIfInBounds id.index.toNat (id.generation + 1))
        freeList).freeIndices = a.freeIndices ++ [id.index.toNat] := by
      simp [freeIndices, contents]
    rw [indices, capacity, Array.size_setIfInBounds]
    exact given.congr fun second => (slotOf_update owned owner none second).symm
  · intro second held otherHolds
    rcases eq_or_ne second owner with rfl | different
    · rw [Function.update_self] at otherHolds
      cases otherHolds
    · rw [Function.update_of_ne different] at otherHolds
      apply (isValid_next valid rfl).2 held (owns.current second held otherHolds)
      rintro rfl
      exact different (owns.exclusive otherHolds holds rfl)

/-- No slot's generation goes down: the condition that no `u32` generation overflows between the
two states. -/
def NoWrap (before after : GenAlloc) : Prop :=
  ∀ (slot : Nat) (old new : UInt32), before.generation[slot]? = some old →
    after.generation[slot]? = some new → old ≤ new

theorem NoWrap.refl (a : GenAlloc) : NoWrap a a := by
  intro slot old new oldEq newEq
  rw [oldEq] at newEq
  cases newEq
  exact UInt32.le_refl old

/-- The slot of the id carries a later generation. -/
def LeftBehind (a : GenAlloc) (id : GenId) : Prop :=
  ∃ generation, a.generation[id.index.toNat]? = some generation ∧ id.generation < generation

theorem LeftBehind.invalid (left : a.LeftBehind id) : a.isValid id = false := by
  obtain ⟨generation, found, older⟩ := left
  rw [← Bool.not_eq_true, isValid_iff, found, Option.some.injEq]
  rintro rfl
  exact absurd older (UInt32.lt_irrefl _)

/-- Without overflow an id that was left behind stays so. -/
theorem LeftBehind.mono (left : a.LeftBehind id) (noWrap : a.NoWrap a')
    (capacity : a'.capacity = a.capacity) : a'.LeftBehind id := by
  obtain ⟨generation, found, older⟩ := left
  obtain ⟨inside, _⟩ := Array.getElem?_eq_some_iff.mp found
  have found' := Array.getElem?_eq_getElem (show id.index.toNat < a'.generation.size by
    rw [show a'.generation.size = a.generation.size from capacity]; exact inside)
  exact ⟨_, found', UInt32.lt_of_lt_of_le older (noWrap _ _ _ found found')⟩

/-- An id that stops being valid without overflow is left behind. -/
theorem LeftBehind.of_invalidated (valid : a.isValid id = true) (invalid : a'.isValid id = false)
    (noWrap : a.NoWrap a') (capacity : a'.capacity = a.capacity) : a'.LeftBehind id := by
  have found := isValid_iff.mp valid
  have inside := isValid.index_lt valid
  rw [← capacity] at inside
  have found' := Array.getElem?_eq_getElem inside
  refine ⟨_, found', ?_⟩
  have notDown := noWrap _ _ _ found found'
  have different : id.generation ≠ a'.generation[id.index.toNat] := by
    intro same
    rw [← Bool.not_eq_true, isValid_iff, found', same] at invalid
    exact invalid rfl
  exact UInt32.lt_of_le_of_ne notDown different

/-- `NoWrap`, as a test. -/
def noWrap (before after : GenAlloc) : Bool :=
  (before.generation.toList.zip after.generation.toList).all fun (old, new) => decide (old ≤ new)

theorem noWrap_sound (passed : noWrap a a' = true) : a.NoWrap a' := by
  intro slot old new oldEq newEq
  rw [← Array.getElem?_toList] at oldEq newEq
  have paired : (old, new) ∈ a.generation.toList.zip a'.generation.toList := by
    apply List.mem_of_getElem?
    rw [List.getElem?_zip_eq_some]
    exact ⟨oldEq, newEq⟩
  simpa using List.all_eq_true.mp passed _ paired

end GenAlloc

end Hoarder
