/-
Module: Hoarder.Proofs.AllocHistory
Purpose: The generational allocator against the history of its calls.  `Tracks` relates an allocator
  to the ids it has issued and to those still outstanding; the machine of all `alloc` and `free`
  calls keeps the relation as long as no generation overflows.
Trusted boundary: none
Main exports: GenAlloc.Tracks, GenAlloc.Tracks.alloc_some, GenAlloc.Tracks.free,
  GenAlloc.Tracks.isValid_iff_outstanding, AllocHistory.machine, AllocHistory.reach_tracks,
  AllocHistory.Exact, AllocHistory.allocator_exact
-/
import Hoarder.Foundation.Machine
import Hoarder.Proofs.GenAlloc

namespace Hoarder

open Foundation

namespace GenAlloc

variable {a a' : GenAlloc} {issued outstanding : List GenId} {id : GenId}

/-- The owner map in which every listed id holds itself. -/
def heldBy (outstanding : List GenId) (id : GenId) : Option GenId :=
  if id ∈ outstanding then some id else none

theorem heldBy_eq_some {held : GenId} :
    heldBy outstanding id = some held ↔ held = id ∧ id ∈ outstanding := by
  unfold heldBy
  split <;> simp_all [eq_comm]

theorem heldBy_cons (id : GenId) (outstanding : List GenId) :
    heldBy (id :: outstanding) = Function.update (heldBy outstanding) id (some id) := by
  funext other
  rcases eq_or_ne other id with rfl | different
  · simp [heldBy]
  · simp [heldBy, different]

theorem heldBy_filter (id : GenId) (outstanding : List GenId) :
    heldBy (outstanding.filter (· ≠ id)) = Function.update (heldBy outstanding) id none := by
  funext other
  rcases eq_or_ne other id with rfl | different
  · simp [heldBy]
  · simp [heldBy, different]

/-- The allocator agrees with its history: the outstanding ids are the owned ones, and every other
issued id carries a generation its slot has left behind. -/
structure Tracks (a : GenAlloc) (issued outstanding : List GenId) : Prop where
  owns : a.Owns (heldBy outstanding)
  nodup : outstanding.Nodup
  wasIssued : ∀ id ∈ outstanding, id ∈ issued
  stale : ∀ id ∈ issued, id ∉ outstanding →
    ∃ generation, a.generation[id.index.toNat]? = some generation ∧ id.generation < generation

/-- An issued id is valid exactly while it is outstanding. -/
theorem Tracks.isValid_iff_outstanding (tracks : a.Tracks issued outstanding)
    (wasIssued : id ∈ issued) : a.isValid id = true ↔ id ∈ outstanding := by
  constructor
  · intro valid
    by_contra freed
    rw [LeftBehind.invalid (tracks.stale id wasIssued freed)] at valid
    cases valid
  · intro held
    exact tracks.owns.current id id (heldBy_eq_some.mpr ⟨rfl, held⟩)

/-- A valid id whose index is free was never issued. -/
theorem Tracks.not_issued_of_free (tracks : a.Tracks issued outstanding)
    (valid : a.isValid id = true) (free : id.index.toNat ∈ a.freeIndices) : id ∉ issued := by
  intro wasIssued
  have held := (tracks.isValid_iff_outstanding wasIssued).mp valid
  exact tracks.owns.not_free (heldBy_eq_some.mpr ⟨rfl, held⟩) free

/-- A new allocator has no history. -/
theorem Tracks.of_new {capacity mask : UInt32} (made : GenAlloc.new capacity mask = .ok a) :
    a.Tracks [] [] where
  owns := (owns_of_new made).1.congr fun _ => rfl
  nodup := List.nodup_nil
  wasIssued := by simp
  stale := by simp

theorem Tracks.new {capacity mask : UInt32}
    (positive : 0 < (maskedCapacity capacity mask).toNat) :
    ∃ a, GenAlloc.new capacity mask = .ok a ∧ a.Tracks [] [] ∧
      a.capacity = (maskedCapacity capacity mask).toNat := by
  obtain ⟨a, made, _, capacityEq⟩ := new_owns (κ := GenId) positive
  exact ⟨a, made, .of_new made, capacityEq⟩

/-- `alloc` issues an id that was never issued before. -/
theorem Tracks.alloc_some (tracks : a.Tracks issued outstanding)
    (allocated : a.alloc = .ok (some id, a')) :
    id ∉ issued ∧ a'.Tracks (id :: issued) (id :: outstanding) := by
  obtain ⟨valid, generation, free, take⟩ := tracks.owns.alloc_some allocated
  have fresh : id ∉ issued := tracks.not_issued_of_free valid (by simp [free])
  have idle : id ∉ outstanding := fun held => fresh (tracks.wasIssued id held)
  refine ⟨fresh, ?_, List.nodup_cons.mpr ⟨idle, tracks.nodup⟩, ?_, ?_⟩
  · rw [heldBy_cons]
    exact take id (by simp [heldBy, idle])
  · intro other held
    rcases List.mem_cons.mp held with rfl | held
    · simp
    · exact List.mem_cons_of_mem _ (tracks.wasIssued other held)
  · intro other wasIssued freed
    rw [List.mem_cons, not_or] at freed
    rcases List.mem_cons.mp wasIssued with same | wasIssued
    · exact absurd same freed.1
    · rw [generation]
      exact tracks.stale other wasIssued freed.2

/-- `free` of an issued id returns, and says whether the id was outstanding. -/
theorem Tracks.free_ok (tracks : a.Tracks issued outstanding) (wasIssued : id ∈ issued) :
    (id ∈ outstanding ∧ ∃ a', a.free id = .ok (true, a')) ∨
      (id ∉ outstanding ∧ a.free id = .ok (false, a)) := by
  by_cases held : id ∈ outstanding
  · obtain ⟨a', ran, _⟩ := tracks.owns.free_owned (heldBy_eq_some.mpr ⟨rfl, held⟩)
    exact .inl ⟨held, a', ran⟩
  · have invalid : a.isValid id = false := by
      rw [← Bool.not_eq_true, tracks.isValid_iff_outstanding wasIssued]
      exact held
    exact .inr ⟨held, free_invalid invalid⟩

/-- A `free` that does not wrap a generation keeps the history: the id stops being outstanding. -/
theorem Tracks.free (tracks : a.Tracks issued outstanding) (wasIssued : id ∈ issued)
    {freed : Bool} (ran : a.free id = .ok (freed, a')) (noWrap : a.NoWrap a') :
    a'.Tracks issued (outstanding.filter (· ≠ id)) := by
  rcases tracks.free_ok wasIssued with ⟨held, _⟩ | ⟨notHeld, same⟩
  · have holds : heldBy outstanding id = some id := heldBy_eq_some.mpr ⟨rfl, held⟩
    obtain ⟨next, nextRan, owns, generation⟩ := tracks.owns.free_owned holds
    rw [nextRan] at ran
    cases ran
    refine ⟨by rw [heldBy_filter]; exact owns, tracks.nodup.filter _,
      fun other kept => tracks.wasIssued other (List.mem_of_mem_filter kept), ?_⟩
    have valid := tracks.owns.current id id holds
    have capacity : a'.capacity = a.capacity := free_capacity nextRan
    intro other wasIssued' gone
    by_cases otherHeld : other ∈ outstanding
    · obtain rfl : other = id := by
        by_contra different
        exact gone (List.mem_filter.mpr ⟨otherHeld, by simpa using different⟩)
      exact LeftBehind.of_invalidated valid (isValid_next valid generation).1 noWrap capacity
    · exact LeftBehind.mono (tracks.stale other wasIssued' otherHeld) noWrap capacity
  · rw [same] at ran
    cases ran
    have unchanged : outstanding.filter (· ≠ id) = outstanding := by
      apply List.filter_eq_self.mpr
      intro other held
      simpa using fun same : other = id => notHeld (same ▸ held)
    rw [unchanged]
    exact tracks

end GenAlloc

namespace AllocHistory

/-- The calls a client makes. -/
inductive Call where
  | alloc
  | free (id : GenId)
deriving DecidableEq, Repr

/-- The allocator with the ids it has returned so far and those not freed since. -/
structure State where
  allocator : GenAlloc
  issued : List GenId
  outstanding : List GenId

/-- One call.  `free` is only given ids the allocator has returned. -/
def step (s : State) : Call → Option State
  | .alloc =>
      match s.allocator.alloc with
      | .ok (some id, allocator) =>
          some
            { allocator := allocator, issued := id :: s.issued,
              outstanding := id :: s.outstanding }
      | .ok (none, allocator) => some { s with allocator := allocator }
      | .error _ => none
  | .free id =>
      if id ∈ s.issued then
        match s.allocator.free id with
        | .ok (_, allocator) =>
            some
              { s with
                allocator := allocator
                outstanding := s.outstanding.filter (· ≠ id) }
        | .error _ => none
      else none

/-- All histories of an allocator built with the given capacity and mask. -/
def machine (capacity mask : UInt32) : Machine State Call where
  initial s := ∃ a, GenAlloc.new capacity mask = .ok a ∧ s = ⟨a, [], []⟩
  step := step

/-- The condition on one call that no slot's generation overflows. -/
def noOverflow : Machine.Guard State Call :=
  fun s _ s' => s.allocator.NoWrap s'.allocator

variable {capacity mask : UInt32} {s s' : State}

theorem step_tracks {call : Call}
    (tracks : s.allocator.Tracks s.issued s.outstanding) (stepped : step s call = some s')
    (met : noOverflow s call s') : s'.allocator.Tracks s'.issued s'.outstanding := by
  cases call with
  | alloc =>
      simp only [step] at stepped
      split at stepped <;> cases stepped
      · rename_i allocated
        exact (tracks.alloc_some allocated).2
      · rename_i refused
        obtain ⟨same, _⟩ := tracks.owns.alloc_none refused
        simpa [same] using tracks
  | free id =>
      simp only [step] at stepped
      split at stepped
      · rename_i wasIssued
        split at stepped <;> cases stepped
        rename_i ran
        exact tracks.free wasIssued ran met
      · cases stepped

theorem step_capacity {call : Call} (tracks : s.allocator.Tracks s.issued s.outstanding)
    (stepped : step s call = some s') : s'.allocator.capacity = s.allocator.capacity := by
  cases call with
  | alloc =>
      simp only [step] at stepped
      split at stepped <;> cases stepped
      · rename_i allocated
        rw [GenAlloc.capacity, (tracks.owns.alloc_some allocated).2.1, GenAlloc.capacity]
      · rename_i refused
        rw [(tracks.owns.alloc_none refused).1]
  | free id =>
      simp only [step] at stepped
      split at stepped
      · rename_i wasIssued
        rcases tracks.free_ok wasIssued with ⟨held, _⟩ | ⟨_, same⟩
        · obtain ⟨next, ran, _, generation⟩ :=
            tracks.owns.free_owned (GenAlloc.heldBy_eq_some.mpr ⟨rfl, held⟩)
          rw [ran] at stepped
          cases stepped
          simp [GenAlloc.capacity, generation]
        · rw [same] at stepped
          cases stepped
          rfl
      · cases stepped

/-- Every history without overflow keeps the allocator in agreement with it. -/
theorem reach_tracks (positive : 1 ≤ GenAlloc.maskedCapacity capacity mask)
    (reached : (machine capacity mask).Reach noOverflow s) :
    s.allocator.Tracks s.issued s.outstanding ∧
      s.allocator.capacity = (GenAlloc.maskedCapacity capacity mask).toNat := by
  refine reached.invariant
    (fun s => s.allocator.Tracks s.issued s.outstanding ∧
      s.allocator.capacity = (GenAlloc.maskedCapacity capacity mask).toNat) ?_ ?_
  · rintro s ⟨a, made, rfl⟩
    obtain ⟨other, otherMade, tracks, capacityEq⟩ :=
      GenAlloc.Tracks.new (UInt32.le_iff_toNat_le.mp positive)
    rw [otherMade] at made
    cases made
    exact ⟨tracks, capacityEq⟩
  · rintro s call s' ⟨tracks, capacityEq⟩ stepped met
    exact ⟨step_tracks tracks stepped met, (step_capacity tracks stepped).trans capacityEq⟩

/-- The allocator of `n` slots serves its clients exactly.  The free indices are distinct and split
the slots with the outstanding ids; `alloc` answers `None` exactly when every slot is outstanding
and otherwise never names an outstanding slot; an issued id is valid exactly while outstanding, and
`free` accepts it exactly then, leaving the allocator alone otherwise.  Both calls always return,
so the `unwrap` of `free_list.push` does not panic. -/
structure Exact (n : Nat) (s : State) : Prop where
  freeDistinct : s.allocator.freeIndices.Nodup
  partition : (s.allocator.freeIndices ++ s.outstanding.map fun id => id.index.toNat).Perm
    (List.range n)
  allocReturns : ∃ answer, s.allocator.alloc = .ok answer
  allocNone : (∃ a', s.allocator.alloc = .ok (none, a')) ↔
    ∀ slot < n, ∃ id ∈ s.outstanding, id.index.toNat = slot
  allocSome : ∀ id a', s.allocator.alloc = .ok (some id, a') →
    ∀ held ∈ s.outstanding, held.index ≠ id.index
  valid : ∀ id ∈ s.issued, s.allocator.isValid id = true ↔ id ∈ s.outstanding
  freeHeld : ∀ id ∈ s.issued, id ∈ s.outstanding → ∃ a', s.allocator.free id = .ok (true, a')
  freeStale : ∀ id ∈ s.issued, id ∉ s.outstanding →
    s.allocator.free id = .ok (false, s.allocator)

/-- The outstanding ids are the owners of the slots that are not free. -/
theorem filterMap_heldBy (outstanding : List GenId) :
    (outstanding.filterMap fun id => (GenAlloc.heldBy outstanding id).map fun id => id.index.toNat) =
      outstanding.map fun id => id.index.toNat := by
  rw [← List.filterMap_eq_map]
  apply List.filterMap_congr
  intro id held
  simp [GenAlloc.heldBy, held]

/-- Every history of `alloc` and `free` calls on issued ids in which no generation overflows leaves
the allocator exact. -/
theorem allocator_exact (positive : 1 ≤ GenAlloc.maskedCapacity capacity mask)
    (reached : (machine capacity mask).Reach noOverflow s) :
    Exact (GenAlloc.maskedCapacity capacity mask).toNat s := by
  obtain ⟨tracks, capacityEq⟩ := reach_tracks positive reached
  have owns := tracks.owns
  have partition := owns.partition.perm_range tracks.nodup fun id => by simp [GenAlloc.heldBy]
  rw [filterMap_heldBy, capacityEq] at partition
  have heldSlot : ∀ slot, slot ∉ s.allocator.freeIndices →
      slot < (GenAlloc.maskedCapacity capacity mask).toNat →
      ∃ id ∈ s.outstanding, id.index.toNat = slot := by
    intro slot notFree inside
    have member := partition.mem_iff.mpr (List.mem_range.mpr inside)
    rcases List.mem_append.mp member with free | held
    · exact absurd free notFree
    · exact List.mem_map.mp held
  refine
    { freeDistinct := owns.partition.freeNodup
      partition := partition
      allocReturns := ?_
      allocNone := ?_
      allocSome := ?_
      valid := fun id wasIssued => tracks.isValid_iff_outstanding wasIssued
      freeHeld := ?_
      freeStale := ?_ }
  · rcases owns.alloc_ok with ⟨ran, _⟩ | ⟨_, _, ran, _⟩
    · exact ⟨_, ran⟩
    · exact ⟨_, ran⟩
  · constructor
    · rintro ⟨a', refused⟩ slot inside
      obtain ⟨_, noneFree⟩ := owns.alloc_none refused
      exact heldSlot slot (by simp [noneFree]) inside
    · intro allHeld
      rcases owns.alloc_ok with ⟨ran, _⟩ | ⟨id, a', _, valid, _, _, _, free⟩
      · exact ⟨_, ran⟩
      · have inside := GenAlloc.isValid.index_lt valid
        rw [capacityEq] at inside
        obtain ⟨held, isHeld, sameSlot⟩ := allHeld _ inside
        have notFree := owns.not_free (GenAlloc.heldBy_eq_some.mpr ⟨rfl, isHeld⟩)
        rw [sameSlot, free] at notFree
        simp at notFree
  · intro id a' allocated held isHeld sameIndex
    have free := (owns.alloc_some allocated).2.2.1
    have notFree := owns.not_free (GenAlloc.heldBy_eq_some.mpr ⟨rfl, isHeld⟩)
    rw [sameIndex, free] at notFree
    simp at notFree
  · intro id wasIssued held
    rcases tracks.free_ok wasIssued with ⟨_, freed⟩ | ⟨notHeld, _⟩
    · exact freed
    · exact absurd held notHeld
  · intro id wasIssued notHeld
    rcases tracks.free_ok wasIssued with ⟨held, _⟩ | ⟨_, refused⟩
    · exact absurd held notHeld
    · exact refused

/-- Two slots: an id is freed twice, both slots are allocated, and the one that was freed is freed
again under its new id. -/
theorem allocator_exact_two_slots :
    ∃ s, (machine 2 0).Reach noOverflow s ∧ s.issued = [⟨1, 1⟩, ⟨0, 0⟩, ⟨1, 0⟩] ∧
      s.outstanding = [⟨0, 0⟩] ∧ s.allocator.freeIndices = [1] ∧ Exact 2 s := by
  obtain ⟨a, made, _⟩ := @GenAlloc.Tracks.new 2 0 (by decide)
  have start : (machine 2 0).initial ⟨a, [], []⟩ := ⟨a, made, rfl⟩
  cases made
  obtain ⟨s, reached, ends⟩ := Machine.exists_reach_of_run
    (fun s _ s' => s.allocator.noWrap s'.allocator)
    (fun _ _ _ passed => GenAlloc.noWrap_sound passed) start
    [.alloc, .free ⟨1, 0⟩, .free ⟨1, 0⟩, .alloc, .alloc, .free ⟨1, 1⟩]
    (fun s => s.issued == [⟨1, 1⟩, ⟨0, 0⟩, ⟨1, 0⟩] && s.outstanding == [⟨0, 0⟩] &&
      s.allocator.freeIndices == [1]) rfl
  simp only [Bool.and_eq_true, beq_iff_eq] at ends
  obtain ⟨⟨issued, outstanding⟩, free⟩ := ends
  exact ⟨s, reached, issued, outstanding, free, allocator_exact (by decide) reached⟩

end AllocHistory

end Hoarder
