/-
Module: Hoarder.Proofs.PoolCapacity
Purpose: How many objects a fresh object pool holds.  The data is sized by the capacity asked for, the
  allocator by that capacity limited to the mask; a run of spawns meets its reported capacity exactly
  when the mask takes nothing away.
Trusted boundary: none
Main exports: ObjectPool.spawnAll, ObjectPool.HoldsCapacity, ObjectPool.Inv.spawnAll_spec,
  ObjectPool.holdsCapacity_iff
-/
import Hoarder.Proofs.ObjectPool

namespace Hoarder.ObjectPool

open Foundation

variable {T : Type} {poolId : UInt8} {p p' : ObjectPool T poolId} {objects : List T}

/-- One `spawn` for each object of a list, with the answers in order. -/
def spawnAll (p : ObjectPool T poolId) :
    List T → Except Fault (List (Option ObjectHandle) × ObjectPool T poolId)
  | [] => .ok ([], p)
  | object :: objects => do
      let (answer, p) ← p.spawn object
      let (answers, p) ← p.spawnAll objects
      return (answer :: answers, p)

/-- `capacity()` is what the pool can hold: that many spawns all succeed, in different slots, and one
more is refused. -/
def HoldsCapacity (p : ObjectPool T poolId) : Prop :=
  ∀ objects : List T, objects.length = p.capacity.toNat →
    ∃ (handles : List ObjectHandle) (p' : ObjectPool T poolId),
      p.spawnAll objects = .ok (handles.map some, p') ∧
        (handles.map ObjectHandle.index).Nodup ∧ ∀ object, p'.spawn object = .ok (none, p')

theorem spawnAll_cons {object : T} {answers : List (Option ObjectHandle)} :
    p.spawnAll (object :: objects) = .ok (answers, p') ↔
      ∃ answer next rest, p.spawn object = .ok (answer, next) ∧
        next.spawnAll objects = .ok (rest, p') ∧ answers = answer :: rest := by
  simp only [spawnAll, Outcome.bind_eq_ok, Prod.exists, Outcome.pure_eq_ok, Except.ok.injEq,
    Prod.mk.injEq]
  constructor
  · rintro ⟨answer, next, spawned, rest, last, spawnedRest, rfl, rfl⟩
    exact ⟨answer, next, rest, spawned, spawnedRest, rfl⟩
  · rintro ⟨answer, next, rest, spawned, spawnedRest, rfl⟩
    exact ⟨answer, next, spawned, rest, p', spawnedRest, rfl, rfl⟩

/-- A pool with fewer objects than slots spawns. -/
theorem Inv.spawn_some {live : List GenId} (inv : p.Inv)
    (exact : ∀ id, (p.lookup id).isSome ↔ id ∈ live) (room : live.length < p.alloc.capacity)
    (object : T) :
    ∃ id p', p.spawn object = .ok (some (ObjectHandle.new poolId id), p') ∧ p'.Inv ∧
      id.index.toNat < 2 ^ 24 ∧ p'.alloc.capacity = p.alloc.capacity ∧ id ∉ live ∧
      ∀ other, (p'.lookup other).isSome ↔ other ∈ id :: live := by
  rcases inv.spawn_spec object with
    ⟨_, noneFree⟩ | ⟨id, p', ran, _, small, unbound, lookup', inv', generation⟩
  · obtain ⟨ids, card, resolve⟩ := inv.spawn_none noneFree
    have within : ids ⊆ live.toFinset := fun id member =>
      List.mem_toFinset.mpr ((exact id).mp (resolve id member))
    have := (Finset.card_le_card within).trans (List.toFinset_card_le live)
    omega
  have fresh : id ∉ live := by
    rw [← exact, unbound]
    simp
  refine ⟨id, p', ran, inv', small, congrArg Array.size generation, fresh, fun other => ?_⟩
  rw [lookup', List.mem_cons]
  rcases eq_or_ne other id with rfl | different
  · simp
  · rw [Function.update_of_ne different, exact]
    simp [different]

/-- A pool with as many objects as slots refuses. -/
theorem Inv.spawn_full {live : List GenId} (inv : p.Inv) (nodup : live.Nodup)
    (resolve : ∀ id ∈ live, (p.lookup id).isSome) (full : p.alloc.capacity ≤ live.length)
    (object : T) : p.spawn object = .ok (none, p) := by
  rcases inv.spawn_spec object with
    ⟨refused, _⟩ | ⟨id, next, _, _, _, unbound, lookup', _, generation⟩
  · exact refused
  -- One more id would resolve than there are slots.
  have fresh : id ∉ live := fun member => by
    have resolves := resolve id member
    rw [unbound] at resolves
    cases resolves
  have allResolve : ∀ other ∈ id :: live, (next.lookup other).isSome := by
    intro other member
    rw [lookup']
    rcases eq_or_ne other id with rfl | different
    · simp
    · rw [Function.update_of_ne different]
      exact resolve other ((List.mem_cons.mp member).resolve_left different)
  have crowded := length_le_capacity (List.nodup_cons.mpr ⟨fresh, nodup⟩) allResolve
  have sameCapacity : next.alloc.capacity = p.alloc.capacity := congrArg Array.size generation
  rw [List.length_cons] at crowded
  omega

/-- As many spawns as there are slots left all succeed, with new ids. -/
theorem Inv.spawnAll_spec {live : List GenId} (inv : p.Inv) (nodup : live.Nodup)
    (exact : ∀ id, (p.lookup id).isSome ↔ id ∈ live)
    (room : live.length + objects.length ≤ p.alloc.capacity) :
    ∃ (handles : List ObjectHandle) (p' : ObjectPool T poolId) (live' : List GenId),
      p.spawnAll objects = .ok (handles.map some, p') ∧ p'.Inv ∧
      p'.alloc.capacity = p.alloc.capacity ∧ live'.Nodup ∧
      (∀ id, (p'.lookup id).isSome ↔ id ∈ live') ∧
      live' = (handles.map ObjectHandle.genId).reverse ++ live := by
  induction objects generalizing p live with
  | nil => exact ⟨[], p, live, rfl, inv, rfl, nodup, exact, rfl⟩
  | cons object objects inductionHypothesis =>
      rw [List.length_cons] at room
      obtain ⟨id, next, spawned, inv', small, capacity', fresh, exact'⟩ :=
        inv.spawn_some exact (by omega) object
      obtain ⟨handles, p', live', spawnedRest, invEnd, capacityEnd, nodupEnd, exactEnd, rfl⟩ :=
        inductionHypothesis inv' (List.nodup_cons.mpr ⟨fresh, nodup⟩) exact'
          (by rw [capacity', List.length_cons]; omega)
      refine ⟨ObjectHandle.new poolId id :: handles, p', _,
        spawnAll_cons.mpr ⟨_, next, _, spawned, spawnedRest, rfl⟩, invEnd,
        capacityEnd.trans capacity', nodupEnd, exactEnd, ?_⟩
      rw [List.map_cons, List.reverse_cons, ObjectHandle.genId_new poolId small, List.append_assoc]
      rfl

/-- Whatever spawns succeed, their handles lie in slots of the allocator. -/
theorem Inv.spawnAll_index (inv : p.Inv) {handles : List ObjectHandle}
    (ran : p.spawnAll objects = .ok (handles.map some, p')) :
    handles.length = objects.length ∧
      ∀ handle ∈ handles, handle.index.toNat < p.alloc.capacity := by
  induction objects generalizing p handles with
  | nil =>
      obtain ⟨same, _⟩ := Prod.mk.injEq .. ▸ Except.ok.inj ran
      rw [List.map_eq_nil_iff.mp same.symm]
      simp
  | cons object objects inductionHypothesis =>
      obtain ⟨answer, next, rest, spawned, spawnedRest, same⟩ := spawnAll_cons.mp ran
      obtain ⟨handle, others, rfl, rfl, rfl⟩ := List.map_eq_cons_iff.mp same
      rcases inv.spawn_spec object with
        ⟨refused, _⟩ | ⟨id, p', accepted, allocated, small, _, _, inv', generation⟩
      · rw [refused] at spawned
        cases spawned
      rw [accepted] at spawned
      cases spawned
      obtain ⟨sameLength, inside⟩ := inductionHypothesis inv' spawnedRest
      have sameCapacity : next.alloc.capacity = p.alloc.capacity := congrArg Array.size generation
      obtain ⟨_, _, _, _, _, valid⟩ := GenAlloc.alloc_inv allocated
      refine ⟨by rw [List.length_cons, List.length_cons, sameLength], ?_⟩
      intro other member
      rcases List.mem_cons.mp member with rfl | member
      · rw [ObjectHandle.index_new poolId small]
        exact GenAlloc.isValid.index_lt (valid id rfl)
      · rw [← sameCapacity]
        exact inside other member

/-- A fresh pool whose data and allocator have one size holds its capacity. -/
theorem holdsCapacity_of_sized (inv : p.Inv) (empty : ∀ id, p.lookup id = none)
    (sized : p.alloc.capacity = p.capacity.toNat) : p.HoldsCapacity := by
  intro objects length
  obtain ⟨handles, p', live, ran, inv', capacity', nodup, exact, rfl⟩ :=
    inv.spawnAll_spec List.nodup_nil (fun id => by simp [empty])
      (show [].length + objects.length ≤ p.alloc.capacity by simp [length, sized])
  rw [List.append_nil] at nodup exact
  have ids := List.nodup_reverse.mp nodup
  have resolve : ∀ id ∈ handles.map ObjectHandle.genId, (p'.lookup id).isSome := fun id member =>
    (exact id).mpr (List.mem_reverse.mpr member)
  refine ⟨handles, p', ran, ?_, fun object => ?_⟩
  · have indices := index_nodup ids resolve
    rwa [List.map_map] at indices
  · have sameLength := (inv.spawnAll_index ran).1
    exact inv'.spawn_full ids resolve (by rw [List.length_map]; omega) object

/-- A pool whose allocator has fewer slots than its data does not hold its capacity. -/
theorem not_holdsCapacity [Inhabited T] (inv : p.Inv) (short : p.alloc.capacity < p.capacity.toNat) :
    ¬ p.HoldsCapacity := by
  intro holds
  obtain ⟨handles, p', ran, nodup, _⟩ :=
    holds (List.replicate p.capacity.toNat default) List.length_replicate
  obtain ⟨sameLength, inside⟩ := inv.spawnAll_index ran
  have bounded := length_le_of_nodup nodup
    (List.forall_mem_map.mpr inside)
  rw [List.length_map, sameLength, List.length_replicate] at bounded
  omega

/-- The capacity a pool reports is the one asked for. -/
theorem capacity_of_new [Sized (Option T)] {capacity : UInt32} (made : ObjectPool.new capacity = .ok p) :
    p.capacity = capacity := by
  rw [ObjectPool.capacity, (inv_of_new made).2.2.2, UInt32.ofNat_toNat]

/-- Every pool that `new` returns reports the capacity it was asked for, and holds it exactly if that
is at most `0x00FF_FFFF`. -/
theorem holdsCapacity_iff [Inhabited T] [Sized (Option T)] {capacity : UInt32}
    (made : (ObjectPool.new capacity : Except Fault (ObjectPool T poolId)) = .ok p) :
    p.capacity = capacity ∧ (p.HoldsCapacity ↔ capacity ≤ 0x00FFFFFF) := by
  obtain ⟨inv, empty, slots, _⟩ := inv_of_new made
  have reported := capacity_of_new made
  refine ⟨reported, fun holds => ?_, fun small => ?_⟩
  · by_contra large
    refine not_holdsCapacity inv ?_ holds
    rw [reported]
    exact Nat.lt_of_lt_of_le inv.small (Nat.lt_of_not_le large)
  · apply holdsCapacity_of_sized inv empty
    rw [slots, reported]
    exact congrArg UInt32.toNat (and_mask small)

/-- A pool of two slots: two spawns succeed, the third is refused. -/
theorem holdsCapacity_two :
    ∃ p : ObjectPool UInt32 2, ObjectPool.new 2 = .ok p ∧ p.capacity = 2 ∧ p.HoldsCapacity := by
  obtain ⟨p, made⟩ := @new_ok UInt32 2 _ 2 (by decide) (by decide)
  obtain ⟨reported, holds⟩ := holdsCapacity_iff made
  exact ⟨p, made, reported, holds.mpr (by decide)⟩

/-- Asked for `0x0100_0001` slots, `new` returns a pool that reports them all and has one: the second
of two spawns is refused. -/
theorem capacity_exceeds_slots :
    ∃ p : ObjectPool UInt32 2, ObjectPool.new 0x01000001 = .ok p ∧ p.capacity = 0x01000001 ∧
      (∃ handle p', p.spawnAll [7, 8] = .ok ([some handle, none], p')) ∧
      ¬ p.HoldsCapacity := by
  obtain ⟨p, made⟩ := @new_ok UInt32 2 _ 0x01000001 (by decide) (by decide)
  obtain ⟨inv, empty, slots, _⟩ := inv_of_new made
  have one : p.alloc.capacity = 1 := slots
  have reported := capacity_of_new made
  have noneLive : ∀ id, (p.lookup id).isSome ↔ id ∈ [] := fun id => by simp [empty]
  obtain ⟨id, next, spawned, inv', _, capacity', _, exact⟩ :=
    inv.spawn_some noneLive (by simp [one]) 7
  have refused : next.spawn 8 = .ok (none, next) :=
    inv'.spawn_full (List.nodup_singleton id) (fun other member => (exact other).mpr member)
      (by rw [capacity', one, List.length_singleton]) 8
  have spawnedTwo : p.spawnAll [7, 8] = .ok ([some (ObjectHandle.new 2 id), none], next) :=
    spawnAll_cons.mpr
      ⟨_, next, _, spawned, spawnAll_cons.mpr ⟨_, next, _, refused, rfl, rfl⟩, rfl⟩
  refine ⟨p, made, reported, ⟨_, next, spawnedTwo⟩, not_holdsCapacity inv ?_⟩
  rw [one, reported]
  decide

end Hoarder.ObjectPool
