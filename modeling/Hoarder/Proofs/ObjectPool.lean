/-
Module: Hoarder.Proofs.ObjectPool
Purpose: The object pool as a map from ids to objects.  `ObjectPool.lookup` is that map, and each
  operation of the pool is specified by what it does to it.  The invariant `ObjectPool.Inv` makes
  the ids that resolve the owners of the allocator's slots.
Trusted boundary: none
Main exports: ObjectHandle.genId_new, ObjectHandle.eq_of_fields, ObjectPool.lookup,
  ObjectPool.Inv, ObjectPool.inv_of_new, ObjectPool.new_ok, ObjectPool.Inv.spawn_spec,
  ObjectPool.Inv.get_eq, ObjectPool.length_le_capacity, ObjectPool.Inv.live,
  ObjectPool.Inv.store_spec, ObjectPool.Inv.despawn_spec
-/
import Hoarder.Proofs.GenAlloc

namespace Hoarder

open Foundation

namespace ObjectHandle

variable {poolId : UInt8} {id : GenId}

/-- The packed word as a number: pool id, index and generation in disjoint ranges of bits. -/
theorem val_new (poolId : UInt8) (small : id.index.toNat < 2 ^ 24) :
    (new poolId id).val.toNat =
      poolId.toNat * 2 ^ 56 + id.index.toNat * 2 ^ 32 + id.generation.toNat := by
  have idSmall := UInt8.toNat_lt poolId
  have generationSmall := UInt32.toNat_lt id.generation
  have joined : poolId.toNat * 2 ^ 56 + id.index.toNat * 2 ^ 32 =
      (poolId.toNat * 2 ^ 24 + id.index.toNat) <<< 32 := by
    rw [Nat.shiftLeft_eq]
    omega
  simp only [new, UInt64.toNat_or, UInt64.toNat_shiftLeft, UInt8.toNat_toUInt64,
    UInt32.toNat_toUInt64, idShift, indexShift]
  rw [show (56 : UInt64).toNat % 64 = 56 from rfl, show (32 : UInt64).toNat % 64 = 32 from rfl,
    Nat.mod_eq_of_lt (by rw [Nat.shiftLeft_eq]; omega),
    Nat.mod_eq_of_lt (by rw [Nat.shiftLeft_eq]; omega),
    ← Nat.shiftLeft_add_eq_or_of_lt (by rw [Nat.shiftLeft_eq]; omega), Nat.shiftLeft_eq,
    Nat.shiftLeft_eq, joined, ← Nat.shiftLeft_add_eq_or_of_lt generationSmall]

theorem generation_new (poolId : UInt8) (small : id.index.toNat < 2 ^ 24) :
    (new poolId id).generation = id.generation := by
  apply UInt32.toNat_inj.mp
  have generationSmall := UInt32.toNat_lt id.generation
  rw [generation, UInt64.toNat_toUInt32, val_new poolId small]
  omega

theorem index_new (poolId : UInt8) (small : id.index.toNat < 2 ^ 24) :
    (new poolId id).index = id.index := by
  apply UInt32.toNat_inj.mp
  have generationSmall := UInt32.toNat_lt id.generation
  have shifted : (new poolId id).val.toNat >>> 32 = poolId.toNat * 2 ^ 24 + id.index.toNat := by
    rw [val_new poolId small, Nat.shiftRight_eq_div_pow]
    omega
  have masked : ∀ n, n &&& 0x00FFFFFF = n % 2 ^ 24 := fun n =>
    Nat.and_two_pow_sub_one_eq_mod n 24
  simp only [index, UInt32.toNat_and, UInt64.toNat_toUInt32, UInt64.toNat_shiftRight, indexShift,
    objectPoolMask]
  rw [show (32 : UInt64).toNat % 64 = 32 from rfl, shifted,
    show (0x00FFFFFF : UInt32).toNat = 0x00FFFFFF from rfl, masked]
  omega

/-- A handle gives back the pool it was made for. -/
theorem poolId_new (poolId : UInt8) (small : id.index.toNat < 2 ^ 24) :
    (new poolId id).poolId = poolId := by
  apply UInt8.toNat_inj.mp
  have idSmall := UInt8.toNat_lt poolId
  have generationSmall := UInt32.toNat_lt id.generation
  have shifted : (new poolId id).val.toNat >>> 56 = poolId.toNat := by
    rw [val_new poolId small, Nat.shiftRight_eq_div_pow]
    omega
  simp only [ObjectHandle.poolId, UInt64.toNat_toUInt8, UInt64.toNat_shiftRight, idShift]
  rw [show (56 : UInt64).toNat % 64 = 56 from rfl, shifted]
  exact Nat.mod_eq_of_lt idSmall

/-- The three fields of a handle, as parts of its word. -/
theorem val_fields (handle : ObjectHandle) :
    handle.val.toNat =
      handle.poolId.toNat * 2 ^ 56 + handle.index.toNat * 2 ^ 32 + handle.generation.toNat := by
  have word := UInt64.toNat_lt handle.val
  have idEq : handle.poolId.toNat = handle.val.toNat / 2 ^ 56 := by
    simp only [poolId, UInt64.toNat_toUInt8, UInt64.toNat_shiftRight, idShift]
    rw [show (56 : UInt64).toNat % 64 = 56 from rfl, Nat.shiftRight_eq_div_pow]
    omega
  have indexEq : handle.index.toNat = handle.val.toNat / 2 ^ 32 % 2 ^ 24 := by
    have masked : ∀ n, n &&& 0x00FFFFFF = n % 2 ^ 24 := fun n =>
      Nat.and_two_pow_sub_one_eq_mod n 24
    simp only [index, UInt32.toNat_and, UInt64.toNat_toUInt32, UInt64.toNat_shiftRight,
      indexShift, objectPoolMask]
    rw [show (32 : UInt64).toNat % 64 = 32 from rfl,
      show (0x00FFFFFF : UInt32).toNat = 0x00FFFFFF from rfl, masked,
      Nat.shiftRight_eq_div_pow]
    omega
  have generationEq : handle.generation.toNat = handle.val.toNat % 2 ^ 32 := by
    simp only [generation, UInt64.toNat_toUInt32]
  omega

/-- A handle is its pool id and its id. -/
theorem eq_of_fields {handle other : ObjectHandle} (samePool : handle.poolId = other.poolId)
    (sameId : handle.genId = other.genId) : handle = other := by
  obtain ⟨sameIndex, sameGeneration⟩ := GenId.mk.injEq .. ▸ sameId
  have first := val_fields handle
  have second := val_fields other
  rw [samePool, sameIndex, sameGeneration, ← second] at first
  cases handle
  cases other
  exact congrArg ObjectHandle.mk (UInt64.toNat_inj.mp first)

/-- A handle gives back the id it was made from. -/
theorem genId_new (poolId : UInt8) (small : id.index.toNat < 2 ^ 24) :
    (new poolId id).genId = id := by
  rw [genId, index_new poolId small, generation_new poolId small]

end ObjectHandle

namespace ObjectPool

variable {T : Type} {poolId : UInt8} {p : ObjectPool T poolId} {id : GenId} {object : T}

/-- The map the pool stands for: what an id resolves to. -/
def lookup (p : ObjectPool T poolId) (id : GenId) : Option T :=
  if p.alloc.isValid id then p.data[id.index.toNat]?.join else none

/-- The owner map in which every id that resolves holds itself. -/
def ids (p : ObjectPool T poolId) (id : GenId) : Option GenId := (p.lookup id).map fun _ => id

theorem ids_eq_some {held : GenId} :
    p.ids id = some held ↔ held = id ∧ (p.lookup id).isSome := by
  unfold ids
  cases p.lookup id <;> simp [eq_comm]

theorem lookup_valid (found : p.lookup id = some object) : p.alloc.isValid id = true := by
  unfold lookup at found
  split at found
  · assumption
  · cases found

theorem lookup_data (found : p.lookup id = some object) :
    p.data[id.index.toNat]? = some (some object) := by
  unfold lookup at found
  split at found
  · exact Option.join_eq_some_iff.mp found
  · cases found

/-- The slots with an object are those of the ids that resolve, and these own them. -/
structure Inv (p : ObjectPool T poolId) : Prop where
  sized : p.alloc.capacity ≤ p.data.size
  small : p.alloc.capacity < 2 ^ 24
  owns : p.alloc.Owns p.ids
  resolved : ∀ slot object, p.data[slot]? = some (some object) →
    ∃ id, p.lookup id = some object ∧ id.index.toNat = slot

theorem Inv.index_small (inv : p.Inv) (valid : p.alloc.isValid id = true) :
    id.index.toNat < 2 ^ 24 :=
  Nat.lt_trans (GenAlloc.isValid.index_lt valid) inv.small

/-- A slot on the free list holds no object. -/
theorem Inv.free_empty (inv : p.Inv) {slot : Nat} (free : slot ∈ p.alloc.freeIndices) :
    p.data[slot]? = some none := by
  have inside : slot < p.data.size :=
    Nat.lt_of_lt_of_le (inv.owns.partition.freeBound slot free) inv.sized
  rw [Array.getElem?_eq_getElem inside, Option.some.injEq]
  cases stored : p.data[slot] with
  | none => rfl
  | some object =>
      obtain ⟨id, found, rfl⟩ := inv.resolved slot object
        (by rw [Array.getElem?_eq_getElem inside, stored])
      have holds : p.ids id = some id := ids_eq_some.mpr ⟨rfl, by rw [found]; rfl⟩
      exact absurd free (inv.owns.not_free holds)

/-- A pool that `new` returned resolves nothing. -/
theorem inv_of_new [Sized (Option T)] {capacity : UInt32} (made : ObjectPool.new capacity = .ok p) :
    p.Inv ∧ (∀ id, p.lookup id = none) ∧
      p.alloc.capacity = (GenAlloc.maskedCapacity capacity objectPoolMask).toNat ∧
      p.data.size = capacity.toNat := by
  have masked : (GenAlloc.maskedCapacity capacity objectPoolMask).toNat < 2 ^ 24 ∧
      (GenAlloc.maskedCapacity capacity objectPoolMask).toNat ≤ capacity.toNat := by
    have asMask : GenAlloc.maskedCapacity capacity objectPoolMask = capacity &&& objectPoolMask :=
      rfl
    rw [asMask, UInt32.toNat_and]
    exact ⟨Nat.lt_of_le_of_lt Nat.and_le_right (by decide), Nat.and_le_left⟩
  obtain ⟨data, dataMade, made⟩ := Outcome.bind_eq_ok.mp made
  obtain ⟨alloc, allocMade, made⟩ := Outcome.bind_eq_ok.mp made
  cases made
  obtain ⟨owns, capacityEq⟩ := GenAlloc.owns_of_new (κ := GenId) allocMade
  unfold newArray at dataMade
  split at dataMade
  case isFalse => cases dataMade
  split at dataMade <;> cases dataMade
  have noneStored : ∀ (slot : Nat) (object : T),
      (Array.replicate capacity.toNat (none : Option T))[slot]? ≠ some (some object) := by
    intro slot object
    rw [Array.getElem?_replicate]
    split <;> simp
  have noneFound : ∀ id,
      (ObjectPool.mk (Array.replicate capacity.toNat none) alloc :
        ObjectPool T poolId).lookup id = none := by
    intro id
    cases found : lookup _ id with
    | none => rfl
    | some object => exact absurd (lookup_data found) (noneStored _ object)
  refine ⟨⟨?_, ?_, ?_, ?_⟩, noneFound, capacityEq, by simp⟩
  · simpa [capacityEq] using masked.2
  · simpa [capacityEq] using masked.1
  · exact owns.congr fun id => by simp [ids, noneFound]
  · intro slot object stored
    exact absurd stored (noneStored slot object)

/-- The mask keeps a number of at most 24 bits. -/
theorem and_mask {capacity : UInt32} (bounded : capacity ≤ 0x00FFFFFF) :
    capacity &&& objectPoolMask = capacity := by
  apply UInt32.toNat_inj.mp
  have boundedNat : capacity.toNat ≤ 0x00FFFFFF := UInt32.le_iff_toNat_le.mp bounded
  rw [UInt32.toNat_and, show objectPoolMask.toNat = 2 ^ 24 - 1 from rfl,
    Nat.and_two_pow_sub_one_eq_mod]
  omega

/-- A pool has no more slots than were asked for. -/
theorem capacity_le [Sized (Option T)] {capacity : UInt32} (made : ObjectPool.new capacity = .ok p) :
    p.alloc.capacity ≤ capacity.toNat := by
  obtain ⟨inv, _, _, sized⟩ := inv_of_new made
  exact inv.sized.trans sized.le

/-- A pool is made when the mask leaves a positive number of slots and its data has a layout. -/
theorem new_ok [Sized (Option T)] {capacity : UInt32}
    (positive : 0 < (capacity &&& objectPoolMask).toNat)
    (array : (Layout.array (Option T) capacity.toNat).isSome) :
    ∃ p : ObjectPool T poolId, ObjectPool.new capacity = .ok p := by
  obtain ⟨alloc, allocMade, _⟩ := GenAlloc.new_owns (κ := GenId)
    (show 0 < (GenAlloc.maskedCapacity capacity objectPoolMask).toNat from positive)
  have some : 0 < capacity.toNat := by
    rw [UInt32.toNat_and] at positive
    exact Nat.lt_of_lt_of_le positive Nat.and_le_left
  have room : capacity.toNat < isizeMax :=
    Nat.lt_trans (UInt32.toNat_lt capacity) (by decide)
  obtain ⟨layout, layoutEq⟩ := Option.isSome_iff_exists.mp array
  refine ⟨⟨Array.replicate capacity.toNat none, alloc⟩, ?_⟩
  simp only [ObjectPool.new, newArray, if_pos (And.intro some room), layoutEq, Outcome.ok_bind,
    allocMade]
  rfl

/-- `get` returns what the id of the handle resolves to. -/
theorem Inv.get_eq (inv : p.Inv) (handle : ObjectHandle) :
    p.get handle = .ok (p.lookup handle.genId) := by
  unfold get lookup
  split
  · rename_i valid
    have inside : handle.genId.index.toNat < p.data.size :=
      Nat.lt_of_lt_of_le (GenAlloc.isValid.index_lt valid) inv.sized
    have found := Array.getElem?_eq_getElem inside
    rw [show handle.index = handle.genId.index from rfl, indexArray_eq_ok.mpr found, found]
    rfl
  · rfl

/-- What writing one slot of the data does to the map, when the slot belongs to a valid id. -/
theorem lookup_set {data : Array (Option T)} {alloc : GenAlloc} {slot : Option T}
    (valid : alloc.isValid id = true) (inside : id.index.toNat < data.size) :
    (ObjectPool.mk (data.setIfInBounds id.index.toNat slot) alloc : ObjectPool T poolId).lookup =
      Function.update (ObjectPool.mk data alloc : ObjectPool T poolId).lookup id slot := by
  funext other
  rcases eq_or_ne other id with rfl | different
  · rw [Function.update_self, lookup, if_pos valid]
    simp [inside]
  · rw [Function.update_of_ne different]
    unfold lookup
    split
    · rename_i otherValid
      have apart : id.index.toNat ≠ other.index.toNat := by
        intro same
        exact different (GenAlloc.isValid.unique otherValid valid (UInt32.toNat_inj.mp same.symm))
      simp only [Array.getElem?_setIfInBounds_ne apart]
    · rfl

/-- Only the generations of the allocator matter to the map. -/
theorem lookup_congr {data : Array (Option T)} {alloc alloc' : GenAlloc}
    (generation : alloc'.generation = alloc.generation) :
    (ObjectPool.mk data alloc' : ObjectPool T poolId).lookup =
      (ObjectPool.mk data alloc : ObjectPool T poolId).lookup := by
  funext id
  simp only [lookup, GenAlloc.isValid, generation]

/-- The objects stored after a write are the old ones of the other slots, and the new one. -/
theorem stored_after_set {data : Array (Option T)} {index slot : Nat} {entry : Option T}
    (stored : (data.setIfInBounds index entry)[slot]? = some (some object)) :
    (slot = index ∧ entry = some object) ∨
      (slot ≠ index ∧ data[slot]? = some (some object)) := by
  rcases eq_or_ne slot index with rfl | apart
  · rw [Array.getElem?_setIfInBounds_self] at stored
    split at stored
    · exact .inl ⟨rfl, Option.some.inj stored⟩
    · cases stored
  · rw [Array.getElem?_setIfInBounds_ne (Ne.symm apart)] at stored
    exact .inr ⟨apart, stored⟩

/-- Rebinding one id changes what that id holds. -/
theorem ids_update {p' : ObjectPool T poolId} {entry : Option T}
    (lookup' : p'.lookup = Function.update p.lookup id entry) :
    p'.ids = Function.update p.ids id (entry.map fun _ => id) := by
  funext other
  rw [ids, lookup']
  rcases eq_or_ne other id with rfl | different
  · rw [Function.update_self, Function.update_self]
  · rw [Function.update_of_ne different, Function.update_of_ne different, ids]

/-- Every object is resolved by an id when its slot was written as its id was rebound. -/
theorem Inv.resolved_set (inv : p.Inv) {p' : ObjectPool T poolId} {entry : Option T}
    (lookup' : p'.lookup = Function.update p.lookup id entry)
    (data : p'.data = p.data.setIfInBounds id.index.toNat entry) (slot : Nat) (value : T)
    (found : p'.data[slot]? = some (some value)) :
    ∃ other, p'.lookup other = some value ∧ other.index.toNat = slot := by
  rw [data] at found
  rcases stored_after_set found with ⟨rfl, same⟩ | ⟨apart, found⟩
  · exact ⟨id, by rw [lookup', Function.update_self, same], rfl⟩
  · obtain ⟨other, resolved, rfl⟩ := inv.resolved slot value found
    have different : other ≠ id := fun same => apart (by rw [same])
    exact ⟨other, by rw [lookup', Function.update_of_ne different, resolved], rfl⟩

/-- `spawn` returns.  Either no slot is free and nothing changes, or the object is bound to an id
that resolved to nothing. -/
theorem Inv.spawn_spec (inv : p.Inv) (object : T) :
    (p.spawn object = .ok (none, p) ∧ p.alloc.freeIndices = []) ∨
      ∃ id p', p.spawn object = .ok (some (ObjectHandle.new poolId id), p') ∧
        p.alloc.alloc = .ok (some id, p'.alloc) ∧ id.index.toNat < 2 ^ 24 ∧
        p.lookup id = none ∧ p'.lookup = Function.update p.lookup id (some object) ∧ p'.Inv ∧
        p'.alloc.generation = p.alloc.generation := by
  rcases inv.owns.alloc_ok with ⟨ran, noneFree⟩ | ⟨id, alloc, ran, _⟩
  · refine .inl ⟨?_, noneFree⟩
    rw [spawn, ran]
    rfl
  obtain ⟨valid, generation, free, take⟩ := inv.owns.alloc_some ran
  have empty : p.data[id.index.toNat]? = some none := inv.free_empty (by simp [free])
  have inside : id.index.toNat < p.data.size := (Array.getElem?_eq_some_iff.mp empty).1
  have unbound : p.lookup id = none := by
    rw [lookup, if_pos valid, empty]
    rfl
  have lookup' : (ObjectPool.mk (p.data.setIfInBounds id.index.toNat (some object)) alloc :
      ObjectPool T poolId).lookup = Function.update p.lookup id (some object) := by
    rw [lookup_congr generation]
    exact lookup_set valid inside
  have capacity' : alloc.capacity = p.alloc.capacity := by
    rw [GenAlloc.capacity, generation, GenAlloc.capacity]
  right
  refine ⟨id, ⟨_, alloc⟩, ?_, ran, inv.index_small valid, unbound, lookup', ⟨?_, ?_, ?_, ?_⟩,
    generation⟩
  · rw [spawn, ran, Outcome.ok_bind]
    simp [indexArray_eq_ok.mpr empty]
  · rw [Array.size_setIfInBounds, capacity']
    exact inv.sized
  · rw [capacity']
    exact inv.small
  · rw [ids_update lookup']
    exact take id (by simp [ids, unbound])
  · exact inv.resolved_set lookup' rfl

/-- A pool without room resolves as many ids as it has slots. -/
theorem Inv.spawn_none (inv : p.Inv) (noneFree : p.alloc.freeIndices = []) :
    ∃ ids : Finset GenId, ids.card = p.alloc.capacity ∧ ∀ id ∈ ids, (p.lookup id).isSome := by
  have partition := inv.owns.partition
  rw [noneFree] at partition
  have bound : ∀ slot : Fin p.alloc.capacity, ∃ id,
      id.index.toNat = slot.val ∧ (p.lookup id).isSome := by
    intro slot
    obtain ⟨id, holds⟩ := partition.all_owned slot.isLt
    obtain ⟨held, holds, index⟩ := Option.map_eq_some_iff.mp holds
    obtain ⟨rfl, resolves⟩ := ids_eq_some.mp holds
    exact ⟨held, index, resolves⟩
  choose id index resolves using bound
  have injective : Function.Injective id := fun first second same =>
    Fin.ext ((index first).symm.trans ((congrArg (fun id => id.index.toNat) same).trans (index second)))
  refine ⟨Finset.univ.image id, ?_, ?_⟩
  · rw [Finset.card_image_of_injective _ injective, Finset.card_univ, Fintype.card_fin]
  · intro other member
    obtain ⟨slot, _, rfl⟩ := Finset.mem_image.mp member
    exact resolves slot

/-- Different indices below a bound are no more than the bound. -/
theorem length_le_of_nodup {indices : List UInt32} {bound : Nat} (nodup : indices.Nodup)
    (inside : ∀ index ∈ indices, index.toNat < bound) : indices.length ≤ bound := by
  have apart : (indices.map UInt32.toNat).Nodup :=
    nodup.map fun _ _ same => UInt32.toNat_inj.mp same
  have within : indices.map UInt32.toNat ⊆ List.range bound := by
    intro slot member
    obtain ⟨index, isMember, rfl⟩ := List.mem_map.mp member
    exact List.mem_range.mpr (inside index isMember)
  simpa using (apart.subperm within).length_le

theorem valid_of_isSome (resolves : (p.lookup id).isSome) : p.alloc.isValid id = true := by
  obtain ⟨object, found⟩ := Option.isSome_iff_exists.mp resolves
  exact lookup_valid found

/-- Different ids that resolve lie in different slots. -/
theorem index_nodup {ids : List GenId} (nodup : ids.Nodup)
    (resolve : ∀ id ∈ ids, (p.lookup id).isSome) : (ids.map GenId.index).Nodup :=
  nodup.map_on fun id member other otherMember same =>
    GenAlloc.isValid.unique (valid_of_isSome (resolve id member))
      (valid_of_isSome (resolve other otherMember)) same

/-- Different ids that resolve are no more than the slots. -/
theorem length_le_capacity {ids : List GenId} (nodup : ids.Nodup)
    (resolve : ∀ id ∈ ids, (p.lookup id).isSome) : ids.length ≤ p.alloc.capacity := by
  have inside : ∀ index ∈ ids.map GenId.index, index.toNat < p.alloc.capacity := by
    intro index member
    obtain ⟨id, isMember, rfl⟩ := List.mem_map.mp member
    exact GenAlloc.isValid.index_lt (valid_of_isSome (resolve id isMember))
  simpa using length_le_of_nodup (index_nodup nodup resolve) inside

/-- The ids that resolve are finitely many, and with the free slots as many as the slots. -/
theorem Inv.live (inv : p.Inv) :
    {id | (p.lookup id).isSome}.Finite ∧
      p.alloc.freeIndices.length + {id | (p.lookup id).isSome}.ncard = p.alloc.capacity := by
  have finite := inv.owns.partition.owners_finite
  have sum := inv.owns.partition.free_add_owners
  simp only [ids, Option.map_map, Option.isSome_map] at finite sum
  exact ⟨finite, sum⟩

/-- Storing through the reference of a handle that resolves rebinds its id. -/
theorem Inv.store_spec (inv : p.Inv) {handle : ObjectHandle}
    (resolves : p.lookup handle.genId = some object) (stored : T) :
    (p.store handle stored).lookup = Function.update p.lookup handle.genId (some stored) ∧
      (p.store handle stored).Inv ∧ (p.store handle stored).alloc = p.alloc := by
  have valid := lookup_valid resolves
  have inside := (Array.getElem?_eq_some_iff.mp (lookup_data resolves)).1
  have indexEq : handle.index = handle.genId.index := rfl
  have lookup' : (p.store handle stored).lookup =
      Function.update p.lookup handle.genId (some stored) := by
    rw [store, indexEq]
    exact lookup_set valid inside
  refine ⟨lookup', ⟨?_, inv.small, ?_, ?_⟩, rfl⟩
  · rw [store, Array.size_setIfInBounds]
    exact inv.sized
  · have holds : (some stored).map (fun _ => handle.genId) = p.ids handle.genId := by
      rw [ids, resolves]
      rfl
    rw [ids_update lookup', holds, Function.update_eq_self]
    exact inv.owns
  · exact inv.resolved_set lookup' rfl

/-- `despawn` of a handle that resolves succeeds and unbinds its id. -/
theorem Inv.despawn_spec (inv : p.Inv) {handle : ObjectHandle}
    (resolves : p.lookup handle.genId = some object) :
    ∃ p', p.despawn handle = .ok (true, p') ∧
      p.alloc.free handle.genId = .ok (true, p'.alloc) ∧
      p'.lookup = Function.update p.lookup handle.genId none ∧ p'.Inv ∧
      p'.alloc.generation =
        p.alloc.generation.setIfInBounds handle.index.toNat (handle.generation + 1) := by
  have valid := lookup_valid resolves
  have stored := lookup_data resolves
  have inside := (Array.getElem?_eq_some_iff.mp stored).1
  have holds : p.ids handle.genId = some handle.genId :=
    ids_eq_some.mpr ⟨rfl, by rw [resolves]; rfl⟩
  obtain ⟨alloc, ran, owns, generation⟩ := inv.owns.free_owned holds
  have capacity' : alloc.capacity = p.alloc.capacity := by
    simp only [GenAlloc.capacity, generation, Array.size_setIfInBounds]
  have indexEq : handle.genId.index = handle.index := rfl
  have lookup' : (ObjectPool.mk (p.data.setIfInBounds handle.index.toNat none) alloc :
      ObjectPool T poolId).lookup = Function.update p.lookup handle.genId none := by
    funext other
    by_cases sameSlot : other.index = handle.index
    · -- The slot is empty now, and before only the handle resolved to it.
      have noneNow : (ObjectPool.mk (p.data.setIfInBounds handle.index.toNat none) alloc :
          ObjectPool T poolId).lookup other = none := by
        unfold lookup
        split
        · rw [indexEq] at inside
          rw [sameSlot]
          simp [inside]
        · rfl
      rw [noneNow]
      rcases eq_or_ne other handle.genId with rfl | different
      · rw [Function.update_self]
      · rw [Function.update_of_ne different, lookup, if_neg]
        exact fun otherValid => different (GenAlloc.isValid.unique otherValid valid sameSlot)
    · have different : other ≠ handle.genId := fun same => sameSlot (by rw [same]; rfl)
      have apart : handle.index.toNat ≠ other.index.toNat := fun same =>
        sameSlot (UInt32.toNat_inj.mp same.symm)
      have sameValid : alloc.isValid other = p.alloc.isValid other := by
        rw [Bool.eq_iff_iff, GenAlloc.isValid_iff, GenAlloc.isValid_iff, generation, indexEq,
          Array.getElem?_setIfInBounds_ne apart]
      rw [Function.update_of_ne different]
      simp only [lookup, sameValid, Array.getElem?_setIfInBounds_ne apart]
  refine ⟨⟨_, alloc⟩, ?_, ran, lookup', ⟨?_, ?_, ?_, ?_⟩, generation⟩
  · rw [indexEq] at stored
    rw [despawn, ran, Outcome.ok_bind]
    simp [indexArray_eq_ok.mpr stored]
  · rw [Array.size_setIfInBounds, capacity']
    exact inv.sized
  · rw [capacity']
    exact inv.small
  · rw [ids_update lookup']
    exact owns
  · exact inv.resolved_set lookup' rfl

/-- `despawn` of a handle whose id is no longer valid is refused and changes nothing. -/
theorem despawn_stale {handle : ObjectHandle} (stale : p.alloc.isValid handle.genId = false) :
    p.despawn handle = .ok (false, p) := by
  rw [despawn, GenAlloc.free_invalid stale]
  rfl

end ObjectPool

end Hoarder
