/-
Module: Hoarder.Proofs.AnyHandles
Purpose: The object pool under calls with any handles, its own, those of other pools and forged ones.
  The allocator of the pool runs as in AnyIds, so the generation of a slot counts its despawns; a pool
  takes a handle for one of its own exactly when index and generation agree with that count.  The
  pool id in a handle is what the executor chooses the pool by.
Trusted boundary: none
Main exports: ObjectHandle.new_injective, AnyHandles.machine, AnyHandles.handle_format,
  AnyHandles.Shadowed, AnyHandles.Shaped, AnyHandles.foreign_handle_iff
-/
import Hoarder.Core.Executor
import Hoarder.Proofs.AnyIds
import Hoarder.Proofs.ObjectHistory

namespace Hoarder

open Foundation

namespace ObjectHandle

/-- The index of every word has 24 bits. -/
theorem index_small (handle : ObjectHandle) : handle.index.toNat < 2 ^ 24 := by
  rw [index, UInt32.toNat_and]
  exact Nat.lt_of_le_of_lt Nat.and_le_right (by decide)

/-- Packing the fields of a handle gives the handle back. -/
theorem new_fields (handle : ObjectHandle) : new handle.poolId handle.genId = handle :=
  eq_of_fields (poolId_new _ handle.index_small) (genId_new _ handle.index_small)

/-- Different ids of 24-bit indices, or ids of different pools, have different handles. -/
theorem new_injective {poolId otherPool : UInt8} {id other : GenId} (small : id.index.toNat < 2 ^ 24)
    (otherSmall : other.index.toNat < 2 ^ 24) (same : new poolId id = new otherPool other) :
    poolId = otherPool ∧ id = other := by
  constructor
  · rw [← poolId_new poolId small, same, poolId_new otherPool otherSmall]
  · rw [← genId_new poolId small, same, genId_new otherPool otherSmall]

end ObjectHandle

namespace ObjectPool

variable {T : Type} {poolId : UInt8} {p p' : ObjectPool T poolId} {handle : ObjectHandle}

/-- The pool id of a handle plays no part in `get` and `get_mut`. -/
theorem get_own (p : ObjectPool T poolId) (handle : ObjectHandle) :
    p.get (ObjectHandle.new poolId handle.genId) = p.get handle := by
  rw [get, get, ObjectHandle.genId_new _ handle.index_small,
    ObjectHandle.index_new _ handle.index_small]
  rfl

/-- The pool id of a handle plays no part in `despawn`. -/
theorem despawn_own (p : ObjectPool T poolId) (handle : ObjectHandle) :
    p.despawn (ObjectHandle.new poolId handle.genId) = p.despawn handle := by
  rw [despawn, despawn, ObjectHandle.genId_new _ handle.index_small,
    ObjectHandle.index_new _ handle.index_small]
  rfl

/-- What a `spawn` that returned did to the allocator. -/
theorem spawn_inv {object : T} {answer : Option ObjectHandle}
    (ran : p.spawn object = .ok (answer, p')) :
    ∃ id, p.alloc.alloc = .ok (id, p'.alloc) ∧ answer = id.map (ObjectHandle.new poolId) ∧
      p'.data.size = p.data.size := by
  obtain ⟨⟨id, alloc⟩, allocated, ran⟩ := Outcome.bind_eq_ok.mp ran
  cases id with
  | none =>
      cases ran
      exact ⟨none, allocated, rfl, rfl⟩
  | some id =>
      obtain ⟨slot, _, ran⟩ := Outcome.bind_eq_ok.mp ran
      split at ran <;> cases ran
      exact ⟨some id, allocated, rfl, Array.size_setIfInBounds⟩

/-- What a `despawn` that returned did to the allocator. -/
theorem despawn_inv {freed : Bool} (ran : p.despawn handle = .ok (freed, p')) :
    p.alloc.free handle.genId = .ok (freed, p'.alloc) ∧ p'.data.size = p.data.size := by
  obtain ⟨⟨freed, alloc⟩, freeRan, ran⟩ := Outcome.bind_eq_ok.mp ran
  dsimp only at ran
  split at ran
  · rename_i accepted
    obtain ⟨_, _, ran⟩ := Outcome.bind_eq_ok.mp ran
    cases ran
    rw [accepted] at freeRan
    exact ⟨freeRan, Array.size_setIfInBounds⟩
  · rename_i refused
    cases ran
    rw [Bool.not_eq_true] at refused
    rw [refused] at freeRan
    exact ⟨freeRan, rfl⟩

end ObjectPool

namespace AnyHandles

variable {T : Type} {poolId : UInt8} {capacity : UInt32}

/-- A pool with its history: the handles it has returned, each with the number of times its slot had
been despawned before, and how often each slot was despawned. -/
structure State (T : Type) (poolId : UInt8) where
  pool : ObjectPool T poolId
  issued : List (ObjectHandle × Nat)
  despawns : Nat → Nat

/-- One call, with any handle.  A call that panics is not taken: the run ends there. -/
def step (s : State T poolId) : ObjectHistory.Call T → Option (State T poolId)
  | .spawn object =>
      match s.pool.spawn object with
      | .ok (some handle, pool) =>
          some
            { s with
              pool := pool
              issued := (handle, s.despawns handle.index.toNat) :: s.issued }
      | .ok (none, pool) => some { s with pool := pool }
      | .error _ => none
  | .get handle =>
      match s.pool.get handle with
      | .ok _ => some s
      | .error _ => none
  | .getMut handle object =>
      match s.pool.get handle with
      | .ok (some _) => some { s with pool := s.pool.store handle object }
      | .ok none => some s
      | .error _ => none
  | .despawn handle =>
      match s.pool.despawn handle with
      | .ok (true, pool) =>
          let slot := handle.index.toNat
          some
            { s with
              pool := pool
              despawns := Function.update s.despawns slot (s.despawns slot + 1) }
      | .ok (false, pool) => some { s with pool := pool }
      | .error _ => none

/-- All histories of a pool of the given capacity. -/
def machine (T : Type) [Sized (Option T)] (poolId : UInt8) (capacity : UInt32) :
    Machine (State T poolId) (ObjectHistory.Call T) where
  initial s := ∃ pool, ObjectPool.new capacity = .ok pool ∧ s = ⟨pool, [], fun _ => 0⟩
  step := step

variable {s s' : State T poolId} {handle : ObjectHandle} {n : Nat}

/-- What a call did: it issued a handle, or it was refused one, or it left allocator and history
alone, or it despawned a slot. -/
inductive Move (s s' : State T poolId) : Prop where
  | issued (id : GenId) (allocated : s.pool.alloc.alloc = .ok (some id, s'.pool.alloc))
      (despawns : s'.despawns = s.despawns)
      (issued : s'.issued = (ObjectHandle.new poolId id,
        s.despawns (ObjectHandle.new poolId id).index.toNat) :: s.issued)
  | refused (allocated : s.pool.alloc.alloc = .ok (none, s'.pool.alloc))
      (despawns : s'.despawns = s.despawns) (issued : s'.issued = s.issued)
  | kept (alloc : s'.pool.alloc = s.pool.alloc) (despawns : s'.despawns = s.despawns)
      (issued : s'.issued = s.issued)
  | despawned (handle : ObjectHandle)
      (freed : s.pool.alloc.free handle.genId = .ok (true, s'.pool.alloc))
      (despawns : s'.despawns = Function.update s.despawns handle.index.toNat
        (s.despawns handle.index.toNat + 1))
      (issued : s'.issued = s.issued)

theorem step_move {call : ObjectHistory.Call T} (stepped : step s call = some s') :
    s'.pool.data.size = s.pool.data.size ∧ Move s s' := by
  cases call with
  | spawn object =>
      simp only [step] at stepped
      split at stepped <;> cases stepped
      · rename_i ran
        obtain ⟨id, allocated, same, sized⟩ := ObjectPool.spawn_inv ran
        obtain ⟨id, rfl, rfl⟩ := Option.map_eq_some_iff.mp same.symm
        exact ⟨sized, .issued id allocated rfl rfl⟩
      · rename_i ran
        obtain ⟨id, allocated, same, sized⟩ := ObjectPool.spawn_inv ran
        rw [Option.map_eq_none_iff.mp same.symm] at allocated
        exact ⟨sized, .refused allocated rfl rfl⟩
  | get handle =>
      simp only [step] at stepped
      split at stepped <;> cases stepped
      exact ⟨rfl, .kept rfl rfl rfl⟩
  | getMut handle object =>
      simp only [step] at stepped
      split at stepped <;> cases stepped
      · exact ⟨Array.size_setIfInBounds, .kept rfl rfl rfl⟩
      · exact ⟨rfl, .kept rfl rfl rfl⟩
  | despawn handle =>
      simp only [step] at stepped
      split at stepped <;> cases stepped
      · rename_i ran
        obtain ⟨freed, sized⟩ := ObjectPool.despawn_inv ran
        exact ⟨sized, .despawned handle freed rfl rfl⟩
      · rename_i ran
        obtain ⟨freed, sized⟩ := ObjectPool.despawn_inv ran
        rcases GenAlloc.free_inv freed with ⟨_, _, same⟩ | ⟨_, accepted, _⟩
        · exact ⟨sized, .kept same rfl rfl⟩
        · cases accepted

/-- The allocator of the pool is in a state that a run of `alloc` and `free` on any ids reaches, in
which every slot was freed as often as it was despawned. -/
def Shadowed (capacity : UInt32) (s : State T poolId) : Prop :=
  ∃ outstanding retired, (AnyIds.machine capacity objectPoolMask).Reachable
    ⟨s.pool.alloc, outstanding, s.despawns, retired⟩

/-- Every call on the pool is a call on its allocator, or none. -/
theorem Shadowed.move (shadowed : Shadowed capacity s) (move : Move s s') :
    Shadowed capacity s' := by
  obtain ⟨outstanding, retired, reached⟩ := shadowed
  cases move with
  | issued id allocated despawns _ =>
      refine ⟨id :: outstanding, retired, .step .alloc reached ?_ trivial⟩
      simp only [AnyIds.machine, AnyIds.step, allocated, despawns]
  | refused allocated despawns _ =>
      refine ⟨outstanding, retired, .step .alloc reached ?_ trivial⟩
      simp only [AnyIds.machine, AnyIds.step, allocated, despawns]
  | kept alloc despawns _ => exact ⟨outstanding, retired, by rwa [alloc, despawns]⟩
  | despawned handle freed despawns _ =>
      refine ⟨outstanding.filter (· ≠ handle.genId),
        (handle.genId, s.despawns handle.index.toNat) :: retired,
        .step (.free handle.genId) reached ?_ trivial⟩
      simp only [AnyIds.machine, AnyIds.step, freed, despawns]
      rfl

/-- The data covers the slots of the allocator, the generations count the despawns, and the issued
handles carry the count they were issued with. -/
structure Shaped (s : State T poolId) : Prop where
  sized : s.pool.alloc.capacity ≤ s.pool.data.size
  small : s.pool.alloc.capacity < 2 ^ 24
  counted : ∀ slot < s.pool.alloc.capacity,
    s.pool.alloc.generation[slot]? = some (UInt32.ofNat (s.despawns slot))
  issued : ∀ handle n, (handle, n) ∈ s.issued →
    handle.poolId = poolId ∧ handle.index.toNat < s.pool.alloc.capacity ∧
      handle.generation = UInt32.ofNat n

theorem Move.capacity_eq (move : Move s s') : s'.pool.alloc.capacity = s.pool.alloc.capacity := by
  cases move with
  | issued id allocated _ _ => exact congrArg Array.size (GenAlloc.alloc_generation allocated)
  | refused allocated _ _ => exact congrArg Array.size (GenAlloc.alloc_generation allocated)
  | kept alloc _ _ => rw [alloc]
  | despawned handle freed _ _ => exact GenAlloc.free_capacity freed

/-- An allocated id carries the count of its slot. -/
theorem Shaped.allocated (shaped : Shaped s) {id : GenId} {alloc : GenAlloc}
    (allocated : s.pool.alloc.alloc = .ok (some id, alloc)) :
    id.index.toNat < s.pool.alloc.capacity ∧
      id.generation = UInt32.ofNat (s.despawns id.index.toNat) := by
  obtain ⟨_, _, _, _, _, valid⟩ := GenAlloc.alloc_inv allocated
  have inside := GenAlloc.isValid.index_lt (valid id rfl)
  have found := GenAlloc.isValid_iff.mp (valid id rfl)
  rw [shaped.counted _ inside, Option.some.injEq] at found
  exact ⟨inside, found.symm⟩

/-- Every call keeps the shape. -/
theorem Shaped.move (shaped : Shaped s) (move : Move s s')
    (sized : s'.pool.data.size = s.pool.data.size)
    (counted : ∀ slot < s'.pool.alloc.capacity,
      s'.pool.alloc.generation[slot]? = some (UInt32.ofNat (s'.despawns slot))) : Shaped s' := by
  have capacity' := move.capacity_eq
  have kept : ∀ handle n, (handle, n) ∈ s.issued →
      handle.poolId = poolId ∧ handle.index.toNat < s'.pool.alloc.capacity ∧
        handle.generation = UInt32.ofNat n := by
    rw [capacity']
    exact shaped.issued
  refine ⟨by rw [capacity', sized]; exact shaped.sized, by rw [capacity']; exact shaped.small,
    counted, ?_⟩
  cases move with
  | issued id allocated _ issued =>
      rw [issued]
      intro handle n member
      rcases List.mem_cons.mp member with same | member
      · cases same
        obtain ⟨inside, generation⟩ := shaped.allocated allocated
        have small := Nat.lt_trans inside shaped.small
        rw [ObjectHandle.poolId_new _ small, ObjectHandle.index_new _ small,
          ObjectHandle.generation_new _ small, capacity']
        exact ⟨rfl, inside, generation⟩
      · exact kept handle n member
  | refused _ _ issued =>
      rw [issued]
      exact kept
  | kept _ _ issued =>
      rw [issued]
      exact kept
  | despawned _ _ _ issued =>
      rw [issued]
      exact kept

theorem Shadowed.counted (shadowed : Shadowed capacity s) :
    ∀ slot < s.pool.alloc.capacity,
      s.pool.alloc.generation[slot]? = some (UInt32.ofNat (s.despawns slot)) := by
  obtain ⟨_, _, reached⟩ := shadowed
  exact (AnyIds.counted_of_reach reached).current

/-- Any calls with any handles. -/
theorem shaped_of_reach [Sized (Option T)] (reached : (machine T poolId capacity).Reachable s) :
    Shaped s := by
  suffices both : Shadowed capacity s ∧ Shaped s from both.2
  refine reached.invariant (fun s => Shadowed capacity s ∧ Shaped s) ?_ ?_
  · rintro s ⟨pool, made, rfl⟩
    obtain ⟨inv, _, _, _⟩ := ObjectPool.inv_of_new made
    obtain ⟨data, _, rest⟩ := Outcome.bind_eq_ok.mp made
    obtain ⟨alloc, allocMade, same⟩ := Outcome.bind_eq_ok.mp rest
    cases same
    have shadowed : Shadowed capacity (⟨⟨data, alloc⟩, [], fun _ => 0⟩ : State T poolId) :=
      ⟨[], [], .initial ⟨alloc, allocMade, rfl⟩⟩
    exact ⟨shadowed, inv.sized, inv.small, shadowed.counted, by simp⟩
  · rintro s call s' ⟨shadowed, shaped⟩ stepped _
    obtain ⟨sized, move⟩ := step_move stepped
    have shadowed' := shadowed.move move
    exact ⟨shadowed', shaped.move move sized shadowed'.counted⟩

/-! ### What a pool accepts -/

/-- Counts are equal as generations exactly if they are congruent modulo the width. -/
theorem ofNat_eq_iff_modEq {m n : Nat} : UInt32.ofNat m = UInt32.ofNat n ↔ m ≡ n [MOD 2 ^ 32] := by
  rw [← UInt32.toNat_inj, UInt32.toNat_ofNat', UInt32.toNat_ofNat']
  exact Iff.rfl

/-- The pool has a slot of the handle's index, and it was despawned as often as the count says. -/
def Coincides (s : State T poolId) (handle : ObjectHandle) (count : Nat) : Prop :=
  handle.index.toNat < s.pool.alloc.capacity ∧ count ≡ s.despawns handle.index.toNat [MOD 2 ^ 32]

/-- A handle that carries a count is valid exactly where the count coincides. -/
theorem Shaped.isValid_iff (shaped : Shaped s) (carried : handle.generation = UInt32.ofNat n) :
    s.pool.alloc.isValid handle.genId = true ↔ Coincides s handle n := by
  constructor
  · intro valid
    have inside := GenAlloc.isValid.index_lt valid
    have found := GenAlloc.isValid_iff.mp valid
    rw [shaped.counted _ inside, Option.some.injEq] at found
    exact ⟨inside, ofNat_eq_iff_modEq.mp (carried.symm.trans found.symm)⟩
  · rintro ⟨inside, congruent⟩
    rw [GenAlloc.isValid_iff]
    have counted := shaped.counted _ inside
    rwa [← ofNat_eq_iff_modEq.mpr congruent, ← carried] at counted

/-- Where the count does not coincide, the handle is rejected. -/
theorem Shaped.rejects (shaped : Shaped s) (carried : handle.generation = UInt32.ofNat n)
    (apart : ¬ Coincides s handle n) :
    s.pool.get handle = .ok none ∧ s.pool.despawn handle = .ok (false, s.pool) := by
  have stale : s.pool.alloc.isValid handle.genId = false := by
    rwa [← shaped.isValid_iff carried, Bool.not_eq_true] at apart
  refine ⟨?_, ObjectPool.despawn_stale stale⟩
  rw [ObjectPool.get, stale]
  rfl

/-- Where it does, the handle stands for what is in the slot. -/
theorem Shaped.accepts (shaped : Shaped s) (carried : handle.generation = UInt32.ofNat n)
    (same : Coincides s handle n) :
    (∃ entry, s.pool.data[handle.index.toNat]? = some entry ∧ s.pool.get handle = .ok entry) ∧
      ∀ pool, s.pool.despawn handle ≠ .ok (false, pool) := by
  have valid := (shaped.isValid_iff carried).mpr same
  have inside : handle.index.toNat < s.pool.data.size := Nat.lt_of_lt_of_le same.1 shaped.sized
  have stored := Array.getElem?_eq_getElem inside
  refine ⟨⟨_, stored, ?_⟩, fun pool ran => ?_⟩
  · rw [ObjectPool.get, valid, if_pos rfl]
    exact indexArray_eq_ok.mpr stored
  · rcases GenAlloc.free_inv (ObjectPool.despawn_inv ran).1 with ⟨stale, _⟩ | ⟨_, accepted, _⟩
    · rw [valid] at stale
      cases stale
    · cases accepted

end AnyHandles

namespace Executor

/-- What the executor does for a handle reads and changes no pool but the one the handle names. -/
structure Selects (e : Executor) (handle : ObjectHandle) : Prop where
  dispatchListener : handle.poolId ≠ tcpServer → ∀ pool listened reason,
    { e with tcpListenerPool := pool }.dispatch listened ⟨reason, handle⟩ =
      (e.dispatch listened ⟨reason, handle⟩).map
        fun next => ({ next.1 with tcpListenerPool := pool }, next.2)
  dispatchConn : handle.poolId ≠ connHandler → ∀ pool listened reason,
    { e with connHandlerPool := pool }.dispatch listened ⟨reason, handle⟩ =
      (e.dispatch listened ⟨reason, handle⟩).map
        fun next => ({ next.1 with connHandlerPool := pool }, next.2)
  terminateListener : handle.poolId ≠ tcpServer → ∀ pool,
    { e with tcpListenerPool := pool }.completeIntent handle .terminate =
      (e.completeIntent handle .terminate).map fun next => { next with tcpListenerPool := pool }
  terminateConn : handle.poolId ≠ connHandler → ∀ pool,
    { e with connHandlerPool := pool }.completeIntent handle .terminate =
      (e.completeIntent handle .terminate).map fun next => { next with connHandlerPool := pool }

theorem selects (e : Executor) (handle : ObjectHandle) : e.Selects handle := by
  constructor
  · intro other pool listened reason
    simp only [dispatch, if_neg other]
    split
    · cases e.connHandlerPool.get handle with
      | error fault => rfl
      | ok found =>
          cases found with
          | none => rfl
          | some handler =>
              cases ran : handler.processEvent ⟨[], e.ioBufs⟩ reason with
              | error fault => simp [ran, Except.map]
              | ok next => simp [ran, Except.map]
    · rfl
  · intro other pool listened reason
    simp only [dispatch, if_neg other]
    split
    · cases e.tcpListenerPool.get handle with
      | error fault => rfl
      | ok found =>
          cases found with
          | none => rfl
          | some listener =>
              cases ran : listener.processEvent listened ⟨[], e.ioBufs⟩ reason with
              | error fault => simp [ran, Except.map]
              | ok next => simp [ran, Except.map]
    · rfl
  · intro other pool
    simp only [completeIntent, if_neg other]
    split
    · cases e.connHandlerPool.despawn handle <;> rfl
    · rfl
  · intro other pool
    simp only [completeIntent, if_neg other]
    split
    · cases e.tcpListenerPool.despawn handle <;> rfl
    · rfl

end Executor

namespace AnyHandles

variable {T U : Type} {poolId otherPool : UInt8} {capacity otherCapacity : UInt32}
  {s : State T poolId} {t : State U otherPool} {handle : ObjectHandle} {n : Nat}

/-- What a handle carries.  Packing and unpacking are inverse: from fields to fields when the index
has 24 bits, from words to words always; and every handle a pool issues was packed from an index of
24 bits, whatever was done with the pool before. -/
theorem handle_format (poolId : UInt8) {id : GenId} (small : id.index.toNat < 2 ^ 24) :
    (ObjectHandle.new poolId id).poolId = poolId ∧ (ObjectHandle.new poolId id).index = id.index ∧
      (ObjectHandle.new poolId id).generation = id.generation ∧
      (∀ otherPool (other : GenId), other.index.toNat < 2 ^ 24 →
        ObjectHandle.new poolId id = ObjectHandle.new otherPool other →
          poolId = otherPool ∧ id = other) ∧
      (∀ value : UInt64,
        (ObjectHandle.new (ObjectHandle.ofUInt64 value).poolId
          { index := (ObjectHandle.ofUInt64 value).index
            generation := (ObjectHandle.ofUInt64 value).generation }).toUInt64 = value) ∧
      ∀ (T : Type) [Sized (Option T)] (capacity : UInt32) (s : State T poolId),
        (machine T poolId capacity).Reachable s →
          ∀ object handle pool, s.pool.spawn object = .ok (some handle, pool) →
            ∃ issued : GenId, s.pool.alloc.alloc = .ok (some issued, pool.alloc) ∧
              issued.index.toNat < 2 ^ 24 ∧ handle = ObjectHandle.new poolId issued := by
  refine ⟨ObjectHandle.poolId_new _ small, ObjectHandle.index_new _ small,
    ObjectHandle.generation_new _ small, fun otherPool other otherSmall same =>
      ObjectHandle.new_injective small otherSmall same, fun value =>
      congrArg ObjectHandle.toUInt64 (ObjectHandle.new_fields (ObjectHandle.ofUInt64 value)), ?_⟩
  intro T _ capacity s reached object handle pool ran
  have shaped := shaped_of_reach reached
  obtain ⟨id, allocated, same, _⟩ := ObjectPool.spawn_inv ran
  obtain ⟨issued, rfl, packed⟩ := Option.map_eq_some_iff.mp same.symm
  exact ⟨issued, allocated, Nat.lt_trans (shaped.allocated allocated).1 shaped.small, packed.symm⟩

/-- The largest values of all three fields. -/
theorem handle_format_largest :
    (ObjectHandle.new 255 ⟨0x00FFFFFF, 0xFFFFFFFF⟩).poolId = 255 ∧
      (ObjectHandle.new 255 ⟨0x00FFFFFF, 0xFFFFFFFF⟩).index = 0x00FFFFFF ∧
      (ObjectHandle.new 255 ⟨0x00FFFFFF, 0xFFFFFFFF⟩).generation = 0xFFFFFFFF := by
  obtain ⟨pool, index, generation, _⟩ := @handle_format 255 ⟨0x00FFFFFF, 0xFFFFFFFF⟩ (by decide)
  exact ⟨pool, index, generation⟩

/-- Two pools under any calls with any handles.  A handle that one of them returned, when its slot
had been despawned `n` times, is rejected by the other unless that one has a slot of its index that
was despawned as often, modulo `2 ^ 32`; then the handle stands for that slot.  The pool id it
carries plays no part: the executor is what keeps the handles of two pools apart. -/
theorem foreign_handle_iff [Sized (Option T)] [Sized (Option U)]
    (reached : (machine T poolId capacity).Reachable s)
    (otherReached : (machine U otherPool otherCapacity).Reachable t)
    (issued : (handle, n) ∈ s.issued) :
    handle.poolId = poolId ∧
      (¬ Coincides t handle n →
        t.pool.get handle = .ok none ∧ t.pool.despawn handle = .ok (false, t.pool)) ∧
      (Coincides t handle n →
        (∃ entry, t.pool.data[handle.index.toNat]? = some entry ∧
          t.pool.get handle = .ok entry) ∧
        ∀ pool, t.pool.despawn handle ≠ .ok (false, pool)) ∧
      t.pool.get (ObjectHandle.new otherPool handle.genId) = t.pool.get handle ∧
      t.pool.despawn (ObjectHandle.new otherPool handle.genId) = t.pool.despawn handle ∧
      ∀ e : Executor, e.Selects handle := by
  obtain ⟨named, _, carried⟩ := (shaped_of_reach reached).issued handle n issued
  have shaped := shaped_of_reach otherReached
  exact ⟨named, shaped.rejects carried, shaped.accepts carried, t.pool.get_own handle,
    t.pool.despawn_own handle, fun e => e.selects handle⟩

/-- A run of calls on a pool of one slot. -/
theorem reachable_of_calls (poolId : UInt8) (calls : List (ObjectHistory.Call UInt32))
    (test : State UInt32 poolId → Bool)
    (passed : ∀ pool, ObjectPool.new 1 = .ok pool →
      ((machine UInt32 poolId 1).run (fun _ _ _ => true) ⟨pool, [], fun _ => 0⟩ calls).any test =
        true) :
    ∃ s, (machine UInt32 poolId 1).Reachable s ∧ test s = true := by
  obtain ⟨pool, made⟩ := @ObjectPool.new_ok UInt32 poolId _ 1 (by decide) (by decide)
  have start : (machine UInt32 poolId 1).initial ⟨pool, [], fun _ => 0⟩ := ⟨pool, made, rfl⟩
  exact Machine.exists_reachable_of_run start calls test (passed pool made)

/-- The other pool has despawned the slot once since: the handle is rejected. -/
theorem foreign_handle_iff_despawned :
    ∃ (s : State UInt32 1) (t : State UInt32 2),
      ((⟨0x0100000000000000⟩ : ObjectHandle), 0) ∈ s.issued ∧
        t.pool.get ⟨0x0100000000000000⟩ = .ok none ∧
        t.pool.despawn ⟨0x0100000000000000⟩ = .ok (false, t.pool) := by
  obtain ⟨s, reached, issued⟩ := reachable_of_calls 1 [.spawn 7]
    (fun s => decide (((⟨0x0100000000000000⟩ : ObjectHandle), 0) ∈ s.issued))
    (by rintro pool ⟨⟩; rfl)
  obtain ⟨t, otherReached, counted⟩ := reachable_of_calls 2
    [.spawn 8, .despawn ⟨0x0200000000000000⟩, .spawn 9] (fun t => t.despawns 0 == 1)
    (by rintro pool ⟨⟩; rfl)
  have found := of_decide_eq_true issued
  obtain ⟨_, rejects, _⟩ := foreign_handle_iff reached otherReached found
  refine ⟨s, t, found, rejects ?_⟩
  rintro ⟨_, congruent⟩
  have index : (⟨0x0100000000000000⟩ : ObjectHandle).index.toNat = 0 := by decide
  rw [index, beq_iff_eq.mp counted] at congruent
  exact absurd congruent (by decide)

/-- The first handle of one pool is accepted by another pool that has spawned its first object: it
resolves to that object, and despawns it. -/
theorem foreign_handle_accepted :
    ∃ (s : State UInt32 1) (t : State UInt32 2),
      (machine UInt32 1 1).Reachable s ∧ (machine UInt32 2 1).Reachable t ∧
        ((⟨0x0100000000000000⟩ : ObjectHandle), 0) ∈ s.issued ∧
        t.pool.get ⟨0x0100000000000000⟩ = .ok (some 8) ∧
        ∃ pool, t.pool.despawn ⟨0x0100000000000000⟩ = .ok (true, pool) ∧
          pool.get ⟨0x0200000000000000⟩ = .ok none := by
  obtain ⟨s, reached, issued⟩ := reachable_of_calls 1 [.spawn 7]
    (fun s => decide (((⟨0x0100000000000000⟩ : ObjectHandle), 0) ∈ s.issued))
    (by rintro pool ⟨⟩; rfl)
  obtain ⟨t, otherReached, taken⟩ := reachable_of_calls 2 [.spawn 8]
    (fun t => decide (t.pool.get ⟨0x0100000000000000⟩ = .ok (some 8)) &&
      match t.pool.despawn ⟨0x0100000000000000⟩ with
      | .ok (freed, pool) => freed && decide (pool.get ⟨0x0200000000000000⟩ = .ok none)
      | .error _ => false)
    (by rintro pool ⟨⟩; rfl)
  obtain ⟨resolves, despawns⟩ := Bool.and_eq_true_iff.mp taken
  split at despawns
  · rename_i freed pool ran
    obtain ⟨rfl, empty⟩ := Bool.and_eq_true_iff.mp despawns
    exact ⟨s, t, reached, otherReached, of_decide_eq_true issued, of_decide_eq_true resolves, pool,
      ran, of_decide_eq_true empty⟩
  · cases despawns

end AnyHandles

end Hoarder
