/-
Module: Hoarder.Proofs.ObjectHistory
Purpose: The object pool against the history of its calls.  `HandleMap` says what a pool is for: a
  partial map from the handles given out to objects.  The machine runs pool and map side by side
  on any calls; `Tied` relates the two, and `Refines` is what a client can see of that relation.
Trusted boundary: none
Main exports: HandleMap, ObjectHistory.machine, ObjectHistory.Tied, ObjectHistory.Tied.step,
  ObjectHistory.Refines, ObjectHistory.pool_refines
-/
import Hoarder.Proofs.AllocHistory
import Hoarder.Proofs.ObjectPool

namespace Hoarder

open Foundation

/-- A partial map from handles to objects, with the handles given out and those taken back. -/
structure HandleMap (T : Type) where
  issued : List ObjectHandle
  released : List ObjectHandle
  objects : ObjectHandle → Option T

namespace HandleMap

variable {T : Type}

def empty : HandleMap T := { issued := [], released := [], objects := fun _ => none }

/-- Give out a handle for an object. -/
def bind (m : HandleMap T) (handle : ObjectHandle) (object : T) : HandleMap T :=
  { m with
    issued := handle :: m.issued
    objects := Function.update m.objects handle (some object) }

/-- Replace the object of a handle, if it has one. -/
def store (m : HandleMap T) (handle : ObjectHandle) (object : T) : HandleMap T :=
  match m.objects handle with
  | none => m
  | some _ => { m with objects := Function.update m.objects handle (some object) }

/-- Take a handle back, and say whether it had an object. -/
def release (m : HandleMap T) (handle : ObjectHandle) : Bool × HandleMap T :=
  match m.objects handle with
  | none => (false, m)
  | some _ =>
      (true,
        { m with
          released := handle :: m.released
          objects := Function.update m.objects handle none })

/-- The handles that have an object. -/
def live (m : HandleMap T) : List ObjectHandle :=
  m.issued.filter fun handle => (m.objects handle).isSome

end HandleMap

namespace ObjectHistory

variable {T : Type} {poolId : UInt8}

/-- The calls a client makes.  `getMut` stores an object through the reference it gets. -/
inductive Call (T : Type) where
  | spawn (object : T)
  | get (handle : ObjectHandle)
  | getMut (handle : ObjectHandle) (object : T)
  | despawn (handle : ObjectHandle)

/-- The handle a call is given. -/
def Call.handle? : Call T → Option ObjectHandle
  | .spawn _ => none
  | .get handle | .getMut handle _ | .despawn handle => some handle

/-- A pool, and the map it should be. -/
structure State (T : Type) (poolId : UInt8) where
  pool : ObjectPool T poolId
  map : HandleMap T

/-- One call, on the pool and on the map.  Only handles that were given out are passed. -/
def step (s : State T poolId) : Call T → Option (State T poolId)
  | .spawn object =>
      match s.pool.spawn object with
      | .ok (some handle, pool) => some { pool := pool, map := s.map.bind handle object }
      | .ok (none, pool) => some { s with pool := pool }
      | .error _ => none
  | .get handle =>
      if handle ∈ s.map.issued then
        match s.pool.get handle with
        | .ok _ => some s
        | .error _ => none
      else none
  | .getMut handle object =>
      if handle ∈ s.map.issued then
        match s.pool.get handle with
        | .ok (some _) =>
            some { pool := s.pool.store handle object, map := s.map.store handle object }
        | .ok none => some { s with map := s.map.store handle object }
        | .error _ => none
      else none
  | .despawn handle =>
      if handle ∈ s.map.issued then
        match s.pool.despawn handle with
        | .ok (_, pool) => some { pool := pool, map := (s.map.release handle).2 }
        | .error _ => none
      else none

/-- All histories of a pool of the given capacity. -/
def machine (T : Type) [Sized (Option T)] (poolId : UInt8) (capacity : UInt32) :
    Machine (State T poolId) (Call T) where
  initial s := ∃ pool, ObjectPool.new capacity = .ok pool ∧ s = ⟨pool, .empty⟩
  step := step

/-- The condition on one call that no slot's generation overflows. -/
def noOverflow : Machine.Guard (State T poolId) (Call T) :=
  fun s _ s' => s.pool.alloc.NoWrap s'.pool.alloc

/-- The pool agrees with its map: an issued handle resolves to the object of the map, and the
allocator tracks the ids packed in the handles. -/
structure Tied (s : State T poolId) : Prop where
  inv : s.pool.Inv
  tracks : s.pool.alloc.Tracks (s.map.issued.map ObjectHandle.genId)
    (s.map.live.map ObjectHandle.genId)
  packed : ∀ handle ∈ s.map.issued,
    ∃ id : GenId, id.index.toNat < 2 ^ 24 ∧ handle = ObjectHandle.new poolId id
  resolves : ∀ handle ∈ s.map.issued, s.pool.lookup handle.genId = s.map.objects handle
  released : ∀ handle,
    handle ∈ s.map.released ↔ handle ∈ s.map.issued ∧ s.map.objects handle = none
  releasedNodup : s.map.released.Nodup

variable {s s' : State T poolId} {capacity : UInt32}

/-- Handles of one id are the same handle. -/
theorem Tied.genId_injective (tied : Tied s) {handle other : ObjectHandle}
    (issued : handle ∈ s.map.issued) (otherIssued : other ∈ s.map.issued)
    (same : handle.genId = other.genId) : handle = other := by
  obtain ⟨id, small, rfl⟩ := tied.packed handle issued
  obtain ⟨otherId, otherSmall, rfl⟩ := tied.packed other otherIssued
  rw [ObjectHandle.genId_new _ small, ObjectHandle.genId_new _ otherSmall] at same
  rw [same]

/-- An issued handle is valid exactly while it has an object. -/
theorem Tied.isValid_iff (tied : Tied s) {handle : ObjectHandle}
    (issued : handle ∈ s.map.issued) :
    s.pool.alloc.isValid handle.genId = true ↔ (s.map.objects handle).isSome := by
  rw [tied.tracks.isValid_iff_outstanding (List.mem_map_of_mem issued), List.mem_map]
  constructor
  · rintro ⟨other, live, same⟩
    obtain ⟨otherIssued, bound⟩ := List.mem_filter.mp live
    rwa [tied.genId_injective otherIssued issued same] at bound
  · intro bound
    exact ⟨handle, List.mem_filter.mpr ⟨issued, bound⟩, rfl⟩

/-- `spawn` binds a handle that was never issued. -/
theorem Tied.spawn (tied : Tied s) {object : T} {handle : ObjectHandle}
    {pool : ObjectPool T poolId} (ran : s.pool.spawn object = .ok (some handle, pool)) :
    handle ∉ s.map.issued ∧ Tied ⟨pool, s.map.bind handle object⟩ := by
  rcases tied.inv.spawn_spec object with
    ⟨refused, _⟩ | ⟨id, pool', spawned, allocated, small, unbound, lookup', inv', _⟩
  · rw [refused] at ran
    cases ran
  rw [spawned] at ran
  cases ran
  obtain ⟨freshId, tracks'⟩ := tied.tracks.alloc_some allocated
  have idEq := ObjectHandle.genId_new poolId small
  have fresh : ObjectHandle.new poolId id ∉ s.map.issued := fun issued =>
    freshId (List.mem_map.mpr ⟨_, issued, idEq⟩)
  have others : ∀ other ∈ s.map.issued, other ≠ ObjectHandle.new poolId id := by
    rintro other issued rfl
    exact fresh issued
  have live' : (s.map.bind (ObjectHandle.new poolId id) object).live =
      ObjectHandle.new poolId id :: s.map.live := by
    have rest : s.map.issued.filter
        (fun other => (Function.update s.map.objects (ObjectHandle.new poolId id)
          (some object) other).isSome) = s.map.live := by
      apply List.filter_congr
      intro other issued
      rw [Function.update_of_ne (others other issued)]
    simp only [HandleMap.live, HandleMap.bind, List.filter_cons, Function.update_self,
      Option.isSome_some, if_true] at rest ⊢
    rw [rest]
  refine ⟨fresh, inv', ?_, ?_, ?_, ?_, tied.releasedNodup⟩
  · rw [live', List.map_cons, idEq]
    simpa only [HandleMap.bind, List.map_cons, idEq] using tracks'
  · intro other issued
    rcases List.mem_cons.mp issued with rfl | issued
    · exact ⟨id, small, rfl⟩
    · exact tied.packed other issued
  · intro other issued
    simp only [HandleMap.bind] at issued ⊢
    rw [lookup']
    rcases List.mem_cons.mp issued with rfl | issued
    · rw [idEq, Function.update_self, Function.update_self]
    · have differentId : other.genId ≠ id := fun same =>
        freshId (List.mem_map.mpr ⟨other, issued, same⟩)
      rw [Function.update_of_ne differentId, Function.update_of_ne (others other issued)]
      exact tied.resolves other issued
  · intro other
    simp only [HandleMap.bind, tied.released, List.mem_cons]
    rcases eq_or_ne other (ObjectHandle.new poolId id) with rfl | different
    · simp [fresh]
    · simp [different]

/-- Pool and map agree on every handle after an update at one of them. -/
theorem Tied.resolves_update (tied : Tied s) {handle other : ObjectHandle}
    (issued : handle ∈ s.map.issued) (otherIssued : other ∈ s.map.issued) (value : Option T) :
    Function.update s.pool.lookup handle.genId value other.genId =
      Function.update s.map.objects handle value other := by
  rcases eq_or_ne other handle with rfl | different
  · rw [Function.update_self, Function.update_self]
  · have differentId : other.genId ≠ handle.genId := fun same =>
      different (tied.genId_injective otherIssued issued same)
    rw [Function.update_of_ne differentId, Function.update_of_ne different]
    exact tied.resolves other otherIssued

/-- Storing through a handle keeps pool and map together. -/
theorem Tied.store (tied : Tied s) {handle : ObjectHandle} {old : T}
    (issued : handle ∈ s.map.issued) (resolved : s.pool.get handle = .ok (some old))
    (object : T) : Tied ⟨s.pool.store handle object, s.map.store handle object⟩ := by
  rw [tied.inv.get_eq, Except.ok.injEq] at resolved
  have bound : s.map.objects handle = some old := by rw [← tied.resolves handle issued, resolved]
  obtain ⟨lookup', inv', alloc⟩ := tied.inv.store_spec resolved object
  have stored : s.map.store handle object =
      { s.map with objects := Function.update s.map.objects handle (some object) } := by
    simp only [HandleMap.store, bound]
  have sameLive : (s.map.store handle object).live = s.map.live := by
    rw [stored]
    apply List.filter_congr
    intro other _
    rcases eq_or_ne other handle with rfl | different
    · simp [bound]
    · simp [Function.update_of_ne different]
  refine ⟨inv', ?_, ?_, ?_, ?_, ?_⟩
  · rw [sameLive, alloc, stored]
    exact tied.tracks
  · rw [stored]
    exact tied.packed
  · rw [stored]
    intro other otherIssued
    change (s.pool.store handle object).lookup other.genId =
      Function.update s.map.objects handle (some object) other
    rw [lookup']
    exact tied.resolves_update issued otherIssued _
  · intro other
    rw [stored]
    simp only [tied.released]
    rcases eq_or_ne other handle with rfl | different
    · simp [bound]
    · simp [Function.update_of_ne different]
  · rw [stored]
    exact tied.releasedNodup

/-- `despawn` of an issued handle answers whether the map has an object for it. -/
theorem Tied.despawn_ok (tied : Tied s) {handle : ObjectHandle}
    (issued : handle ∈ s.map.issued) :
    ∃ pool, s.pool.despawn handle = .ok ((s.map.release handle).1, pool) := by
  cases bound : s.map.objects handle with
  | none =>
      refine ⟨s.pool, ?_⟩
      rw [ObjectPool.despawn_stale]
      · simp only [HandleMap.release, bound]
      · rw [← Bool.not_eq_true, tied.isValid_iff issued, bound]
        simp
  | some object =>
      rw [← tied.resolves handle issued] at bound
      obtain ⟨pool, ran, _⟩ := tied.inv.despawn_spec bound
      rw [tied.resolves handle issued] at bound
      exact ⟨pool, by simp only [ran, HandleMap.release, bound]⟩

/-- Despawning without overflow keeps pool and map together. -/
theorem Tied.despawn (tied : Tied s) {handle : ObjectHandle} {freed : Bool}
    {pool : ObjectPool T poolId} (issued : handle ∈ s.map.issued)
    (ran : s.pool.despawn handle = .ok (freed, pool)) (noWrap : s.pool.alloc.NoWrap pool.alloc) :
    Tied ⟨pool, (s.map.release handle).2⟩ := by
  cases bound : s.map.objects handle with
  | none =>
      have stale : s.pool.alloc.isValid handle.genId = false := by
        rw [← Bool.not_eq_true, tied.isValid_iff issued, bound]
        simp
      rw [ObjectPool.despawn_stale stale] at ran
      cases ran
      simpa only [HandleMap.release, bound] using tied
  | some object =>
      have resolved := tied.resolves handle issued
      rw [bound] at resolved
      obtain ⟨next, nextRan, freedRan, lookup', inv', _⟩ := tied.inv.despawn_spec resolved
      rw [nextRan] at ran
      cases ran
      have tracks' := tied.tracks.free (List.mem_map_of_mem issued) freedRan noWrap
      have released : (s.map.release handle).2 =
          { s.map with
            released := handle :: s.map.released
            objects := Function.update s.map.objects handle none } := by
        simp only [HandleMap.release, bound]
      have live' : ((s.map.release handle).2.live).map ObjectHandle.genId =
          (s.map.live.map ObjectHandle.genId).filter (· ≠ handle.genId) := by
        rw [List.filter_map, released, HandleMap.live, HandleMap.live, List.filter_filter]
        congr 1
        apply List.filter_congr
        intro other otherIssued
        rcases eq_or_ne other handle with rfl | different
        · simp
        · have differentId : other.genId ≠ handle.genId := fun same =>
            different (tied.genId_injective otherIssued issued same)
          simp [Function.update_of_ne different, differentId]
      have notReleased : handle ∉ s.map.released := by
        rw [tied.released, bound]
        simp
      refine ⟨inv', ?_, ?_, ?_, ?_, ?_⟩
      · rw [live', released]
        exact tracks'
      · rw [released]
        exact tied.packed
      · rw [released]
        intro other otherIssued
        change pool.lookup other.genId = Function.update s.map.objects handle none other
        rw [lookup']
        exact tied.resolves_update issued otherIssued _
      · intro other
        rw [released]
        simp only [List.mem_cons, tied.released]
        rcases eq_or_ne other handle with rfl | different
        · simp [issued]
        · simp [different]
      · rw [released]
        exact List.nodup_cons.mpr ⟨notReleased, tied.releasedNodup⟩

/-- Every call without overflow keeps pool and map together. -/
theorem Tied.step {call : Call T} (tied : Tied s) (stepped : step s call = some s')
    (met : noOverflow s call s') : Tied s' := by
  cases call with
  | spawn object =>
      simp only [ObjectHistory.step] at stepped
      split at stepped <;> cases stepped
      · rename_i ran
        exact (tied.spawn ran).2
      · rename_i ran
        rcases tied.inv.spawn_spec object with ⟨refused, _⟩ | ⟨_, _, spawned, _⟩
        · rw [refused] at ran
          cases ran
          exact tied
        · rw [spawned] at ran
          cases ran
  | get handle =>
      simp only [ObjectHistory.step] at stepped
      split at stepped
      · split at stepped <;> cases stepped
        exact tied
      · cases stepped
  | getMut handle object =>
      simp only [ObjectHistory.step] at stepped
      split at stepped
      · rename_i issued
        split at stepped <;> cases stepped
        · rename_i resolved
          exact tied.store issued resolved object
        · rename_i unresolved
          rw [tied.inv.get_eq, Except.ok.injEq, tied.resolves handle issued] at unresolved
          simpa only [HandleMap.store, unresolved] using tied
      · cases stepped
  | despawn handle =>
      simp only [ObjectHistory.step] at stepped
      split at stepped
      · rename_i issued
        split at stepped <;> cases stepped
        rename_i ran
        exact tied.despawn issued ran met
      · cases stepped

/-- Every history without overflow keeps pool and map together. -/
theorem reach_tied [Sized (Option T)]
    (reached : (machine T poolId capacity).Reach noOverflow s) : Tied s := by
  refine reached.invariant Tied ?_ (fun _ _ _ tied stepped met => tied.step stepped met)
  rintro s ⟨pool, made, rfl⟩
  obtain ⟨inv, noneBound, _⟩ := ObjectPool.inv_of_new made
  have tracks : pool.alloc.Tracks [] [] :=
    ⟨inv.owns.congr fun id => by simp [ObjectPool.ids, noneBound, GenAlloc.heldBy],
      List.nodup_nil, by simp, by simp⟩
  exact ⟨inv, tracks, by simp [HandleMap.empty], by simp [HandleMap.empty],
    by simp [HandleMap.empty], by simp [HandleMap.empty]⟩

/-- The pool is its map, as far as a client can see.  A slot holds an object exactly when it is the
slot of a handle given out and not taken back; `spawn` returns, with a new handle if with any;
`get` and `get_mut` resolve a handle to the object of the map; `despawn` answers `true` exactly for
the handles that were not taken back, and each is taken back once; a call on one handle does not
change what another one resolves to. -/
structure Refines (s : State T poolId) : Prop where
  stored : ∀ slot, (∃ object, s.pool.data[slot]? = some (some object)) ↔
    ∃ handle ∈ s.map.issued, handle ∉ s.map.released ∧ handle.index.toNat = slot
  bound : ∀ handle ∈ s.map.issued,
    (s.map.objects handle).isSome ↔ handle ∉ s.map.released
  spawns : ∀ object, ∃ answer, s.pool.spawn object = .ok answer
  spawnsFresh : ∀ object handle pool,
    s.pool.spawn object = .ok (some handle, pool) → handle ∉ s.map.issued
  resolves : ∀ handle ∈ s.map.issued, s.pool.get handle = .ok (s.map.objects handle)
  despawns : ∀ handle ∈ s.map.issued, ∃ freed pool, s.pool.despawn handle = .ok (freed, pool) ∧
    (freed = true ↔ handle ∉ s.map.released)
  releasedOnce : s.map.released.Nodup
  frame : ∀ call s', step s call = some s' → noOverflow s call s' →
    ∀ handle ∈ s.map.issued, call.handle? ≠ some handle → s'.pool.get handle = s.pool.get handle

/-- A call leaves the other handles of the map alone. -/
theorem step_objects {call : Call T} (stepped : step s call = some s')
    (fresh : ∀ object handle pool,
      s.pool.spawn object = .ok (some handle, pool) → handle ∉ s.map.issued)
    {handle : ObjectHandle} (issued : handle ∈ s.map.issued)
    (other : call.handle? ≠ some handle) :
    s'.map.objects handle = s.map.objects handle ∧ handle ∈ s'.map.issued := by
  cases call with
  | spawn object =>
      simp only [step] at stepped
      split at stepped <;> cases stepped
      · rename_i spawned pool ran
        have different : handle ≠ spawned := by
          rintro rfl
          exact fresh object handle pool ran issued
        exact ⟨Function.update_of_ne different _ _, List.mem_cons_of_mem _ issued⟩
      · exact ⟨rfl, issued⟩
  | get target =>
      simp only [step] at stepped
      split at stepped
      · split at stepped <;> cases stepped
        exact ⟨rfl, issued⟩
      · cases stepped
  | getMut target object =>
      have different : handle ≠ target := fun same => other (by rw [same]; rfl)
      have kept : (s.map.store target object).objects handle = s.map.objects handle ∧
          handle ∈ (s.map.store target object).issued := by
        unfold HandleMap.store
        split
        · exact ⟨rfl, issued⟩
        · exact ⟨Function.update_of_ne different _ _, issued⟩
      simp only [step] at stepped
      split at stepped
      · split at stepped <;> cases stepped <;> exact kept
      · cases stepped
  | despawn target =>
      have different : handle ≠ target := fun same => other (by rw [same]; rfl)
      simp only [step] at stepped
      split at stepped
      · split at stepped <;> cases stepped
        unfold HandleMap.release
        split
        · exact ⟨rfl, issued⟩
        · exact ⟨Function.update_of_ne different _ _, issued⟩
      · cases stepped

/-- What a client can see of the relation between pool and map. -/
theorem Tied.refines (tied : Tied s) : Refines s := by
  have resolves : ∀ {s : State T poolId}, Tied s → ∀ handle ∈ s.map.issued,
      s.pool.get handle = .ok (s.map.objects handle) := by
    intro s tied handle issued
    rw [tied.inv.get_eq, tied.resolves handle issued]
  have bound : ∀ handle ∈ s.map.issued,
      (s.map.objects handle).isSome ↔ handle ∉ s.map.released := by
    intro handle issued
    rw [tied.released, Option.isSome_iff_ne_none]
    simp [issued]
  have fresh : ∀ object handle pool,
      s.pool.spawn object = .ok (some handle, pool) → handle ∉ s.map.issued :=
    fun object handle pool ran => (tied.spawn ran).1
  refine
    { stored := ?_
      bound := bound
      spawns := ?_
      spawnsFresh := fresh
      resolves := resolves tied
      despawns := ?_
      releasedOnce := tied.releasedNodup
      frame := ?_ }
  · intro slot
    constructor
    · rintro ⟨object, stored⟩
      obtain ⟨id, found, rfl⟩ := tied.inv.resolved slot object stored
      -- An id that resolves is valid, owned, and so the id of an issued handle.
      have owns := tied.tracks.owns
      have notFree := tied.inv.owns.not_free
        (ObjectPool.ids_eq_some.mpr ⟨rfl, by rw [found]; rfl⟩)
      have inside := GenAlloc.isValid.index_lt (ObjectPool.lookup_valid found)
      rcases owns.partition.complete _ inside with free | ⟨owner, holds⟩
      · exact absurd free notFree
      · obtain ⟨held, isHeld, sameSlot⟩ := Option.map_eq_some_iff.mp holds
        obtain ⟨rfl, outstanding⟩ := GenAlloc.heldBy_eq_some.mp isHeld
        obtain ⟨handle, live, rfl⟩ := List.mem_map.mp outstanding
        obtain ⟨issued, isBound⟩ := List.mem_filter.mp live
        exact ⟨handle, issued, (bound handle issued).mp isBound, sameSlot⟩
    · rintro ⟨handle, issued, notReleased, rfl⟩
      obtain ⟨object, isBound⟩ :=
        Option.isSome_iff_exists.mp ((bound handle issued).mpr notReleased)
      rw [← tied.resolves handle issued] at isBound
      exact ⟨object, ObjectPool.lookup_data isBound⟩
  · intro object
    rcases tied.inv.spawn_spec object with ⟨ran, _⟩ | ⟨_, _, ran, _⟩
    · exact ⟨_, ran⟩
    · exact ⟨_, ran⟩
  · intro handle issued
    obtain ⟨pool, ran⟩ := tied.despawn_ok issued
    refine ⟨_, pool, ran, ?_⟩
    rw [← bound handle issued]
    unfold HandleMap.release
    cases s.map.objects handle <;> simp
  · intro call s' stepped met handle issued other
    obtain ⟨same, issued'⟩ := step_objects stepped fresh issued other
    rw [resolves (tied.step stepped met) handle issued', resolves tied handle issued, same]

/-- Every history of a pool of any capacity in which no generation overflows: the pool is the partial
map of its handles. -/
theorem pool_refines [Sized (Option T)]
    (reached : (machine T poolId capacity).Reach noOverflow s) : Refines s :=
  (reach_tied reached).refines

/-- One slot, used twice: the stale handle no longer resolves, the new one does. -/
theorem pool_refines_reused_slot :
    ∃ s : State UInt32 2, s.map.issued = [⟨0x0200000000000001⟩, ⟨0x0200000000000000⟩] ∧
      s.map.released = [⟨0x0200000000000000⟩] ∧ Refines s := by
  obtain ⟨pool, made⟩ := @ObjectPool.new_ok UInt32 2 _ 1 (by decide) (by decide)
  have start : (machine UInt32 2 1).initial ⟨pool, .empty⟩ := ⟨pool, made, rfl⟩
  cases made
  obtain ⟨s, reached, ends⟩ := Machine.exists_reach_of_run
    (fun s _ s' => s.pool.alloc.noWrap s'.pool.alloc)
    (fun _ _ _ passed => GenAlloc.noWrap_sound passed) start
    [.spawn 7, .despawn ⟨0x0200000000000000⟩, .spawn 8]
    (fun s => s.map.issued == [⟨0x0200000000000001⟩, ⟨0x0200000000000000⟩] &&
      s.map.released == [⟨0x0200000000000000⟩]) rfl
  simp only [Bool.and_eq_true, beq_iff_eq] at ends
  exact ⟨s, ends.1, ends.2, pool_refines reached⟩

end ObjectHistory

end Hoarder
