/-
Module: Hoarder.Proofs.BufferHistory
Purpose: The buffer pool against the history of its calls.  `Backed` ties its allocator to the issued
  handles and to the memory behind it; from it, an outstanding handle names a slice of its own, apart
  from the slices of all others, and a handle that was freed names nothing.
Trusted boundary: none
Main exports: BufferHistory.machine, BufferHistory.step_cases, BufferHistory.Sized,
  BufferHistory.reach_sized, BufferHistory.Backed, BufferHistory.reach_backed,
  BufferHistory.Isolated, BufferHistory.buffers_isolated
-/
import Hoarder.Proofs.AllocHistory
import Hoarder.Proofs.BufferPool

namespace Hoarder.BufferHistory

open Foundation

/-- The calls a client makes.  `getMut` stores data through the slice it gets, from an offset on. -/
inductive Call where
  | alloc
  | free (handle : BufferHandle)
  | get (handle : BufferHandle)
  | getMut (handle : BufferHandle) (offset : Nat) (data : List UInt8)
deriving DecidableEq, Repr

/-- The pool with the handles it has returned so far and those not freed since. -/
structure State (bufSize align : Nat) where
  pool : BufferPool bufSize align
  issued : List BufferHandle
  outstanding : List BufferHandle

variable {bufSize align : Nat}

/-- One call.  Handles are those the pool has returned, and a store stays inside its slice. -/
def step (s : State bufSize align) : Call → Option (State bufSize align)
  | .alloc =>
      match s.pool.alloc with
      | .ok (some handle, pool) =>
          some
            { pool := pool, issued := handle :: s.issued,
              outstanding := handle :: s.outstanding }
      | .ok (none, pool) => some { s with pool := pool }
      | .error _ => none
  | .free handle =>
      if handle ∈ s.issued then
        match s.pool.free handle with
        | .ok (_, pool) =>
            some { s with pool := pool, outstanding := s.outstanding.filter (· ≠ handle) }
        | .error _ => none
      else none
  | .get handle =>
      if handle ∈ s.issued then
        match s.pool.get handle with
        | .ok _ => some s
        | .error _ => none
      else none
  | .getMut handle offset data =>
      if handle ∈ s.issued ∧ offset + data.length ≤ bufSize then
        match s.pool.getMut handle with
        | .ok (some address) => some { s with pool := s.pool.writeAt (address + offset) data }
        | .ok none => some s
        | .error _ => none
      else none

/-- All histories of a pool of `count` buffers. -/
def machine (bufSize align : Nat) (count : UInt32) : Machine (State bufSize align) Call where
  initial s := ∃ raw pool, BufferPool.new count raw = .ok pool ∧ s = ⟨pool, [], []⟩
  step := step

/-- The condition on one call that no slot's generation overflows. -/
def noOverflow : Machine.Guard (State bufSize align) Call :=
  fun s _ s' => s.pool.genAlloc.NoWrap s'.pool.genAlloc

/-- The allocator has one slot for each buffer of the memory. -/
structure Sized (count : UInt32) (s : State bufSize align) : Prop where
  capacity : s.pool.genAlloc.capacity = count.toNat
  sized : s.pool.pool.bufSize = bufSize
  counted : s.pool.pool.count = count.toNat
  total : s.pool.pool.totalSize = count.toNat * bufSize

/-- The allocator agrees with the history of the handles and with the memory behind it. -/
structure Backed (count : UInt32) (s : State bufSize align) : Prop extends Sized count s where
  tracks : s.pool.genAlloc.Tracks (s.issued.map BufferHandle.id)
    (s.outstanding.map BufferHandle.id)

variable {count : UInt32} {s s' : State bufSize align} {handle other : BufferHandle}

/-- A call is an `alloc`, a `free` of an issued handle, a store through a handle that resolves, or it
leaves the pool as it is. -/
theorem step_cases {call : Call} (stepped : step s call = some s') :
    (∃ answer, call = .alloc ∧ s.pool.alloc = .ok (answer, s'.pool) ∧
      s'.issued = answer.toList ++ s.issued ∧ s'.outstanding = answer.toList ++ s.outstanding) ∨
    (∃ handle freed, call = .free handle ∧ handle ∈ s.issued ∧
      s.pool.free handle = .ok (freed, s'.pool) ∧ s'.issued = s.issued ∧
      s'.outstanding = s.outstanding.filter (· ≠ handle)) ∨
    (∃ handle offset data address, call = .getMut handle offset data ∧ handle ∈ s.issued ∧
      offset + data.length ≤ bufSize ∧ s.pool.getMut handle = .ok (some address) ∧
      s' = { s with pool := s.pool.writeAt (address + offset) data }) ∨
    s' = s := by
  cases call with
  | alloc =>
      simp only [step] at stepped
      split at stepped <;> cases stepped
      · rename_i handle pool ran
        exact .inl ⟨some handle, rfl, ran, rfl, rfl⟩
      · rename_i pool ran
        exact .inl ⟨none, rfl, ran, rfl, rfl⟩
  | free handle =>
      simp only [step] at stepped
      split at stepped
      · rename_i wasIssued
        split at stepped <;> cases stepped
        rename_i freed pool ran
        exact .inr (.inl ⟨handle, freed, rfl, wasIssued, ran, rfl, rfl⟩)
      · cases stepped
  | get handle =>
      simp only [step] at stepped
      split at stepped
      · split at stepped <;> cases stepped
        exact .inr (.inr (.inr rfl))
      · cases stepped
  | getMut handle offset data =>
      simp only [step] at stepped
      split at stepped
      · rename_i fits
        split at stepped <;> cases stepped
        · rename_i address resolved
          exact .inr (.inr (.inl ⟨handle, offset, data, address, rfl, fits.1, fits.2, resolved, rfl⟩))
        · exact .inr (.inr (.inr rfl))
      · cases stepped

theorem mem_map_id {handles : List BufferHandle} :
    handle.id ∈ handles.map BufferHandle.id ↔ handle ∈ handles := by
  constructor
  · intro member
    obtain ⟨held, isHeld, same⟩ := List.mem_map.mp member
    rwa [← BufferHandle.ext same]
  · exact List.mem_map_of_mem

/-- Removing a handle removes its id. -/
theorem filter_map_id (handles : List BufferHandle) (handle : BufferHandle) :
    (handles.map BufferHandle.id).filter (· ≠ handle.id) =
      (handles.filter (· ≠ handle)).map BufferHandle.id := by
  rw [List.filter_map]
  congr 1
  apply List.filter_congr
  intro held _
  have sameId : held.id = handle.id ↔ held = handle := ⟨BufferHandle.ext, congrArg _⟩
  simp [sameId]

/-- A handle is valid exactly while it is outstanding. -/
theorem Backed.isValid_iff (backed : Backed count s) (wasIssued : handle ∈ s.issued) :
    s.pool.isValid handle = true ↔ handle ∈ s.outstanding := by
  rw [← mem_map_id]
  exact backed.tracks.isValid_iff_outstanding (mem_map_id.mpr wasIssued)

theorem Backed.wasIssued (backed : Backed count s) (held : handle ∈ s.outstanding) :
    handle ∈ s.issued :=
  mem_map_id.mp (backed.tracks.wasIssued _ (mem_map_id.mpr held))

/-- The slot of a valid handle is one of the buffers. -/
theorem Sized.index_lt (sized : Sized count s) (valid : s.pool.isValid handle = true) :
    handle.id.index.toNat < count.toNat :=
  sized.capacity ▸ GenAlloc.isValid.index_lt valid

theorem Sized.new {pool : BufferPool bufSize align} {raw : Option (Nat × (Nat → UInt8))}
    (made : BufferPool.new count raw = .ok pool) : Sized count ⟨pool, [], []⟩ := by
  obtain ⟨genAllocMade, sized, counted, total⟩ := BufferPool.new_inv made
  refine ⟨?_, sized, counted, total⟩
  rw [(GenAlloc.owns_of_new (κ := Unit) genAllocMade).2, GenAlloc.maskedCapacity_zero]

/-- Every call leaves the sizes alone. -/
theorem Sized.step {call : Call} (sized : Sized count s)
    (stepped : BufferHistory.step s call = some s') : Sized count s' := by
  rcases step_cases stepped with
    ⟨answer, _, ran, _⟩ | ⟨handle, freed, _, _, ran, _⟩ | ⟨_, _, _, _, _, _, _, _, rfl⟩ | rfl
  · obtain ⟨genAlloc, allocated, poolEq⟩ := BufferPool.alloc_eq_ok ran
    have sameGeneration := GenAlloc.alloc_generation allocated
    constructor <;> rw [poolEq]
    · exact (congrArg Array.size sameGeneration).trans sized.capacity
    · exact sized.sized
    · exact sized.counted
    · exact sized.total
  · obtain ⟨genAlloc, ranFree, poolEq⟩ := BufferPool.free_eq_ok ran
    constructor <;> rw [poolEq]
    · exact (GenAlloc.free_capacity ranFree).trans sized.capacity
    · exact sized.sized
    · exact sized.counted
    · exact sized.total
  · exact ⟨sized.capacity, sized.sized, sized.counted, sized.total⟩
  · exact sized

/-- Every history, with overflow or without, leaves the sizes alone. -/
theorem reach_sized (reached : (machine bufSize align count).Reachable s) : Sized count s := by
  apply reached.invariant (Sized count)
  · rintro s ⟨raw, pool, made, rfl⟩
    exact .new made
  · intro s call s' sized stepped _
    exact sized.step stepped

theorem Backed.new {pool : BufferPool bufSize align} {raw : Option (Nat × (Nat → UInt8))}
    (made : BufferPool.new count raw = .ok pool) : Backed count ⟨pool, [], []⟩ where
  toSized := .new made
  tracks := GenAlloc.Tracks.of_new (BufferPool.new_inv made).1

/-- A call that does not wrap a generation keeps the invariant. -/
theorem Backed.step {call : Call} (backed : Backed count s)
    (stepped : BufferHistory.step s call = some s') (met : noOverflow s call s') :
    Backed count s' := by
  refine ⟨backed.toSized.step stepped, ?_⟩
  rcases step_cases stepped with
    ⟨answer, _, ran, issued, outstanding⟩ | ⟨handle, freed, _, wasIssued, ran, issued, outstanding⟩ |
      ⟨_, _, _, _, _, _, _, _, rfl⟩ | rfl
  · obtain ⟨genAlloc, allocated, poolEq⟩ := BufferPool.alloc_eq_ok ran
    rw [issued, outstanding, poolEq]
    cases answer with
    | some handle => exact (backed.tracks.alloc_some allocated).2
    | none =>
        obtain ⟨rfl, _⟩ := backed.tracks.owns.alloc_none allocated
        exact backed.tracks
  · obtain ⟨genAlloc, ranFree, poolEq⟩ := BufferPool.free_eq_ok ran
    have noWrap : s.pool.genAlloc.NoWrap genAlloc := by
      rw [noOverflow, poolEq] at met
      exact met
    have tracks := backed.tracks.free (mem_map_id.mpr wasIssued) ranFree noWrap
    rw [filter_map_id] at tracks
    rw [issued, outstanding, poolEq]
    exact tracks
  · exact backed.tracks
  · exact backed.tracks

/-- Every history without overflow keeps the pool in agreement with it. -/
theorem reach_backed (reached : (machine bufSize align count).Reach noOverflow s) :
    Backed count s := by
  apply reached.invariant (Backed count)
  · rintro s ⟨raw, pool, made, rfl⟩
    exact .new made
  · intro s call s' backed stepped met
    exact backed.step stepped met

/-! ### Slices -/

/-- An outstanding handle names the buffer of its slot. -/
theorem Backed.getMut_outstanding (backed : Backed count s) (held : handle ∈ s.outstanding) :
    s.pool.getMut handle = .ok (some (s.pool.pool.ptr + handle.id.index.toNat * bufSize)) := by
  have valid := (backed.isValid_iff (backed.wasIssued held)).mpr held
  have inside : handle.id.index.toNat < s.pool.pool.count := by
    rw [backed.counted]
    exact backed.index_lt valid
  rw [BufferPool.getMut_valid valid inside, backed.sized]

/-- A handle that was freed names nothing. -/
theorem Backed.getMut_stale (backed : Backed count s) (wasIssued : handle ∈ s.issued)
    (freed : handle ∉ s.outstanding) : s.pool.getMut handle = .ok none := by
  apply BufferPool.getMut_invalid
  rw [← Bool.not_eq_true, backed.isValid_iff wasIssued]
  exact freed

/-- Different outstanding handles name different slots. -/
theorem Backed.index_ne (backed : Backed count s) (held : handle ∈ s.outstanding)
    (otherHeld : other ∈ s.outstanding) (different : handle ≠ other) :
    handle.id.index.toNat ≠ other.id.index.toNat := by
  intro sameIndex
  have valid := (backed.isValid_iff (backed.wasIssued held)).mpr held
  have otherValid := (backed.isValid_iff (backed.wasIssued otherHeld)).mpr otherHeld
  have sameId := GenAlloc.isValid.unique valid otherValid (UInt32.toNat_inj.mp sameIndex)
  exact different (BufferHandle.ext sameId)

/-- Buffers of different slots lie apart. -/
theorem apart_of_ne {first second : Nat} (bufSize base : Nat) (different : first ≠ second) :
    base + first * bufSize + bufSize ≤ base + second * bufSize ∨
      base + second * bufSize + bufSize ≤ base + first * bufSize := by
  rcases Nat.lt_or_gt_of_ne different with below | above
  · left
    have := Nat.mul_le_mul_right bufSize (Nat.succ_le_of_lt below)
    rw [Nat.succ_mul] at this
    omega
  · right
    have := Nat.mul_le_mul_right bufSize (Nat.succ_le_of_lt above)
    rw [Nat.succ_mul] at this
    omega

/-- The pool keeps the buffers of its handles apart.  An issued handle resolves exactly while it is
outstanding; a slice is `BUF_SIZE` bytes inside the memory of the pool; slices of different handles
do not overlap; a store through one handle leaves what all others read alone; a handle that was freed
reads nothing and writes nothing. -/
structure Isolated (count : UInt32) (s : State bufSize align) : Prop where
  total : s.pool.pool.totalSize = count.toNat * bufSize
  resolves : ∀ handle ∈ s.issued,
    (∃ address, s.pool.getMut handle = .ok (some address)) ↔ handle ∈ s.outstanding
  stale : ∀ handle ∈ s.issued, handle ∉ s.outstanding →
    s.pool.getMut handle = .ok none ∧ s.pool.get handle = .ok none
  inside : ∀ handle ∈ s.issued, ∀ address, s.pool.getMut handle = .ok (some address) →
    s.pool.pool.ptr ≤ address ∧
      address + bufSize ≤ s.pool.pool.ptr + s.pool.pool.totalSize
  slice : ∀ handle ∈ s.issued, ∀ address, s.pool.getMut handle = .ok (some address) →
    ∃ bytes, s.pool.get handle = .ok (some bytes) ∧ bytes.length = bufSize ∧
      bytes = Memory.read s.pool.pool.mem address bufSize
  disjoint : ∀ first ∈ s.outstanding, ∀ second ∈ s.outstanding, first ≠ second →
    ∀ address address', s.pool.getMut first = .ok (some address) →
      s.pool.getMut second = .ok (some address') →
        address + bufSize ≤ address' ∨ address' + bufSize ≤ address
  frame : ∀ writer ∈ s.issued, ∀ offset data s', step s (.getMut writer offset data) = some s' →
    ∀ reader ∈ s.outstanding, reader ≠ writer → s'.pool.get reader = s.pool.get reader
  staleStore : ∀ writer ∈ s.issued, writer ∉ s.outstanding → ∀ offset data s',
    step s (.getMut writer offset data) = some s' → s' = s

/-- A store leaves the validity of handles and the places of the buffers alone. -/
theorem getMut_writeAt (pool : BufferPool bufSize align) (address : Nat) (data : List UInt8)
    (handle : BufferHandle) : (pool.writeAt address data).getMut handle = pool.getMut handle := rfl

/-- A store through an outstanding handle is read by no other. -/
theorem Backed.get_writeAt (backed : Backed count s) {writer reader : BufferHandle}
    (writes : writer ∈ s.outstanding) (reads : reader ∈ s.outstanding) (different : reader ≠ writer)
    {offset : Nat} {data : List UInt8} (fits : offset + data.length ≤ bufSize) :
    (s.pool.writeAt (s.pool.pool.ptr + writer.id.index.toNat * bufSize + offset) data).get reader =
      s.pool.get reader := by
  have resolved := backed.getMut_outstanding reads
  rw [BufferPool.get_eq resolved, BufferPool.get_eq ((getMut_writeAt ..).trans resolved)]
  have slots := backed.index_ne reads writes different
  have slices := apart_of_ne bufSize s.pool.pool.ptr slots
  simp only [Option.map_some, BufferPool.writeAt]
  rw [Memory.read_write_apart]
  omega

/-- Every history of `alloc`, `free`, `get` and `get_mut` on handles of the pool in which no
generation overflows keeps the buffers apart. -/
theorem buffers_isolated (reached : (machine bufSize align count).Reach noOverflow s) :
    Isolated count s := by
  have backed := reach_backed reached
  have outstanding : ∀ handle ∈ s.issued, ∀ address, s.pool.getMut handle = .ok (some address) →
      handle ∈ s.outstanding ∧ address = s.pool.pool.ptr + handle.id.index.toNat * bufSize := by
    intro handle wasIssued address resolved
    have held := (backed.isValid_iff wasIssued).mp (BufferPool.valid_of_getMut resolved)
    rw [backed.getMut_outstanding held] at resolved
    cases resolved
    exact ⟨held, rfl⟩
  constructor
  case total => exact backed.total
  case resolves =>
    intro handle wasIssued
    constructor
    · rintro ⟨address, resolved⟩
      exact (outstanding handle wasIssued address resolved).1
    · intro held
      exact ⟨_, backed.getMut_outstanding held⟩
  case stale =>
    intro handle wasIssued freed
    have resolved := backed.getMut_stale wasIssued freed
    exact ⟨resolved, BufferPool.get_eq resolved⟩
  case inside =>
    intro handle wasIssued address resolved
    obtain ⟨held, rfl⟩ := outstanding handle wasIssued address resolved
    have slot := backed.index_lt ((backed.isValid_iff wasIssued).mpr held)
    have below := Nat.mul_le_mul_right bufSize (Nat.succ_le_of_lt slot)
    rw [Nat.succ_mul] at below
    rw [backed.total]
    omega
  case slice =>
    intro handle _ address resolved
    exact ⟨_, BufferPool.get_eq resolved, by simp, rfl⟩
  case disjoint =>
    intro first firstHeld second secondHeld different address address' resolved resolved'
    rw [backed.getMut_outstanding firstHeld] at resolved
    rw [backed.getMut_outstanding secondHeld] at resolved'
    cases resolved
    cases resolved'
    exact apart_of_ne _ _ (backed.index_ne firstHeld secondHeld different)
  case frame =>
    intro writer wasIssued offset data s' stepped reader reads different
    rcases step_cases stepped with
      ⟨_, isAlloc, _⟩ | ⟨_, _, isFree, _⟩ | ⟨_, _, _, address, isStore, _, fits, resolved, rfl⟩ | rfl
    · cases isAlloc
    · cases isFree
    · cases isStore
      obtain ⟨writes, rfl⟩ := outstanding writer wasIssued address resolved
      exact backed.get_writeAt writes reads different fits
    · rfl
  case staleStore =>
    intro writer wasIssued freed offset data s' stepped
    rcases step_cases stepped with
      ⟨_, isAlloc, _⟩ | ⟨_, _, isFree, _⟩ | ⟨_, _, _, address, isStore, _, _, resolved, _⟩ | same
    · cases isAlloc
    · cases isFree
    · cases isStore
      rw [backed.getMut_stale wasIssued freed] at resolved
      cases resolved
    · exact same

/-- Two buffers of four bytes: one is freed, both are allocated, and the reissued one is written. -/
theorem buffers_isolated_reissued :
    ∃ s : State 4 4, (s.issued = [⟨⟨1, 1⟩⟩, ⟨⟨0, 0⟩⟩, ⟨⟨1, 0⟩⟩] ∧
      s.outstanding = [⟨⟨1, 1⟩⟩, ⟨⟨0, 0⟩⟩] ∧ s.pool.pool.mem 0x1007 = 9) ∧ Isolated 2 s := by
  have start : (machine 4 4 2).initial ⟨_, [], []⟩ := ⟨some (0x1000, fun _ => 0), _, rfl, rfl⟩
  obtain ⟨s, reached, ends⟩ :=
    Machine.exists_reach_of_run (M := machine 4 4 2)
      (fun s _ s' => GenAlloc.noWrap s.pool.genAlloc s'.pool.genAlloc)
      (fun _ _ _ passed => GenAlloc.noWrap_sound passed) start
      [.alloc, .free ⟨⟨1, 0⟩⟩, .alloc, .alloc, .getMut ⟨⟨1, 1⟩⟩ 3 [9]]
      (fun s => s.issued == [⟨⟨1, 1⟩⟩, ⟨⟨0, 0⟩⟩, ⟨⟨1, 0⟩⟩] &&
        (s.outstanding == [⟨⟨1, 1⟩⟩, ⟨⟨0, 0⟩⟩]) && s.pool.pool.mem 0x1007 == 9) rfl
  simp only [Bool.and_eq_true, beq_iff_eq] at ends
  exact ⟨s, ⟨ends.1.1, ends.1.2, ends.2⟩, buffers_isolated reached⟩

end Hoarder.BufferHistory
