/-
Module: Hoarder.Proofs.BufferPool
Purpose: Ownership of buffers.  The buffer pool is its generational allocator with memory beside it;
  the lemmas carry the specification of the allocator over to buffer handles.
Trusted boundary: none
Main exports: BufferPool.isValid, BufferPool.Owns, BufferPool.Outstanding, BufferPool.new_inv,
  BufferPool.new_owns, BufferPool.Owns.alloc_some, BufferPool.Owns.alloc_none,
  BufferPool.Owns.free_owned, BufferPool.Owns.outstanding_iff, BufferPool.getMut_inv,
  BufferPool.getMut_valid, BufferPool.get_eq
-/
import Hoarder.Proofs.GenAlloc

namespace Hoarder

open Foundation

/-- A handle is its id. -/
theorem BufferHandle.ext {handle other : BufferHandle} (same : handle.id = other.id) :
    handle = other :=
  BufferHandle.mk.injEq .. ▸ same

namespace BufferPool

variable {bufSize align : Nat} {κ : Type*} {p p' : BufferPool bufSize align}
  {owned : κ → Option BufferHandle} {handle other : BufferHandle}

/-- The pool resolves the handle. -/
def isValid (p : BufferPool bufSize align) (handle : BufferHandle) : Bool :=
  p.genAlloc.isValid handle.id

/-- The owners hold valid handles of distinct buffers, and all other buffers are free. -/
def Owns (p : BufferPool bufSize align) (owned : κ → Option BufferHandle) : Prop :=
  p.genAlloc.Owns fun owner => (owned owner).map BufferHandle.id

/-- The handle was allocated and not freed since. -/
def Outstanding (p : BufferPool bufSize align) (handle : BufferHandle) : Prop :=
  p.isValid handle = true ∧ handle.id.index.toNat ∉ p.genAlloc.freeIndices

theorem Owns.congr {owned' : κ → Option BufferHandle} (owns : p.Owns owned)
    (same : ∀ owner, owned owner = owned' owner) : p.Owns owned' := by
  obtain rfl : owned = owned' := funext same
  exact owns

/-- The id of a held handle, as the allocator sees it. -/
theorem idOf {owner : κ} (holds : owned owner = some handle) :
    ((owned owner).map BufferHandle.id) = some handle.id := by
  simp [holds]

/-- The ids of an owner map that was changed in one place. -/
theorem idOf_update [DecidableEq κ] (owned : κ → Option BufferHandle) (owner : κ)
    (held : Option BufferHandle) (second : κ) :
    (Function.update owned owner held second).map BufferHandle.id =
      Function.update (fun second => (owned second).map BufferHandle.id) owner
        (held.map BufferHandle.id) second :=
  Function.apply_update (fun _ => Option.map BufferHandle.id) owned owner held second

theorem Owns.valid (owns : p.Owns owned) {owner : κ} (holds : owned owner = some handle) :
    p.isValid handle = true :=
  GenAlloc.Owns.current owns owner handle.id (idOf holds)

/-- A handle has one owner. -/
theorem Owns.exclusive (owns : p.Owns owned) {first second : κ}
    (firstHolds : owned first = some handle) (secondHolds : owned second = some handle) :
    first = second :=
  GenAlloc.Owns.exclusive owns (idOf firstHolds) (idOf secondHolds) rfl

/-- The outstanding handles are the held ones. -/
theorem Owns.outstanding_iff (owns : p.Owns owned) :
    p.Outstanding handle ↔ ∃ owner, owned owner = some handle := by
  constructor
  · rintro ⟨valid, notFree⟩
    rcases owns.partition.complete _ (GenAlloc.isValid.index_lt valid) with free | ⟨owner, holds⟩
    · exact absurd free notFree
    · simp only [Option.map_map, Option.map_eq_some_iff, Function.comp_apply] at holds
      obtain ⟨held, holds, sameSlot⟩ := holds
      have sameId : held.id = handle.id :=
        GenAlloc.isValid.unique (owns.valid holds) valid (UInt32.toNat_inj.mp sameSlot)
      exact ⟨owner, by rw [holds, BufferHandle.ext sameId]⟩
  · rintro ⟨owner, holds⟩
    exact ⟨owns.valid holds, GenAlloc.Owns.not_free owns (idOf holds)⟩

/-- `alloc` is the allocator's, with the memory left alone. -/
theorem alloc_eq_ok {answer : Option BufferHandle} (ran : p.alloc = .ok (answer, p')) :
    ∃ genAlloc, p.genAlloc.alloc = .ok (answer.map BufferHandle.id, genAlloc) ∧
      p' = { p with genAlloc } := by
  unfold alloc at ran
  obtain ⟨⟨id, genAlloc⟩, allocated, rest⟩ := Outcome.bind_eq_ok.mp ran
  cases rest
  refine ⟨genAlloc, ?_, rfl⟩
  rw [allocated]
  cases id <;> rfl

/-- `free` is the allocator's, with the memory left alone. -/
theorem free_eq_ok {freed : Bool} (ran : p.free handle = .ok (freed, p')) :
    ∃ genAlloc, p.genAlloc.free handle.id = .ok (freed, genAlloc) ∧
      p' = { p with genAlloc } := by
  unfold free at ran
  obtain ⟨⟨answer, genAlloc⟩, ranFree, rest⟩ := Outcome.bind_eq_ok.mp ran
  cases rest
  exact ⟨genAlloc, ranFree, rfl⟩

/-- An allocated handle is valid, and can be given to an owner that holds nothing. -/
theorem Owns.alloc_some [DecidableEq κ] (owns : p.Owns owned)
    (ran : p.alloc = .ok (some handle, p')) :
    p.isValid handle = true ∧ (∀ other, p'.isValid other = p.isValid other) ∧
      ∀ owner, owned owner = none → p'.Owns (Function.update owned owner (some handle)) := by
  obtain ⟨genAlloc, allocated, rfl⟩ := alloc_eq_ok ran
  obtain ⟨valid, generation, _, take⟩ := GenAlloc.Owns.alloc_some owns allocated
  refine ⟨valid, fun other => ?_, fun owner idle => ?_⟩
  · simp only [isValid, GenAlloc.isValid, generation]
  · exact (take owner (by simp [idle])).congr fun second =>
      (idOf_update owned owner (some handle) second).symm

/-- A refused `alloc` changes nothing. -/
theorem Owns.alloc_none (owns : p.Owns owned) (ran : p.alloc = .ok (none, p')) : p' = p := by
  obtain ⟨genAlloc, refused, rfl⟩ := alloc_eq_ok ran
  rw [(GenAlloc.Owns.alloc_none owns refused).1]

/-- Freeing a handle that is not valid changes nothing. -/
theorem free_invalid (invalid : p.isValid handle = false) : p.free handle = .ok (false, p) := by
  rw [free, GenAlloc.free_invalid invalid]
  rfl

/-- Freeing a held handle takes it from its owner and makes it invalid; handles of other buffers
keep their validity. -/
theorem Owns.free_owned [DecidableEq κ] (owns : p.Owns owned) {owner : κ}
    (holds : owned owner = some handle) :
    ∃ p', p.free handle = .ok (true, p') ∧ p'.Owns (Function.update owned owner none) ∧
      p'.isValid handle = false ∧
      (∀ other, p.isValid other = true → other ≠ handle → p'.isValid other = true) ∧
      p'.genAlloc.generation =
        p.genAlloc.generation.setIfInBounds handle.id.index.toNat (handle.id.generation + 1) := by
  have valid := owns.valid holds
  obtain ⟨genAlloc, ran, owns', generation⟩ := GenAlloc.Owns.free_owned owns (idOf holds)
  refine ⟨{ p with genAlloc }, ?_, ?_, ?_, ?_, generation⟩
  · rw [free, ran]
    rfl
  · exact owns'.congr fun second => (idOf_update owned owner none second).symm
  · exact (GenAlloc.isValid_next valid generation).1
  · intro other otherValid different
    refine (GenAlloc.isValid_next valid generation).2 other.id otherValid fun same => different ?_
    exact BufferHandle.ext same

/-- What a `get_mut` that returned answered: nothing for a handle that is not valid, and the address
of its buffer for one that is. -/
theorem getMut_inv {answer : Option Nat} (ran : p.getMut handle = .ok answer) :
    (p.isValid handle = false ∧ answer = none) ∨
      (p.isValid handle = true ∧ handle.id.index.toNat < p.pool.count ∧
        answer = some (p.pool.ptr + handle.id.index.toNat * p.pool.bufSize)) := by
  unfold getMut at ran
  split at ran
  · rename_i valid
    obtain ⟨address, located, ran⟩ := Outcome.bind_eq_ok.mp ran
    unfold AlignedBuffers.bufPtr at located
    split at located <;> cases located
    rename_i inside
    cases ran
    exact .inr ⟨valid, inside, rfl⟩
  · rename_i invalid
    cases ran
    exact .inl ⟨by simpa [isValid] using invalid, rfl⟩

theorem valid_of_getMut {address : Nat} (resolved : p.getMut handle = .ok (some address)) :
    p.isValid handle = true := by
  rcases getMut_inv resolved with ⟨_, none⟩ | ⟨valid, _⟩
  · cases none
  · exact valid

/-- `get_mut` fails only on the index. -/
theorem getMut_error {fault : Fault} (failed : p.getMut handle = .error fault) :
    fault = .bufPtrIndex := by
  unfold getMut at failed
  split at failed
  · rcases Outcome.bind_eq_error.mp failed with failed | ⟨_, _, failed⟩
    · unfold AlignedBuffers.bufPtr at failed
      split at failed <;> cases failed
      rfl
    · cases failed
  · cases failed

theorem getMut_invalid (invalid : p.isValid handle = false) : p.getMut handle = .ok none := by
  rw [getMut, if_neg]
  · rfl
  · exact (Bool.not_eq_true _).mpr invalid

theorem getMut_valid (valid : p.isValid handle = true)
    (inside : handle.id.index.toNat < p.pool.count) :
    p.getMut handle = .ok (some (p.pool.ptr + handle.id.index.toNat * p.pool.bufSize)) := by
  have current : p.genAlloc.isValid handle.id = true := valid
  rw [getMut, if_pos current, AlignedBuffers.bufPtr, if_pos inside]
  rfl

/-- `get` reads where `get_mut` points. -/
theorem get_eq {answer : Option Nat} (resolved : p.getMut handle = .ok answer) :
    p.get handle = .ok (answer.map fun address => Memory.read p.pool.mem address bufSize) := by
  rw [get, resolved]
  rfl

/-- The executor's pool of any number of buffers is made, when the allocator has the memory. -/
theorem new_ok {count : UInt32} (positive : 0 < count.toNat) (ptr : Nat) (mem : Nat → UInt8) :
    ∃ genAlloc, GenAlloc.new count 0 = .ok genAlloc ∧
      (BufferPool.new count (some (ptr, mem)) : Except Fault (BufferPool 0x1000 0x1000)) =
        .ok
          { pool :=
              { ptr := ptr, bufSize := 0x1000, count := count.toNat, alignment := 0x1000,
                totalSize := count.toNat * 0x1000, mem := mem }
            genAlloc := genAlloc } := by
  obtain ⟨genAlloc, made, _⟩ := GenAlloc.new_owns (κ := Unit)
    (show 0 < (GenAlloc.maskedCapacity count 0).toNat by rwa [GenAlloc.maskedCapacity_zero])
  have layout : count.toNat * 0x1000 < usizeRange ∧ AlignedBuffers.isPowerOfTwo 0x1000 ∧
      0x1000 % 0x1000 = 0 := by
    have := UInt32.toNat_lt count
    refine ⟨?_, rfl, rfl⟩
    unfold usizeRange
    omega
  have aligned : AlignedBuffers.new count.toNat 0x1000 0x1000 (some (ptr, mem)) =
      .ok (.ok
        { ptr := ptr, bufSize := 0x1000, count := count.toNat, alignment := 0x1000,
          totalSize := count.toNat * 0x1000, mem := mem }) := if_pos layout
  refine ⟨genAlloc, made, ?_⟩
  rw [BufferPool.new, aligned, made]
  rfl

/-- What a `new` that returned made: an allocator of `count` slots, and as many buffers. -/
theorem new_inv {count : UInt32} {raw : Option (Nat × (Nat → UInt8))}
    (made : BufferPool.new count raw = .ok p) :
    GenAlloc.new count 0 = .ok p.genAlloc ∧ p.pool.bufSize = bufSize ∧
      p.pool.count = count.toNat ∧ p.pool.totalSize = count.toNat * bufSize := by
  unfold BufferPool.new at made
  obtain ⟨answer, allocated, made⟩ := Outcome.bind_eq_ok.mp made
  split at made
  · cases made
  rename_i pool
  obtain ⟨genAlloc, genAllocMade, rest⟩ := Outcome.bind_eq_ok.mp made
  cases rest
  exact ⟨genAllocMade, (AlignedBuffers.new_inv allocated).2⟩

/-- A new pool has no owners. -/
theorem new_owns {count : UInt32} {raw : Option (Nat × (Nat → UInt8))}
    (made : BufferPool.new count raw = .ok p) :
    p.Owns (fun _ : κ => none) ∧ p.pool.bufSize = bufSize ∧ p.pool.count = count.toNat := by
  obtain ⟨genAllocMade, sized, counted, _⟩ := new_inv made
  exact ⟨(GenAlloc.owns_of_new genAllocMade).1.congr fun _ => rfl, sized, counted⟩

end BufferPool

end Hoarder
