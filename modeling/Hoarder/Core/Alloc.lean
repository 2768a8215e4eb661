/-
Module: Hoarder.Core.Alloc
Purpose: hoarder-collections/src/alloc.rs: aligned buffers, the generational allocator, the buffer
  pool, the object pool and its packed handles, as the code computes them.  Arithmetic on machine
  integers wraps, as in a build without overflow checks; in a build with them a run stops at the
  overflow, so its states are among those of this model.
Trusted boundary: human-reviewed model
Main exports: AlignedBuffers, GenId, GenAlloc, BufferHandle, BufferPool, ObjectHandle, ObjectPool
-/
import Hoarder.Core.Collections
import Hoarder.Foundation.Memory

namespace Hoarder

open Foundation

/-- `Index` of the boxed array: the assertion, then the element. -/
def indexArray {T : Type} (self : Array T) (index : Nat) : Except Fault T :=
  match self[index]? with
  | some value => .ok value
  | none => .error .arrayIndex

/-- `AlignedBuffers`.  `ptr` is the address of the allocation, and `mem` the memory it lies in. -/
structure AlignedBuffers where
  ptr : Nat
  bufSize : Nat
  count : Nat
  alignment : Nat
  totalSize : Nat
  mem : Nat → UInt8

namespace AlignedBuffers

/-- `usize::is_power_of_two`. -/
def isPowerOfTwo (n : Nat) : Bool :=
  n ≠ 0 && n &&& (n - 1) == 0

/-- The assertions of `new`, and the layout it asks the global allocator for. -/
def newLayout (count bufSize alignment : Nat) : Except Fault Layout :=
  let total := count * bufSize
  if total < usizeRange ∧ isPowerOfTwo alignment ∧ bufSize % alignment = 0 then
    .ok { size := total, align := alignment }
  else .error .layoutAssert

/-- The layout `Drop` gives the allocation back with. -/
def dropLayout (self : AlignedBuffers) : Layout :=
  { size := self.totalSize, align := self.alignment }

/-- `AlignedBuffers::new`.  `raw` is what the global allocator returned: null, or an address in a
memory of unspecified content. -/
def new (count bufSize alignment : Nat) (raw : Option (Nat × (Nat → UInt8))) :
    Except Fault (Result AlignedBuffers) :=
  let total := count * bufSize
  if total < usizeRange ∧ isPowerOfTwo alignment ∧ bufSize % alignment = 0 then
    match raw with
    | none => .ok (.error .memAllocFail)
    | some (ptr, mem) =>
        .ok (.ok
          { ptr := ptr, bufSize := bufSize, count := count, alignment := alignment,
            totalSize := total, mem := mem })
  else .error .layoutAssert

/-- What a `new` that returned made. -/
theorem new_inv {count bufSize alignment : Nat} {raw : Option (Nat × (Nat → UInt8))}
    {self : AlignedBuffers} (made : new count bufSize alignment raw = .ok (.ok self)) :
    count * bufSize < usizeRange ∧ self.bufSize = bufSize ∧ self.count = count ∧
      self.totalSize = count * bufSize := by
  simp only [new] at made
  split at made
  · rename_i layout
    split at made <;> cases made
    exact ⟨layout.1, rfl, rfl, rfl⟩
  · cases made

/-- `buf_ptr` and `buf_ptr_mut`: the address of one buffer. -/
def bufPtr (self : AlignedBuffers) (index : Nat) : Except Fault Nat :=
  if index < self.count then .ok (self.ptr + index * self.bufSize) else .error .bufPtrIndex

end AlignedBuffers

/-- `GenId`. -/
structure GenId where
  index : UInt32
  generation : UInt32
deriving DecidableEq, Repr

/-- `GenAlloc`. -/
structure GenAlloc where
  generation : Array UInt32
  freeList : RingBuffer UInt32

namespace GenAlloc

/-- The capacity limited by the mask, where mask 0 stands for `u32::MAX`. -/
def maskedCapacity (capacity mask : UInt32) : UInt32 :=
  let mask := if mask == 0 then 0xFFFFFFFF else mask
  capacity &&& mask

def new (capacity mask : UInt32) : Except Fault GenAlloc := do
  let capacity := maskedCapacity capacity mask
  let generation ← newArray 0 capacity.toNat
  let freeList ← RingBuffer.fromFixedIter capacity.toNat
    ((List.range capacity.toNat).map UInt32.ofNat).reverse
  return { generation, freeList }

def alloc (self : GenAlloc) : Except Fault (Option GenId × GenAlloc) := do
  let (popped, freeList) ← self.freeList.pop
  match popped with
  | none => return (none, { self with freeList })
  | some index =>
      let generation ← indexArray self.generation index.toNat
      return (some { index, generation }, { self with freeList })

/-- `is_valid`: the index is in range and the generations agree. -/
def isValid (self : GenAlloc) (id : GenId) : Bool :=
  let index := id.index.toNat
  if inside : index < self.generation.size then id.generation == self.generation[index] else false

def free (self : GenAlloc) (id : GenId) : Except Fault (Bool × GenAlloc) :=
  if self.isValid id then do
    let generation ← indexArray self.generation id.index.toNat
    match self.freeList.push id.index with
    | (.ok (), freeList) =>
        return (true,
          { generation := self.generation.setIfInBounds id.index.toNat (generation + 1)
            freeList := freeList })
    | (.error _, _) => .error .freeListPush
  else return (false, self)

end GenAlloc

/-- `BufferHandle`. -/
structure BufferHandle where
  id : GenId
deriving DecidableEq, Repr

/-- `BufferPool<BUF_SIZE, ALIGN>`.  The source calls the second field `alloc`, like the method. -/
structure BufferPool (bufSize align : Nat) where
  pool : AlignedBuffers
  genAlloc : GenAlloc

namespace BufferPool

variable {bufSize align : Nat}

/-- `BufferPool::new`, given the answer of the global allocator. -/
def new (count : UInt32) (raw : Option (Nat × (Nat → UInt8))) :
    Except Fault (BufferPool bufSize align) := do
  match ← AlignedBuffers.new count.toNat bufSize align raw with
  | .error _ => .error .bufferAlloc
  | .ok pool =>
      let genAlloc ← GenAlloc.new count 0
      return { pool, genAlloc }

def alloc (self : BufferPool bufSize align) :
    Except Fault (Option BufferHandle × BufferPool bufSize align) := do
  let (id, genAlloc) ← self.genAlloc.alloc
  return (id.map BufferHandle.mk, { self with genAlloc })

/-- `get_mut`: the address of the `BUF_SIZE` bytes the slice covers. -/
def getMut (self : BufferPool bufSize align) (handle : BufferHandle) :
    Except Fault (Option Nat) :=
  if self.genAlloc.isValid handle.id then do
    let address ← self.pool.bufPtr handle.id.index.toNat
    return some address
  else return none

/-- `get`: the bytes of the slice. -/
def get (self : BufferPool bufSize align) (handle : BufferHandle) :
    Except Fault (Option (List UInt8)) := do
  let address ← self.getMut handle
  return address.map fun address => Memory.read self.pool.mem address bufSize

def free (self : BufferPool bufSize align) (handle : BufferHandle) :
    Except Fault (Bool × BufferPool bufSize align) := do
  let (freed, genAlloc) ← self.genAlloc.free handle.id
  return (freed, { self with genAlloc })

/-- Store `data` at `address`: the effect of a write through a slice of `get_mut`, by the program or
by the kernel. -/
def writeAt (self : BufferPool bufSize align) (address : Nat) (data : List UInt8) :
    BufferPool bufSize align :=
  { self with pool := { self.pool with mem := Memory.write self.pool.mem address data } }

end BufferPool

/-- `ObjectHandle`: pool id, index and generation packed in one word. -/
structure ObjectHandle where
  val : UInt64
deriving DecidableEq, Repr

/-- `ObjectPool::MASK`. -/
def objectPoolMask : UInt32 := 0x00FFFFFF

namespace ObjectHandle

def idShift : UInt64 := 56
def indexShift : UInt64 := 32

def new (poolId : UInt8) (genId : GenId) : ObjectHandle :=
  ⟨(poolId.toUInt64 <<< idShift) ||| (genId.index.toUInt64 <<< indexShift) |||
    genId.generation.toUInt64⟩

def poolId (self : ObjectHandle) : UInt8 := (self.val >>> idShift).toUInt8

def index (self : ObjectHandle) : UInt32 := (self.val >>> indexShift).toUInt32 &&& objectPoolMask

def generation (self : ObjectHandle) : UInt32 := self.val.toUInt32

/-- `From<u64>`. -/
def ofUInt64 (value : UInt64) : ObjectHandle := ⟨value⟩

/-- `Into<u64>`. -/
def toUInt64 (self : ObjectHandle) : UInt64 := self.val

/-- The id a pool looks a handle up under. -/
def genId (self : ObjectHandle) : GenId :=
  { index := self.index, generation := self.generation }

end ObjectHandle

/-- `ObjectPool<T, ID>`. -/
structure ObjectPool (T : Type) (poolId : UInt8) where
  data : Array (Option T)
  alloc : GenAlloc

namespace ObjectPool

variable {T : Type} {poolId : UInt8}

def new [Sized (Option T)] (capacity : UInt32) : Except Fault (ObjectPool T poolId) := do
  let data ← newArray none capacity.toNat
  let alloc ← GenAlloc.new capacity objectPoolMask
  return { data, alloc }

def capacity (self : ObjectPool T poolId) : UInt32 := UInt32.ofNat self.data.size

def spawn (self : ObjectPool T poolId) (object : T) :
    Except Fault (Option ObjectHandle × ObjectPool T poolId) := do
  let (id, alloc) ← self.alloc.alloc
  match id with
  | none => return (none, { self with alloc })
  | some id =>
      let slot ← indexArray self.data id.index.toNat
      if slot.isNone then
        return (some (ObjectHandle.new poolId id),
          { data := self.data.setIfInBounds id.index.toNat (some object), alloc })
      else .error .slotOccupied

/-- `get` and `get_mut`: what the handle resolves to. -/
def get (self : ObjectPool T poolId) (handle : ObjectHandle) : Except Fault (Option T) :=
  if self.alloc.isValid handle.genId then indexArray self.data handle.index.toNat
  else return none

/-- A store through the reference `get_mut` returned for the handle. -/
def store (self : ObjectPool T poolId) (handle : ObjectHandle) (object : T) :
    ObjectPool T poolId :=
  { self with data := self.data.setIfInBounds handle.index.toNat (some object) }

def despawn (self : ObjectPool T poolId) (handle : ObjectHandle) :
    Except Fault (Bool × ObjectPool T poolId) := do
  let (freed, alloc) ← self.alloc.free handle.genId
  if freed then
    let _ ← indexArray self.data handle.index.toNat
    return (true, { data := self.data.setIfInBounds handle.index.toNat none, alloc })
  else return (false, { self with alloc })

end ObjectPool

end Hoarder
