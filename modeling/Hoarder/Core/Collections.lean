/-
Module: Hoarder.Core.Collections
Purpose: hoarder-collections/src/collections.rs: the fixed-size array and the ring buffer, as the
  code computes them.
Trusted boundary: human-reviewed model
Main exports: Layout, Sized, Layout.array, newArray, RingBuffer, RingBuffer.new,
  RingBuffer.fromFixedIter, RingBuffer.push, RingBuffer.pop, RingBuffer.drop
-/
import Hoarder.Core.Error

namespace Hoarder

/-- `isize::MAX` of a 64-bit target. -/
def isizeMax : Nat := 0x7FFFFFFFFFFFFFFF

/-- The number of `usize` values of a 64-bit target. -/
def usizeRange : Nat := 0x10000000000000000

/-- `core::alloc::Layout`. -/
structure Layout where
  size : Nat
  align : Nat
deriving DecidableEq, Repr

/-- The bound `T: Sized` of every type parameter: the layout of the type. -/
class Sized (T : Type) where
  layout : Layout

instance : Sized UInt32 := ⟨{ size := 4, align := 4 }⟩

instance : Sized (Option UInt32) := ⟨{ size := 8, align := 4 }⟩

/-- `Layout::array::<T>(n)`: `none` is a `LayoutError`. -/
def Layout.array (T : Type) [Sized T] (n : Nat) : Option Layout :=
  let element := Sized.layout T
  let limit := (isizeMax + 1 - element.align) / element.size
  if element.size ≠ 0 ∧ n > limit then none
  else some { size := element.size * n, align := element.align }

/-- An array whose bytes fit below the limit has a layout. -/
theorem Layout.array_isSome {T : Type} [Sized T] {n : Nat}
    (fits : n ≤ (isizeMax + 1 - (Sized.layout T).align) / (Sized.layout T).size) :
    (Layout.array T n).isSome := by
  have notAbove : ¬ ((Sized.layout T).size ≠ 0 ∧
      n > (isizeMax + 1 - (Sized.layout T).align) / (Sized.layout T).size) :=
    fun above => Nat.not_lt.mpr fits above.2
  simp only [Layout.array, if_neg notAbove, Option.isSome_some]

/-- `Array::new` and `Array::new_with_fn`: `size` copies of `init`.  The boxed slice itself is
Lean's `Array`. -/
def newArray {T : Type} [Sized T] (init : T) (size : Nat) : Except Fault (Array T) :=
  if 0 < size ∧ size < isizeMax then
    match Layout.array T size with
    | some _ => .ok (Array.replicate size init)
    | none => .error .layoutArray
  else .error .sizeAssert

/-- `RingBuffer`.  `ptr` is the raw memory behind the pointer; a slot that was never written, or
whose value `pop` has moved out, holds `none`. -/
structure RingBuffer (T : Type) where
  ptr : Nat → Option T
  writeIdx : Nat
  readIdx : Nat
  size : Nat
  len : Nat

namespace RingBuffer

variable {T : Type}

/-- `new`.  `MaybeUninit<T>` has the layout of `T`. -/
def new [Sized T] (size : Nat) : Except Fault (RingBuffer T) :=
  if 0 < size ∧ size < isizeMax then
    match Layout.array T size with
    | some _ =>
        .ok { ptr := fun _ => none, writeIdx := 0, readIdx := 0, size := size, len := 0 }
    | none => .error .layoutArray
  else .error .sizeAssert

def isFull (self : RingBuffer T) : Bool := self.len == self.size

def isEmpty (self : RingBuffer T) : Bool := self.len == 0

def capacity (self : RingBuffer T) : Nat := self.size

/-- `push`: the result, and the buffer after the call. -/
def push (self : RingBuffer T) (data : T) : Result Unit × RingBuffer T :=
  if !self.isFull then
    (.ok (),
      { self with
        ptr := Function.update self.ptr self.writeIdx (some data)
        writeIdx := (self.writeIdx + 1) % self.size
        len := self.len + 1 })
  else (.error .pushError, self)

/-- `pop`: moves the value out of the slot at `read_idx`.  Reading a slot that holds no value is
undefined behaviour. -/
def pop (self : RingBuffer T) : Except Fault (Option T × RingBuffer T) :=
  if !self.isEmpty then
    match self.ptr self.readIdx with
    | some data =>
        .ok (some data,
          { self with
            ptr := Function.update self.ptr self.readIdx none
            readIdx := (self.readIdx + 1) % self.size
            len := self.len - 1 })
    | none => .error .uninitRead
  else .ok (none, self)

/-- The loop of `from_fixed_iter`, with `remaining` rounds to go. -/
def fillFrom (buffer : RingBuffer T) : Nat → List T → Except Fault (RingBuffer T)
  | 0, _ => .ok buffer
  | _ + 1, [] => .error .iteratorTooShort
  | remaining + 1, item :: iter =>
      match buffer.push item with
      | (.ok (), buffer) => buffer.fillFrom remaining iter
      | (.error _, _) => .error .fixedIterPush

def fromFixedIter [Sized T] (size : Nat) (iter : List T) : Except Fault (RingBuffer T) := do
  let buffer ← RingBuffer.new size
  buffer.fillFrom size iter

/-- A pop that takes a value shortens the buffer. -/
theorem len_pop_lt {self self' : RingBuffer T} {data : T}
    (popped : self.pop = .ok (some data, self')) : self'.len < self.len := by
  unfold pop at popped
  split at popped
  · rename_i notEmpty
    split at popped <;> cases popped
    simp only [isEmpty, Bool.not_eq_true', beq_eq_false_iff_ne] at notEmpty
    exact Nat.sub_one_lt notEmpty
  · cases popped

/-- The loop of `Drop`: the values it takes, in order, and the buffer whose memory is given back. -/
def drop (self : RingBuffer T) : Except Fault (List T × RingBuffer T) :=
  match _popped : self.pop with
  | .error fault => .error fault
  | .ok (none, self') => .ok ([], self')
  | .ok (some data, self') => do
      let (rest, last) ← self'.drop
      return (data :: rest, last)
termination_by self.len
decreasing_by exact len_pop_lt _popped

end RingBuffer

end Hoarder
