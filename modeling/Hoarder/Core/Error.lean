/-
Module: Hoarder.Core.Error
Purpose: Error values of hoarder-common, the errno constants the connection handler distinguishes,
  and the ways in which a modelled call fails to return.
Trusted boundary: human-reviewed model
Main exports: HoarderError, Result, Errno, Errno.fromRawSyscallError, Fault
-/
import Mathlib

namespace Hoarder

/-- `HoarderError` of hoarder-common. -/
inductive HoarderError where
  | pushError
  | memAllocFail
  | bufferAllocFail
  | ioError (errno : Int32)
deriving DecidableEq, Repr

/-- `hoarder_common::error::Result`. -/
abbrev Result (α : Type) := Except HoarderError α

/-- `Errno`, a transparent wrapper of an `i32`. -/
structure Errno where
  val : Int32
deriving DecidableEq, Repr

namespace Errno

def EINTR : Errno := ⟨4⟩
def EIO : Errno := ⟨5⟩
def EBADF : Errno := ⟨9⟩
def EAGAIN : Errno := ⟨11⟩
def ENOMEM : Errno := ⟨12⟩
def EFAULT : Errno := ⟨14⟩
def EINVAL : Errno := ⟨22⟩
def ENOTSOCK : Errno := ⟨88⟩
def EOPNOTSUPP : Errno := ⟨95⟩
def EAFNOSUPPORT : Errno := ⟨97⟩
def ENETDOWN : Errno := ⟨100⟩
def ENETUNREACH : Errno := ⟨101⟩
def ENETRESET : Errno := ⟨102⟩
def ECONNABORTED : Errno := ⟨103⟩
def ECONNRESET : Errno := ⟨104⟩
def ENOBUFS : Errno := ⟨105⟩
def ENOTCONN : Errno := ⟨107⟩
def ESHUTDOWN : Errno := ⟨108⟩
def ETIMEDOUT : Errno := ⟨110⟩

/-- `from_raw_syscall_error`: the negated result.  Negation wraps, as in a build without overflow
checks. -/
def fromRawSyscallError (val : Int32) : Errno :=
  ⟨-val⟩

end Errno

/-- Why a modelled call does not return.  Every constructor but the last two names one panic of the
source; the last two are undefined behaviour, which the source reaches without a check. -/
inductive Fault where
  /-- `assert!(size > 0 && size < isize::MAX as usize)` in `Array` and `RingBuffer`. -/
  | sizeAssert
  /-- `Layout::array::<T>(size).unwrap()` in `Array` and `RingBuffer`. -/
  | layoutArray
  /-- `expect("Iterator yielded fewer elements than `size`")`. -/
  | iteratorTooShort
  /-- `buffer.push(item).unwrap()` in `RingBuffer::from_fixed_iter`. -/
  | fixedIterPush
  /-- `assert!(index < self.size)` in the `Index` implementations of `Array`. -/
  | arrayIndex
  /-- The assertions of `AlignedBuffers::new`. -/
  | layoutAssert
  /-- `assert!(index < self.count)` in `AlignedBuffers::buf_ptr`. -/
  | bufPtrIndex
  /-- The `unwrap` of `AlignedBuffers::new` in `BufferPool::new`. -/
  | bufferAlloc
  /-- `self.free_list.push(id.index).unwrap()` in `GenAlloc::free`. -/
  | freeListPush
  /-- `assert!(self.data[..].is_none())` in `ObjectPool::spawn`. -/
  | slotOccupied
  /-- `assert!(self.len < self.intents.len())` in `submit_intent`. -/
  | intentsFull
  /-- The `unwrap` of `ctx.buffers.get` in `on_recv`. -/
  | headerBuffer
  /-- `panic!("unexpected IO error encountered")` in `handle_io_error`. -/
  | unexpectedIoError
  /-- `unreachable!()`. -/
  | unreachable
  /-- `assert!(offset < buf_size)` in `complete_intent`. -/
  | recvOffset
  /-- The `unwrap` of `io_bufs.get_mut` in `complete_intent`. -/
  | recvBuffer
  /-- The `unwrap` of `conn_handler_pool.spawn` in `complete_intent`. -/
  | connHandlerSpawn
  /-- The `unwrap` of a push onto a run queue. -/
  | runQueuePush
  /-- The `unwrap` of `io.enqueue`. -/
  | enqueue
  /-- The `unwrap` of `io.submit_and_wait` in `run`. -/
  | submitAndWait
  /-- The `unwrap` of `tcp_listener_pool.spawn` in `seed_run_queue`. -/
  | listenerSpawn
  /-- `assume_init_read` of a slot that holds no value. -/
  | uninitRead
  /-- `unwrap_unchecked` on `None` in `ConnHandler::buf_handle`. -/
  | bufHandleNone
deriving DecidableEq, Repr

end Hoarder
