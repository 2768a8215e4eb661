/-
Module: Hoarder.Core.Protocol
Purpose: hoarder-blob/src/protocol/mod.rs: the events the executor delivers to its machines, the
  intents they submit, and the header of a network message.
Trusted boundary: human-reviewed model
Main exports: MachineEvent, MachineIntent, ExecutorContext, ExecutorContext.submitIntent, moreIo,
  MsgHeader, MsgHeader.readFromBytes
-/
import Hoarder.Core.Alloc

namespace Hoarder

/-- `io_uring::types::Fixed`: an index of the table of direct descriptors. -/
abbrev Fixed := UInt32

/-- `io_uring::types::Fd`. -/
abbrev Fd := Int32

/-- `MachineEvent`. -/
inductive MachineEvent where
  | spawn
  | ioCompleted (res : Int32) (flags : UInt32)
deriving DecidableEq, Repr

/-- `MachineIntent`. -/
inductive MachineIntent where
  | retry
  | terminate
  | closeFixed (fixed : Fixed)
  | spawnConnHandler (fixed : Fixed)
  | submitMultishotAccept (fd : Fd)
  | submitRecv (fixed : Fixed) (bufferId : BufferHandle) (offset : UInt16)
deriving DecidableEq, Repr

/-- `BufferPool` with its default parameters. -/
abbrev IoBufs := BufferPool 0x1000 0x1000

/-- The number of slots of the executor's `intents` array. -/
def intentSlots : Nat := 16

/-- `ExecutorContext`: the first `len` slots of `intents`, and the buffers. -/
structure ExecutorContext where
  intents : List MachineIntent
  buffers : IoBufs

/-- `submit_intent`. -/
def ExecutorContext.submitIntent (self : ExecutorContext) (intent : MachineIntent) :
    Except Fault ExecutorContext :=
  if self.intents.length < intentSlots then
    .ok { self with intents := self.intents ++ [intent] }
  else .error .intentsFull

/-- `io_uring::cqueue::more`: `IORING_CQE_F_MORE` is set. -/
def moreIo (flags : UInt32) : Bool := flags &&& 2 ≠ 0

/-- `MsgHeader`, packed. -/
structure MsgHeader where
  magic : UInt32
  cmd : UInt8
deriving DecidableEq, Repr

namespace MsgHeader

/-- `size_of::<MsgHeader>()`. -/
def size : Nat := 5

/-- `MsgHeader::read_from_bytes` on a little-endian target: defined on exactly `size` bytes. -/
def readFromBytes : List UInt8 → Option MsgHeader
  | [b0, b1, b2, b3, cmd] =>
      some
        { magic := b0.toUInt32 ||| (b1.toUInt32 <<< 8) ||| (b2.toUInt32 <<< 16) |||
            (b3.toUInt32 <<< 24)
          cmd := cmd }
  | _ => none

/-- `as_bytes` of a header, on the same target. -/
def asBytes (self : MsgHeader) : List UInt8 :=
  [self.magic.toUInt8, (self.magic >>> 8).toUInt8, (self.magic >>> 16).toUInt8,
    (self.magic >>> 24).toUInt8, self.cmd]

end MsgHeader

end Hoarder
