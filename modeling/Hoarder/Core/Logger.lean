/-
Module: Hoarder.Core.Logger
Purpose: The double-buffered logger of hoarder-log/src/lib.rs.  `push` and `consume` are split into
  their atomic operations, buffer copies and callback reads, one program counter per operation, and
  `machine` interleaves any number of pushing threads with one consuming thread in any sequentially
  consistent order.
Trusted boundary: human-reviewed model
Main exports: Logger, Logger.new, PushPc, Logger.pushStep, ConsumePc, Logger.consumeStep,
  Logger.panicFlush, LogState, LogState.step, LogState.machine
-/
import Hoarder.Core.Alloc
import Hoarder.Foundation.Machine

namespace Hoarder

open Foundation

/-- `WRITER_BIT`. -/
def writerBit : UInt16 := (1 : UInt16) <<< 8

/-- `INDEX_MASK`. -/
def indexMask : UInt16 := 1

/-- `Logger`. -/
structure Logger where
  bufs : Fin 2 → AlignedBuffers
  offsets : Fin 2 → Nat
  state : UInt16

/-- `active_buffer_idx as usize`, an index of the two-element arrays. -/
def bufIndex (idx : UInt16) : Fin 2 := Fin.ofNat 2 idx.toNat

namespace Logger

/-- `Logger::new`: the logger that producer and consumer share.  `raw` is what the global allocator
answered for each of the two buffers. -/
def new (bufSize : Nat) (raw : Fin 2 → Option (Nat × (Nat → UInt8))) :
    Except Fault (Result Logger) := do
  if bufSize < 0x1000 then .error .layoutAssert
  match ← AlignedBuffers.new 1 bufSize 0x1000 (raw 0) with
  | .error error => return .error error
  | .ok first =>
      match ← AlignedBuffers.new 1 bufSize 0x1000 (raw 1) with
      | .error error => return .error error
      | .ok second =>
          return .ok { bufs := ![first, second], offsets := fun _ => 0, state := 0 }

/-- `from_raw_parts(bufs[idx].buf_ptr(0), len)`: the first `len` bytes behind the pointer. -/
def slice (self : Logger) (idx : Fin 2) (len : Nat) : List UInt8 :=
  Memory.read (self.bufs idx).mem (self.bufs idx).ptr len

/-- `[offset..][..data.len()].copy_from_slice(data)` into one buffer. -/
def copyFromSlice (self : Logger) (idx : Fin 2) (offset : Nat) (data : List UInt8) : Logger :=
  let buf := self.bufs idx
  { self with
    bufs := Function.update self.bufs idx
      { buf with mem := Memory.write buf.mem (buf.ptr + offset) data } }

end Logger

/-- `usize::checked_add`. -/
def checkedAdd (a b : Nat) : Option Nat :=
  if a + b < usizeRange then some (a + b) else none

/-- Where a thread is in `Producer::push`: the next operation, with the local variables in scope. -/
inductive PushPc where
  | idle
  | load (data : List UInt8)
  | compareExchange (data : List UInt8) (currState : UInt16)
  | loadOffset (data : List UInt8) (active : Fin 2)
  | copy (data : List UInt8) (active : Fin 2) (offset : Nat)
  | fetchAdd (data : List UInt8) (active : Fin 2) (offset : Nat)
  | fetchAnd (data : List UInt8) (active : Fin 2) (result : Result Unit)

/-- The buffer a thread works on between its successful compare-exchange and its `fetch_and`. -/
def PushPc.section? : PushPc → Option (Fin 2)
  | .loadOffset _ active | .copy _ active _ | .fetchAdd _ active _ | .fetchAnd _ active _ =>
      some active
  | _ => none

/-- Where the consuming thread is in `Consumer::consume`. -/
inductive ConsumePc where
  | idle
  | load
  | compareExchange (currState : UInt16)
  | loadOffset (active : Fin 2)
  | callback (active : Fin 2) (offset : Nat)
  | reset (active : Fin 2)

/-- The buffer the consumer works on between its successful compare-exchange and its final store. -/
def ConsumePc.section? : ConsumePc → Option (Fin 2)
  | .loadOffset active | .callback active _ | .reset active => some active
  | _ => none

namespace Logger

/-- One operation of `push`.  `spurious` lets the weak compare-exchange fail although the words
agree.  Outside a call there is no operation to take. -/
def pushStep (self : Logger) (bufSize : Nat) (spurious : Bool) : PushPc → Option (Logger × PushPc)
  | .idle => none
  | .load data => some (self, .compareExchange data self.state)
  | .compareExchange data currState =>
      let activeBufferIdx := currState &&& indexMask
      let newState := writerBit ||| activeBufferIdx
      if self.state = currState ∧ spurious = false then
        some ({ self with state := newState }, .loadOffset data (bufIndex activeBufferIdx))
      else some (self, .load data)
  | .loadOffset data active =>
      let offset := self.offsets active
      if (checkedAdd offset data.length).elim true (fun last => last > bufSize) then
        some (self, .fetchAnd data active (.error .pushError))
      else some (self, .copy data active offset)
  | .copy data active offset =>
      some (self.copyFromSlice active offset data, .fetchAdd data active offset)
  | .fetchAdd data active _ =>
      let offset := (self.offsets active + data.length) % usizeRange
      some ({ self with offsets := Function.update self.offsets active offset },
        .fetchAnd data active (.ok ()))
  | .fetchAnd _ _ _ => some ({ self with state := self.state &&& ~~~writerBit }, .idle)

/-- One operation of `consume`.  A word with `WRITER_BIT` set sends the loop round again. -/
def consumeStep (self : Logger) (spurious : Bool) : ConsumePc → Option (Logger × ConsumePc)
  | .idle => none
  | .load =>
      if self.state &&& writerBit ≠ 0 then some (self, .load)
      else some (self, .compareExchange self.state)
  | .compareExchange currState =>
      let activeBufferIdx := currState &&& indexMask
      let newActiveBufferIdx := 1 - activeBufferIdx
      let newState := indexMask &&& newActiveBufferIdx
      if self.state = currState ∧ spurious = false then
        some ({ self with state := newState }, .loadOffset (bufIndex activeBufferIdx))
      else some (self, .load)
  | .loadOffset active =>
      let offset := self.offsets active
      if offset > 0 then some (self, .callback active offset) else some (self, .reset active)
  | .callback active _ => some (self, .reset active)
  | .reset active =>
      some ({ self with offsets := Function.update self.offsets active 0 }, .idle)

/-- `panic_flush`, taken as one step: the slices passed to the callback. -/
def panicFlush (self : Logger) : List (List UInt8) :=
  [0, 1].filterMap fun idx =>
    if self.offsets idx > 0 then some (self.slice idx (self.offsets idx)) else none

end Logger

/-- The logger with its threads.  The last three fields record the history: the pushes that have
advanced their offset, the pushes that have returned, and the slices passed to the callback. -/
structure LogState (Tid : Type) where
  logger : Logger
  bufSize : Nat
  producers : Tid → PushPc
  consumer : ConsumePc
  accepted : List (Tid × List UInt8)
  returned : List (Tid × List UInt8 × Result Unit)
  delivered : List (List UInt8)

/-- A scheduling choice. -/
inductive LogLabel (Tid : Type) where
  | invokePush (tid : Tid) (data : List UInt8)
  | push (tid : Tid) (spurious : Bool)
  | invokeConsume
  | consume (spurious : Bool)
deriving Repr

namespace LogState

variable {Tid : Type} [DecidableEq Tid]

/-- What one operation of `push` adds to the history. -/
def recordPush (s : LogState Tid) (tid : Tid) : LogState Tid :=
  match s.producers tid with
  | .fetchAdd data _ _ => { s with accepted := s.accepted ++ [(tid, data)] }
  | .fetchAnd data _ result => { s with returned := s.returned ++ [(tid, data, result)] }
  | _ => s

/-- What one operation of `consume` adds to the history. -/
def recordConsume (s : LogState Tid) : LogState Tid :=
  match s.consumer with
  | .callback active offset =>
      { s with delivered := s.delivered ++ [s.logger.slice active offset] }
  | _ => s

/-- One step of one thread. -/
def step (s : LogState Tid) : LogLabel Tid → Option (LogState Tid)
  | .invokePush tid data =>
      match s.producers tid with
      | .idle => some { s with producers := Function.update s.producers tid (.load data) }
      | _ => none
  | .push tid spurious =>
      match s.logger.pushStep s.bufSize spurious (s.producers tid) with
      | some (logger, pc) =>
          some
            { s.recordPush tid with
              logger := logger
              producers := Function.update s.producers tid pc }
      | none => none
  | .invokeConsume =>
      match s.consumer with
      | .idle => some { s with consumer := .load }
      | _ => none
  | .consume spurious =>
      match s.logger.consumeStep spurious s.consumer with
      | some (logger, pc) => some { s.recordConsume with logger := logger, consumer := pc }
      | none => none

/-- All interleavings of the threads `Tid` pushing and one thread consuming, from a new logger. -/
def machine (Tid : Type) [DecidableEq Tid] (bufSize : Nat) :
    Machine (LogState Tid) (LogLabel Tid) where
  initial s := ∃ raw logger, Logger.new bufSize raw = .ok (.ok logger) ∧
    s =
      { logger := logger, bufSize := bufSize, producers := fun _ => .idle, consumer := .idle,
        accepted := [], returned := [], delivered := [] }
  step := step

end LogState

end Hoarder
