/-
Module: Hoarder.Core.Executor
Purpose: hoarder-blob/src/executor/mod.rs over the ring of hoarder-io/src/lib.rs.  `Executor.run` is
  taken apart into its steps: one dispatched event, one completed intent, one reaped completion, one
  switch of the queues; `machine` interleaves them with a kernel that takes submissions and posts
  completions at any time.
Trusted boundary: human-reviewed model
Main exports: Op, Sqe, Cqe, Uring, RunQueueEvent, Executor, Executor.new, Executor.setup,
  Executor.seedRunQueue, Executor.dispatch, Executor.completeIntent, Running, Running.tick,
  Running.step, Running.machine
-/
import Hoarder.Core.ConnHandler
import Hoarder.Core.TcpServer
import Hoarder.Foundation.Machine

namespace Hoarder

open Foundation

/-- The operations the executor submits.  A read also records the handle it was built from; the
kernel sees only the address, the length and the index. -/
inductive Op where
  | acceptMulti (fd : Fd)
  | readFixed (fixed : Fixed) (buf : Nat) (len : UInt32) (bufIndex : UInt16) (bufferId : BufferHandle)
  | close (fixed : Fixed)
deriving DecidableEq, Repr

/-- `squeue::Entry`. -/
structure Sqe where
  op : Op
  userData : UInt64
deriving DecidableEq, Repr

/-- `cqueue::Entry`. -/
structure Cqe where
  userData : UInt64
  result : Int32
  flags : UInt32
deriving DecidableEq, Repr

/-- `libc::iovec`. -/
structure Iovec where
  iovBase : Nat
  iovLen : Nat
deriving DecidableEq, Repr

instance : Sized Iovec := ⟨{ size := 16, align := 8 }⟩

/-- The ring as executor and kernel share it: submissions the kernel has not taken, operations it
is working on, completions not reaped, and what was registered. -/
structure Uring where
  entries : Nat
  sq : List Sqe
  inFlight : List Sqe
  cq : List Cqe
  files : UInt32
  buffers : List Iovec

namespace Uring

/-- A ring nothing was submitted to or registered with. -/
def new (entries : Nat) : Uring :=
  { entries := entries, sq := [], inFlight := [], cq := [], files := 0, buffers := [] }

/-- `UringIO::enqueue`. -/
def enqueue (self : Uring) (sqe : Sqe) : Result Uring :=
  if self.sq.length < self.entries then .ok { self with sq := self.sq ++ [sqe] }
  else .error .pushError

end Uring

/-- `RunQueueEvent`. -/
structure RunQueueEvent where
  reason : MachineEvent
  handle : ObjectHandle
deriving DecidableEq, Repr

/-! Rust fixes no layout for the types of the pools and queues: these are those of a 64-bit target. -/

instance : Sized RunQueueEvent := ⟨{ size := 24, align := 8 }⟩

instance : Sized (Option TcpServer) := ⟨{ size := 32, align := 8 }⟩

instance : Sized (Option ConnHandler) := ⟨{ size := 28, align := 4 }⟩

/-- `TCP_SERVER`. -/
def tcpServer : UInt8 := 1

/-- `CONN_HANDLER`. -/
def connHandler : UInt8 := 2

/-- `Executor`.  The slots of `intents` live only within one event, see `RunPhase`. -/
structure Executor where
  io : Uring
  tcpListenerPool : ObjectPool TcpServer tcpServer
  connHandlerPool : ObjectPool ConnHandler connHandler
  ioBufs : IoBufs
  runQueues : Fin 2 → RingBuffer RunQueueEvent
  currentRunQueue : Fin 2

namespace Executor

/-- `Executor::new`.  `raw` is the answer of the global allocator for the buffers. -/
def new (io : Uring) (listeners connHandlers bufCount : UInt32)
    (raw : Option (Nat × (Nat → UInt8))) : Except Fault Executor := do
  let runQueuesSize := connHandlers.toNat * 2
  let tcpListenerPool ← ObjectPool.new listeners
  let connHandlerPool ← ObjectPool.new connHandlers
  let ioBufs ← BufferPool.new bufCount raw
  let first ← RingBuffer.new runQueuesSize
  let second ← RingBuffer.new runQueuesSize
  let runQueues := ![first, second]
  let currentRunQueue := ⟨0, Nat.two_pos⟩
  return { io, tcpListenerPool, connHandlerPool, ioBufs, runQueues, currentRunQueue }

def nextRunQueueIdx (self : Executor) : Fin 2 := ⟨1, Nat.one_lt_two⟩ - self.currentRunQueue

def switchRunQueue (self : Executor) : Executor :=
  { self with currentRunQueue := ⟨1, Nat.one_lt_two⟩ - self.currentRunQueue }

/-- `self.run_queues[idx].push(event).unwrap()`. -/
def pushRunQueue (self : Executor) (idx : Fin 2) (event : RunQueueEvent) :
    Except Fault Executor :=
  match (self.runQueues idx).push event with
  | (.ok (), queue) => .ok { self with runQueues := Function.update self.runQueues idx queue }
  | (.error _, _) => .error .runQueuePush

/-- `self.io.enqueue(&entry).unwrap()`. -/
def enqueue (self : Executor) (sqe : Sqe) : Except Fault Executor :=
  match self.io.enqueue sqe with
  | .ok io => .ok { self with io }
  | .error _ => .error .enqueue

/-- `setup`, when the kernel accepts both registrations. -/
def setup (self : Executor) : Except Fault Executor := do
  let size := self.ioBufs.pool.count
  if size < isizeMax then
    match Layout.array Iovec size with
    | some _ =>
        let buffers ← (List.range size).mapM fun idx => do
          let address ← self.ioBufs.pool.bufPtr idx
          return { iovBase := address, iovLen := 0x1000 }
        return { self with io := { self.io with files := self.connHandlerPool.capacity, buffers } }
    | none => .error .layoutArray
  else .error .sizeAssert

def seedRunQueue (self : Executor) : Except Fault Executor := do
  let (handle, tcpListenerPool) ← self.tcpListenerPool.spawn (TcpServer.new "0.0.0.0:3000" 4096)
  let self := { self with tcpListenerPool }
  match handle with
  | some handle => self.pushRunQueue self.currentRunQueue { reason := .spawn, handle }
  | none => .error .listenerSpawn

/-- The body of the drain loop up to `complete_intent`: the machine named by the handle processes
the event; the intents it submitted are returned.  `listened` is what the operating system answers
if the event makes a listener listen. -/
def dispatch (self : Executor) (listened : Result Fd) (event : RunQueueEvent) :
    Except Fault (Executor × List MachineIntent) := do
  let ctx : ExecutorContext := { intents := [], buffers := self.ioBufs }
  if event.handle.poolId = tcpServer then
    match ← self.tcpListenerPool.get event.handle with
    | some listener =>
        let (listener, ctx) ← listener.processEvent listened ctx event.reason
        let tcpListenerPool := self.tcpListenerPool.store event.handle listener
        return ({ self with tcpListenerPool, ioBufs := ctx.buffers }, ctx.intents)
    | none => return (self, [])
  else if event.handle.poolId = connHandler then
    match ← self.connHandlerPool.get event.handle with
    | some handler =>
        let (handler, ctx) ← handler.processEvent ctx event.reason
        let connHandlerPool := self.connHandlerPool.store event.handle handler
        return ({ self with connHandlerPool, ioBufs := ctx.buffers }, ctx.intents)
    | none => return (self, [])
  else .error .unreachable

/-- The body of the loop of `complete_intent`. -/
def completeIntent (self : Executor) (handle : ObjectHandle) :
    MachineIntent → Except Fault Executor
  | .retry => self.pushRunQueue self.nextRunQueueIdx { reason := .spawn, handle }
  | .submitMultishotAccept fd =>
      self.enqueue { op := .acceptMulti fd, userData := handle.val }
  | .spawnConnHandler fixed => do
      let (spawned, connHandlerPool) ← self.connHandlerPool.spawn (ConnHandler.new fixed)
      let self := { self with connHandlerPool }
      match spawned with
      | some handle => self.pushRunQueue self.currentRunQueue { reason := .spawn, handle }
      | none => .error .connHandlerSpawn
  | .submitRecv fixed bufferId offset => do
      let offset := offset.toNat
      let bufSize := self.ioBufs.pool.bufSize
      if offset < bufSize then
        match ← self.ioBufs.getMut bufferId with
        | some address =>
            let remainingLen := UInt32.ofNat (bufSize - offset)
            self.enqueue
              { op :=
                  .readFixed fixed (address + offset) remainingLen bufferId.id.index.toUInt16
                    bufferId
                userData := handle.val }
        | none => .error .recvBuffer
      else .error .recvOffset
  | .terminate =>
      if handle.poolId = tcpServer then do
        let (_, tcpListenerPool) ← self.tcpListenerPool.despawn handle
        return { self with tcpListenerPool }
      else if handle.poolId = connHandler then do
        let (_, connHandlerPool) ← self.connHandlerPool.despawn handle
        return { self with connHandlerPool }
      else .error .unreachable
  | .closeFixed fixed => self.enqueue { op := .close fixed, userData := handle.val }

end Executor

/-- Where `Executor::run` is: draining the current queue, in `complete_intent` with the intents
still to go, in `submit_and_wait`, or draining the completion queue. -/
inductive RunPhase where
  | drain
  | completeIntent (handle : ObjectHandle) (intents : List MachineIntent)
  | submitAndWait
  | completion
deriving DecidableEq, Repr

/-- An executor inside `run`. -/
structure Running where
  executor : Executor
  phase : RunPhase

/-- A scheduling choice: a step of the executor, or of the kernel. -/
inductive RunLabel where
  | tick (listened : Result Fd)
  | take
  | complete (index : Nat) (result : Int32) (flags : UInt32) (data : List UInt8)

namespace Running

/-- One step of `run`.  `submitted` is what `submit_and_wait` answers if the step calls it. -/
def tick (self : Running) (listened : Result Fd) (submitted : Result Nat) :
    Except Fault Running :=
  let executor := self.executor
  match self.phase with
  | .drain => do
      let (event, queue) ← (executor.runQueues executor.currentRunQueue).pop
      let executor :=
        { executor with
          runQueues := Function.update executor.runQueues executor.currentRunQueue queue }
      match event with
      | some event =>
          let (executor, intents) ← executor.dispatch listened event
          return { executor, phase := .completeIntent event.handle intents }
      | none => return { executor, phase := .submitAndWait }
  | .completeIntent _ [] => return { self with phase := .drain }
  | .completeIntent handle (intent :: rest) => do
      let executor ← executor.completeIntent handle intent
      return { executor, phase := .completeIntent handle rest }
  | .submitAndWait =>
      match submitted with
      | .ok _ => return { self with phase := .completion }
      | .error _ => .error .submitAndWait
  | .completion =>
      match executor.io.cq with
      | cqe :: cq => do
          let event : RunQueueEvent :=
            { reason := .ioCompleted cqe.result cqe.flags, handle := ⟨cqe.userData⟩ }
          let executor := { executor with io := { executor.io with cq } }
          let executor ← executor.pushRunQueue executor.nextRunQueueIdx event
          return { self with executor }
      | [] => return { executor := executor.switchRunQueue, phase := .drain }

/-- Whether an operation stays in flight after a completion: only a multishot one, and only while
its completions carry the `MORE` flag. -/
def staysInFlight : Op → UInt32 → Bool
  | .acceptMulti _, flags => moreIo flags
  | _, _ => false

/-- Whether the kernel may write the data it completes an operation with, and where. -/
def writes : Op → List UInt8 → Option Nat
  | .readFixed _ buf len _ _, data => if data.length ≤ len.toNat then some buf else none
  | _, _ => none

/-- The kernel posts a completion of the operation at one place of its list.  A read may have
written bytes of its range before. -/
def complete (self : Running) (index : Nat) (result : Int32) (flags : UInt32)
    (data : List UInt8) : Option Running :=
  let io := self.executor.io
  match io.inFlight[index]? with
  | some sqe =>
      let inFlight := if staysInFlight sqe.op flags then io.inFlight else io.inFlight.eraseIdx index
      let cq := io.cq ++ [{ userData := sqe.userData, result := result, flags := flags }]
      let ioBufs :=
        match writes sqe.op data with
        | some buf => self.executor.ioBufs.writeAt buf data
        | none => self.executor.ioBufs
      some
        { self with
          executor := { self.executor with io := { io with inFlight, cq }, ioBufs } }
  | none => none

/-- One step of the system.  A step that would panic is not taken: the run ends there, as it does when
`submit_and_wait` fails.  Otherwise that returns only when a completion is available. -/
def step (self : Running) : RunLabel → Option Running
  | .tick listened =>
      if self.phase = .submitAndWait ∧ self.executor.io.cq = [] then none
      else
        match self.tick listened (.ok self.executor.io.cq.length) with
        | .ok next => some next
        | .error _ => none
  | .take =>
      match self.executor.io.sq with
      | sqe :: sq =>
          let io := self.executor.io
          some
            { self with
              executor :=
                { self.executor with io := { io with sq, inFlight := io.inFlight ++ [sqe] } } }
      | [] => none
  | .complete index result flags data => self.complete index result flags data

/-- The states before the first turn of the loop. -/
def start (entries : Nat) (listeners connHandlers bufCount : UInt32)
    (raw : Option (Nat × (Nat → UInt8))) : Except Fault Running := do
  let executor ← Executor.new (Uring.new entries) listeners connHandlers bufCount raw
  let executor ← executor.setup
  let executor ← executor.seedRunQueue
  return { executor, phase := .drain }

/-- All runs of an executor with the given pools, on a ring of any size. -/
def machine (listeners connHandlers bufCount : UInt32) : Machine Running RunLabel where
  initial s := ∃ entries raw, start entries listeners connHandlers bufCount raw = .ok s
  step := step

end Running

end Hoarder
