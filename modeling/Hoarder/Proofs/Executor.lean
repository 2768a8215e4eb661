/-
Module: Hoarder.Proofs.Executor
Purpose: What one step of the running executor can be.  `ListenerMove` lists the outcomes of an event
  at a listener; `RunMove` lists the steps of executor and kernel, each with the state it leads to.
  Every invariant of a run is proved by cases on `RunMove`.
Trusted boundary: none
Main exports: ListenerMove, TcpServer.processEvent_move, RunMove, Running.step_move,
  Running.Dispatches, Running.intent_cases, Running.submitted_cases, Executor.new_eq_ok,
  Executor.setup_eq_ok, Executor.seedRunQueue_eq_ok, Running.start_fields, Running.dispatched?,
  Running.exists_reach_of_start, Running.acceptOne
-/
import Hoarder.Core.Executor
import Hoarder.Proofs.ConnHandler
import Hoarder.Proofs.ObjectPool

namespace Hoarder

open Foundation

/-- What `process_event` of a listener does when it returns: the listener after the event and the
intents it submitted. -/
inductive ListenerMove (self : TcpServer) (listened : Result Fd) :
    MachineEvent → TcpServer → List MachineIntent → Prop where
  | listening (fd : Fd) (start : self.state = .init) (answer : listened = .ok fd) :
      ListenerMove self listened .spawn { self with state := .accepting, listenerFd := fd }
        [.submitMultishotAccept fd]
  | refused (error : HoarderError) (start : self.state = .init)
      (answer : listened = .error error) :
      ListenerMove self listened .spawn { self with state := .error error } []
  | failed (res : Int32) (flags : UInt32) (start : self.state = .accepting)
      (negative : res < 0) :
      ListenerMove self listened (.ioCompleted res flags)
        { self with state := .error (.ioError res) } []
  | accepted (res : Int32) (flags : UInt32) (start : self.state = .accepting)
      (success : ¬ res < 0) (more : moreIo flags = true) :
      ListenerMove self listened (.ioCompleted res flags) self [.spawnConnHandler res.toUInt32]
  | rearmed (res : Int32) (flags : UInt32) (start : self.state = .accepting)
      (success : ¬ res < 0) (last : moreIo flags = false) :
      ListenerMove self listened (.ioCompleted res flags) self
        [.spawnConnHandler res.toUInt32, .submitMultishotAccept self.listenerFd]
  | ignored (res : Int32) (flags : UInt32) (error : HoarderError)
      (start : self.state = .error error) :
      ListenerMove self listened (.ioCompleted res flags) self []

/-- A listener submits nothing a connection handler submits. -/
theorem ListenerMove.notHandler {self self' : TcpServer} {listened : Result Fd}
    {event : MachineEvent} {intents : List MachineIntent}
    (move : ListenerMove self listened event self' intents) :
    (.retry ∉ intents ∧ .terminate ∉ intents) ∧ (∀ fixed, .closeFixed fixed ∉ intents) ∧
      ∀ fixed bufferId offset, .submitRecv fixed bufferId offset ∉ intents := by
  cases move <;> simp

/-- A connection handler is no listener. -/
theorem ObjectHandle.notListener {handle : ObjectHandle} (kind : handle.poolId = connHandler) :
    handle.poolId ≠ tcpServer := by
  rw [kind]
  decide

namespace TcpServer

variable {self self' : TcpServer} {listened : Result Fd} {buffers : IoBufs}
  {ctx ctx' : ExecutorContext} {event : MachineEvent}

theorem multishotAccept_eq_ok (ran : self.multishotAccept ctx = .ok ctx') :
    ctx' = { ctx with intents := ctx.intents ++ [.submitMultishotAccept self.listenerFd] } :=
  ExecutorContext.submitIntent_eq_ok ran

/-- Every return of a listener's `process_event` is one of the moves, and leaves the buffers. -/
theorem processEvent_move
    (ran : self.processEvent listened ⟨[], buffers⟩ event = .ok (self', ctx')) :
    ListenerMove self listened event self' ctx'.intents ∧ ctx'.buffers = buffers := by
  cases event with
  | spawn =>
      simp only [processEvent] at ran
      split at ran
      · rename_i start
        cases listened with
        | ok fd =>
            obtain ⟨submitted, ranAccept, ran⟩ := Outcome.bind_eq_ok.mp ran
            obtain rfl := multishotAccept_eq_ok ranAccept
            cases ran
            exact ⟨.listening fd start rfl, rfl⟩
        | error error =>
            cases ran
            exact ⟨.refused error start rfl, rfl⟩
      · cases ran
  | ioCompleted res flags =>
      simp only [processEvent] at ran
      split at ran
      · rename_i start
        split at ran
        · rename_i negative
          cases ran
          exact ⟨.failed res flags start negative, rfl⟩
        · rename_i success
          obtain ⟨spawning, ranSpawn, ran⟩ := Outcome.bind_eq_ok.mp ran
          obtain rfl := ExecutorContext.submitIntent_eq_ok ranSpawn
          split at ran
          · rename_i more
            cases ran
            exact ⟨.accepted res flags start success more, rfl⟩
          · rename_i last
            obtain ⟨submitted, ranAccept, ran⟩ := Outcome.bind_eq_ok.mp ran
            obtain rfl := multishotAccept_eq_ok ranAccept
            cases ran
            exact ⟨.rearmed res flags start success (by simpa using last), rfl⟩
      · rename_i error start
        cases ran
        exact ⟨.ignored res flags error start, rfl⟩
      · cases ran

/-- The listener takes the event: `Spawn` in `Init`, and only there. -/
def Expects (self : TcpServer) (event : MachineEvent) : Prop :=
  event = .spawn ↔ self.state = .init

/-- A listener has no other faults than a handler, and one that takes the event has an arm for
it. -/
theorem processEvent_ne_error {bad : Fault} (unusual : bad ∉ ConnHandler.faults)
    (taken : bad = .unreachable → self.Expects event) :
    self.processEvent listened ctx event ≠ .error bad := by
  have submits : ∀ (ctx : ExecutorContext) (intent : MachineIntent),
      ctx.submitIntent intent ≠ .error bad := ConnHandler.submitIntent_ne_error unusual
  cases event with
  | spawn =>
      simp only [processEvent]
      split
      · cases listened with
        | ok fd => exact Outcome.bind_ne_error (submits _ _) (by simp)
        | error error => simp [listen]
      · rename_i notInit
        intro same
        cases same
        exact notInit ((taken rfl).mp rfl)
  | ioCompleted res flags =>
      simp only [processEvent]
      split
      · split
        · simp
        · apply Outcome.bind_ne_error (submits _ _)
          intro spawning _
          split
          · simp
          · exact Outcome.bind_ne_error (submits _ _) (by simp)
      · simp
      · rename_i start
        intro same
        cases same
        exact absurd ((taken rfl).mpr start) (by simp)

end TcpServer

namespace Executor

/-- The executor after a `pop` of the current queue that left `queue`. -/
def popped (self : Executor) (queue : RingBuffer RunQueueEvent) : Executor :=
  { self with runQueues := Function.update self.runQueues self.currentRunQueue queue }

/-- The executor after a submission. -/
def submitted (self : Executor) (sqe : Sqe) : Executor :=
  { self with io := { self.io with sq := self.io.sq ++ [sqe] } }

/-- The executor after a push onto a queue that left `queue`. -/
def pushed (self : Executor) (idx : Fin 2) (queue : RingBuffer RunQueueEvent) : Executor :=
  { self with runQueues := Function.update self.runQueues idx queue }

/-- The machine a handle names is gone: the event is dropped. -/
def Missing (self : Executor) (handle : ObjectHandle) : Prop :=
  (handle.poolId = tcpServer ∧ self.tcpListenerPool.get handle = .ok none) ∨
    (handle.poolId = connHandler ∧ self.connHandlerPool.get handle = .ok none)

variable {self self' : Executor} {handle : ObjectHandle} {sqe : Sqe} {idx : Fin 2}
  {event : RunQueueEvent} {listened : Result Fd} {intents : List MachineIntent}

theorem enqueue_eq_ok (ran : self.enqueue sqe = .ok self') : self' = self.submitted sqe := by
  unfold enqueue Uring.enqueue at ran
  split at ran
  · rename_i room
    split at room <;> cases room
    cases ran
    rfl
  · cases ran

theorem pushRunQueue_eq_ok (ran : self.pushRunQueue idx event = .ok self') :
    ∃ queue, (self.runQueues idx).push event = (.ok (), queue) ∧ self' = self.pushed idx queue := by
  unfold pushRunQueue at ran
  split at ran
  · rename_i queue room
    cases ran
    exact ⟨queue, room, rfl⟩
  · cases ran

/-- The parts of a new executor. -/
theorem new_eq_ok {io : Uring} {listeners connHandlers bufCount : UInt32}
    {raw : Option (Nat × (Nat → UInt8))}
    (ran : Executor.new io listeners connHandlers bufCount raw = .ok self) :
    ∃ tcpListenerPool connHandlerPool ioBufs queue,
      ObjectPool.new listeners = .ok tcpListenerPool ∧
      ObjectPool.new connHandlers = .ok connHandlerPool ∧ BufferPool.new bufCount raw = .ok ioBufs ∧
      RingBuffer.new (connHandlers.toNat * 2) = .ok queue ∧
      self =
        { io, tcpListenerPool, connHandlerPool, ioBufs, runQueues := ![queue, queue]
          currentRunQueue := 0 } := by
  obtain ⟨tcpListenerPool, listenersMade, ran⟩ := Outcome.bind_eq_ok.mp ran
  obtain ⟨connHandlerPool, handlersMade, ran⟩ := Outcome.bind_eq_ok.mp ran
  obtain ⟨ioBufs, bufsMade, ran⟩ := Outcome.bind_eq_ok.mp ran
  obtain ⟨queue, queueMade, ran⟩ := Outcome.bind_eq_ok.mp ran
  obtain ⟨second, secondMade, ran⟩ := Outcome.bind_eq_ok.mp ran
  rw [queueMade] at secondMade
  cases secondMade
  cases ran
  exact ⟨tcpListenerPool, connHandlerPool, ioBufs, queue, listenersMade, handlersMade, bufsMade,
    queueMade, rfl⟩

/-- `setup` registers a direct descriptor for each handler, and the buffers. -/
theorem setup_eq_ok (ran : self.setup = .ok self') :
    ∃ buffers,
      ((List.range self.ioBufs.pool.count).mapM fun idx => do
        let address ← self.ioBufs.pool.bufPtr idx
        return ({ iovBase := address, iovLen := 0x1000 } : Iovec)) = .ok buffers ∧
      self' = { self with io := { self.io with files := self.connHandlerPool.capacity, buffers } } := by
  simp only [setup] at ran
  split at ran
  case isFalse => cases ran
  split at ran
  · obtain ⟨buffers, located, ran⟩ := Outcome.bind_eq_ok.mp ran
    cases ran
    exact ⟨buffers, located, rfl⟩
  · cases ran

/-- `seed_run_queue` spawns the listener and pushes its first event. -/
theorem seedRunQueue_eq_ok (ran : self.seedRunQueue = .ok self') :
    ∃ handle tcpListenerPool queue,
      self.tcpListenerPool.spawn (TcpServer.new "0.0.0.0:3000" 4096) =
        .ok (some handle, tcpListenerPool) ∧
      (self.runQueues self.currentRunQueue).push ⟨.spawn, handle⟩ = (.ok (), queue) ∧
      self' = { self with tcpListenerPool }.pushed self.currentRunQueue queue := by
  obtain ⟨⟨answer, tcpListenerPool⟩, spawn, ran⟩ := Outcome.bind_eq_ok.mp ran
  cases answer with
  | none => cases ran
  | some handle =>
      obtain ⟨queue, push, rfl⟩ := pushRunQueue_eq_ok ran
      exact ⟨handle, tcpListenerPool, queue, spawn, push, rfl⟩

theorem enqueue_error {fault : Fault} (failed : self.enqueue sqe = .error fault) :
    fault = .enqueue := by
  unfold enqueue at failed
  split at failed <;> cases failed
  rfl

/-- A push fails on a full queue only. -/
theorem pushRunQueue_error {fault : Fault} (wf : (self.runQueues idx).WF)
    (failed : self.pushRunQueue idx event = .error fault) :
    fault = .runQueuePush ∧ (self.runQueues idx).contents.length = (self.runQueues idx).size := by
  rcases Nat.lt_or_ge (self.runQueues idx).contents.length (self.runQueues idx).size with room | full
  · obtain ⟨queue, push, _⟩ := RingBuffer.push_spec wf room event
    rw [pushRunQueue, push] at failed
    cases failed
  · have same := Nat.le_antisymm wf.length_le full
    rw [pushRunQueue, RingBuffer.push_full wf same] at failed
    cases failed
    exact ⟨rfl, same⟩

/-- The read that completing a receive submits. -/
theorem submitRecv_eq_ok {fixed : Fixed} {bufferId : BufferHandle} {offset : UInt16}
    (ran : self.completeIntent handle (.submitRecv fixed bufferId offset) = .ok self') :
    ∃ address, offset.toNat < self.ioBufs.pool.bufSize ∧
      self.ioBufs.getMut bufferId = .ok (some address) ∧
      self' = self.submitted
        { op :=
            .readFixed fixed (address + offset.toNat)
              (UInt32.ofNat (self.ioBufs.pool.bufSize - offset.toNat)) bufferId.id.index.toUInt16
              bufferId
          userData := handle.val } := by
  simp only [completeIntent] at ran
  split at ran
  · rename_i inside
    obtain ⟨answer, resolved, ran⟩ := Outcome.bind_eq_ok.mp ran
    cases answer with
    | none => cases ran
    | some address => exact ⟨address, inside, resolved, enqueue_eq_ok ran⟩
  · cases ran

/-- Why completing a receive fails. -/
theorem submitRecv_error {fixed : Fixed} {bufferId : BufferHandle} {offset : UInt16} {fault : Fault}
    (failed : self.completeIntent handle (.submitRecv fixed bufferId offset) = .error fault) :
    (fault = .recvOffset ∧ ¬ offset.toNat < self.ioBufs.pool.bufSize) ∨
      (fault = .recvBuffer ∧ self.ioBufs.isValid bufferId = false) ∨
      fault = .bufPtrIndex ∨ fault = .enqueue := by
  simp only [completeIntent] at failed
  split at failed
  · rcases Outcome.bind_eq_error.mp failed with failed | ⟨answer, resolved, failed⟩
    · exact .inr (.inr (.inl (BufferPool.getMut_error failed)))
    · cases answer with
      | none =>
          cases failed
          rcases BufferPool.getMut_inv resolved with ⟨invalid, _⟩ | ⟨_, _, some⟩
          · exact .inr (.inl ⟨rfl, invalid⟩)
          · cases some
      | some address => exact .inr (.inr (.inr (enqueue_error failed)))
  · rename_i outside
    cases failed
    exact .inl ⟨rfl, outside⟩

/-- A dispatched event goes to a listener, to a connection handler, or to nobody. -/
theorem dispatch_cases (ran : self.dispatch listened event = .ok (self', intents)) :
    (self.Missing event.handle ∧ self' = self ∧ intents = []) ∨
      (∃ listener listener', event.handle.poolId = tcpServer ∧
        self.tcpListenerPool.get event.handle = .ok (some listener) ∧
        ListenerMove listener listened event.reason listener' intents ∧
        self' =
          { self with tcpListenerPool := self.tcpListenerPool.store event.handle listener' }) ∨
      ∃ handler handler' buffers, event.handle.poolId = connHandler ∧
        self.connHandlerPool.get event.handle = .ok (some handler) ∧
        ConnMove handler self.ioBufs event.reason handler' buffers intents ∧
        self' =
          { self with
            connHandlerPool := self.connHandlerPool.store event.handle handler'
            ioBufs := buffers } := by
  simp only [dispatch] at ran
  split at ran
  · rename_i listening
    obtain ⟨found, resolved, ran⟩ := Outcome.bind_eq_ok.mp ran
    split at ran
    · rename_i listener
      obtain ⟨⟨listener', ctx⟩, processed, ran⟩ := Outcome.bind_eq_ok.mp ran
      obtain ⟨move, sameBuffers⟩ := TcpServer.processEvent_move processed
      cases ran
      refine .inr (.inl ⟨listener, listener', listening, resolved, move, ?_⟩)
      rw [sameBuffers]
    · cases ran
      exact .inl ⟨.inl ⟨listening, resolved⟩, rfl, rfl⟩
  · split at ran
    · rename_i handling
      obtain ⟨found, resolved, ran⟩ := Outcome.bind_eq_ok.mp ran
      split at ran
      · rename_i handler
        obtain ⟨⟨handler', ctx⟩, processed, ran⟩ := Outcome.bind_eq_ok.mp ran
        have move := ConnHandler.processEvent_move processed
        cases ran
        exact .inr (.inr ⟨handler, handler', ctx.buffers, handling, resolved, move, rfl⟩)
      · cases ran
        exact .inl ⟨.inr ⟨handling, resolved⟩, rfl, rfl⟩
    · cases ran

end Executor

namespace Running

/-- What an intent submits to the ring, if it submits anything. -/
inductive Submits (e : Executor) (handle : ObjectHandle) : MachineIntent → Sqe → Prop where
  | accept (fd : Fd) :
      Submits e handle (.submitMultishotAccept fd)
        { op := .acceptMulti fd, userData := handle.val }
  | recv (fixed : Fixed) (bufferId : BufferHandle) (offset : UInt16) (address : Nat)
      (inside : offset.toNat < e.ioBufs.pool.bufSize)
      (resolved : e.ioBufs.getMut bufferId = .ok (some address)) :
      Submits e handle (.submitRecv fixed bufferId offset)
        { op :=
            .readFixed fixed (address + offset.toNat)
              (UInt32.ofNat (e.ioBufs.pool.bufSize - offset.toNat)) bufferId.id.index.toUInt16
              bufferId
          userData := handle.val }
  | close (fixed : Fixed) :
      Submits e handle (.closeFixed fixed) { op := .close fixed, userData := handle.val }

end Running

/-- A step of executor or kernel, and the state it leads to. -/
inductive RunMove (s : Running) : RunLabel → Running → Prop where
  | missing (listened : Result Fd) (event : RunQueueEvent) (queue : RingBuffer RunQueueEvent)
      (phase : s.phase = .drain)
      (pop : (s.executor.runQueues s.executor.currentRunQueue).pop = .ok (some event, queue))
      (absent : s.executor.Missing event.handle) :
      RunMove s (.tick listened)
        { executor := s.executor.popped queue, phase := .completeIntent event.handle [] }
  | listener (listened : Result Fd) (event : RunQueueEvent) (queue : RingBuffer RunQueueEvent)
      (listener listener' : TcpServer) (intents : List MachineIntent) (phase : s.phase = .drain)
      (pop : (s.executor.runQueues s.executor.currentRunQueue).pop = .ok (some event, queue))
      (kind : event.handle.poolId = tcpServer)
      (found : s.executor.tcpListenerPool.get event.handle = .ok (some listener))
      (move : ListenerMove listener listened event.reason listener' intents) :
      RunMove s (.tick listened)
        { executor :=
            { s.executor.popped queue with
              tcpListenerPool := s.executor.tcpListenerPool.store event.handle listener' }
          phase := .completeIntent event.handle intents }
  | handler (listened : Result Fd) (event : RunQueueEvent) (queue : RingBuffer RunQueueEvent)
      (handler handler' : ConnHandler) (buffers : IoBufs) (intents : List MachineIntent)
      (phase : s.phase = .drain)
      (pop : (s.executor.runQueues s.executor.currentRunQueue).pop = .ok (some event, queue))
      (kind : event.handle.poolId = connHandler)
      (found : s.executor.connHandlerPool.get event.handle = .ok (some handler))
      (move : ConnMove handler s.executor.ioBufs event.reason handler' buffers intents) :
      RunMove s (.tick listened)
        { executor :=
            { s.executor.popped queue with
              connHandlerPool := s.executor.connHandlerPool.store event.handle handler'
              ioBufs := buffers }
          phase := .completeIntent event.handle intents }
  | drained (listened : Result Fd) (queue : RingBuffer RunQueueEvent) (phase : s.phase = .drain)
      (pop : (s.executor.runQueues s.executor.currentRunQueue).pop = .ok (none, queue)) :
      RunMove s (.tick listened)
        { executor := s.executor.popped queue, phase := .submitAndWait }
  | finished (listened : Result Fd) (handle : ObjectHandle)
      (phase : s.phase = .completeIntent handle []) :
      RunMove s (.tick listened) { s with phase := .drain }
  | retry (listened : Result Fd) (handle : ObjectHandle) (rest : List MachineIntent)
      (queue : RingBuffer RunQueueEvent) (phase : s.phase = .completeIntent handle (.retry :: rest))
      (push : (s.executor.runQueues s.executor.nextRunQueueIdx).push ⟨.spawn, handle⟩ =
        (.ok (), queue)) :
      RunMove s (.tick listened)
        { executor := s.executor.pushed s.executor.nextRunQueueIdx queue
          phase := .completeIntent handle rest }
  | submit (listened : Result Fd) (handle : ObjectHandle) (intent : MachineIntent)
      (rest : List MachineIntent) (sqe : Sqe)
      (phase : s.phase = .completeIntent handle (intent :: rest))
      (submits : Running.Submits s.executor handle intent sqe) :
      RunMove s (.tick listened)
        { executor := s.executor.submitted sqe, phase := .completeIntent handle rest }
  | spawned (listened : Result Fd) (handle : ObjectHandle) (fixed : Fixed)
      (rest : List MachineIntent) (fresh : ObjectHandle)
      (pool : ObjectPool ConnHandler connHandler) (queue : RingBuffer RunQueueEvent)
      (phase : s.phase = .completeIntent handle (.spawnConnHandler fixed :: rest))
      (spawn : s.executor.connHandlerPool.spawn (ConnHandler.new fixed) = .ok (some fresh, pool))
      (push : (s.executor.runQueues s.executor.currentRunQueue).push ⟨.spawn, fresh⟩ =
        (.ok (), queue)) :
      RunMove s (.tick listened)
        { executor :=
            { s.executor.pushed s.executor.currentRunQueue queue with connHandlerPool := pool }
          phase := .completeIntent handle rest }
  | terminateListener (listened : Result Fd) (handle : ObjectHandle) (rest : List MachineIntent)
      (freed : Bool) (pool : ObjectPool TcpServer tcpServer)
      (phase : s.phase = .completeIntent handle (.terminate :: rest))
      (kind : handle.poolId = tcpServer)
      (despawn : s.executor.tcpListenerPool.despawn handle = .ok (freed, pool)) :
      RunMove s (.tick listened)
        { executor := { s.executor with tcpListenerPool := pool }
          phase := .completeIntent handle rest }
  | terminate (listened : Result Fd) (handle : ObjectHandle) (rest : List MachineIntent)
      (freed : Bool) (pool : ObjectPool ConnHandler connHandler)
      (phase : s.phase = .completeIntent handle (.terminate :: rest))
      (kind : handle.poolId = connHandler)
      (despawn : s.executor.connHandlerPool.despawn handle = .ok (freed, pool)) :
      RunMove s (.tick listened)
        { executor := { s.executor with connHandlerPool := pool }
          phase := .completeIntent handle rest }
  | wait (listened : Result Fd) (phase : s.phase = .submitAndWait)
      (available : s.executor.io.cq ≠ []) :
      RunMove s (.tick listened) { s with phase := .completion }
  | reap (listened : Result Fd) (cqe : Cqe) (cq : List Cqe) (queue : RingBuffer RunQueueEvent)
      (phase : s.phase = .completion) (posted : s.executor.io.cq = cqe :: cq)
      (push : (s.executor.runQueues s.executor.nextRunQueueIdx).push
        ⟨.ioCompleted cqe.result cqe.flags, ⟨cqe.userData⟩⟩ = (.ok (), queue)) :
      RunMove s (.tick listened)
        { executor :=
            { s.executor.pushed s.executor.nextRunQueueIdx queue with
              io := { s.executor.io with cq } }
          phase := .completion }
  | switch (listened : Result Fd) (phase : s.phase = .completion)
      (reaped : s.executor.io.cq = []) :
      RunMove s (.tick listened) { executor := s.executor.switchRunQueue, phase := .drain }
  | take (sqe : Sqe) (sq : List Sqe) (submitted : s.executor.io.sq = sqe :: sq) :
      RunMove s .take
        { s with
          executor :=
            { s.executor with
              io := { s.executor.io with sq, inFlight := s.executor.io.inFlight ++ [sqe] } } }
  | complete (index : Nat) (result : Int32) (flags : UInt32) (data : List UInt8) (sqe : Sqe)
      (ioBufs : IoBufs) (working : s.executor.io.inFlight[index]? = some sqe)
      (written : ioBufs = s.executor.ioBufs ∨
        ∃ buf, Running.writes sqe.op data = some buf ∧
          ioBufs = s.executor.ioBufs.writeAt buf data) :
      RunMove s (.complete index result flags data)
        { s with
          executor :=
            { s.executor with
              io :=
                { s.executor.io with
                  inFlight :=
                    if Running.staysInFlight sqe.op flags then s.executor.io.inFlight
                    else s.executor.io.inFlight.eraseIdx index
                  cq := s.executor.io.cq ++ [⟨sqe.userData, result, flags⟩] }
              ioBufs := ioBufs } }

namespace Running

variable {s s' : Running} {label : RunLabel}

theorem completeIntent_move {handle : ObjectHandle} {intent : MachineIntent}
    {rest : List MachineIntent} {executor : Executor} (listened : Result Fd)
    (phase : s.phase = .completeIntent handle (intent :: rest))
    (ran : s.executor.completeIntent handle intent = .ok executor) :
    RunMove s (.tick listened)
      { executor := executor, phase := .completeIntent handle rest } := by
  cases intent with
  | retry =>
      obtain ⟨queue, push, rfl⟩ := Executor.pushRunQueue_eq_ok ran
      exact .retry listened handle rest queue phase push
  | submitMultishotAccept fd =>
      obtain rfl := Executor.enqueue_eq_ok ran
      exact .submit listened handle _ rest _ phase (.accept fd)
  | spawnConnHandler fixed =>
      obtain ⟨⟨answer, pool⟩, spawn, ran⟩ := Outcome.bind_eq_ok.mp ran
      cases answer with
      | none => cases ran
      | some fresh =>
          obtain ⟨queue, push, rfl⟩ := Executor.pushRunQueue_eq_ok ran
          exact .spawned listened handle fixed rest fresh pool queue phase spawn push
  | submitRecv fixed bufferId offset =>
      obtain ⟨address, inside, resolved, rfl⟩ := Executor.submitRecv_eq_ok ran
      exact .submit listened handle _ rest _ phase
        (.recv fixed bufferId offset address inside resolved)
  | terminate =>
      simp only [Executor.completeIntent] at ran
      split at ran
      · rename_i kind
        obtain ⟨⟨freed, pool⟩, despawn, ran⟩ := Outcome.bind_eq_ok.mp ran
        cases ran
        exact .terminateListener listened handle rest freed pool phase kind despawn
      · split at ran
        · rename_i kind
          obtain ⟨⟨freed, pool⟩, despawn, ran⟩ := Outcome.bind_eq_ok.mp ran
          cases ran
          exact .terminate listened handle rest freed pool phase kind despawn
        · cases ran
  | closeFixed fixed =>
      obtain rfl := Executor.enqueue_eq_ok ran
      exact .submit listened handle _ rest _ phase (.close fixed)

theorem tick_move (listened : Result Fd) {submitted : Result Nat}
    (ready : ¬ (s.phase = .submitAndWait ∧ s.executor.io.cq = []))
    (ran : s.tick listened submitted = .ok s') : RunMove s (.tick listened) s' := by
  simp only [tick] at ran
  split at ran
  · rename_i phase
    obtain ⟨⟨event, queue⟩, pop, ran⟩ := Outcome.bind_eq_ok.mp ran
    cases event with
    | none =>
        cases ran
        exact .drained listened queue phase pop
    | some event =>
        obtain ⟨⟨executor, intents⟩, dispatched, ran⟩ := Outcome.bind_eq_ok.mp ran
        cases ran
        rcases Executor.dispatch_cases dispatched with
          ⟨absent, rfl, rfl⟩ | ⟨listener, listener', kind, found, move, rfl⟩ |
            ⟨handler, handler', buffers, kind, found, move, rfl⟩
        · exact .missing listened event queue phase pop absent
        · exact .listener listened event queue listener listener' intents phase pop kind found move
        · exact .handler listened event queue handler handler' buffers intents phase pop kind found
            move
  · rename_i handle phase
    cases ran
    exact .finished listened handle phase
  · rename_i handle intent rest phase
    obtain ⟨executor, completed, ran⟩ := Outcome.bind_eq_ok.mp ran
    cases ran
    exact completeIntent_move listened phase completed
  · rename_i phase
    split at ran <;> cases ran
    exact .wait listened phase fun none => ready ⟨phase, none⟩
  · rename_i phase
    split at ran
    · rename_i cqe cq posted
      obtain ⟨executor, pushedRan, ran⟩ := Outcome.bind_eq_ok.mp ran
      obtain ⟨queue, push, rfl⟩ := Executor.pushRunQueue_eq_ok pushedRan
      cases ran
      rw [phase]
      exact .reap listened cqe cq queue phase posted push
    · rename_i reaped
      cases ran
      exact .switch listened phase reaped

/-- Only the turn that waits looks at what `submit_and_wait` answers. -/
theorem tick_busy (busy : s.phase ≠ .submitAndWait) (listened : Result Fd)
    (submitted submitted' : Result Nat) : s.tick listened submitted = s.tick listened submitted' := by
  unfold tick
  split <;> first | rfl | contradiction

/-- Every step is one of the moves. -/
theorem step_move (stepped : s.step label = some s') : RunMove s label s' := by
  cases label with
  | tick listened =>
      simp only [step] at stepped
      split at stepped
      · cases stepped
      · rename_i ready
        split at stepped <;> cases stepped
        rename_i ran
        exact tick_move listened ready ran
  | take =>
      simp only [step] at stepped
      split at stepped <;> cases stepped
      rename_i sqe sq submitted
      exact .take sqe sq submitted
  | complete index result flags data =>
      simp only [step, complete] at stepped
      split at stepped <;> cases stepped
      rename_i sqe working
      refine .complete index result flags data sqe _ working ?_
      split
      · rename_i buf written
        exact .inr ⟨buf, written, rfl⟩
      · exact .inl rfl

/-- The step hands an event to a connection handler. -/
structure Dispatches (s : Running) (label : RunLabel) (event : RunQueueEvent)
    (handler : ConnHandler) : Prop where
  tick : ∃ listened, label = .tick listened
  phase : s.phase = .drain
  pop : ∃ queue,
    (s.executor.runQueues s.executor.currentRunQueue).pop = .ok (some event, queue)
  kind : event.handle.poolId = connHandler
  found : s.executor.connHandlerPool.get event.handle = .ok (some handler)

/-- The intents after a step: left over from before, or just submitted by a listener or by a
connection handler. -/
theorem intent_cases (move : RunMove s label s') {handle : ObjectHandle}
    {intents : List MachineIntent} (phase' : s'.phase = .completeIntent handle intents)
    (nonempty : intents ≠ []) :
    ((s.phase = .completeIntent handle intents ∨
        ∃ intent, s.phase = .completeIntent handle (intent :: intents)) ∧
      s'.executor.ioBufs.genAlloc = s.executor.ioBufs.genAlloc) ∨
    (∃ listener listener' listened event, ListenerMove listener listened event listener' intents) ∨
    ∃ event handler handler', event.handle = handle ∧ s.Dispatches label event handler ∧
      ConnMove handler s.executor.ioBufs event.reason handler' s'.executor.ioBufs intents := by
  cases move with
  | missing listened event queue phase pop absent =>
      cases phase'
      exact absurd rfl nonempty
  | listener listened event queue listener listener' more phase pop kind found move =>
      cases phase'
      exact .inr (.inl ⟨listener, listener', listened, event.reason, move⟩)
  | handler listened event queue handler handler' buffers more phase pop kind found move =>
      cases phase'
      exact .inr (.inr ⟨event, handler, handler', rfl,
        ⟨⟨listened, rfl⟩, phase, ⟨queue, pop⟩, kind, found⟩, move⟩)
  | retry listened other rest queue phase push =>
      cases phase'
      exact .inl ⟨.inr ⟨_, phase⟩, rfl⟩
  | submit listened other intent rest sqe phase submits =>
      cases phase'
      exact .inl ⟨.inr ⟨_, phase⟩, rfl⟩
  | spawned listened other fixed rest fresh pool queue phase spawn push =>
      cases phase'
      exact .inl ⟨.inr ⟨_, phase⟩, rfl⟩
  | terminateListener listened other rest freed pool phase kind despawn =>
      cases phase'
      exact .inl ⟨.inr ⟨_, phase⟩, rfl⟩
  | terminate listened other rest freed pool phase kind despawn =>
      cases phase'
      exact .inl ⟨.inr ⟨_, phase⟩, rfl⟩
  | take sqe sq submitted => exact .inl ⟨.inl phase', rfl⟩
  | complete index result flags data sqe ioBufs working written =>
      refine .inl ⟨.inl phase', ?_⟩
      rcases written with rfl | ⟨_, _, rfl⟩ <;> rfl
  | drained | finished | wait | reap | switch => cases phase'

/-- The operations after a step: there before, or just submitted. -/
theorem submitted_cases (move : RunMove s label s') {sqe : Sqe}
    (member : sqe ∈ s'.executor.io.sq ++ s'.executor.io.inFlight) :
    sqe ∈ s.executor.io.sq ++ s.executor.io.inFlight ∨
      ∃ handle intent rest, s.phase = .completeIntent handle (intent :: rest) ∧
        Submits s.executor handle intent sqe := by
  cases move with
  | submit listened handle intent rest other phase submits =>
      simp only [Executor.submitted, List.mem_append, List.mem_singleton] at member ⊢
      rcases member with (member | rfl) | member
      · exact .inl (.inl member)
      · exact .inr ⟨handle, intent, rest, phase, submits⟩
      · exact .inl (.inr member)
  | take other sq submitted =>
      simp only [submitted, List.mem_append, List.mem_cons, List.not_mem_nil] at member ⊢
      tauto
  | complete index result flags data other ioBufs working written =>
      refine .inl ?_
      simp only [List.mem_append] at member ⊢
      apply member.imp_right
      intro member
      split at member
      · exact member
      · exact List.mem_of_mem_eraseIdx member
  | missing | listener | handler | drained | finished | retry | spawned | terminateListener
  | terminate | wait | reap | switch => exact .inl member

/-- A step that hands an event to a handler is the move of that handler, and leaves the ring. -/
theorem Dispatches.move {event : RunQueueEvent} {handler : ConnHandler}
    (dispatches : s.Dispatches label event handler) (move : RunMove s label s') :
    ∃ handler' intents,
      ConnMove handler s.executor.ioBufs event.reason handler' s'.executor.ioBufs intents ∧
        s'.phase = .completeIntent event.handle intents ∧ s'.executor.io = s.executor.io := by
  obtain ⟨⟨listened, rfl⟩, draining, ⟨queue, pop⟩, kind, found⟩ := dispatches
  have wrongPhase : ∀ {P : Prop} {phase : RunPhase}, s.phase = phase → phase ≠ .drain → P := by
    intro P phase before other
    exact absurd (before.symm.trans draining) other
  cases move with
  | missing _ _ _ _ pop' absent =>
      rw [pop] at pop'
      cases pop'
      rcases absent with ⟨listening, _⟩ | ⟨_, none⟩
      · exact absurd listening (ObjectHandle.notListener kind)
      · rw [found] at none
        cases none
  | listener _ _ _ _ _ _ _ pop' listening =>
      rw [pop] at pop'
      cases pop'
      exact absurd listening (ObjectHandle.notListener kind)
  | handler _ _ _ _ handler' _ intents _ pop' _ found' move =>
      rw [pop] at pop'
      cases pop'
      rw [found] at found'
      cases found'
      exact ⟨handler', intents, move, rfl, rfl⟩
  | drained _ _ _ pop' =>
      rw [pop] at pop'
      cases pop'
  | finished _ _ phase => exact wrongPhase phase (by simp)
  | retry _ _ _ _ phase => exact wrongPhase phase (by simp)
  | submit _ _ _ _ _ phase => exact wrongPhase phase (by simp)
  | spawned _ _ _ _ _ _ _ phase => exact wrongPhase phase (by simp)
  | terminateListener _ _ _ _ _ phase => exact wrongPhase phase (by simp)
  | terminate _ _ _ _ _ phase => exact wrongPhase phase (by simp)
  | wait _ phase => exact wrongPhase phase (by simp)
  | reap _ _ _ _ phase => exact wrongPhase phase (by simp)
  | switch _ phase => exact wrongPhase phase (by simp)

/-- The executor before the first turn of the loop: pools as new, one listener, one event. -/
theorem start_fields {entries : Nat} {listeners connHandlers bufCount : UInt32}
    {raw : Option (Nat × (Nat → UInt8))}
    (started : start entries listeners connHandlers bufCount raw = .ok s) :
    s.phase = .drain ∧ ObjectPool.new connHandlers = .ok s.executor.connHandlerPool ∧
      BufferPool.new bufCount raw = .ok s.executor.ioBufs ∧
      s.executor.io.sq = [] ∧ s.executor.io.inFlight = [] ∧ s.executor.io.cq = [] ∧
      s.executor.io.files = s.executor.connHandlerPool.capacity ∧
      s.executor.currentRunQueue = 0 ∧
      ∃ pool handle queue first,
        ObjectPool.new listeners = .ok pool ∧
        pool.spawn (TcpServer.new "0.0.0.0:3000" 4096) =
          .ok (some handle, s.executor.tcpListenerPool) ∧
        RingBuffer.new (connHandlers.toNat * 2) = .ok queue ∧
        queue.push ⟨.spawn, handle⟩ = (.ok (), first) ∧
        s.executor.runQueues = ![first, queue] := by
  obtain ⟨made, newRan, started⟩ := Outcome.bind_eq_ok.mp started
  obtain ⟨ready, setupRan, started⟩ := Outcome.bind_eq_ok.mp started
  obtain ⟨seeded, seedRan, started⟩ := Outcome.bind_eq_ok.mp started
  cases started
  obtain ⟨pool, handlers, ioBufs, queue, poolMade, handlersMade, bufsMade, queueMade, rfl⟩ :=
    Executor.new_eq_ok newRan
  obtain ⟨buffers, _, rfl⟩ := Executor.setup_eq_ok setupRan
  obtain ⟨handle, listenerPool, first, spawn, push, rfl⟩ := Executor.seedRunQueue_eq_ok seedRan
  refine ⟨rfl, handlersMade, bufsMade, rfl, rfl, rfl, rfl, rfl, pool, handle, queue, first,
    poolMade, spawn, queueMade, push, ?_⟩
  funext idx
  fin_cases idx <;> rfl

/-- The event a step hands to a connection handler, with the handler. -/
def dispatched? (s : Running) : RunLabel → Option (RunQueueEvent × ConnHandler)
  | .tick _ =>
      match s.phase, (s.executor.runQueues s.executor.currentRunQueue).pop with
      | .drain, .ok (some event, _) =>
          if event.handle.poolId = connHandler then
            match s.executor.connHandlerPool.get event.handle with
            | .ok (some handler) => some (event, handler)
            | _ => none
          else none
      | _, _ => none
  | _ => none

theorem Dispatches.dispatched {event : RunQueueEvent} {handler : ConnHandler}
    (dispatches : s.Dispatches label event handler) :
    s.dispatched? label = some (event, handler) := by
  obtain ⟨⟨listened, rfl⟩, draining, ⟨queue, pop⟩, kind, found⟩ := dispatches
  simp only [dispatched?, draining, pop, kind, found, if_true]

/-- What a step hands to a handler, it dispatches. -/
theorem dispatches_of_dispatched {event : RunQueueEvent} {handler : ConnHandler}
    (handed : s.dispatched? label = some (event, handler)) : s.Dispatches label event handler := by
  unfold dispatched? at handed
  split at handed
  · rename_i listened
    split at handed
    · rename_i other queue phase pop
      split at handed
      · rename_i kind
        split at handed
        · rename_i found resolved
          cases handed
          exact ⟨⟨listened, rfl⟩, phase, ⟨queue, pop⟩, kind, resolved⟩
        · cases handed
      · cases handed
    · cases handed
  · cases handed

/-- A schedule that passes a test, run from the start of an executor. -/
theorem exists_reach_of_start {entries : Nat} {listeners connHandlers bufCount : UInt32}
    {raw : Option (Nat × (Nat → UInt8))} {guard : Machine.Guard Running RunLabel}
    (check : Running → RunLabel → Running → Bool)
    (sound : ∀ s label s', check s label s' = true → guard s label s') (labels : List RunLabel)
    (test : Running → Bool)
    (passed : ((start entries listeners connHandlers bufCount raw).toOption.bind fun s =>
      (machine listeners connHandlers bufCount).run check s labels).any test = true) :
    ∃ s, (machine listeners connHandlers bufCount).Reach guard s ∧ test s = true := by
  have initial : ∀ s, start entries listeners connHandlers bufCount raw = .ok s →
      (machine listeners connHandlers bufCount).initial s :=
    fun _ started => ⟨entries, raw, started⟩
  exact Machine.exists_reach_of_start id initial check sound labels test passed

/-- Turns of the executor, with descriptor 3 for a listener that listens. -/
def ticks (n : Nat) : List RunLabel := List.replicate n (.tick (.ok 3))

/-- The listener accepts one connection on direct descriptor 0, and its handler submits its first
read: the turns up to the next `submit_and_wait`. -/
def acceptOne : List RunLabel := ticks 4 ++ [.take, .complete 0 0 2 []] ++ ticks 10

end Running

end Hoarder
