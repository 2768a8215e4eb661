/-
Module: Hoarder.Proofs.NeverPanics
Purpose: The executor does not panic.  On a kernel that keeps the table of direct descriptors and
  fails no read, with room on the ring, every turn returns, as long as the batches of completions
  fit the run queues, the messages stay below a buffer and no generation overflows.  Each part of a
  turn has its lemma: an event at a handler or a listener, an intent, a completion.
Trusted boundary: none
Main exports: ConnHandler.processEvent_ok, TcpServer.processEvent_ok, Running.Sound,
  Running.Sound.dispatch_ok, Running.Sound.completeIntent_ok, Running.Sound.tick_ok,
  Running.undisturbed, Running.Sound.move, Hosted.SlotInv.spawn_ok, Hosted.never_panics
-/
import Hoarder.Proofs.Admission
import Hoarder.Proofs.ConnStream
import Hoarder.Proofs.ExecutorOffsets
import Hoarder.Proofs.QueueBounds
import Hoarder.Proofs.SubmissionQueue

namespace Hoarder

open Foundation

theorem ExecutorContext.submitIntent_ok {intents : List MachineIntent}
    (room : intents.length < intentSlots) (buffers : IoBufs) (intent : MachineIntent) :
    ExecutorContext.submitIntent ⟨intents, buffers⟩ intent = .ok ⟨intents ++ [intent], buffers⟩ :=
  if_pos room

/-! ### Events that are processed -/

namespace ConnHandler

variable {self : ConnHandler} {buffers buffers' : IoBufs} {κ : Type*} [DecidableEq κ]
  {owned : κ → Option BufferHandle} {who : κ} {event : MachineEvent}

/-- Freeing returns for a handle that is owned, and for one that is not valid. -/
theorem freeBuffer_ok (owns : buffers.Owns owned)
    (known : ∀ handle, self.bufHandle? = some handle →
      owned who = some handle ∨ buffers.isValid handle = false) :
    ∃ buffers', self.freeBuffer buffers = .ok buffers' := by
  unfold freeBuffer
  cases held : self.bufHandle? with
  | none => exact ⟨buffers, rfl⟩
  | some handle =>
      rcases known handle held with holds | invalid
      · obtain ⟨next, freed, _⟩ := owns.free_owned holds
        exact ⟨next, by simp only [freed, Outcome.ok_bind, Outcome.pure_eq_ok]⟩
      · refine ⟨buffers, ?_⟩
        simp only [BufferPool.free_invalid invalid, Outcome.ok_bind, Outcome.pure_eq_ok]

theorem close_ok (freed : self.freeBuffer buffers = .ok buffers') :
    self.close ⟨[], buffers⟩ =
      .ok ({ self with offset := 0 }, ⟨[.closeFixed self.socket], buffers'⟩) := by
  simp only [close, freed, Outcome.ok_bind]
  rw [ExecutorContext.submitIntent_ok (by decide)]
  rfl

/-- What is received so far determines the next phase, if the buffer can be read. -/
theorem exists_parsed {handle : BufferHandle} {bytes : List UInt8}
    (resolved : buffers.get handle = .ok (some bytes)) (sized : MsgHeader.size ≤ bytes.length)
    (offset : UInt32) : ∃ next, Parsed buffers handle offset next := by
  rcases Nat.lt_or_ge offset.toNat MsgHeader.size with few | enough
  · exact ⟨_, .short few⟩
  · have whole : (bytes.take MsgHeader.size).length = MsgHeader.size := by
      rw [List.length_take]
      omega
    obtain ⟨header, decoded⟩ :=
      Option.isSome_iff_exists.mp (MsgHeader.readFromBytes_isSome.mpr whole)
    exact ⟨_, .header bytes header enough resolved decoded⟩

/-- A handler that takes the event processes it, if a read has not failed, its buffer can be read,
and the handle that it kept after `Recv` is not valid again. -/
theorem processEvent_ok (owns : buffers.Owns owned) (holds : owned who = self.receiving?)
    (expects : self.Expects event)
    (held : ∀ phase, self.state = .recv phase → ∃ handle, self.bufHandle? = some handle)
    (resolves : ∀ handle, buffers.isValid handle = true →
      ∃ bytes, buffers.get handle = .ok (some bytes) ∧ MsgHeader.size ≤ bytes.length)
    (success : ∀ phase res flags, self.state = .recv phase → event = .ioCompleted res flags →
      0 ≤ res)
    (stale : self.state = .closing → ∀ handle, self.bufHandle? = some handle →
      buffers.isValid handle = false) :
    ∃ handler ctx, self.processEvent ⟨[], buffers⟩ event = .ok (handler, ctx) := by
  cases event with
  | spawn =>
      have start : self.state = .init := expects.mp rfl
      have slots : buffers.genAlloc.Owns fun who => (owned who).map BufferHandle.id := owns
      rcases slots.alloc_ok with ⟨refused, _⟩ | ⟨id, genAlloc, allocated, _⟩
      · have none : buffers.alloc = .ok (none, buffers) := by
          rw [BufferPool.alloc, refused]
          rfl
        refine ⟨self, ⟨[.retry], buffers⟩, ?_⟩
        simp only [processEvent, onEvent, start, onInit, none, Outcome.ok_bind]
        rw [ExecutorContext.submitIntent_ok (by decide)]
        exact congrArg (fun handler => Except.ok (handler, _)) (by rw [← start])
      · have some : buffers.alloc = .ok (some ⟨id⟩, { buffers with genAlloc }) := by
          rw [BufferPool.alloc, allocated]
          rfl
        exact ⟨_, _, processEvent_spawned start some⟩
  | ioCompleted res flags =>
      cases start : self.state with
      | init =>
          have spawned := expects.mpr start
          cases spawned
      | recv phase =>
          obtain ⟨handle, isHeld⟩ := held phase start
          rw [receiving?_recv start] at holds
          have owned' := holds.trans isHeld
          by_cases ended : res = 0
          · obtain ⟨buffers', freed⟩ : ∃ buffers', self.freeBuffer buffers = .ok buffers' :=
              freeBuffer_ok owns fun other otherHeld => .inl (holds.trans otherHeld)
            simp only [processEvent, onEvent, start, onRecv, if_pos ended, close_ok freed,
              Outcome.ok_bind]
            exact ⟨_, _, rfl⟩
          · have positive := Int32.lt_of_le_of_ne (success phase res flags start rfl) (Ne.symm ended)
            obtain ⟨bytes, resolved, sized⟩ := resolves handle (owns.valid owned')
            obtain ⟨next, parsed⟩ := exists_parsed resolved sized (self.offset + res.toUInt32)
            exact ⟨_, _, processEvent_received start isHeld positive parsed⟩
      | closing =>
          by_cases closed : res = 0
          · simp only [processEvent, onEvent, start, onClosing, if_pos closed]
            rw [ExecutorContext.submitIntent_ok (by decide)]
            exact ⟨_, _, rfl⟩
          · have known : ∀ handle, self.bufHandle? = some handle →
                owned who = some handle ∨ buffers.isValid handle = false :=
              fun handle isHeld => .inr (stale start handle isHeld)
            obtain ⟨buffers', freed⟩ := freeBuffer_ok owns known
            simp only [processEvent, onEvent, start, onClosing, if_neg closed, close_ok freed,
              Outcome.ok_bind]
            exact ⟨_, _, rfl⟩
      | closed =>
          simp only [processEvent, onEvent, start]
          exact ⟨_, _, rfl⟩

end ConnHandler

/-- A listener that takes the event processes it. -/
theorem TcpServer.processEvent_ok {self : TcpServer} {event : MachineEvent} (buffers : IoBufs)
    (listened : Result Fd) (expects : self.Expects event) :
    ∃ listener ctx, self.processEvent listened ⟨[], buffers⟩ event = .ok (listener, ctx) := by
  cases event with
  | spawn =>
      have start : self.state = .init := expects.mp rfl
      cases listened with
      | ok fd =>
          simp only [processEvent, start, listen, Outcome.ok_bind, Outcome.pure_eq_ok,
            multishotAccept]
          rw [ExecutorContext.submitIntent_ok (by decide)]
          exact ⟨_, _, rfl⟩
      | error error =>
          simp only [processEvent, start, listen]
          exact ⟨_, _, rfl⟩
  | ioCompleted res flags =>
      cases start : self.state with
      | init =>
          have spawned := expects.mpr start
          cases spawned
      | accepting =>
          simp only [processEvent, start]
          split
          · exact ⟨_, _, rfl⟩
          · rw [ExecutorContext.submitIntent_ok (by decide), Outcome.ok_bind]
            split
            · exact ⟨_, _, rfl⟩
            · rw [multishotAccept, ExecutorContext.submitIntent_ok (by simp [intentSlots])]
              exact ⟨_, _, rfl⟩
      | error failure =>
          simp only [processEvent, start]
          exact ⟨_, _, rfl⟩

namespace Running

variable {s s' : Running} {label : RunLabel} {handle : ObjectHandle} {capacity : Nat}

/-- What a turn needs: the invariants of the runs on a kernel that fails no read, with queues of
`capacity` events, and a handle for every handler in `Recv`. -/
structure Sound (capacity : Nat) (s : Running) : Prop where
  errands : s.ErrandInv
  past : s.PastInv
  bound : s.QueueBound capacity
  stale : s.StaleInv
  recvs : s.RecvsValid
  offsets : s.OffsetInv
  alone : s.Alone
  held : ∀ id handler phase, s.handlerAt id = some handler → handler.state = .recv phase →
    ∃ bufferId, handler.bufHandle? = some bufferId
  counted : s.executor.ioBufs.genAlloc.capacity = s.executor.ioBufs.pool.count

/-- A push onto a queue that is not full. -/
theorem pushRunQueue_ok {e : Executor} {idx : Fin 2} (wf : (e.runQueues idx).WF)
    (room : (e.runQueues idx).contents.length ≠ (e.runQueues idx).size) (event : RunQueueEvent) :
    ∃ executor, e.pushRunQueue idx event = .ok executor := by
  obtain ⟨queue, push, _⟩ := RingBuffer.push_spec wf (Nat.lt_of_le_of_ne wf.length_le room) event
  exact ⟨_, by rw [Executor.pushRunQueue, push]⟩

/-- The read that an event for a handler in `Recv` completes has not failed. -/
theorem ErrandInv.success (inv : s.ErrandInv) {event : RunQueueEvent} {rest : List AgendaItem}
    (agenda : s.agenda = .event event :: rest) (kind : event.handle.poolId = connHandler)
    {handler : ConnHandler} {phase : RecvPhase}
    (found : s.handlerAt event.handle.genId = some handler) (receiving : handler.state = .recv phase)
    {res : Int32} {flags : UInt32} (reason : event.reason = .ioCompleted res flags) : 0 ≤ res := by
  have held := inv.tokens
  rw [errands, agenda, errandsOf_cons_some (errand?_event kind)] at held
  have fits := (held.fits _ _ (Multiset.mem_cons_self ..)).handler_of kind found
  rw [reason] at fits
  rcases fits with ⟨success, _⟩ | closing
  · exact success
  · rw [receiving] at closing
    cases closing

/-- A valid handle resolves to the bytes of its buffer. -/
theorem Sound.resolves (sound : s.Sound capacity) {bufferId : BufferHandle}
    (valid : s.executor.ioBufs.isValid bufferId = true) :
    (∃ address, s.executor.ioBufs.getMut bufferId = .ok (some address)) ∧
      ∃ bytes, s.executor.ioBufs.get bufferId = .ok (some bytes) ∧ MsgHeader.size ≤ bytes.length := by
  have inside : bufferId.id.index.toNat < s.executor.ioBufs.pool.count := by
    rw [← sound.counted]
    exact GenAlloc.isValid.index_lt valid
  have resolved := BufferPool.getMut_valid valid inside
  refine ⟨⟨_, resolved⟩, _, BufferPool.get_eq resolved, ?_⟩
  rw [Memory.read_length]
  decide

/-- Every event that comes first is processed. -/
theorem Sound.dispatch_ok (sound : s.Sound capacity) {event : RunQueueEvent}
    {rest : List AgendaItem} (agenda : s.agenda = .event event :: rest)
    (queue : RingBuffer RunQueueEvent) (listened : Result Fd) :
    ∃ executor intents, (s.executor.popped queue).dispatch listened event = .ok (executor, intents) := by
  have expected := sound.past.expected agenda
  simp only [Executor.dispatch]
  cases expected with
  | listener kind takes =>
      have resolved : (s.executor.popped queue).tcpListenerPool.get event.handle =
          .ok (s.listenerAt event.handle.genId) := sound.past.queues.listeners.get_eq event.handle
      rw [if_pos kind, resolved, Outcome.ok_bind]
      cases found : s.listenerAt event.handle.genId with
      | none => exact ⟨_, _, rfl⟩
      | some listener =>
          obtain ⟨listener', ctx, ran⟩ := TcpServer.processEvent_ok
            (s.executor.popped queue).ioBufs listened (takes listener found)
          simp only [ran, Outcome.ok_bind]
          exact ⟨_, _, rfl⟩
  | handler kind takes =>
      have resolved : (s.executor.popped queue).connHandlerPool.get event.handle =
          .ok (s.handlerAt event.handle.genId) := sound.past.queues.handlers.pool.get_eq event.handle
      rw [if_neg (ObjectHandle.notListener kind), if_pos kind, resolved, Outcome.ok_bind]
      cases found : s.handlerAt event.handle.genId with
      | none => exact ⟨_, _, rfl⟩
      | some handler =>
          have holds : s.bufOwner event.handle.genId = handler.receiving? := by
            rw [bufOwner, found]
            rfl
          obtain ⟨handler', ctx, ran⟩ := ConnHandler.processEvent_ok sound.stale.owns holds
            (takes handler found) (fun phase => sound.held _ handler phase found)
            (fun bufferId valid => (sound.resolves valid).2)
            (fun phase res flags receiving => sound.errands.success agenda kind found receiving)
            fun start bufferId isHeld =>
              (sound.stale.left _ handler bufferId found (by simp [start]) isHeld).invalid
          have ran' : handler.processEvent ⟨[], (s.executor.popped queue).ioBufs⟩ event.reason =
              .ok (handler', ctx) := ran
          simp only [ran', Outcome.ok_bind]
          exact ⟨_, _, rfl⟩

/-- Every intent is completed, if the ring has more entries than there are handlers, and the pool has
room for a handler that is to be spawned. -/
theorem Sound.completeIntent_ok (sound : s.Sound capacity) {intent : MachineIntent}
    {rest : List MachineIntent} (phase : s.phase = .completeIntent handle (intent :: rest))
    (larger : s.executor.connHandlerPool.alloc.capacity < s.executor.io.entries)
    (spawns : ∀ fixed, intent = .spawnConnHandler fixed → ∃ fresh pool,
      s.executor.connHandlerPool.spawn (ConnHandler.new fixed) = .ok (some fresh, pool)) :
    ∃ executor, s.executor.completeIntent handle intent = .ok executor := by
  have wf := sound.past.queues.wf
  have notFull := sound.bound.not_pushFull
  have enqueues : ∀ {errand}, intent.errand? = some errand → ∀ sqe,
      ∃ executor, s.executor.enqueue sqe = .ok executor := by
    intro errand has sqe
    have few := sound.errands.submitting_le sound.alone phase has
    exact ⟨_, Executor.enqueue_ok (by omega)⟩
  cases intent with
  | retry =>
      exact pushRunQueue_ok (wf _) (fun full => notFull (.retry handle rest phase full)) _
  | submitMultishotAccept fd => exact enqueues rfl _
  | closeFixed fixed => exact enqueues rfl _
  | spawnConnHandler fixed =>
      obtain ⟨fresh, pool, spawned⟩ := spawns fixed rfl
      simp only [Executor.completeIntent, spawned, Outcome.ok_bind]
      exact pushRunQueue_ok (e := { s.executor with connHandlerPool := pool }) (wf _)
        (fun full => notFull (.spawn handle fixed rest phase full)) _
  | submitRecv fixed bufferId offset =>
      have inside := sound.offsets.recvsInside handle _ phase fixed bufferId offset (by simp)
      have valid := sound.recvs handle _ phase fixed bufferId offset (by simp)
      obtain ⟨⟨address, resolved⟩, _⟩ := sound.resolves valid
      simp only [Executor.completeIntent, if_pos inside, resolved, Outcome.ok_bind]
      exact enqueues rfl _
  | terminate =>
      obtain ⟨_, kind, handler, found, _⟩ :=
        sound.past.queues.handlers.terminate handle _ phase (by simp)
      obtain ⟨pool, despawned, _⟩ := sound.past.queues.handlers.pool.despawn_spec found
      simp only [Executor.completeIntent, if_neg (ObjectHandle.notListener kind), if_pos kind,
        despawned, Outcome.ok_bind]
      exact ⟨_, rfl⟩

/-- Every turn returns. -/
theorem Sound.tick_ok (sound : s.Sound capacity)
    (larger : s.executor.connHandlerPool.alloc.capacity < s.executor.io.entries)
    (spawns : ∀ handle fixed rest, s.phase = .completeIntent handle (.spawnConnHandler fixed :: rest) →
      ∃ fresh pool, s.executor.connHandlerPool.spawn (ConnHandler.new fixed) = .ok (some fresh, pool))
    (listened : Result Fd) (submitted : Result Nat)
    (returns : s.phase = .submitAndWait → ∃ n, submitted = .ok n) :
    ∃ next, s.tick listened submitted = .ok next := by
  have wf := sound.past.queues.wf
  unfold tick
  cases phase : s.phase with
  | drain =>
      obtain ⟨popped, queue, pop⟩ := RingBuffer.pop_ok (wf s.executor.currentRunQueue)
      simp only [pop, Outcome.ok_bind]
      cases popped with
      | none => exact ⟨_, rfl⟩
      | some event =>
          obtain ⟨executor, intents, dispatched⟩ :=
            sound.dispatch_ok (agenda_popped wf phase pop) queue listened
          have dispatched' : Executor.dispatch
              { s.executor with
                runQueues := Function.update s.executor.runQueues s.executor.currentRunQueue queue }
              listened event = .ok (executor, intents) := dispatched
          simp only [dispatched', Outcome.ok_bind]
          exact ⟨_, rfl⟩
  | completeIntent handle intents =>
      cases intents with
      | nil => exact ⟨_, rfl⟩
      | cons intent rest =>
          obtain ⟨executor, completed⟩ := sound.completeIntent_ok phase larger fun fixed isSpawn => by
            subst isSpawn
            exact spawns handle fixed rest phase
          simp only [completed, Outcome.ok_bind]
          exact ⟨_, rfl⟩
  | submitAndWait =>
      obtain ⟨n, rfl⟩ := returns phase
      exact ⟨_, rfl⟩
  | completion =>
      cases posted : s.executor.io.cq with
      | nil =>
          simp only [posted]
          exact ⟨_, rfl⟩
      | cons cqe cq =>
          obtain ⟨executor, pushed⟩ := pushRunQueue_ok
            (e := { s.executor with io := { s.executor.io with cq } }) (wf _)
            (fun full => sound.bound.not_pushFull (.reap phase (by simp [posted]) full))
            ⟨.ioCompleted cqe.result cqe.flags, ⟨cqe.userData⟩⟩
          have pushed' : Executor.pushRunQueue { s.executor with io := { s.executor.io with cq } }
              { s.executor with io := { s.executor.io with cq } }.nextRunQueueIdx
              ⟨.ioCompleted cqe.result cqe.flags, ⟨cqe.userData⟩⟩ = .ok executor := pushed
          simp only [posted, pushed', Outcome.ok_bind]
          exact ⟨_, rfl⟩

/-- The condition on one step that what is drained fits the next run queue, that what a connection
has received stays below a buffer, and that no generation overflows. -/
def undisturbed (capacity : Nat) : Machine.Guard Running RunLabel := fun s label s' =>
  DrainFits capacity s label s' ∧ staysBelow s label s' ∧ noGenerationOverflow s label s'

/-- A handler in `Recv` has a handle. -/
theorem held_step (held : ∀ id handler phase, s.handlerAt id = some handler →
      handler.state = .recv phase → ∃ bufferId, handler.bufHandle? = some bufferId)
    (step : s.HandlerStep label s') : ∀ id handler phase, s'.handlerAt id = some handler →
      handler.state = .recv phase → ∃ bufferId, handler.bufHandle? = some bufferId := by
  intro id handler phase found receiving
  cases step with
  | same handlers => exact held id handler phase (handlers ▸ found) receiving
  | event event other other' intents dispatches found' handling handlers =>
      rw [handlers] at found
      rcases eq_or_ne id event.handle.genId with rfl | different
      · rw [Function.update_self] at found
        cases found
        have before : ∀ phase, other.state = .recv phase → other.bufHandle?.isSome := fun phase start =>
          Option.isSome_iff_exists.mpr (held _ other phase found' start)
        exact Option.isSome_iff_exists.mp (handling.held before phase receiving)
      · rw [Function.update_of_ne different] at found
        exact held id handler phase found receiving
  | spawned handle fixed rest other phase phase' small unbound handlers =>
      rw [handlers] at found
      rcases eq_or_ne id other with rfl | different
      · rw [Function.update_self] at found
        cases found
        cases receiving
      · rw [Function.update_of_ne different] at found
        exact held id handler _ found receiving
  | terminated handle other phase phase' found' closed handlers =>
      rw [handlers] at found
      rcases eq_or_ne id handle.genId with rfl | different
      · rw [Function.update_self] at found
        cases found
      · rw [Function.update_of_ne different] at found
        exact held id handler _ found receiving

/-- On a kernel that fails no read no error that closes a connection is dispatched to a handler in
`Recv`. -/
theorem Sound.noDisconnect (sound : s.Sound capacity) : noDisconnect s label s' := by
  intro event handler dispatches phase res flags receiving reason disconnect
  obtain ⟨queue, pop⟩ := dispatches.pop
  have success := sound.errands.success (agenda_popped sound.past.queues.wf dispatches.phase pop)
    dispatches.kind (sound.stale.handlers.found dispatches) receiving reason
  exact Int32.not_lt.mpr success (ConnMove.disconnect_negative disconnect)

/-- Each undisturbed step on a kernel that fails no read keeps the invariants. -/
theorem Sound.move (sound : s.Sound capacity) (move : RunMove s label s')
    (posts : kernelPosts s label s') (met : undisturbed capacity s label s') : s'.Sound capacity := by
  obtain ⟨fits, below, noWrap, noBufferWrap, reissue⟩ := met
  refine ⟨sound.errands.move move posts, sound.past.move move noWrap, sound.bound.move move fits,
    sound.stale.move move noBufferWrap,
    sound.recvs.move sound.stale.toBufferInv move reissue sound.noDisconnect,
    sound.offsets.move move below, sound.alone.progress (sound.past.queues.progress move),
    held_step sound.held (sound.stale.handlers.step move).1, ?_⟩
  rw [bufferCount_move move, sound.counted]
  cases move with
  | handler _ _ _ _ _ _ _ _ _ _ _ handling => exact congrArg AlignedBuffers.count handling.pool.symm
  | complete index result flags data sqe ioBufs working written =>
      rcases written with rfl | ⟨_, _, rfl⟩ <;> rfl
  | missing | listener | drained | finished | retry | submit | spawned | terminateListener
  | terminate | wait | reap | switch | take => rfl

theorem sound_start {entries : Nat} {listeners connHandlers bufCount : UInt32}
    {raw : Option (Nat × (Nat → UInt8))}
    (started : start entries listeners connHandlers bufCount raw = .ok s) :
    s.Sound (connHandlers.toNat * 2) := by
  obtain ⟨phase, _, bufsMade, _⟩ := start_fields started
  obtain ⟨_, noneFound⟩ := handlerInv_start started
  obtain ⟨genAllocMade, _, count, _⟩ := BufferPool.new_inv bufsMade
  refine ⟨(errandInv_start started).1, pastInv_start started, queueBound_start started,
    staleInv_start started, fun handle intents during => ?_, offsetInv_start started,
    alone_start started, by simp [noneFound], ?_⟩
  · rw [phase] at during
    cases during
  · rw [(GenAlloc.owns_of_new (κ := Unit) genAllocMade).2, GenAlloc.maskedCapacity_zero, count]

end Running

namespace Hosted

variable {s s' : Hosted} {label : RunLabel}

/-- What this kernel posts keeps its promises. -/
theorem posts_of_step (stepped : s.step label = some s') :
    Running.kernelPosts s.running label s'.running := by
  rintro index result flags data sqe rfl working
  rcases (step_cases stepped).2 with ⟨executor, _⟩ | ⟨_, _, _, _, other, same, working', performed⟩
  · exact absurd rfl (executor index result flags data)
  · cases same
    rw [working] at working'
    cases working'
    exact Op.posts_of_perform performed

/-- An accepted connection finds room in the pool: the handlers that are there hold other slots of
the table. -/
theorem SlotInv.spawn_ok (inv : s.SlotInv) {handle : ObjectHandle} {fixed : Fixed}
    {rest : List MachineIntent}
    (phase : s.running.phase = .completeIntent handle (.spawnConnHandler fixed :: rest)) :
    ∃ fresh pool, s.running.executor.connHandlerPool.spawn (ConnHandler.new fixed) =
      .ok (some fresh, pool) := by
  have pool := inv.errands.queues.handlers.pool
  rcases pool.spawn_spec (ConnHandler.new fixed) with ⟨_, noneFree⟩ | ⟨id, next, spawned, _⟩
  · obtain ⟨ids, full, live⟩ := pool.spawn_none noneFree
    have handover := inv.handover
    rw [Running.reports_cons (Running.agenda_intent phase)] at handover
    have others := handover.card_lt ids fun id member => by
      simpa [Running.sockets, Running.handlerAt] using live id member
    have slots := card_slotTable s.running.executor.io.files
    rw [inv.files] at slots
    omega
  · exact ⟨_, next, spawned⟩

/-- Any number of connections up to the mask of the pool, on a ring with more entries than handlers,
any order of steps: no turn of the executor panics, as long as what is drained fits the next run
queue, the bytes of each connection stay below a buffer, no generation overflows, and
`submit_and_wait` does not fail when the turn calls it. -/
theorem never_panics {listeners connHandlers bufCount : UInt32}
    (small : connHandlers.toNat ≤ 0x00FFFFFF)
    (reached : (machine listeners connHandlers bufCount).Reach
      (onRunning (Running.undisturbed (connHandlers.toNat * 2))) s)
    (larger : connHandlers.toNat < s.running.executor.io.entries) (listened : Result Fd)
    (submitted : Result Nat)
    (returns : s.running.phase = .submitAndWait → ∃ n, submitted = .ok n) :
    ∃ next, s.running.tick listened submitted = .ok next := by
  have both : s.SlotInv ∧ s.running.Sound (connHandlers.toNat * 2) := by
    refine reached.invariant (fun s => s.SlotInv ∧ s.running.Sound (connHandlers.toNat * 2)) ?_ ?_
    · intro s started
      refine ⟨slotInv_initial small started, ?_⟩
      obtain ⟨⟨_, _, started⟩, _⟩ := started
      exact Running.sound_start started
    · rintro s label s' ⟨inv, sound⟩ stepped met
      exact ⟨inv.step stepped, sound.move (Running.step_move (step_cases stepped).1)
        (posts_of_step stepped) met⟩
  obtain ⟨inv, sound⟩ := both
  have slots := sound.bound.slots
  exact sound.tick_ok (by omega) (fun handle fixed rest phase => inv.spawn_ok phase) listened
    submitted returns

/-- `undisturbed`, as a test. -/
def isUndisturbed (capacity : Nat) (s : Hosted) (label : RunLabel) (s' : Hosted) : Bool :=
  let before := s.running.executor
  let after := s'.running.executor
  Running.drainFits capacity s.running label && s.running.isBelow label &&
    before.connHandlerPool.alloc.noWrap after.connHandlerPool.alloc &&
    before.ioBufs.genAlloc.noWrap after.ioBufs.genAlloc && s.running.isNotReissued label

theorem isUndisturbed_sound {capacity : Nat} (passed : isUndisturbed capacity s label s' = true) :
    onRunning (Running.undisturbed capacity) s label s' := by
  simp only [isUndisturbed, Bool.and_eq_true] at passed
  obtain ⟨⟨⟨⟨fits, below⟩, noWrap⟩, noBufferWrap⟩, notReissued⟩ := passed
  exact ⟨Running.drainFits_sound fits, Running.isBelow_sound below, GenAlloc.noWrap_sound noWrap,
    GenAlloc.noWrap_sound noBufferWrap, Running.isNotReissued_sound notReissued⟩

set_option maxRecDepth 100000 in
/-- After the first three bytes of a connection the next read is submitted. -/
theorem never_panics_received :
    ∃ s : Hosted, s.running.phase = .completeIntent ⟨0x0200000000000000⟩ [.submitRecv 0 ⟨⟨0, 0⟩⟩ 3] ∧
      ∃ next, s.running.tick (.ok 3) (.error .pushError) = .ok next := by
  obtain ⟨s, reached, ends⟩ : ∃ s, (machine 1 1 1).Reach (onRunning (Running.undisturbed 2)) s ∧
      (s.running.phase == .completeIntent ⟨0x0200000000000000⟩ [.submitRecv 0 ⟨⟨0, 0⟩⟩ 3] &&
        decide (1 < s.running.executor.io.entries)) = true :=
    @exists_reach_of_start 16 1 1 1 (some (0x1000, fun _ => 0)) _
      (fun s label s' => isUndisturbed 2 s label s') (fun _ _ _ passed => isUndisturbed_sound passed)
      (Running.acceptOne ++ [.take, .complete 1 3 0 [1, 2, 3]] ++ Running.ticks 4) _
      (by decide +kernel)
  simp only [Bool.and_eq_true, beq_iff_eq, decide_eq_true_eq] at ends
  exact ⟨s, ends.1, never_panics (by decide) reached ends.2 (.ok 3) (.error .pushError)
    fun waiting => by rw [ends.1] at waiting; cases waiting⟩

end Hosted

end Hoarder
