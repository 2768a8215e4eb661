/-
Module: Hoarder.Proofs.QueueBounds
Purpose: Whether the run queues are large enough.  A retry always finds room, since the machines
  that wait to be started again are different handlers of the pool; a spawned handler takes the place
  of the completion it comes from.  Only a batch of completions can be too large: `DrainFits` is the
  condition that it is not.
Trusted boundary: none
Main exports: Running.backlog, Running.DrainFits, Running.QueueBound, Running.QueueBound.move,
  Running.QueueBound.tick_ne_push, Running.start_ne_push, Running.run_queues_fit
-/
import Hoarder.Proofs.Births
import Hoarder.Proofs.DrainTick
import Hoarder.Proofs.SlotOwnership

namespace Hoarder

open Foundation

namespace Running

variable {s s' : Running} {label : RunLabel} {handle : ObjectHandle} {capacity : Nat}

/-- The retries that wait in the next run queue and the completions that are to be drained into
it. -/
def backlog (s : Running) : Nat :=
  (s.executor.runQueues s.executor.nextRunQueueIdx).len + s.executor.io.cq.length

/-- The condition on one step that the next run queue can take what is drained: when
`submit_and_wait` returns, and when a completion is posted while the queue is drained. -/
def DrainFits (capacity : Nat) : Machine.Guard Running RunLabel := fun s label _ =>
  match s.phase, label with
  | .submitAndWait, .tick _ => s.backlog ≤ capacity
  | .completion, .complete _ _ _ _ => s.backlog < capacity
  | _, _ => True

/-- The condition as a test. -/
def drainFits (capacity : Nat) (s : Running) (label : RunLabel) : Bool :=
  match s.phase, label with
  | .submitAndWait, .tick _ => s.backlog ≤ capacity
  | .completion, .complete _ _ _ _ => s.backlog < capacity
  | _, _ => true

theorem drainFits_sound (passed : drainFits capacity s label = true) :
    DrainFits capacity s label s' := by
  unfold drainFits at passed
  unfold DrainFits
  split at passed
  · exact of_decide_eq_true passed
  · exact of_decide_eq_true passed
  · trivial

/-- The queues have room for `capacity` events: the pool has no more slots than half of it, only
handlers retry, only retries wait while the queue is drained, the events of the current queue leave
room for the handlers to be spawned, and those of the next queue for what is drained. -/
structure QueueBound (capacity : Nat) (s : Running) : Prop extends BirthInv s where
  sizes : ∀ idx, (s.executor.runQueues idx).size = capacity
  slots : s.executor.connHandlerPool.alloc.capacity * 2 ≤ capacity
  retries : ∀ handle intents, s.phase = .completeIntent handle intents → .retry ∈ intents →
    handle.poolId = connHandler
  waits : s.phase ≠ .completion → ∀ event ∈ s.executor.nextEvents,
    event.reason = .spawn ∧ event.handle.poolId = connHandler
  spawns : ∀ handle intents, s.phase = .completeIntent handle intents →
    s.executor.currentEvents.length + intents.countP MachineIntent.spawns ≤ capacity
  drains : s.phase = .completion → s.backlog ≤ capacity

theorem backlog_eq (wf : ∀ idx, (s.executor.runQueues idx).WF) :
    s.backlog = s.executor.nextEvents.length + s.executor.io.cq.length := by
  rw [backlog, (wf _).len]
  rfl

/-- The state after the first completion was drained, which left `queue` and `cq`. -/
def reaped (s : Running) (queue : RingBuffer RunQueueEvent) (cq : List Cqe) : Running where
  executor :=
    { s.executor.pushed s.executor.nextRunQueueIdx queue with io := { s.executor.io with cq } }
  phase := .completion

/-- A completion that is drained moves from the one part to the other. -/
theorem backlog_reaped (wf : ∀ idx, (s.executor.runQueues idx).WF) {cqe : Cqe} {cq : List Cqe}
    {queue : RingBuffer RunQueueEvent} {event : RunQueueEvent}
    (posted : s.executor.io.cq = cqe :: cq)
    (push : (s.executor.runQueues s.executor.nextRunQueueIdx).push event = (.ok (), queue)) :
    (s.reaped queue cq).backlog = s.backlog := by
  have wf' : ∀ idx, ((s.reaped queue cq).executor.runQueues idx).WF :=
    (Executor.events_pushed wf push).2
  have next : (s.reaped queue cq).executor.nextEvents.length =
      s.executor.nextEvents.length + 1 := by
    change (s.executor.pushed s.executor.nextRunQueueIdx queue).nextEvents.length = _
    rw [(Executor.pushed_nextEvents wf push).1, List.length_append, List.length_singleton]
  rw [backlog_eq wf, backlog_eq wf', next, posted, List.length_cons]
  change _ + 1 + cq.length = _
  omega

namespace QueueBound

/-- Only handlers retry. -/
theorem retries_move (bound : s.QueueBound capacity) (move : RunMove s label s')
    {intents : List MachineIntent} (phase' : s'.phase = .completeIntent handle intents)
    (submitted : .retry ∈ intents) : handle.poolId = connHandler := by
  rcases intent_cases move phase' (List.ne_nil_of_mem submitted) with
    ⟨before | ⟨_, before⟩, _⟩ | ⟨_, _, _, _, listening⟩ | ⟨_, _, _, rfl, dispatches, _⟩
  · exact bound.retries handle intents before submitted
  · exact bound.retries handle _ before (List.mem_cons_of_mem _ submitted)
  · exact absurd submitted listening.notHandler.1.1
  · exact dispatches.kind

/-- Only retries wait while the queue is drained. -/
theorem waits_move (bound : s.QueueBound capacity) (move : RunMove s label s')
    (phase' : s'.phase ≠ .completion) {event : RunQueueEvent}
    (waiting : event ∈ s'.executor.nextEvents) :
    event.reason = .spawn ∧ event.handle.poolId = connHandler := by
  have wf := bound.queues.wf
  cases label with
  | tick listened =>
      by_cases draining : s.phase = .completion
      · -- The queue that was drained is the next one now.
        rcases waiting_tick wf (.inr draining) move with ⟨same, _⟩ | ⟨_, _, back⟩
        · exact absurd same phase'
        · rw [back, Executor.currentEvents, bound.queues.drained (.inr draining)] at waiting
          cases waiting
      · rw [nextEvents_tick wf move fun reaping => absurd reaping draining,
          List.mem_append] at waiting
        rcases waiting with before | added
        · exact bound.waits draining event before
        · obtain ⟨handle, rest, retrying, rfl⟩ := mem_pushedNext draining added
          exact ⟨rfl, bound.retries handle _ retrying (by simp)⟩
  | take | complete =>
      obtain ⟨phase, _, next, _⟩ := kernel_events (by simp) move
      exact bound.waits (phase ▸ phase') event (next ▸ waiting)

/-- The current queue has room for the handlers the event in progress spawns. -/
theorem room (bound : s.QueueBound capacity) :
    s.executor.currentEvents.length + s.phase.spawns ≤ capacity := by
  have fits := (bound.queues.wf s.executor.currentRunQueue).length_le
  rw [bound.sizes] at fits
  cases phase : s.phase with
  | completeIntent handle intents => exact bound.spawns handle intents phase
  | drain | submitAndWait | completion => exact fits

/-- The events of the current queue leave room for the handlers to be spawned. -/
theorem spawns_move (bound : s.QueueBound capacity) (move : RunMove s label s')
    {intents : List MachineIntent} (phase' : s'.phase = .completeIntent handle intents) :
    s'.executor.currentEvents.length + intents.countP MachineIntent.spawns ≤ capacity := by
  have wf := bound.queues.wf
  have room := bound.room
  cases label with
  | tick listened =>
      have looping : ¬ (s.phase = .submitAndWait ∨ s.phase = .completion) := by
        intro waiting
        rcases waiting_tick wf waiting move with ⟨other, _⟩ | ⟨other, _⟩ <;>
          simp [other] at phase'
      have kept := (drainTick wf (not_or.mp looping) move).room room
      rwa [phase', RunPhase.spawns] at kept
  | take | complete =>
      obtain ⟨phase, current, _⟩ := kernel_events (by simp) move
      rwa [← phase, ← current, phase', RunPhase.spawns] at room

/-- The next queue has room for what is drained into it. -/
theorem drains_move (bound : s.QueueBound capacity) (move : RunMove s label s')
    (fits : DrainFits capacity s label s') (phase' : s'.phase = .completion) :
    s'.backlog ≤ capacity := by
  cases move with
  | wait listened phase =>
      have fits : s.backlog ≤ capacity := by simpa only [DrainFits, phase] using fits
      exact fits
  | reap listened cqe cq queue phase posted push =>
      exact (backlog_reaped bound.queues.wf posted push).trans_le (bound.drains phase)
  | complete index result flags data sqe ioBufs working =>
      have fits : s.backlog < capacity := by
        have phase : s.phase = .completion := phase'
        simpa only [DrainFits, phase] using fits
      change (s.executor.runQueues s.executor.nextRunQueueIdx).len +
        (s.executor.io.cq ++ [_]).length ≤ capacity
      rw [List.length_append, List.length_singleton]
      exact fits
  | take => exact bound.drains phase'
  | missing | listener | handler | drained | finished | retry | submit | spawned
  | terminateListener | terminate | switch => cases phase'

/-- Each step that meets the condition keeps the bound. -/
theorem move (bound : s.QueueBound capacity) (move : RunMove s label s')
    (fits : DrainFits capacity s label s') : s'.QueueBound capacity where
  toBirthInv := bound.toBirthInv.move move
  sizes idx := (size_move bound.queues.wf move idx).trans (bound.sizes idx)
  slots := by
    rw [capacity_move bound.queues.handlers move]
    exact bound.slots
  retries _ _ := bound.retries_move move
  waits phase' _ := bound.waits_move move phase'
  spawns _ _ := bound.spawns_move move
  drains := bound.drains_move move fits

/-- Handlers that are to be started are different handlers of the pool. -/
theorem starting_length_le (bound : s.QueueBound capacity) {starting : List ObjectHandle}
    (kind : ∀ handle ∈ starting, handle.poolId = connHandler)
    (born : (starting.map fun handle => (handle, Errand.start)).Sublist
      (s.agenda.filterMap AgendaItem.birth?)) :
    starting.length ≤ s.executor.connHandlerPool.alloc.capacity := by
  have nodup : starting.Nodup := by
    have once : ((s.agenda.filterMap AgendaItem.birth?).map Prod.fst).Nodup := bound.tokens.nodup
    have fewer := born.map Prod.fst
    rw [List.map_map] at fewer
    have handles : starting.map (Prod.fst ∘ fun handle => (handle, Errand.start)) = starting :=
      List.map_id starting
    rw [handles] at fewer
    exact once.sublist fewer
  have apart : (starting.map ObjectHandle.genId).Nodup :=
    nodup.map_on fun first member second otherMember same =>
      ObjectHandle.eq_of_fields ((kind first member).trans (kind second otherMember).symm) same
  have resolve : ∀ id ∈ starting.map ObjectHandle.genId, (s.handlerAt id).isSome := by
    intro id member
    obtain ⟨handle, isStarting, rfl⟩ := List.mem_map.mp member
    have isBorn : (handle, Errand.start) ∈ s.births :=
      Multiset.mem_coe.mpr (born.subset (List.mem_map.mpr ⟨handle, isStarting, rfl⟩))
    cases bound.tokens.fits _ _ isBorn with
    | handler _ handler found => simp [found]
    | listener listening =>
        exact absurd listening (ObjectHandle.notListener (kind handle isStarting))
  simpa using ObjectPool.length_le_capacity apart resolve

/-- The machine that retries and those whose retries wait are to be started. -/
theorem retry_room (bound : s.QueueBound capacity) {rest : List MachineIntent}
    (phase : s.phase = .completeIntent handle (.retry :: rest)) :
    s.executor.nextEvents.length + 1 ≤ s.executor.connHandlerPool.alloc.capacity := by
  have waits := bound.waits (by simp [phase])
  have kind : ∀ other ∈ handle :: s.executor.nextEvents.map RunQueueEvent.handle,
      other.poolId = connHandler := by
    intro other member
    rcases List.mem_cons.mp member with rfl | member
    · exact bound.retries other _ phase (by simp)
    · obtain ⟨event, waiting, rfl⟩ := List.mem_map.mp member
      exact (waits event waiting).2
  have next : (s.executor.nextEvents.map AgendaItem.event).Sublist
      (rest.map (.intent handle) ++ s.executor.events.map .event) := by
    have part : s.executor.nextEvents.Sublist s.executor.events :=
      (List.sublist_append_right ..).trans (List.sublist_append_left ..)
    exact (part.map _).trans (List.sublist_append_right ..)
  have births : (s.executor.nextEvents.map AgendaItem.event).filterMap AgendaItem.birth? =
      (s.executor.nextEvents.map RunQueueEvent.handle).map fun other => (other, Errand.start) := by
    rw [List.filterMap_map, List.map_map, ← List.filterMap_eq_map]
    apply List.filterMap_congr
    rintro ⟨reason, other⟩ waiting
    obtain rfl : reason = .spawn := (waits _ waiting).1
    rfl
  have born : ((handle :: s.executor.nextEvents.map RunQueueEvent.handle).map
      fun other => (other, Errand.start)).Sublist (s.agenda.filterMap AgendaItem.birth?) := by
    rw [agenda_intent phase,
      List.filterMap_cons_some (f := AgendaItem.birth?) (b := (handle, Errand.start)) rfl,
      List.map_cons, ← births]
    exact (next.filterMap AgendaItem.birth?).cons_cons _
  simpa using bound.starting_length_le kind born

/-- No queue is full when something is pushed onto it. -/
theorem not_pushFull (bound : s.QueueBound capacity) : ¬ s.PushFull := by
  intro pushFull
  cases pushFull with
  | retry handle rest phase full =>
      have room := bound.retry_room phase
      have slots := bound.slots
      rw [Full, bound.sizes] at full
      change s.executor.nextEvents.length = capacity at full
      omega
  | spawn handle fixed rest phase full =>
      have room := bound.spawns handle _ phase
      rw [List.countP_cons_of_pos rfl] at room
      rw [Full, bound.sizes] at full
      change s.executor.currentEvents.length = capacity at full
      omega
  | reap phase posted full =>
      have room := bound.drains phase
      have some := List.length_pos_of_ne_nil posted
      rw [backlog_eq bound.queues.wf] at room
      rw [Full, bound.sizes] at full
      change s.executor.nextEvents.length = capacity at full
      omega

/-- No push onto a run queue fails. -/
theorem tick_ne_push (bound : s.QueueBound capacity) (listened : Result Fd)
    (submitted : Result Nat) : s.tick listened submitted ≠ .error .runQueuePush := by
  intro failed
  rcases tick_error bound.queues failed with known | ⟨same, _⟩ | ⟨_, full⟩
  · exact absurd known (by decide)
  · cases same
  · exact bound.not_pushFull full

end QueueBound

/-- The bound at the start of a run. -/
theorem queueBound_start {entries : Nat} {listeners connHandlers bufCount : UInt32}
    {raw : Option (Nat × (Nat → UInt8))}
    (started : start entries listeners connHandlers bufCount raw = .ok s) :
    s.QueueBound (connHandlers.toNat * 2) := by
  obtain ⟨phase, poolMade, _⟩ := start_fields started
  obtain ⟨sizes, next, _⟩ := start_queues started
  refine { toBirthInv := birthInv_start started, sizes := fun idx => (sizes idx).2, slots := ?_,
           retries := by simp [phase], waits := fun _ event waiting => ?_,
           spawns := by simp [phase], drains := by simp [phase] }
  · exact Nat.mul_le_mul_right 2 (ObjectPool.capacity_le poolMade)
  · rw [Executor.nextEvents, next] at waiting
    cases waiting

/-! ### A batch that is too large -/

section Overflow

variable {cqe : Cqe} {cq : List Cqe}

/-- A completion that finds the next queue full panics the executor. -/
theorem tick_full (wf : ∀ idx, (s.executor.runQueues idx).WF) (phase : s.phase = .completion)
    (posted : s.executor.io.cq = cqe :: cq) (full : s.Full s.executor.nextRunQueueIdx)
    (listened : Result Fd) (submitted : Result Nat) :
    s.tick listened submitted = .error .runQueuePush := by
  have refused : (({ s.executor with io := { s.executor.io with cq } } : Executor).runQueues
      ({ s.executor with io := { s.executor.io with cq } } : Executor).nextRunQueueIdx).push
        ⟨.ioCompleted cqe.result cqe.flags, ⟨cqe.userData⟩⟩ =
      (.error .pushError, s.executor.runQueues s.executor.nextRunQueueIdx) :=
    RingBuffer.push_full (wf _) full _
  simp only [tick, phase, posted, Executor.pushRunQueue, refused]
  rfl

/-- A completion that finds room is drained. -/
theorem tick_room (wf : ∀ idx, (s.executor.runQueues idx).WF) (phase : s.phase = .completion)
    (posted : s.executor.io.cq = cqe :: cq) (room : ¬ s.Full s.executor.nextRunQueueIdx)
    (listened : Result Fd) (submitted : Result Nat) :
    ∃ queue, (s.executor.runQueues s.executor.nextRunQueueIdx).push cqe.event = (.ok (), queue) ∧
      s.tick listened submitted = .ok (s.reaped queue cq) := by
  have fits := Nat.lt_of_le_of_ne (wf s.executor.nextRunQueueIdx).length_le room
  obtain ⟨queue, push, _⟩ := RingBuffer.push_spec (wf _) fits cqe.event
  have push' : (({ s.executor with io := { s.executor.io with cq } } : Executor).runQueues
      ({ s.executor with io := { s.executor.io with cq } } : Executor).nextRunQueueIdx).push
        ⟨.ioCompleted cqe.result cqe.flags, ⟨cqe.userData⟩⟩ = (.ok (), queue) := push
  refine ⟨queue, push, ?_⟩
  simp only [tick, phase, posted, Executor.pushRunQueue, push']
  rfl

end Overflow

/-- The steps that do not meet the condition. -/
theorem not_drainFits (tooMany : ¬ DrainFits capacity s label s') :
    (s.phase = .submitAndWait ∧ (∃ listened, label = .tick listened) ∧ capacity < s.backlog) ∨
      (s.phase = .completion ∧ (∃ index result flags data,
        label = .complete index result flags data) ∧ capacity ≤ s.backlog) := by
  unfold DrainFits at tooMany
  split at tooMany
  · rename_i listened phase
    exact .inl ⟨phase, ⟨listened, rfl⟩, Nat.lt_of_not_le tooMany⟩
  · rename_i index result flags data phase
    exact .inr ⟨phase, ⟨index, result, flags, data, rfl⟩, Nat.le_of_not_lt tooMany⟩
  · exact absurd trivial tooMany

/-- They leave more to drain than there is room for. -/
theorem overfull (stepped : s.step label = some s') (tooMany : ¬ DrainFits capacity s label s') :
    s'.phase = .completion ∧ capacity < s'.backlog := by
  rcases not_drainFits tooMany with
    ⟨phase, ⟨listened, rfl⟩, more⟩ | ⟨phase, ⟨index, result, flags, data, rfl⟩, more⟩
  · simp only [step, tick, phase] at stepped
    split at stepped <;> cases stepped
    exact ⟨rfl, more⟩
  · cases step_move stepped with
    | complete _ _ _ _ sqe ioBufs working =>
        refine ⟨phase, Nat.lt_of_le_of_lt more ?_⟩
        change s.backlog < (s.executor.runQueues s.executor.nextRunQueueIdx).len +
          (s.executor.io.cq ++ [_]).length
        rw [List.length_append, List.length_singleton]
        exact Nat.lt_succ_self _

/-! ### The first push -/

section Start

theorem newArray_ne_push {T : Type} [Sized T] (init : T) (size : Nat) :
    newArray init size ≠ .error .runQueuePush := by
  unfold newArray
  split
  · split <;> simp
  · simp

theorem ringBuffer_new_ne_push {T : Type} [Sized T] (size : Nat) :
    (RingBuffer.new size : Except Fault (RingBuffer T)) ≠ .error .runQueuePush := by
  unfold RingBuffer.new
  split
  · split <;> simp
  · simp

theorem fillFrom_ne_push {T : Type} {buffer : RingBuffer T} {remaining : Nat} {iter : List T} :
    buffer.fillFrom remaining iter ≠ .error .runQueuePush := by
  induction remaining generalizing buffer iter with
  | zero => simp [RingBuffer.fillFrom]
  | succ remaining inductionHypothesis =>
      cases iter with
      | nil => simp [RingBuffer.fillFrom]
      | cons item iter =>
          simp only [RingBuffer.fillFrom]
          split
          · exact inductionHypothesis
          · simp

theorem genAlloc_new_ne_push (capacity mask : UInt32) :
    GenAlloc.new capacity mask ≠ .error .runQueuePush :=
  Outcome.bind_ne_error (newArray_ne_push _ _) fun _ _ =>
    Outcome.bind_ne_error
      (Outcome.bind_ne_error (ringBuffer_new_ne_push _) fun _ _ => fillFrom_ne_push) (by simp)

theorem objectPool_new_ne_push {T : Type} [Sized (Option T)] {poolId : UInt8} (capacity : UInt32) :
    (ObjectPool.new capacity : Except Fault (ObjectPool T poolId)) ≠ .error .runQueuePush :=
  Outcome.bind_ne_error (newArray_ne_push _ _) fun _ _ =>
    Outcome.bind_ne_error (genAlloc_new_ne_push _ _) (by simp)

theorem executor_new_ne_push {io : Uring} {listeners connHandlers bufCount : UInt32}
    {raw : Option (Nat × (Nat → UInt8))} :
    Executor.new io listeners connHandlers bufCount raw ≠ .error .runQueuePush := by
  have buffers : (BufferPool.new bufCount raw : Except Fault IoBufs) ≠ .error .runQueuePush := by
    apply Outcome.bind_ne_error
    · simp only [AlignedBuffers.new]
      split
      · split <;> simp
      · simp
    · intro made _
      split
      · simp
      · exact Outcome.bind_ne_error (genAlloc_new_ne_push _ _) (by simp)
  apply Outcome.bind_ne_error (objectPool_new_ne_push listeners)
  intro _ _
  apply Outcome.bind_ne_error (objectPool_new_ne_push connHandlers)
  intro _ _
  apply Outcome.bind_ne_error buffers
  intro _ _
  apply Outcome.bind_ne_error (ringBuffer_new_ne_push _)
  intro _ _
  exact Outcome.bind_ne_error (ringBuffer_new_ne_push _) (by simp)

theorem setup_ne_push {e : Executor} : e.setup ≠ .error .runQueuePush := by
  simp only [Executor.setup]
  split
  case isFalse => simp
  split
  · apply Outcome.bind_ne_error _ (by simp)
    apply Outcome.mapM_ne_error
    intro idx
    apply Outcome.bind_ne_error _ (by simp)
    unfold AlignedBuffers.bufPtr
    split <;> simp
  · simp

/-- The listener's first event finds room. -/
theorem start_ne_push (entries : Nat) (listeners connHandlers bufCount : UInt32)
    (raw : Option (Nat × (Nat → UInt8))) :
    start entries listeners connHandlers bufCount raw ≠ .error .runQueuePush := by
  apply Outcome.bind_ne_error executor_new_ne_push
  intro made newRan
  apply Outcome.bind_ne_error setup_ne_push
  intro ready setupRan
  obtain ⟨_, _, _, queue, poolMade, _, _, queueMade, rfl⟩ := Executor.new_eq_ok newRan
  obtain ⟨buffers, _, rfl⟩ := Executor.setup_eq_ok setupRan
  obtain ⟨inv, _⟩ := ObjectPool.inv_of_new poolMade
  obtain ⟨wf, empty, _⟩ := RingBuffer.new_wf queueMade
  apply Outcome.bind_ne_error _ (by simp)
  rcases inv.spawn_spec (TcpServer.new "0.0.0.0:3000" 4096) with
    ⟨refused, _⟩ | ⟨id, pool, spawned, _⟩
  · simp [Executor.seedRunQueue, refused]
  · simp only [Executor.seedRunQueue, spawned, Outcome.ok_bind]
    intro failed
    obtain ⟨_, full⟩ := Executor.pushRunQueue_error wf failed
    change queue.contents.length = queue.size at full
    rw [empty] at full
    exact absurd wf.size_pos (full ▸ Nat.lt_irrefl _)

end Start

/-! ### A batch that does not fit -/

/-- Turns of the executor alone lead from one state to the other. -/
abbrev Turns : Running → Running → Prop :=
  Relation.ReflTransGen fun s s' => ∃ listened, s.step (.tick listened) = some s'

/-- A turn of the executor that is not to wait. -/
theorem step_busy {listened : Result Fd} (busy : s.phase ≠ .submitAndWait)
    (ran : s.tick listened (.ok s.executor.io.cq.length) = .ok s') :
    s.step (.tick listened) = some s' := by
  simp [step, busy, ran]

/-- More than there is room for leads, turn by turn, to a push that fails. -/
theorem overflow (wf : ∀ idx, (s.executor.runQueues idx).WF) (phase : s.phase = .completion)
    (tooMany : (s.executor.runQueues s.executor.nextRunQueueIdx).size < s.backlog) :
    ∃ failing, s.Turns failing ∧
      ∀ listened submitted, failing.tick listened submitted = .error .runQueuePush := by
  generalize posted : s.executor.io.cq = cq
  induction cq generalizing s with
  | nil =>
      rw [backlog_eq wf, posted] at tooMany
      exact absurd (wf _).length_le (Nat.not_le_of_lt tooMany)
  | cons cqe cq inductionHypothesis =>
      by_cases full : s.Full s.executor.nextRunQueueIdx
      · exact ⟨s, .refl, tick_full wf phase posted full⟩
      · obtain ⟨queue, push, ran⟩ := tick_room wf phase posted full (.ok 0) (.ok _)
        obtain ⟨_, _, sized, _⟩ := RingBuffer.push_inv (wf _) push
        have sized' : ((s.reaped queue cq).executor.runQueues
            (s.reaped queue cq).executor.nextRunQueueIdx).size =
            (s.executor.runQueues s.executor.nextRunQueueIdx).size :=
          Executor.update_size sized _
        have tooMany' : ((s.reaped queue cq).executor.runQueues
            (s.reaped queue cq).executor.nextRunQueueIdx).size <
            (s.reaped queue cq).backlog := by
          rwa [sized', backlog_reaped wf posted push]
        obtain ⟨failing, turns, fails⟩ := inductionHypothesis (s := s.reaped queue cq)
          (Executor.events_pushed wf push).2 rfl tooMany' rfl
        have stepped : s.step (.tick (.ok 0)) = some (s.reaped queue cq) :=
          step_busy (by simp [phase]) ran
        exact ⟨failing, .head ⟨_, stepped⟩ turns, fails⟩

/-- In a run on any kernel in which what is drained always fits into the next queue, no push onto a
run queue fails: not that of the listener at the start, not a retry, not a spawned handler, not a
completion.  From such a run a step after which it does not fit leads, by turns of the executor
alone, to a push that fails. -/
theorem run_queues_fit {listeners connHandlers bufCount : UInt32} :
    (∀ entries raw, start entries listeners connHandlers bufCount raw ≠ .error .runQueuePush) ∧
    ∀ s, (machine listeners connHandlers bufCount).Reach (DrainFits (connHandlers.toNat * 2)) s →
      (∀ listened submitted, s.tick listened submitted ≠ .error .runQueuePush) ∧
      ∀ label s', s.step label = some s' → ¬ DrainFits (connHandlers.toNat * 2) s label s' →
        ∃ failing, s'.Turns failing ∧
          ∀ listened submitted, failing.tick listened submitted = .error .runQueuePush := by
  refine ⟨fun entries => start_ne_push entries _ _ _, fun s reached => ?_⟩
  have bound : s.QueueBound (connHandlers.toNat * 2) :=
    reached.invariant (QueueBound _) (fun _ ⟨_, _, started⟩ => queueBound_start started)
      fun _ _ _ bound stepped fits => bound.move (step_move stepped) fits
  refine ⟨bound.tick_ne_push, fun label s' stepped tooMany => ?_⟩
  obtain ⟨phase, more⟩ := overfull stepped tooMany
  have move := step_move stepped
  apply overflow (bound.queues.move move).wf phase
  rwa [size_move bound.queues.wf move, bound.sizes]

/-- The turns up to a `submit_and_wait` in which two of the four reads of the only connection have
failed with `EAGAIN`: each read that fails so is submitted twice again. -/
def readsDoubled : List RunLabel :=
  acceptOne ++ [.take, .complete 1 (-11) 0 []] ++ ticks 8 ++
    [.take, .take, .complete 1 (-11) 0 [], .complete 1 (-11) 0 []] ++ ticks 13 ++
    [.take, .take, .take, .take, .complete 1 (-11) 0 [], .complete 1 (-11) 0 []]

set_option maxRecDepth 100000 in
/-- A pool of one handler.  Two reads that failed fit into the next queue; the third, posted while
they are drained, does not. -/
theorem run_queues_fit_doubled :
    ∃ s s' failing : Running, (machine 1 1 1).Reachable s ∧ s.backlog = 2 ∧
      (∀ listened submitted, s.tick listened submitted ≠ .error .runQueuePush) ∧
      s.step (.complete 1 (-11) 0 []) = some s' ∧ s'.Turns failing ∧
      ∀ listened submitted, failing.tick listened submitted = .error .runQueuePush := by
  obtain ⟨s, reached, ends⟩ : ∃ s, (machine 1 1 1).Reach (DrainFits 2) s ∧
      (s.phase == .completion && s.backlog == 2 &&
        (s.step (.complete 1 (-11) 0 [])).isSome) = true :=
    @exists_reach_of_start 16 1 1 1 (some (0x1000, fun _ => 0)) _
      (fun s label _ => drainFits 2 s label) (fun _ _ _ passed => drainFits_sound passed)
      (readsDoubled ++ ticks 1) _ (by decide +kernel)
  simp only [Bool.and_eq_true, beq_iff_eq, Option.isSome_iff_exists] at ends
  obtain ⟨⟨phase, full⟩, s', stepped⟩ := ends
  obtain ⟨fits, fails⟩ := run_queues_fit.2 s reached
  have tooMany : ¬ DrainFits 2 s (.complete 1 (-11) 0 []) s' := by
    simp [DrainFits, phase, full]
  obtain ⟨failing, turns, failed⟩ := fails _ s' stepped tooMany
  exact ⟨s, s', failing, reached.reachable, full, fits, stepped, turns, failed⟩

end Running

namespace Hosted

variable {s : Hosted} {listeners connHandlers bufCount : UInt32}

/-- A condition on the steps of the executor and its kernel. -/
def onRunning (guard : Machine.Guard Running RunLabel) : Machine.Guard Hosted RunLabel :=
  fun s label s' => guard s.running label s'.running

/-- The turns up to the `submit_and_wait` in which the slot of the only connection is closed and
accepted again. -/
def closeAndReaccept : List RunLabel :=
  Running.acceptOne ++ [.take, .complete 1 0 0 []] ++ Running.ticks 7 ++
    [.take, .complete 1 0 0 [], .complete 0 0 2 []]

set_option maxRecDepth 100000 in
/-- A table of one slot, in a pool of one.  The close of the slot, its next accept and the end of
that accept are completed before the executor learns of any: they are three completions, and the
next run queue has room for two. -/
theorem run_queue_overflow :
    ∃ s, (machine 1 1 1).Reachable s ∧
      ∀ listened submitted, s.running.tick listened submitted = .error .runQueuePush := by
  let fails (s : Hosted) : Bool :=
    match s.running.tick (.ok 3) (.ok 1) with
    | .error fault => s.running.phase == .completion && fault == .runQueuePush
    | .ok _ => false
  obtain ⟨s, reached, ends⟩ : ∃ s, (machine 1 1 1).Reachable s ∧ fails s = true :=
    @exists_reach_of_start 16 1 1 1 (some (0x1000, fun _ => 0)) _ (fun _ _ _ => true)
      (fun _ _ _ _ => trivial)
      (closeAndReaccept ++ [.complete 0 (-23) 0 []] ++ Running.ticks 3) _ (by decide +kernel)
  refine ⟨s, reached, fun listened submitted => ?_⟩
  simp only [fails] at ends
  split at ends
  · rename_i fault failed
    obtain ⟨phase, same⟩ := Bool.and_eq_true_iff.mp ends
    rw [beq_iff_eq.mp same] at failed
    simp only [Running.tick, beq_iff_eq.mp phase] at failed ⊢
    exact failed
  · cases ends

end Hosted

end Hoarder
