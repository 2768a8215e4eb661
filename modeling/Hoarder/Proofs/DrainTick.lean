/-
Module: Hoarder.Proofs.DrainTick
Purpose: What a step of the executor does to the two run queues.  `DrainTick` lists the turns of the
  loop that drains the current queue; what a step pushes for the next tick is `pushedNext`; no step
  changes the size of a queue, and the kernel changes nothing of them.
Trusted boundary: none
Main exports: MachineIntent.spawns, MachineEvent.accepts, RunPhase.spawns, Running.taken,
  Running.handed, Running.Hands, Running.hands_of_tick, Running.pushedNext, Running.DrainTick,
  Running.drainTick, Running.DrainTick.room, Running.nextEvents_tick, Running.waiting_tick,
  Running.kernel_events
-/
import Hoarder.Proofs.Agenda

namespace Hoarder

open Foundation

/-- Whether the intent pushes the spawn of a new handler. -/
def MachineIntent.spawns : MachineIntent → Bool
  | .spawnConnHandler _ => true
  | .retry | .terminate | .closeFixed _ | .submitMultishotAccept _ | .submitRecv _ _ _ => false

/-- A listener spawns one handler for a completion, if any. -/
theorem ListenerMove.spawns_le {self self' : TcpServer} {listened : Result Fd} {event : MachineEvent}
    {intents : List MachineIntent} (move : ListenerMove self listened event self' intents) :
    intents.countP MachineIntent.spawns ≤ 1 := by
  cases move with
  | listening | refused | failed | ignored => exact Nat.zero_le 1
  | accepted | rearmed => exact Nat.le_refl 1

/-- A handler spawns nothing. -/
theorem ConnMove.spawns_none {self self' : ConnHandler} {buffers buffers' : IoBufs}
    {event : MachineEvent} {intents : List MachineIntent}
    (move : ConnMove self buffers event self' buffers' intents) :
    intents.countP MachineIntent.spawns = 0 := by
  cases move <;> rfl

/-- How many handlers the event can make a listener spawn. -/
def MachineEvent.accepts : MachineEvent → Nat
  | .spawn => 0
  | .ioCompleted _ _ => 1

theorem MachineEvent.accepts_le (event : MachineEvent) : event.accepts ≤ 1 := by
  cases event with
  | spawn => exact Nat.zero_le 1
  | ioCompleted res flags => exact Nat.le_refl 1

/-- The handlers that the event in progress still spawns. -/
def RunPhase.spawns : RunPhase → Nat
  | .completeIntent _ intents => intents.countP MachineIntent.spawns
  | .drain | .submitAndWait | .completion => 0

/-- A listener submits at most two intents. -/
theorem ListenerMove.length_le {self self' : TcpServer} {listened : Result Fd} {event : MachineEvent}
    {intents : List MachineIntent} (move : ListenerMove self listened event self' intents) :
    intents.length ≤ 2 := by
  cases move <;> simp

/-- Only a completion makes a listener spawn a handler. -/
theorem ListenerMove.spawns_le_accepts {self self' : TcpServer} {listened : Result Fd}
    {event : MachineEvent} {intents : List MachineIntent}
    (move : ListenerMove self listened event self' intents) :
    intents.countP MachineIntent.spawns ≤ event.accepts := by
  cases event with
  | spawn => cases move <;> simp [MachineIntent.spawns]
  | ioCompleted res flags => exact move.spawns_le

/-- A handler submits at most two intents. -/
theorem ConnMove.length_le {self self' : ConnHandler} {buffers buffers' : IoBufs}
    {event : MachineEvent} {intents : List MachineIntent}
    (move : ConnMove self buffers event self' buffers' intents) : intents.length ≤ 2 := by
  cases move <;> simp

/-- The places of the queue that is drained. -/
def Executor.currentSize (e : Executor) : Nat :=
  (e.runQueues e.currentRunQueue).size

namespace Running

variable {s s' t t' : Running} {label : RunLabel}

/-- No step changes the size of a queue. -/
theorem size_move (wf : ∀ idx, (s.executor.runQueues idx).WF) (move : RunMove s label s')
    (idx : Fin 2) : (s'.executor.runQueues idx).size = (s.executor.runQueues idx).size := by
  have popped : ∀ {answer queue},
      (s.executor.runQueues s.executor.currentRunQueue).pop = .ok (answer, queue) →
      ((s.executor.popped queue).runQueues idx).size = (s.executor.runQueues idx).size := by
    intro answer queue pop
    apply Executor.update_size
    rcases RingBuffer.pop_inv (wf _) pop with ⟨_, _, rfl⟩ | ⟨_, _, _, _, sized⟩
    · rfl
    · exact sized
  have pushed : ∀ {other event queue},
      (s.executor.runQueues other).push event = (.ok (), queue) →
      ((s.executor.pushed other queue).runQueues idx).size = (s.executor.runQueues idx).size := by
    intro other event queue push
    obtain ⟨_, _, sized, _⟩ := RingBuffer.push_inv (wf other) push
    exact Executor.update_size sized idx
  cases move with
  | missing listened event queue phase pop => exact popped pop
  | listener listened event queue listener listener' intents phase pop => exact popped pop
  | handler listened event queue handler handler' buffers intents phase pop => exact popped pop
  | drained listened queue phase pop => exact popped pop
  | retry listened handle rest queue phase push => exact pushed push
  | spawned listened handle fixed rest fresh pool queue phase spawn push => exact pushed push
  | reap listened cqe cq queue phase posted push => exact pushed push
  | finished | submit | terminateListener | terminate | wait | switch | take | complete => rfl

/-- The event that a turn of the loop pops. -/
def taken (t : Running) : List RunQueueEvent :=
  match t.phase, (t.executor.runQueues t.executor.currentRunQueue).pop with
  | .drain, .ok (some event, _) => [event]
  | _, _ => []

/-- The event that a turn of the loop dispatches: it is popped, and the machine that its handle names
has processed it. -/
def handed (t : Running) (listened : Result Fd) : List RunQueueEvent :=
  match t.phase, (t.executor.runQueues t.executor.currentRunQueue).pop with
  | .drain, .ok (some event, queue) =>
      match (t.executor.popped queue).dispatch listened event with
      | .ok _ => [event]
      | .error _ => []
  | _, _ => []

/-- A turn that dispatches the event: it pops it, the machine that its handle names processes it, and
the intents which that submitted are those to be completed next. -/
inductive Hands (t : Running) (event : RunQueueEvent) : Running → Prop where
  | dispatch (listened : Result Fd) (queue : RingBuffer RunQueueEvent) (executor : Executor)
      (intents : List MachineIntent) (phase : t.phase = .drain)
      (pop : (t.executor.runQueues t.executor.currentRunQueue).pop = .ok (some event, queue))
      (ran : (t.executor.popped queue).dispatch listened event = .ok (executor, intents)) :
      t.Hands event ⟨executor, .completeIntent event.handle intents⟩

/-- The event that a step of the executor pushes for the next tick. -/
def pushedNext (t : Running) : List RunQueueEvent :=
  match t.phase, t.executor.io.cq with
  | .completeIntent handle (.retry :: _), _ => [⟨.spawn, handle⟩]
  | .completion, cqe :: _ => [cqe.event]
  | _, _ => []

/-- What one turn of the drain loop does to the current queue. -/
inductive DrainTick (t t' : Running) : Prop where
  | dispatched (event : RunQueueEvent) (intents : List MachineIntent) (phase : t.phase = .drain)
      (phase' : t'.phase = .completeIntent event.handle intents) (few : intents.length ≤ 2)
      (spawning : intents.countP MachineIntent.spawns ≤ event.reason.accepts)
      (taken : t.taken = [event])
      (current : t.executor.currentEvents = event :: t'.executor.currentEvents)
  | drained (phase : t.phase = .drain) (phase' : t'.phase = .submitAndWait) (taken : t.taken = [])
      (current : t.executor.currentEvents = []) (current' : t'.executor.currentEvents = [])
  | finished (handle : ObjectHandle) (phase : t.phase = .completeIntent handle [])
      (phase' : t'.phase = .drain) (taken : t.taken = [])
      (current : t'.executor.currentEvents = t.executor.currentEvents)
  | completed (handle : ObjectHandle) (intent : MachineIntent) (rest : List MachineIntent)
      (phase : t.phase = .completeIntent handle (intent :: rest))
      (phase' : t'.phase = .completeIntent handle rest) (spawning : intent.spawns = false)
      (taken : t.taken = []) (current : t'.executor.currentEvents = t.executor.currentEvents)
  | spawned (handle : ObjectHandle) (intent : MachineIntent) (rest : List MachineIntent)
      (fresh : ObjectHandle) (phase : t.phase = .completeIntent handle (intent :: rest))
      (phase' : t'.phase = .completeIntent handle rest) (spawning : intent.spawns = true)
      (taken : t.taken = [])
      (current : t'.executor.currentEvents = t.executor.currentEvents ++ [⟨.spawn, fresh⟩])

/-- A step of the executor appends to the queue for the next tick what it pushes there; only the
switch, which takes the queue into use, does not. -/
theorem nextEvents_tick {listened : Result Fd} (wf : ∀ idx, (t.executor.runQueues idx).WF)
    (move : RunMove t (.tick listened) t') (noSwitch : t.phase = .completion → t'.phase ≠ .drain) :
    t'.executor.nextEvents = t.executor.nextEvents ++ t.pushedNext := by
  cases move with
  | missing _ event queue phase | drained _ queue phase
  | listener _ event queue listener listener' intents phase
  | handler _ event queue handler handler' buffers intents phase =>
      have quiet : t.pushedNext = [] := by simp [pushedNext, phase]
      rw [quiet, List.append_nil]
      exact Executor.popped_nextEvents
  | retry _ handle rest queue phase push =>
      have retried : t.pushedNext = [⟨.spawn, handle⟩] := by simp [pushedNext, phase]
      rw [retried]
      exact (Executor.pushed_nextEvents wf push).1
  | spawned _ handle fixed rest fresh pool queue phase spawn push =>
      have quiet : t.pushedNext = [] := by simp [pushedNext, phase]
      rw [quiet, List.append_nil]
      exact (Executor.pushed_currentEvents wf push).2
  | reap _ cqe cq queue phase posted push =>
      have reaped : t.pushedNext = [cqe.event] := by simp [pushedNext, phase, posted]
      rw [reaped]
      exact (Executor.pushed_nextEvents wf push).1
  | switch _ phase => exact absurd rfl (noSwitch phase)
  | submit _ handle intent rest sqe phase submits =>
      have quiet : t.pushedNext = [] := by cases submits <;> simp [pushedNext, phase]
      rw [quiet, List.append_nil]
      rfl
  | finished _ handle phase | wait _ phase | terminateListener _ handle rest freed pool phase
  | terminate _ handle rest freed pool phase =>
      have quiet : t.executor.nextEvents = t.executor.nextEvents ++ t.pushedNext := by
        simp [pushedNext, phase]
      exact quiet

/-- Outside of the completions only a retry pushes for the next tick. -/
theorem mem_pushedNext {event : RunQueueEvent} (phase : t.phase ≠ .completion)
    (added : event ∈ t.pushedNext) :
    ∃ handle rest, t.phase = .completeIntent handle (.retry :: rest) ∧
      event = ⟨.spawn, handle⟩ := by
  unfold pushedNext at added
  split at added
  · rename_i handle rest retrying
    exact ⟨handle, rest, retrying, List.mem_singleton.mp added⟩
  · rename_i reaping _
    exact absurd reaping phase
  · cases added

/-- From `submit_and_wait` on completions are drained, until the switch exchanges the queues. -/
theorem waiting_tick {listened : Result Fd} (wf : ∀ idx, (t.executor.runQueues idx).WF)
    (waiting : t.phase = .submitAndWait ∨ t.phase = .completion)
    (move : RunMove t (.tick listened) t') :
    (t'.phase = .completion ∧ t'.executor.currentEvents = t.executor.currentEvents) ∨
    (t'.phase = .drain ∧ t'.executor.currentEvents = t.executor.nextEvents ∧
      t'.executor.nextEvents = t.executor.currentEvents) := by
  cases move with
  | wait _ phase => exact .inl ⟨rfl, rfl⟩
  | reap _ cqe cq queue phase posted push =>
      exact .inl ⟨rfl, (Executor.pushed_nextEvents wf push).2⟩
  | switch _ phase =>
      refine .inr ⟨rfl, rfl, ?_⟩
      rw [Executor.nextEvents, Executor.switchRunQueue_next]
      rfl
  | missing _ _ _ phase | listener _ _ _ _ _ _ phase | handler _ _ _ _ _ _ _ phase
  | drained _ _ phase | finished _ _ phase | retry _ _ _ _ phase | submit _ _ _ _ _ phase
  | spawned _ _ _ _ _ _ _ phase | terminateListener _ _ _ _ _ phase
  | terminate _ _ _ _ _ phase => simp [phase] at waiting

/-- The turn that pops an event. -/
theorem taken_popped (wf : ∀ idx, (t.executor.runQueues idx).WF) {event : RunQueueEvent}
    {queue : RingBuffer RunQueueEvent} (phase : t.phase = .drain)
    (pop : (t.executor.runQueues t.executor.currentRunQueue).pop = .ok (some event, queue)) :
    t.taken = [event] ∧
      t.executor.currentEvents = event :: (t.executor.popped queue).currentEvents := by
  rcases RingBuffer.pop_inv (wf _) pop with ⟨none, _⟩ | ⟨data, same, contents, _⟩
  · cases none
  · cases same
    refine ⟨by simp [taken, phase, pop], ?_⟩
    rw [Executor.popped_currentEvents]
    exact contents

/-- Only a turn that pops takes an event. -/
theorem taken_nil (phase : t.phase ≠ .drain) : t.taken = [] := by
  unfold taken
  split
  · rename_i draining _
    exact absurd draining phase
  · rfl

/-- A turn that pops an event and returns has dispatched it. -/
theorem hands_of_tick {listened : Result Fd} {submitted : Result Nat}
    (ran : t.tick listened submitted = .ok t') :
    (∃ event, t.Hands event t' ∧ t.taken = [event] ∧ t.handed listened = [event]) ∨
      (t.taken = [] ∧ t.handed listened = []) := by
  by_cases phase : t.phase = .drain
  · simp only [tick, phase] at ran
    obtain ⟨⟨popped, queue⟩, pop, ran⟩ := Outcome.bind_eq_ok.mp ran
    cases popped with
    | none => exact .inr ⟨by simp [taken, phase, pop], by simp [handed, phase, pop]⟩
    | some event =>
        obtain ⟨⟨executor, intents⟩, dispatched, ran⟩ := Outcome.bind_eq_ok.mp ran
        cases ran
        have dispatched' :
            (t.executor.popped queue).dispatch listened event = .ok (executor, intents) := dispatched
        exact .inl ⟨event, .dispatch listened queue executor intents phase pop dispatched',
          by simp [taken, phase, pop], by simp [handed, phase, pop, dispatched']⟩
  · refine .inr ⟨taken_nil phase, ?_⟩
    unfold handed
    split
    · rename_i draining _
      exact absurd draining phase
    · rfl

/-- What a turn that returns has popped, it has dispatched. -/
theorem handed_eq_taken {listened : Result Fd} {submitted : Result Nat}
    (ran : t.tick listened submitted = .ok t') : t.handed listened = t.taken := by
  rcases hands_of_tick ran with ⟨_, _, taken, handed⟩ | ⟨taken, handed⟩ <;> rw [taken, handed]

/-- What a step of the executor has popped, it has dispatched. -/
theorem handed_step {listened : Result Fd} (stepped : t.step (.tick listened) = some t') :
    t.handed listened = t.taken := by
  simp only [step] at stepped
  split at stepped
  · cases stepped
  · split at stepped <;> cases stepped
    rename_i ran
    exact handed_eq_taken ran

/-- The turn that dispatches is one of `run`, and pushes nothing for the next tick. -/
theorem Hands.tick {event : RunQueueEvent} (hands : t.Hands event t') :
    t.phase = .drain ∧ t.taken = [event] ∧ t.pushedNext = [] ∧
      ∃ listened, ∀ submitted, t.tick listened submitted = .ok t' := by
  obtain ⟨listened, queue, executor, intents, phase, pop, ran⟩ := hands
  refine ⟨phase, by simp [taken, phase, pop], by simp [pushedNext, phase], listened,
    fun submitted => ?_⟩
  rw [Executor.popped] at ran
  simp only [Running.tick, phase, pop, Outcome.ok_bind, ran]
  rfl

/-- Every step of the executor in the drain loop is one of its turns. -/
theorem drainTick {listened : Result Fd} (wf : ∀ idx, (t.executor.runQueues idx).WF)
    (looping : t.phase ≠ .submitAndWait ∧ t.phase ≠ .completion)
    (move : RunMove t (.tick listened) t') : t.DrainTick t' := by
  cases move with
  | missing _ event queue phase pop =>
      obtain ⟨taken, current⟩ := taken_popped wf phase pop
      exact .dispatched event [] phase rfl (by simp) (by simp) taken current
  | listener _ event queue listener listener' intents phase pop kind found move =>
      obtain ⟨taken, current⟩ := taken_popped wf phase pop
      exact .dispatched event intents phase rfl move.length_le move.spawns_le_accepts taken current
  | handler _ event queue handler handler' buffers intents phase pop kind found move =>
      obtain ⟨taken, current⟩ := taken_popped wf phase pop
      exact .dispatched event intents phase rfl move.length_le
        (move.spawns_none.trans_le (Nat.zero_le _)) taken current
  | drained _ queue phase pop =>
      rcases RingBuffer.pop_inv (wf _) pop with ⟨_, empty, rfl⟩ | ⟨_, same, _⟩
      · apply DrainTick.drained phase rfl (by simp [taken, phase, pop]) empty
        exact Executor.popped_currentEvents.trans empty
      · cases same
  | finished _ handle phase => exact .finished handle phase rfl (taken_nil (by simp [phase])) rfl
  | retry _ handle rest queue phase push =>
      exact .completed handle .retry rest phase rfl rfl (taken_nil (by simp [phase]))
        (Executor.pushed_nextEvents wf push).2
  | submit _ handle intent rest sqe phase submits =>
      exact .completed handle intent rest phase rfl (by cases submits <;> rfl)
        (taken_nil (by simp [phase])) rfl
  | spawned _ handle fixed rest fresh pool queue phase spawn push =>
      exact .spawned handle (.spawnConnHandler fixed) rest fresh phase rfl rfl
        (taken_nil (by simp [phase])) (Executor.pushed_currentEvents wf push).1
  | terminateListener _ handle rest freed pool phase
  | terminate _ handle rest freed pool phase =>
      exact .completed handle .terminate rest phase rfl rfl (taken_nil (by simp [phase])) rfl
  | wait _ phase => exact absurd phase looping.1
  | reap _ cqe cq queue phase | switch _ phase => exact absurd phase looping.2

/-- A turn keeps room in the current queue: an event makes room for the handler it spawns. -/
theorem DrainTick.room {size : Nat} (tick : t.DrainTick t')
    (room : t.executor.currentEvents.length + t.phase.spawns ≤ size) :
    t'.executor.currentEvents.length + t'.phase.spawns ≤ size := by
  cases tick with
  | dispatched event intents phase phase' few spawning taken current =>
      rw [phase, RunPhase.spawns, current, List.length_cons] at room
      have atMostOne := event.reason.accepts_le
      rw [phase', RunPhase.spawns]
      omega
  | drained phase phase' taken current current' => simp [phase', RunPhase.spawns, current']
  | finished handle phase phase' taken current =>
      rw [phase', RunPhase.spawns, current]
      exact (Nat.le_add_right _ _).trans room
  | completed handle intent rest phase phase' spawning taken current =>
      rw [phase, RunPhase.spawns, List.countP_cons_of_neg (by simp [spawning])] at room
      rwa [phase', RunPhase.spawns, current]
  | spawned handle intent rest fresh phase phase' spawning taken current =>
      rw [phase, RunPhase.spawns, List.countP_cons_of_pos spawning] at room
      rw [phase', RunPhase.spawns, current, List.length_append, List.length_singleton]
      omega

/-- The current queue keeps its size until the switch. -/
theorem currentSize_tick {listened : Result Fd} (wf : ∀ idx, (t.executor.runQueues idx).WF)
    (looping : t.phase ≠ .completion) (move : RunMove t (.tick listened) t') :
    t'.executor.currentSize = t.executor.currentSize := by
  have sameIdx : t'.executor.currentRunQueue = t.executor.currentRunQueue := by
    cases move with
    | switch _ phase => exact absurd phase looping
    | missing | listener | handler | drained | finished | retry | submit | spawned
    | terminateListener | terminate | wait | reap => rfl
  rw [Executor.currentSize, sameIdx]
  exact size_move wf move _

/-- A step of the kernel leaves the queues and the place in `run`. -/
theorem kernel_events {label : RunLabel} (other : ∀ listened, label ≠ .tick listened)
    (move : RunMove t label t') :
    t'.phase = t.phase ∧ t'.executor.currentEvents = t.executor.currentEvents ∧
      t'.executor.nextEvents = t.executor.nextEvents ∧
      t'.executor.currentSize = t.executor.currentSize := by
  cases move with
  | take | complete => exact ⟨rfl, rfl, rfl, rfl⟩
  | missing listened | listener listened | handler listened | drained listened | finished listened
  | retry listened | submit listened | spawned listened | terminateListener listened
  | terminate listened | wait listened | reap listened | switch listened =>
      exact absurd rfl (other listened)

end Running

end Hoarder
