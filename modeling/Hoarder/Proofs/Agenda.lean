/-
Module: Hoarder.Proofs.Agenda
Purpose: The work a running executor still has before it, in the order in which it comes to it: the
  intents of the event in progress, the two run queues, and the completions not reaped.  `Progress`
  lists what a step does to this list, to the operations at the kernel, and to the machines.
Trusted boundary: none
Main exports: Executor.currentEvents, Executor.nextEvents, AgendaItem, Running.agenda, Running.ops,
  Running.QueueInv, Running.Progress, Running.QueueInv.progress, Running.wf_move,
  Running.queueInv_start
-/
import Hoarder.Proofs.ExecutorHandlers

namespace Hoarder

open Foundation

/-- The event a completion becomes when it is reaped. -/
def Cqe.event (cqe : Cqe) : RunQueueEvent :=
  ⟨.ioCompleted cqe.result cqe.flags, ⟨cqe.userData⟩⟩

namespace Executor

/-- The events before the executor: the current queue, the next one, and the completions. -/
def events (e : Executor) : List RunQueueEvent :=
  (e.runQueues e.currentRunQueue).contents ++ (e.runQueues e.nextRunQueueIdx).contents ++
    e.io.cq.map Cqe.event

variable {e : Executor} {event : RunQueueEvent} {queue : RingBuffer RunQueueEvent}

theorem nextRunQueueIdx_ne (e : Executor) : e.nextRunQueueIdx ≠ e.currentRunQueue := by
  have apart : ∀ idx : Fin 2, 1 - idx ≠ idx := by decide
  exact apart e.currentRunQueue

theorem eq_nextRunQueueIdx {idx : Fin 2} (different : idx ≠ e.currentRunQueue) :
    idx = e.nextRunQueueIdx := by
  have onlyTwo : ∀ idx current : Fin 2, idx ≠ current → idx = 1 - current := by decide
  exact onlyTwo idx e.currentRunQueue different

theorem update_wf (wf : ∀ idx, (e.runQueues idx).WF) (queueWf : queue.WF) (changed : Fin 2) :
    ∀ idx, (Function.update e.runQueues changed queue idx).WF := by
  intro idx
  rcases eq_or_ne idx changed with rfl | different
  · rwa [Function.update_self]
  · rw [Function.update_of_ne different]
    exact wf idx

/-- A queue that is replaced by one of its size keeps the sizes. -/
theorem update_size {changed : Fin 2} (sized : queue.size = (e.runQueues changed).size)
    (idx : Fin 2) :
    (Function.update e.runQueues changed queue idx).size = (e.runQueues idx).size := by
  rcases eq_or_ne idx changed with rfl | different
  · rw [Function.update_self, sized]
  · rw [Function.update_of_ne different]

/-- The events of the queue that is drained. -/
def currentEvents (e : Executor) : List RunQueueEvent :=
  (e.runQueues e.currentRunQueue).contents

/-- The events that wait for the next turn of the loop. -/
def nextEvents (e : Executor) : List RunQueueEvent :=
  (e.runQueues e.nextRunQueueIdx).contents

theorem events_eq : e.events = e.currentEvents ++ e.nextEvents ++ e.io.cq.map Cqe.event := rfl

theorem popped_currentEvents : (e.popped queue).currentEvents = queue.contents :=
  congrArg RingBuffer.contents (Function.update_self ..)

theorem popped_nextEvents : (e.popped queue).nextEvents = e.nextEvents :=
  congrArg RingBuffer.contents (Function.update_of_ne e.nextRunQueueIdx_ne ..)

theorem pushed_self (idx : Fin 2) (queue : RingBuffer RunQueueEvent) :
    (e.pushed idx queue).runQueues idx = queue :=
  Function.update_self ..

theorem pushed_other {idx other : Fin 2} (different : other ≠ idx) :
    (e.pushed idx queue).runQueues other = e.runQueues other :=
  Function.update_of_ne different ..

theorem pushed_currentEvents (wf : ∀ idx, (e.runQueues idx).WF)
    (push : (e.runQueues e.currentRunQueue).push event = (.ok (), queue)) :
    (e.pushed e.currentRunQueue queue).currentEvents = e.currentEvents ++ [event] ∧
      (e.pushed e.currentRunQueue queue).nextEvents = e.nextEvents := by
  obtain ⟨_, _, _, contents⟩ := RingBuffer.push_inv (wf _) push
  exact ⟨(congrArg RingBuffer.contents (pushed_self ..)).trans contents,
    congrArg RingBuffer.contents (pushed_other e.nextRunQueueIdx_ne)⟩

theorem pushed_nextEvents (wf : ∀ idx, (e.runQueues idx).WF)
    (push : (e.runQueues e.nextRunQueueIdx).push event = (.ok (), queue)) :
    (e.pushed e.nextRunQueueIdx queue).nextEvents = e.nextEvents ++ [event] ∧
      (e.pushed e.nextRunQueueIdx queue).currentEvents = e.currentEvents := by
  obtain ⟨_, _, _, contents⟩ := RingBuffer.push_inv (wf _) push
  exact ⟨(congrArg RingBuffer.contents (pushed_self ..)).trans contents,
    congrArg RingBuffer.contents (pushed_other (Ne.symm e.nextRunQueueIdx_ne))⟩

/-- The queue that was drained is filled next. -/
theorem switchRunQueue_next : e.switchRunQueue.nextRunQueueIdx = e.currentRunQueue := by
  have twice : ∀ idx : Fin 2, 1 - (1 - idx) = idx := by decide
  exact twice e.currentRunQueue

/-- A pop takes the first event. -/
theorem events_popped (wf : ∀ idx, (e.runQueues idx).WF)
    (pop : (e.runQueues e.currentRunQueue).pop = .ok (some event, queue)) :
    e.events = event :: (e.popped queue).events ∧ ∀ idx, ((e.popped queue).runQueues idx).WF := by
  rcases RingBuffer.pop_inv (wf _) pop with ⟨none, _⟩ | ⟨data, same, contents, queueWf, _⟩
  · cases none
  · cases same
    refine ⟨?_, update_wf wf queueWf _⟩
    have current : e.currentEvents = event :: queue.contents := contents
    rw [events_eq, events_eq, popped_currentEvents, popped_nextEvents, current]
    rfl

/-- A push onto one of the queues adds an event behind it. -/
theorem events_pushed (wf : ∀ idx, (e.runQueues idx).WF) {idx : Fin 2}
    (push : (e.runQueues idx).push event = (.ok (), queue)) :
    (∃ front back, e.events = front ++ back ∧ (e.pushed idx queue).events = front ++ event :: back) ∧
      ∀ idx', ((e.pushed idx queue).runQueues idx').WF := by
  obtain ⟨_, queueWf, _, _⟩ := RingBuffer.push_inv (wf idx) push
  refine ⟨?_, update_wf wf queueWf _⟩
  have sameCq : (e.pushed idx queue).io.cq = e.io.cq := rfl
  rw [events_eq, events_eq, sameCq]
  by_cases current : idx = e.currentRunQueue
  · subst current
    obtain ⟨added, next⟩ := pushed_currentEvents wf push
    refine ⟨e.currentEvents, e.nextEvents ++ e.io.cq.map Cqe.event, by simp, ?_⟩
    rw [added, next]
    simp
  · obtain rfl := eq_nextRunQueueIdx current
    obtain ⟨added, same⟩ := pushed_nextEvents wf push
    refine ⟨e.currentEvents ++ e.nextEvents, e.io.cq.map Cqe.event, by simp, ?_⟩
    rw [added, same]
    simp

end Executor

/-- One thing the executor has before it. -/
inductive AgendaItem where
  | intent (handle : ObjectHandle) (intent : MachineIntent)
  | event (event : RunQueueEvent)
deriving DecidableEq, Repr

/-- The intents of the event in progress. -/
def RunPhase.items : RunPhase → List AgendaItem
  | .completeIntent handle intents => intents.map (.intent handle)
  | _ => []

namespace Running

variable {s s' : Running} {label : RunLabel}

/-- What the executor has before it, in order. -/
def agenda (s : Running) : List AgendaItem :=
  s.phase.items ++ s.executor.events.map .event

/-- The operations at the kernel, taken or not. -/
def ops (s : Running) : Multiset Sqe :=
  (s.executor.io.sq ++ s.executor.io.inFlight : List Sqe)

/-- The listener an id resolves to. -/
def listenerAt (s : Running) (id : GenId) : Option TcpServer :=
  s.executor.tcpListenerPool.lookup id

/-- The queues are well formed, and the current one is empty once it was drained. -/
structure QueueInv (s : Running) : Prop where
  handlers : s.HandlerInv
  listeners : s.executor.tcpListenerPool.Inv
  wf : ∀ idx, (s.executor.runQueues idx).WF
  drained : s.phase = .submitAndWait ∨ s.phase = .completion →
    (s.executor.runQueues s.executor.currentRunQueue).contents = []

/-- What a step does to the agenda, the operations at the kernel, and the machines. -/
inductive Progress (s : Running) : RunLabel → Running → Prop where
  | idle (label : RunLabel) (s' : Running) (kernel : ∀ index result flags data,
        label ≠ .complete index result flags data)
      (agenda : s'.agenda = s.agenda) (ops : s'.ops = s.ops)
      (handlers : s'.handlerAt = s.handlerAt) (listeners : s'.listenerAt = s.listenerAt) :
      Progress s label s'
  | missing (listened : Result Fd) (s' : Running) (event : RunQueueEvent)
      (absent : (event.handle.poolId = tcpServer ∧ s.listenerAt event.handle.genId = none) ∨
        (event.handle.poolId = connHandler ∧ s.handlerAt event.handle.genId = none))
      (agenda : s.agenda = .event event :: s'.agenda) (ops : s'.ops = s.ops)
      (handlers : s'.handlerAt = s.handlerAt) (listeners : s'.listenerAt = s.listenerAt) :
      Progress s (.tick listened) s'
  | handler (listened : Result Fd) (s' : Running) (event : RunQueueEvent)
      (handler handler' : ConnHandler) (intents : List MachineIntent) (rest : List AgendaItem)
      (kind : event.handle.poolId = connHandler)
      (found : s.handlerAt event.handle.genId = some handler)
      (move : ConnMove handler s.executor.ioBufs event.reason handler' s'.executor.ioBufs intents)
      (agenda : s.agenda = .event event :: rest)
      (agenda' : s'.agenda = intents.map (.intent event.handle) ++ rest) (ops : s'.ops = s.ops)
      (handlers : s'.handlerAt = Function.update s.handlerAt event.handle.genId (some handler'))
      (listeners : s'.listenerAt = s.listenerAt) :
      Progress s (.tick listened) s'
  | listener (listened : Result Fd) (s' : Running) (event : RunQueueEvent)
      (listener listener' : TcpServer) (intents : List MachineIntent) (rest : List AgendaItem)
      (kind : event.handle.poolId = tcpServer)
      (found : s.listenerAt event.handle.genId = some listener)
      (move : ListenerMove listener listened event.reason listener' intents)
      (agenda : s.agenda = .event event :: rest)
      (agenda' : s'.agenda = intents.map (.intent event.handle) ++ rest) (ops : s'.ops = s.ops)
      (handlers : s'.handlerAt = s.handlerAt)
      (listeners : s'.listenerAt = Function.update s.listenerAt event.handle.genId (some listener')) :
      Progress s (.tick listened) s'
  | retry (listened : Result Fd) (s' : Running) (handle : ObjectHandle)
      (front back : List AgendaItem)
      (agenda : s.agenda = .intent handle .retry :: (front ++ back))
      (agenda' : s'.agenda = front ++ .event ⟨.spawn, handle⟩ :: back) (ops : s'.ops = s.ops)
      (handlers : s'.handlerAt = s.handlerAt) (listeners : s'.listenerAt = s.listenerAt) :
      Progress s (.tick listened) s'
  | submit (listened : Result Fd) (s' : Running) (handle : ObjectHandle) (intent : MachineIntent)
      (sqe : Sqe) (submits : Submits s.executor handle intent sqe)
      (agenda : s.agenda = .intent handle intent :: s'.agenda) (ops : s'.ops = sqe ::ₘ s.ops)
      (handlers : s'.handlerAt = s.handlerAt) (listeners : s'.listenerAt = s.listenerAt) :
      Progress s (.tick listened) s'
  | spawned (listened : Result Fd) (s' : Running) (handle : ObjectHandle) (fixed : Fixed)
      (id : GenId) (front back : List AgendaItem) (small : id.index.toNat < 2 ^ 24)
      (unbound : s.handlerAt id = none)
      (agenda : s.agenda = .intent handle (.spawnConnHandler fixed) :: (front ++ back))
      (agenda' : s'.agenda = front ++ .event ⟨.spawn, .new connHandler id⟩ :: back)
      (ops : s'.ops = s.ops)
      (handlers : s'.handlerAt = Function.update s.handlerAt id (some (ConnHandler.new fixed)))
      (listeners : s'.listenerAt = s.listenerAt) :
      Progress s (.tick listened) s'
  | terminated (listened : Result Fd) (s' : Running) (handle : ObjectHandle)
      (kind : handle.poolId = connHandler)
      (agenda : s.agenda = .intent handle .terminate :: s'.agenda) (ops : s'.ops = s.ops)
      (handlers : s'.handlerAt = Function.update s.handlerAt handle.genId none)
      (listeners : s'.listenerAt = s.listenerAt) :
      Progress s (.tick listened) s'
  | completed (index : Nat) (result : Int32) (flags : UInt32) (data : List UInt8) (s' : Running)
      (sqe : Sqe) (others : Multiset Sqe) (working : s.executor.io.inFlight[index]? = some sqe)
      (agenda : s'.agenda = s.agenda ++ [.event ⟨.ioCompleted result flags, ⟨sqe.userData⟩⟩])
      (ops : s.ops = sqe ::ₘ others)
      (ops' : s'.ops = if staysInFlight sqe.op flags then sqe ::ₘ others else others)
      (handlers : s'.handlerAt = s.handlerAt) (listeners : s'.listenerAt = s.listenerAt) :
      Progress s (.complete index result flags data) s'

theorem agenda_intent {handle : ObjectHandle} {intent : MachineIntent} {rest : List MachineIntent}
    (phase : s.phase = .completeIntent handle (intent :: rest)) :
    s.agenda = .intent handle intent ::
      (rest.map (.intent handle) ++ s.executor.events.map .event) := by
  rw [agenda, phase]
  rfl

theorem agenda_of_events {handle : ObjectHandle} {intents : List MachineIntent} {e : Executor} :
    (Running.mk e (.completeIntent handle intents)).agenda =
      intents.map (.intent handle) ++ e.events.map .event := rfl

/-- A push during `complete_intent` adds its event to the agenda behind the intents. -/
theorem agenda_pushed (wf : ∀ idx, (s.executor.runQueues idx).WF) {handle : ObjectHandle}
    {intent : MachineIntent} {rest : List MachineIntent} {idx : Fin 2} {event : RunQueueEvent}
    {queue : RingBuffer RunQueueEvent}
    (phase : s.phase = .completeIntent handle (intent :: rest))
    (push : (s.executor.runQueues idx).push event = (.ok (), queue)) :
    ∃ front back, s.agenda = .intent handle intent :: (front ++ back) ∧
      (Running.mk (s.executor.pushed idx queue) (.completeIntent handle rest)).agenda =
        front ++ .event event :: back := by
  obtain ⟨⟨front, back, before, after⟩, _⟩ := Executor.events_pushed wf push
  refine ⟨rest.map (.intent handle) ++ front.map .event, back.map .event, ?_, ?_⟩
  · rw [agenda_intent phase, before]
    simp
  · rw [agenda_of_events, after]
    simp

/-- While the queue is drained, the agenda is the events. -/
theorem agenda_events (phase : ∀ handle intents, s.phase ≠ .completeIntent handle intents) :
    s.agenda = s.executor.events.map .event := by
  rw [agenda]
  cases isPhase : s.phase with
  | completeIntent handle intents => exact absurd isPhase (phase handle intents)
  | drain | submitAndWait | completion => rfl

/-- The first event of the agenda of a state that pops it. -/
theorem agenda_popped (wf : ∀ idx, (s.executor.runQueues idx).WF) {event : RunQueueEvent}
    {queue : RingBuffer RunQueueEvent} (phase : s.phase = .drain)
    (pop : (s.executor.runQueues s.executor.currentRunQueue).pop = .ok (some event, queue)) :
    s.agenda = .event event :: (s.executor.popped queue).events.map .event := by
  rw [agenda_events (by simp [phase]), (Executor.events_popped wf pop).1]
  rfl

/-- Under the invariant every step is one of the kinds of progress. -/
theorem QueueInv.progress (inv : s.QueueInv) (move : RunMove s label s') :
    s.Progress label s' := by
  cases move with
  | missing listened event queue phase pop absent =>
      refine .missing listened _ event ?_ (agenda_popped inv.wf phase pop) rfl rfl rfl
      rcases absent with ⟨kind, none⟩ | ⟨kind, none⟩
      · rw [inv.listeners.get_eq, Except.ok.injEq] at none
        exact .inl ⟨kind, none⟩
      · rw [inv.handlers.pool.get_eq, Except.ok.injEq] at none
        exact .inr ⟨kind, none⟩
  | listener listened event queue listener listener' intents phase pop kind found move =>
      rw [inv.listeners.get_eq, Except.ok.injEq] at found
      exact .listener listened _ event listener listener' intents _ kind found move
        (agenda_popped inv.wf phase pop) rfl rfl rfl (inv.listeners.store_spec found listener').1
  | handler listened event queue handler handler' buffers intents phase pop kind found move =>
      rw [inv.handlers.pool.get_eq, Except.ok.injEq] at found
      exact .handler listened _ event handler handler' intents _ kind found move
        (agenda_popped inv.wf phase pop) rfl rfl (inv.handlers.pool.store_spec found handler').1 rfl
  | drained listened queue phase pop =>
      refine .idle _ _ (by simp) ?_ rfl rfl rfl
      rcases RingBuffer.pop_inv (inv.wf _) pop with ⟨_, _, rfl⟩ | ⟨_, same, _⟩
      · rw [agenda_events (by simp), agenda_events (by simp [phase]), Executor.popped,
          Function.update_eq_self]
      · cases same
  | finished listened handle phase =>
      refine .idle _ _ (by simp) ?_ rfl rfl rfl
      rw [agenda_events (by simp), agenda, phase]
      rfl
  | retry listened handle rest queue phase push =>
      obtain ⟨front, back, before, after⟩ := agenda_pushed inv.wf phase push
      exact .retry listened _ handle front back before after rfl rfl rfl
  | submit listened handle intent rest sqe phase submits =>
      refine .submit listened _ handle intent sqe submits (agenda_intent phase) ?_ rfl rfl
      simp only [ops, Executor.submitted, List.append_assoc, List.singleton_append]
      exact Multiset.coe_eq_coe.mpr List.perm_middle
  | spawned listened handle fixed rest fresh pool queue phase spawn push =>
      obtain ⟨front, back, before, after⟩ := agenda_pushed inv.wf phase push
      rcases inv.handlers.pool.spawn_spec (ConnHandler.new fixed) with
        ⟨refused, _⟩ | ⟨id, next, spawned, _, small, unbound, handlers, _⟩
      · rw [refused] at spawn
        cases spawn
      · rw [spawned] at spawn
        cases spawn
        exact .spawned listened _ handle fixed id front back small unbound before after rfl
          handlers rfl
  | terminateListener listened handle rest freed pool phase kind despawn =>
      obtain ⟨_, handling, _⟩ := inv.handlers.terminate handle _ phase (by simp)
      exact absurd kind (ObjectHandle.notListener handling)
  | terminate listened handle rest freed pool phase kind despawn =>
      obtain ⟨_, _, handler, found, _⟩ := inv.handlers.terminate handle _ phase (by simp)
      obtain ⟨next, despawned, _, handlers, _⟩ := inv.handlers.pool.despawn_spec found
      rw [despawned] at despawn
      cases despawn
      exact .terminated listened _ handle kind (agenda_intent phase) rfl handlers rfl
  | wait listened phase available =>
      refine .idle _ _ (by simp) ?_ rfl rfl rfl
      rw [agenda_events (by simp), agenda_events (by simp [phase])]
  | reap listened cqe cq queue phase posted push =>
      refine .idle _ _ (by simp) ?_ rfl rfl rfl
      obtain ⟨next, current⟩ := Executor.pushed_nextEvents inv.wf push
      rw [agenda_events (by simp), agenda_events (by simp [phase])]
      change List.map _ ((s.executor.pushed s.executor.nextRunQueueIdx queue).currentEvents ++
        (s.executor.pushed s.executor.nextRunQueueIdx queue).nextEvents ++ cq.map Cqe.event) = _
      rw [current, next, Executor.events_eq, posted]
      simp [Cqe.event]
  | switch listened phase reaped =>
      refine .idle _ _ (by simp) ?_ rfl rfl rfl
      have drained := inv.drained (.inr phase)
      rw [agenda_events (by simp), agenda_events (by simp [phase])]
      change List.map _ ((s.executor.runQueues s.executor.nextRunQueueIdx).contents ++
        (s.executor.runQueues s.executor.switchRunQueue.nextRunQueueIdx).contents ++
        s.executor.io.cq.map Cqe.event) = _
      rw [Executor.switchRunQueue_next, Executor.events, drained]
      simp
  | take sqe sq submitted =>
      refine .idle _ _ (by simp) rfl ?_ rfl rfl
      simp only [ops, submitted, ← List.append_assoc, List.cons_append]
      exact Multiset.coe_eq_coe.mpr (List.perm_append_singleton sqe _)
  | complete index result flags data sqe ioBufs working written =>
      have taken : s.executor.io.inFlight.Perm (sqe :: s.executor.io.inFlight.eraseIdx index) := by
        obtain ⟨inside, rfl⟩ := List.getElem?_eq_some_iff.mp working
        exact (List.getElem_cons_eraseIdx_perm inside).symm
      refine .completed index result flags data _ sqe
        (s.executor.io.sq ++ s.executor.io.inFlight.eraseIdx index : List Sqe) working ?_ ?_ ?_ rfl
        rfl
      · simp only [agenda]
        simp [Executor.events, Executor.nextRunQueueIdx, Cqe.event]
      · apply Multiset.coe_eq_coe.mpr
        exact (taken.append_left _).trans List.perm_middle
      · simp only [ops]
        split
        · exact Multiset.coe_eq_coe.mpr ((taken.append_left _).trans List.perm_middle)
        · rfl

/-- While the first thing to do is an event, there are no intents. -/
theorem intent_not_mem {event : RunQueueEvent} {rest : List AgendaItem}
    (agenda : s.agenda = .event event :: rest) (handle : ObjectHandle) (intent : MachineIntent) :
    .intent handle intent ∉ s.agenda := by
  intro member
  rw [Running.agenda] at agenda member
  cases phase : s.phase with
  | drain | submitAndWait | completion => simp [phase, RunPhase.items] at member
  | completeIntent other intents =>
      rw [phase] at agenda member
      cases intents with
      | nil => simp [RunPhase.items] at member
      | cons first more => cases agenda

/-- The first intent of the agenda is the one in progress. -/
theorem phase_of_agenda {handle : ObjectHandle} {intent : MachineIntent} {rest : List AgendaItem}
    (agenda : s.agenda = .intent handle intent :: rest) :
    ∃ intents, s.phase = .completeIntent handle (intent :: intents) ∧
      rest = intents.map (.intent handle) ++ s.executor.events.map .event := by
  have noIntent : s.executor.events.map AgendaItem.event ≠ .intent handle intent :: rest := by
    cases s.executor.events <;> simp
  cases phase : s.phase with
  | completeIntent other intents =>
      cases intents with
      | nil =>
          rw [Running.agenda, phase] at agenda
          exact absurd agenda noIntent
      | cons first intents =>
          rw [agenda_intent phase] at agenda
          cases agenda
          exact ⟨intents, rfl, rfl⟩
  | drain | submitAndWait | completion =>
      rw [agenda_events (by simp [phase])] at agenda
      exact absurd agenda noIntent

/-- Where an intent of the state after a step comes from: it was there, or an event submitted it. -/
theorem Progress.intent_cases (progress : s.Progress label s') {handle : ObjectHandle}
    {intent : MachineIntent} (member : .intent handle intent ∈ s'.agenda) :
    .intent handle intent ∈ s.agenda ∨
      (∃ handler handler' reason intents, handle.poolId = connHandler ∧
        s.handlerAt handle.genId = some handler ∧
        s'.handlerAt = Function.update s.handlerAt handle.genId (some handler') ∧
        ConnMove handler s.executor.ioBufs reason handler' s'.executor.ioBufs intents ∧
        intent ∈ intents) ∨
      ∃ listener listened reason listener' intents, handle.poolId = tcpServer ∧
        s'.listenerAt = Function.update s.listenerAt handle.genId (some listener') ∧
        ListenerMove listener listened reason listener' intents ∧ intent ∈ intents := by
  cases progress with
  | idle _ _ kernel agenda => exact .inl (agenda ▸ member)
  | missing _ _ event absent agenda => exact .inl (agenda ▸ List.mem_cons_of_mem _ member)
  | handler _ _ event handler handler' intents rest kind found move agenda agenda' _ handlers =>
      rw [agenda'] at member
      rcases List.mem_append.mp member with submitted | before
      · simp only [List.mem_map, AgendaItem.intent.injEq] at submitted
        obtain ⟨_, submitted, rfl, rfl⟩ := submitted
        exact .inr (.inl ⟨handler, handler', event.reason, intents, kind, found, handlers, move,
          submitted⟩)
      · exact .inl (agenda ▸ List.mem_cons_of_mem _ before)
  | listener listened _ event listener listener' intents rest kind found move agenda agenda' _ _
      listeners =>
      rw [agenda'] at member
      rcases List.mem_append.mp member with submitted | before
      · simp only [List.mem_map, AgendaItem.intent.injEq] at submitted
        obtain ⟨_, submitted, rfl, rfl⟩ := submitted
        exact .inr (.inr ⟨listener, listened, event.reason, listener', intents, kind, listeners,
          move, submitted⟩)
      · exact .inl (agenda ▸ List.mem_cons_of_mem _ before)
  | retry _ _ other front back agenda agenda' =>
      rw [agenda'] at member
      rw [agenda]
      refine .inl (List.mem_cons_of_mem _ ?_)
      simpa using member
  | submit _ _ other submitted sqe submits agenda => exact .inl (agenda ▸ List.mem_cons_of_mem _ member)
  | spawned _ _ other fixed id front back small unbound agenda agenda' =>
      rw [agenda'] at member
      rw [agenda]
      refine .inl (List.mem_cons_of_mem _ ?_)
      simpa using member
  | terminated _ _ other kind agenda => exact .inl (agenda ▸ List.mem_cons_of_mem _ member)
  | completed index result flags data _ sqe others working agenda =>
      rw [agenda] at member
      exact .inl (by simpa using member)

/-- Where an event of the state after a step comes from: it was there, or it is a start, or the
kernel completed an operation. -/
theorem Progress.event_cases (progress : s.Progress label s') {event : RunQueueEvent}
    (member : .event event ∈ s'.agenda) :
    .event event ∈ s.agenda ∨ event.reason = .spawn ∨
      ∃ index result flags data sqe, label = .complete index result flags data ∧
        s.executor.io.inFlight[index]? = some sqe ∧ sqe ∈ s.ops ∧
        event = ⟨.ioCompleted result flags, ⟨sqe.userData⟩⟩ := by
  cases progress with
  | idle _ _ kernel agenda => exact .inl (agenda ▸ member)
  | missing _ _ other absent agenda => exact .inl (agenda ▸ List.mem_cons_of_mem _ member)
  | handler _ _ other handler handler' intents rest kind found move agenda agenda' =>
      rw [agenda'] at member
      rw [agenda]
      exact .inl (List.mem_cons_of_mem _ (by simpa using member))
  | listener _ _ other listener listener' intents rest kind found move agenda agenda' =>
      rw [agenda'] at member
      rw [agenda]
      exact .inl (List.mem_cons_of_mem _ (by simpa using member))
  | retry _ _ handle front back agenda agenda' =>
      rw [agenda'] at member
      rw [agenda]
      rcases List.mem_append.mp member with before | member
      · exact .inl (List.mem_cons_of_mem _ (List.mem_append_left _ before))
      · rcases List.mem_cons.mp member with same | before
        · cases same
          exact .inr (.inl rfl)
        · exact .inl (List.mem_cons_of_mem _ (List.mem_append_right _ before))
  | submit _ _ other submitted sqe submits agenda => exact .inl (agenda ▸ List.mem_cons_of_mem _ member)
  | spawned _ _ other fixed id front back small unbound agenda agenda' =>
      rw [agenda'] at member
      rw [agenda]
      rcases List.mem_append.mp member with before | member
      · exact .inl (List.mem_cons_of_mem _ (List.mem_append_left _ before))
      · rcases List.mem_cons.mp member with same | before
        · cases same
          exact .inr (.inl rfl)
        · exact .inl (List.mem_cons_of_mem _ (List.mem_append_right _ before))
  | terminated _ _ other kind agenda => exact .inl (agenda ▸ List.mem_cons_of_mem _ member)
  | completed index result flags data _ sqe others working agenda ops =>
      rw [agenda] at member
      rcases List.mem_append.mp member with before | same
      · exact .inl before
      · cases List.mem_singleton.mp same
        exact .inr (.inr ⟨index, result, flags, data, sqe, rfl, working,
          ops ▸ Multiset.mem_cons_self _ _, rfl⟩)

/-- Where an operation of the state after a step comes from: it was there, or an intent submitted
it. -/
theorem Progress.op_cases (progress : s.Progress label s') {sqe : Sqe} (member : sqe ∈ s'.ops) :
    sqe ∈ s.ops ∨
      ∃ handle intent, .intent handle intent ∈ s.agenda ∧ Submits s.executor handle intent sqe := by
  cases progress with
  | submit _ _ handle intent other submits agenda ops =>
      rw [ops] at member
      rcases Multiset.mem_cons.mp member with rfl | before
      · exact .inr ⟨handle, intent, agenda ▸ List.mem_cons_self, submits⟩
      · exact .inl before
  | completed index result flags data _ other others working agenda ops ops' =>
      rw [ops'] at member
      rw [ops]
      split at member
      · exact .inl member
      · exact .inl (Multiset.mem_cons_of_mem member)
  | idle _ _ _ _ ops | missing _ _ _ _ _ ops | handler _ _ _ _ _ _ _ _ _ _ _ _ ops
  | listener _ _ _ _ _ _ _ _ _ _ _ _ ops | retry _ _ _ _ _ _ _ ops
  | spawned _ _ _ _ _ _ _ _ _ _ _ ops | terminated _ _ _ _ _ ops => exact .inl (ops ▸ member)

/-- No step breaks a queue. -/
theorem wf_move (wf : ∀ idx, (s.executor.runQueues idx).WF) (move : RunMove s label s') :
    ∀ idx, (s'.executor.runQueues idx).WF := by
  cases move with
  | missing listened event queue phase pop => exact (Executor.events_popped wf pop).2
  | listener listened event queue listener listener' intents phase pop =>
      exact (Executor.events_popped wf pop).2
  | handler listened event queue handler handler' buffers intents phase pop =>
      exact (Executor.events_popped wf pop).2
  | drained listened queue phase pop =>
      rcases RingBuffer.pop_inv (wf _) pop with ⟨_, _, rfl⟩ | ⟨_, same, _⟩
      · exact Executor.update_wf wf (wf _) _
      · cases same
  | retry listened handle rest queue phase push => exact (Executor.events_pushed wf push).2
  | spawned listened handle fixed rest fresh pool queue phase spawn push =>
      exact (Executor.events_pushed wf push).2
  | reap listened cqe cq queue phase posted push => exact (Executor.events_pushed wf push).2
  | finished | submit | terminateListener | terminate | wait | switch | take | complete => exact wf

/-- Every step keeps the invariant. -/
theorem QueueInv.move (inv : s.QueueInv) (move : RunMove s label s') : s'.QueueInv := by
  have handlers := inv.handlers.move move
  have wf := wf_move inv.wf move
  cases move with
  | missing listened event queue phase pop absent => exact ⟨handlers, inv.listeners, wf, by simp⟩
  | listener listened event queue listener listener' intents phase pop kind found move =>
      rw [inv.listeners.get_eq, Except.ok.injEq] at found
      exact ⟨handlers, (inv.listeners.store_spec found listener').2.1, wf, by simp⟩
  | handler listened event queue handler handler' buffers intents phase pop kind found move =>
      exact ⟨handlers, inv.listeners, wf, by simp⟩
  | drained listened queue phase pop =>
      rcases RingBuffer.pop_inv (inv.wf _) pop with ⟨_, empty, rfl⟩ | ⟨_, same, _⟩
      · exact ⟨handlers, inv.listeners, wf, fun _ => Executor.popped_currentEvents.trans empty⟩
      · cases same
  | reap listened cqe cq queue phase posted push =>
      refine ⟨handlers, inv.listeners, wf, fun _ => ?_⟩
      exact (Executor.pushed_nextEvents inv.wf push).2.trans (inv.drained (.inr phase))
  | terminateListener listened handle rest freed pool phase kind despawn =>
      obtain ⟨_, handling, _⟩ := inv.handlers.terminate handle _ phase (by simp)
      exact absurd kind (ObjectHandle.notListener handling)
  | wait listened phase => exact ⟨handlers, inv.listeners, wf, fun _ => inv.drained (.inl phase)⟩
  | finished | retry | submit | spawned | terminate | switch =>
      exact ⟨handlers, inv.listeners, wf, by simp⟩
  | take | complete => exact ⟨handlers, inv.listeners, wf, inv.drained⟩

/-- The run queues at the start: one event, on the current queue. -/
theorem start_queues {entries : Nat} {listeners connHandlers bufCount : UInt32}
    {raw : Option (Nat × (Nat → UInt8))}
    (started : start entries listeners connHandlers bufCount raw = .ok s) :
    (∀ idx, (s.executor.runQueues idx).WF ∧
      (s.executor.runQueues idx).size = connHandlers.toNat * 2) ∧
      (s.executor.runQueues s.executor.nextRunQueueIdx).contents = [] ∧
      ∃ handle, (s.executor.runQueues s.executor.currentRunQueue).contents = [⟨.spawn, handle⟩] ∧
        ∃ pool, ObjectPool.new listeners = .ok pool ∧
          pool.spawn (TcpServer.new "0.0.0.0:3000" 4096) =
            .ok (some handle, s.executor.tcpListenerPool) := by
  obtain ⟨_, _, _, _, _, _, _, current, pool, handle, queue, first, poolMade, spawn, queueMade, push,
    queues⟩ := start_fields started
  obtain ⟨queueWf, empty, size⟩ := RingBuffer.new_wf queueMade
  obtain ⟨_, firstWf, firstSize, contents⟩ := RingBuffer.push_inv queueWf push
  have next : s.executor.nextRunQueueIdx = 1 := by
    rw [Executor.nextRunQueueIdx, current]
    rfl
  refine ⟨fun idx => ?_, ?_, handle, ?_, pool, poolMade, spawn⟩
  · rw [queues]
    fin_cases idx
    · exact ⟨firstWf, firstSize.trans size⟩
    · exact ⟨queueWf, size⟩
  · rw [next, queues]
    exact empty
  · rw [current, queues]
    exact contents.trans (by rw [empty]; rfl)

/-- At the start of a run there is one listener, which is to be spawned, and nothing else. -/
theorem queueInv_start {entries : Nat} {listeners connHandlers bufCount : UInt32}
    {raw : Option (Nat × (Nat → UInt8))}
    (started : start entries listeners connHandlers bufCount raw = .ok s) :
    s.QueueInv ∧ (∀ id, s.handlerAt id = none) ∧ s.ops = 0 ∧
      ∃ handle listener, handle.poolId = tcpServer ∧ s.agenda = [.event ⟨.spawn, handle⟩] ∧
        s.listenerAt handle.genId = some listener ∧ listener.state = .init := by
  obtain ⟨phase, _, _, sq, inFlight, cq, _⟩ := start_fields started
  obtain ⟨wf, next, handle, current, pool, poolMade, spawn⟩ := start_queues started
  obtain ⟨inv, noneFound⟩ := handlerInv_start started
  obtain ⟨poolInv, _⟩ := ObjectPool.inv_of_new poolMade
  rcases poolInv.spawn_spec (TcpServer.new "0.0.0.0:3000" 4096) with
    ⟨refused, _⟩ | ⟨id, _, spawned, _, small, _, listeners, listenersInv, _⟩
  · rw [refused] at spawn
    cases spawn
  · rw [spawned] at spawn
    obtain ⟨same, rfl⟩ := Prod.mk.inj (Except.ok.inj spawn)
    obtain rfl := Option.some.inj same
    refine ⟨⟨inv, listenersInv, fun idx => (wf idx).1, by simp [phase]⟩, noneFound,
      by simp [ops, sq, inFlight], .new tcpServer id, .new "0.0.0.0:3000" 4096,
      ObjectHandle.poolId_new _ small, ?_, ?_, rfl⟩
    · rw [agenda_events (by simp [phase]), Executor.events, cq, next, current]
      rfl
    · rw [listenerAt, listeners, ObjectHandle.genId_new _ small, Function.update_self]

end Running

end Hoarder
