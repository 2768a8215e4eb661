/-
Module: Hoarder.Proofs.WaitingLine
Purpose: The order in which the connections that were put off get a buffer.  A connection that finds
  none is put off to the next tick, behind those that were put off before it; and once one of them had
  to wait again in a tick, none of those behind it finds a buffer in that tick.  So those that were put
  off stand in a line, and leave it from the front.  The line says nothing about the others: a
  connection that was never put off may find a buffer that was freed later in the tick, before those in
  line do.
Trusted boundary: none
Main exports: RunQueueEvent.start?, GenAlloc.Exhausted, ConnMove.start_cases, Running.startsOf,
  Running.BirthInv.starts_nodup, Running.inLine, Running.lined, Running.InOrder, Running.LineInv,
  Running.LineInv.step, Running.served_in_order, Running.nobody_overtakes
-/
import Hoarder.Foundation.Ghost
import Hoarder.Foundation.Line
import Hoarder.Foundation.Simulation
import Hoarder.Proofs.Births
import Hoarder.Proofs.DrainTick

namespace Hoarder

open Foundation

/-- The connection that a handle names, if it names one. -/
def ObjectHandle.connection? (handle : ObjectHandle) : Option GenId :=
  if handle.poolId = connHandler then some handle.genId else none

/-- Two handles do not name one connection. -/
theorem ObjectHandle.connection?_injective {handle other : ObjectHandle} {id : GenId}
    (names : id ∈ handle.connection?) (otherNames : id ∈ other.connection?) : handle = other := by
  simp only [connection?, Option.mem_def] at names otherNames
  split at names
  · rename_i kind
    split at otherNames
    · rename_i otherKind
      cases names
      exact (eq_of_fields (otherKind.trans kind.symm) (Option.some.inj otherNames)).symm
    · cases otherNames
  · cases names

/-- The connection that an event is to start, if it is to start one. -/
def RunQueueEvent.start? (event : RunQueueEvent) : Option GenId :=
  match event.reason with
  | .spawn => event.handle.connection?
  | .ioCompleted _ _ => none

/-- An event that is to start a connection is for it. -/
theorem RunQueueEvent.of_start? {event : RunQueueEvent} {id : GenId}
    (starts : event.start? = some id) :
    event.handle.poolId = connHandler ∧ event.handle.genId = id := by
  simp only [start?] at starts
  split at starts
  · simp only [ObjectHandle.connection?] at starts
    split at starts
    · rename_i kind
      exact ⟨kind, Option.some.inj starts⟩
    · cases starts
  · cases starts

/-- An event for another machine starts no connection. -/
theorem RunQueueEvent.start?_eq_none {event : RunQueueEvent}
    (other : event.handle.poolId ≠ connHandler) : event.start? = none := by
  cases starts : event.start? with
  | none => rfl
  | some id => exact absurd (of_start? starts).1 other

/-- The connection that an item of the agenda is to start, if it is to start one. -/
def AgendaItem.start? : AgendaItem → Option GenId
  | .intent handle .retry => handle.connection?
  | .intent _ _ => none
  | .event first => first.start?

theorem AgendaItem.start?_intent {handle : ObjectHandle} {intent : MachineIntent}
    (noRetry : intent ≠ .retry) : (AgendaItem.intent handle intent).start? = none := by
  cases intent with
  | retry => exact absurd rfl noRetry
  | terminate | closeFixed | spawnConnHandler | submitMultishotAccept | submitRecv => rfl

/-- What an item is to start, it is to give birth to. -/
theorem AgendaItem.start?_eq (item : AgendaItem) :
    item.start? = item.birth?.bind fun held => held.1.connection? := by
  cases item with
  | intent handle intent => cases intent <;> rfl
  | event event =>
      obtain ⟨reason, handle⟩ := event
      cases reason <;> rfl

/-- No buffer is free. -/
def GenAlloc.Exhausted (self : GenAlloc) : Prop := self.freeList.isEmpty = true

/-- An allocator that refuses is exhausted, and stays so. -/
theorem GenAlloc.exhausted_of_refused {a a' : GenAlloc} (refused : a.alloc = .ok (none, a')) :
    a'.Exhausted := by
  obtain ⟨popped, freeList, pop, rfl, same, _⟩ := GenAlloc.alloc_inv refused
  cases same
  unfold RingBuffer.pop at pop
  split at pop
  · split at pop <;> cases pop
  · rename_i empty
    cases pop
    simpa [Exhausted] using empty

/-- An exhausted allocator hands nothing out. -/
theorem GenAlloc.not_exhausted_of_handed {a a' : GenAlloc} {id : GenId}
    (handed : a.alloc = .ok (some id, a')) : ¬ a.Exhausted := by
  intro exhausted
  obtain ⟨popped, freeList, pop, _, same, _⟩ := GenAlloc.alloc_inv handed
  cases same
  unfold RingBuffer.pop at pop
  rw [if_neg (by simpa [Exhausted] using exhausted)] at pop
  cases pop

/-- A handler that starts gets a buffer, or is put off because there is none. -/
theorem ConnMove.start_cases {self self' : ConnHandler} {buffers buffers' : IoBufs}
    {intents : List MachineIntent} (move : ConnMove self buffers .spawn self' buffers' intents)
    (start : self.state = .init) :
    (¬ buffers.genAlloc.Exhausted ∧ self'.state ≠ .init ∧ .retry ∉ intents) ∨
      (buffers'.genAlloc.Exhausted ∧ self'.state = .init ∧ intents = [.retry]) := by
  cases move with
  | spawned handle _ _ allocated =>
      obtain ⟨⟨answer, genAlloc⟩, handed, same⟩ := Outcome.bind_eq_ok.mp allocated
      cases answer with
      | none => cases same
      | some id => exact .inl ⟨GenAlloc.not_exhausted_of_handed handed, by simp, by simp⟩
  | retry _ _ refused =>
      obtain ⟨⟨answer, genAlloc⟩, handed, same⟩ := Outcome.bind_eq_ok.mp refused
      cases answer with
      | none =>
          cases same
          exact .inr ⟨GenAlloc.exhausted_of_refused handed, start, rfl⟩
      | some id => cases same
  | late _ closed =>
      rw [start] at closed
      cases closed

namespace Running

variable {s s' : Running} {label : RunLabel} {line : List GenId} {id : GenId}
  {event : RunQueueEvent} {again others retried posted : List RunQueueEvent}

/-! ### Who is to be started -/

/-- The connections that some events are to start, in order. -/
def startsOf (events : List RunQueueEvent) : List GenId :=
  events.filterMap RunQueueEvent.start?

theorem startsOf_append (events more : List RunQueueEvent) :
    startsOf (events ++ more) = startsOf events ++ startsOf more :=
  List.filterMap_append

theorem startsOf_cons_some (starts : event.start? = some id) :
    startsOf (event :: others) = id :: startsOf others :=
  List.filterMap_cons_some starts

theorem startsOf_cons_none (nobody : event.start? = none) :
    startsOf (event :: others) = startsOf others :=
  List.filterMap_cons_none nobody

/-- Completions start nobody. -/
theorem startsOf_completions (cq : List Cqe) : startsOf (cq.map Cqe.event) = [] := by
  induction cq with
  | nil => rfl
  | cons cqe cq inductionHypothesis =>
      rw [List.map_cons, startsOf_cons_none rfl, inductionHypothesis]

/-- The connections that are just being put off. -/
def retrying (s : Running) : List GenId :=
  s.phase.items.filterMap AgendaItem.start?

theorem retrying_of_drain (phase : s.phase = .drain) : s.retrying = [] := by
  rw [retrying, phase]
  rfl

theorem retrying_cons {handle : ObjectHandle} {intent : MachineIntent} {rest : List MachineIntent}
    (phase : s.phase = .completeIntent handle (intent :: rest)) (noRetry : intent ≠ .retry)
    (phase' : s'.phase = .completeIntent handle rest) : s'.retrying = s.retrying := by
  rw [retrying, retrying, phase, phase']
  exact (List.filterMap_cons_none (AgendaItem.start?_intent noRetry)).symm

theorem retrying_intents {handle : ObjectHandle} {intents : List MachineIntent}
    (phase : s.phase = .completeIntent handle intents) (noRetry : .retry ∉ intents) :
    s.retrying = [] := by
  rw [retrying, phase]
  refine List.filterMap_eq_nil_iff.mpr fun item member => ?_
  obtain ⟨intent, submitted, rfl⟩ := List.mem_map.mp member
  exact AgendaItem.start?_intent fun same => noRetry (same ▸ submitted)

/-- The starts of the agenda. -/
theorem agenda_starts :
    s.agenda.filterMap AgendaItem.start? =
      s.retrying ++ (startsOf s.executor.currentEvents ++ startsOf s.executor.nextEvents) := by
  have events : ∀ events : List RunQueueEvent,
      (events.map AgendaItem.event).filterMap AgendaItem.start? = startsOf events :=
    fun events => List.filterMap_map
  rw [agenda, List.filterMap_append, events, Executor.events_eq, startsOf_append, startsOf_append,
    startsOf_completions, List.append_nil]
  rfl

/-- Nobody is to be started twice. -/
theorem BirthInv.starts_nodup (inv : s.BirthInv) :
    (s.agenda.filterMap AgendaItem.start?).Nodup := by
  have keys : ((s.agenda.filterMap AgendaItem.birth?).map Prod.fst).Nodup := inv.tokens.nodup
  have starts : s.agenda.filterMap AgendaItem.start? =
      ((s.agenda.filterMap AgendaItem.birth?).map Prod.fst).filterMap ObjectHandle.connection? := by
    rw [List.filterMap_map, List.filterMap_filterMap]
    exact congrArg (List.filterMap · s.agenda) (funext AgendaItem.start?_eq)
  rw [starts]
  exact keys.filterMap fun handle other id names otherNames =>
    ObjectHandle.connection?_injective names otherNames

/-- Who is to be started is there, in `Init`. -/
theorem BirthInv.waits (inv : s.BirthInv) (member : id ∈ s.agenda.filterMap AgendaItem.start?) :
    ∃ handler, s.handlerAt id = some handler ∧ handler.state = .init := by
  obtain ⟨item, listed, starts⟩ := List.mem_filterMap.mp member
  rw [AgendaItem.start?_eq, Option.bind_eq_some_iff] at starts
  obtain ⟨⟨handle, errand⟩, birth, names⟩ := starts
  have pending : (handle, errand) ∈ s.births :=
    Multiset.mem_coe.mpr (List.mem_filterMap.mpr ⟨item, listed, birth⟩)
  obtain rfl := start_of_mem pending
  simp only [ObjectHandle.connection?] at names
  split at names
  · rename_i kind
    cases names
    have fits := inv.tokens.fits _ _ pending
    obtain ⟨handler, found⟩ := Option.ne_none_iff_exists'.mp (fits.handler_ne_none kind)
    exact ⟨handler, found, fits.handler_of kind found⟩
  · cases names

/-! ### The line -/

/-- The line after a step: who is put off joins it, unless it stands there, and who finds a buffer
leaves it. -/
def inLine (s : Running) (line : List GenId) (label : RunLabel) (s' : Running) : List GenId :=
  match s.dispatched? label with
  | some (event, _) =>
      if event.reason = .spawn then
        if (s'.handlerAt event.handle.genId).any fun handler => handler.state == .init then
          if event.handle.genId ∈ line then line else line ++ [event.handle.genId]
        else line.erase event.handle.genId
      else line
  | none => line

/-- The runs, with the line of the connections that were put off beside them. -/
def lined (listeners connHandlers bufCount : UInt32) :
    Machine (Running × List GenId) RunLabel :=
  (machine listeners connHandlers bufCount).withGhost (fun _ => []) inLine

/-- Without an event for a connection the line stays as it is. -/
theorem inLine_quiet (quiet : ∀ event handler, ¬ s.Dispatches label event handler) :
    s.inLine line label s' = line := by
  unfold inLine
  split
  · rename_i event handler handed
    exact absurd (dispatches_of_dispatched handed) (quiet event handler)
  · rfl

/-- How the line lies in the queues: those that are put off in this tick, in the next queue, and
before them those that were put off in the tick before, in the current one.  While there are both, no
buffer is free. -/
structure InOrder (s : Running) (line : List GenId)
    (again others retried posted : List RunQueueEvent) : Prop where
  current : s.executor.currentEvents = again ++ others
  next : s.executor.nextEvents = retried ++ posted
  spawns : ∀ event ∈ again ++ retried, event.reason = .spawn
  quiet : startsOf posted = []
  reaping : s.phase ≠ .completion → posted = []
  line : line = startsOf retried ++ s.retrying ++ startsOf again
  refused : startsOf retried ++ s.retrying ≠ [] → again ≠ [] →
    s.executor.ioBufs.genAlloc.Exhausted

/-- The line lies in the queues. -/
structure LineInv (s : Running) (line : List GenId) : Prop extends BirthInv s where
  ordered : ∃ again others retried posted, s.InOrder line again others retried posted

/-- Who is to be started by the first event is there, in `Init`. -/
theorem BirthInv.first_waits (inv : s.BirthInv)
    (current : s.executor.currentEvents = event :: others) (starts : event.start? = some id) :
    ∃ handler, s.handlerAt id = some handler ∧ handler.state = .init := by
  refine inv.waits ?_
  rw [agenda_starts, current, startsOf_cons_some starts]
  exact List.mem_append_right _ (List.mem_append_left _ List.mem_cons_self)

/-- Who is to be started by the first event is not to be started again in the next tick. -/
theorem BirthInv.start_fresh (inv : s.BirthInv)
    (current : s.executor.currentEvents = event :: s'.executor.currentEvents)
    (starts : event.start? = some id) : id ∉ startsOf s.executor.nextEvents := by
  have nodup := inv.starts_nodup
  rw [agenda_starts, current, startsOf_cons_some starts] at nodup
  have behind := (List.nodup_append.mp nodup).2.1
  intro member
  exact (List.nodup_cons.mp behind).1 (List.mem_append_right _ member)

namespace InOrder

/-- Who is in line is to be started. -/
theorem subset (order : s.InOrder line again others retried posted) :
    ∀ id ∈ line, id ∈ s.agenda.filterMap AgendaItem.start? := by
  intro id member
  rw [order.line, List.mem_append, List.mem_append] at member
  rw [agenda_starts, order.current, order.next, startsOf_append, startsOf_append]
  simp only [List.mem_append]
  rcases member with (retry | retrying) | start
  · exact .inr (.inr (.inl retry))
  · exact .inl retrying
  · exact .inr (.inl (.inl start))

/-- A step that leaves the queues, the intents that put off, and the free buffers. -/
theorem idle (order : s.InOrder line again others retried posted)
    (current : s'.executor.currentEvents = s.executor.currentEvents)
    (next : s'.executor.nextEvents = s.executor.nextEvents) (retrying : s'.retrying = s.retrying)
    (genAlloc : s'.executor.ioBufs.genAlloc = s.executor.ioBufs.genAlloc)
    (phase : s'.phase ≠ .completion → s.phase ≠ .completion) :
    s'.InOrder line again others retried posted where
  current := current.trans order.current
  next := next.trans order.next
  spawns := order.spawns
  quiet := order.quiet
  reaping := fun before => order.reaping (phase before)
  line := by rw [retrying, order.line]
  refused := by
    rw [retrying, genAlloc]
    exact order.refused

/-- The intent of a connection that is being put off becomes an event for the next tick. -/
theorem retry (order : s.InOrder line again others retried posted) {handle : ObjectHandle}
    {rest : List MachineIntent} (phase : s.phase = .completeIntent handle (.retry :: rest))
    (phase' : s'.phase = .completeIntent handle rest)
    (current : s'.executor.currentEvents = s.executor.currentEvents)
    (next : s'.executor.nextEvents = s.executor.nextEvents ++ [⟨.spawn, handle⟩])
    (genAlloc : s'.executor.ioBufs.genAlloc = s.executor.ioBufs.genAlloc) :
    s'.InOrder line again others (retried ++ [⟨.spawn, handle⟩]) [] := by
  have quiet := order.reaping (by simp [phase])
  -- The connection moves from the intents to the end of the next queue.
  have same : startsOf (retried ++ [⟨.spawn, handle⟩]) ++ s'.retrying =
      startsOf retried ++ s.retrying := by
    have retrying : s.retrying = startsOf [⟨.spawn, handle⟩] ++ s'.retrying := by
      rw [Running.retrying, Running.retrying, phase, phase']
      exact List.filterMap_append (l := [AgendaItem.intent handle .retry])
    rw [retrying, startsOf_append, List.append_assoc]
  refine ⟨current.trans order.current, ?_, ?_, rfl, fun _ => rfl, ?_, ?_⟩
  · rw [next, order.next, quiet, List.append_nil, List.append_nil]
  · intro event member
    rcases List.mem_append.mp member with before | member
    · exact order.spawns event (List.mem_append_left _ before)
    · rcases List.mem_append.mp member with before | last
      · exact order.spawns event (List.mem_append_right _ before)
      · obtain rfl := List.mem_singleton.mp last
        rfl
  · rw [same, order.line]
  · rw [same, genAlloc]
    exact order.refused

/-- A spawned connection is behind all others of the current queue. -/
theorem spawned (order : s.InOrder line again others retried posted)
    (current : s'.executor.currentEvents = s.executor.currentEvents ++ [event])
    (next : s'.executor.nextEvents = s.executor.nextEvents) (retrying : s'.retrying = s.retrying)
    (genAlloc : s'.executor.ioBufs.genAlloc = s.executor.ioBufs.genAlloc)
    (phase : s.phase ≠ .completion) :
    s'.InOrder line again (others ++ [event]) retried posted where
  current := by rw [current, order.current, List.append_assoc]
  next := next.trans order.next
  spawns := order.spawns
  quiet := order.quiet
  reaping := fun _ => order.reaping phase
  line := by rw [retrying, order.line]
  refused := by
    rw [retrying, genAlloc]
    exact order.refused

/-- A completion is behind those that were put off. -/
theorem reaped (order : s.InOrder line again others retried posted)
    (current : s'.executor.currentEvents = s.executor.currentEvents)
    (next : s'.executor.nextEvents = s.executor.nextEvents ++ [event])
    (nobody : event.start? = none) (retrying : s'.retrying = s.retrying)
    (genAlloc : s'.executor.ioBufs.genAlloc = s.executor.ioBufs.genAlloc)
    (phase' : s'.phase = .completion) :
    s'.InOrder line again others retried (posted ++ [event]) where
  current := current.trans order.current
  next := by rw [next, order.next, List.append_assoc]
  spawns := order.spawns
  quiet := by rw [startsOf_append, order.quiet, startsOf_cons_none nobody]; rfl
  reaping := fun other => absurd phase' other
  line := by rw [retrying, order.line]
  refused := by
    rw [retrying, genAlloc]
    exact order.refused

/-- The switch: those that were put off come first in the queue that is drained now. -/
theorem switched (order : s.InOrder line again others retried posted) (phase : s.phase = .completion)
    (drained : s.executor.currentEvents = []) (phase' : s'.phase = .drain)
    (current : s'.executor.currentEvents = s.executor.nextEvents)
    (next : s'.executor.nextEvents = s.executor.currentEvents) :
    s'.InOrder line retried posted [] [] := by
  have nobody : s.retrying = [] := by
    rw [Running.retrying, phase]
    rfl
  obtain ⟨rfl, _⟩ := List.append_eq_nil_iff.mp (order.current.symm.trans drained)
  refine ⟨current.trans order.next, next.trans drained, fun event member => ?_, rfl, fun _ => rfl, ?_,
    fun earlier => ?_⟩
  · rw [List.append_nil] at member
    exact order.spawns event (List.mem_append_right _ member)
  · rw [order.line, nobody, retrying_of_drain phase', List.append_nil]
    exact List.append_nil _
  · rw [retrying_of_drain phase'] at earlier
    exact absurd rfl earlier

/-- The first event of the current queue is from the line, or nobody is left of those that were put
off in the tick before. -/
theorem first (order : s.InOrder line again others retried posted)
    (current : s.executor.currentEvents = event :: s'.executor.currentEvents) :
    (again = [] ∧ others = event :: s'.executor.currentEvents) ∨
      ∃ again', again = event :: again' ∧ s'.executor.currentEvents = again' ++ others :=
  List.append_eq_cons_iff.mp (order.current.symm.trans current)

section Popped

variable (order : s.InOrder line again others retried posted) (phase : s.phase = .drain)
  (current : s.executor.currentEvents = event :: s'.executor.currentEvents)
  (next : s'.executor.nextEvents = s.executor.nextEvents)

include order phase current next

/-- An event that starts no connection is handed out. -/
theorem popped (nobody : event.start? = none) (retrying : s'.retrying = [])
    (genAlloc : event.reason = .spawn →
      s'.executor.ioBufs.genAlloc = s.executor.ioBufs.genAlloc) :
    ∃ again others, s'.InOrder line again others retried posted := by
  have quiet := order.reaping (by simp [phase])
  rcases order.first current with ⟨rfl, _⟩ | ⟨again', rfl, current'⟩
  · refine ⟨[], s'.executor.currentEvents, ⟨rfl, next.trans order.next, order.spawns, order.quiet,
      fun _ => quiet, ?_, fun _ none => absurd rfl none⟩⟩
    rw [order.line, retrying, retrying_of_drain phase]
  · have reason := order.spawns event (by simp)
    refine ⟨again', others, ⟨current', next.trans order.next,
      fun other member => order.spawns other (List.mem_cons_of_mem _ member), order.quiet,
      fun _ => quiet, ?_, ?_⟩⟩
    · rw [order.line, retrying, retrying_of_drain phase, startsOf_cons_none nobody]
    · rw [genAlloc reason, retrying]
      intro before _
      exact order.refused (by rwa [retrying_of_drain phase]) (by simp)

variable (starts : event.start? = some id) (fresh : id ∉ startsOf s.executor.nextEvents)

include starts fresh

/-- The first one finds a buffer: it leaves the line, where nobody is before it. -/
theorem served (retrying : s'.retrying = []) (free : ¬ s.executor.ioBufs.genAlloc.Exhausted) :
    Line.Move line (line.erase id) ∧
      ∃ again others, s'.InOrder (line.erase id) again others retried posted := by
  have quiet := order.reaping (by simp [phase])
  have lies := order.line
  rw [retrying_of_drain phase, List.append_nil] at lies
  rw [order.next, startsOf_append, order.quiet, List.append_nil] at fresh
  rcases order.first current with ⟨rfl, _⟩ | ⟨again', rfl, current'⟩
  · have lies : line = startsOf retried := lies.trans (List.append_nil _)
    have same : line.erase id = line := List.erase_of_not_mem (lies ▸ fresh)
    rw [same]
    refine ⟨.stay line, [], s'.executor.currentEvents, ⟨rfl, next.trans order.next, order.spawns,
      order.quiet, fun _ => quiet, ?_, fun _ none => absurd rfl none⟩⟩
    rw [lies, retrying, List.append_nil]
    exact (List.append_nil _).symm
  · -- Those that were put off earlier in this tick found no buffer, and none was freed since.
    have nobody : startsOf retried = [] := by
      by_contra earlier
      exact free (order.refused (by simp [earlier]) (by simp))
    have lies : line = id :: startsOf again' := by
      rw [lies, nobody, startsOf_cons_some starts]
      rfl
    have rest : line.erase id = startsOf again' := by
      rw [lies, List.erase_cons_head]
    rw [rest]
    refine ⟨lies ▸ .serve id _, again', others, ⟨current', next.trans order.next,
      fun other member => order.spawns other (List.mem_cons_of_mem _ member), order.quiet,
      fun _ => quiet, ?_, fun before => ?_⟩⟩
    · rw [nobody, retrying]
      rfl
    · rw [nobody, retrying] at before
      exact absurd rfl before

/-- The first one is put off: it joins the line at the end, or keeps its place, for those before it
were put off in this tick. -/
theorem putOff (retrying : s'.retrying = [id])
    (exhausted : s'.executor.ioBufs.genAlloc.Exhausted) :
    Line.Move line (if id ∈ line then line else line ++ [id]) ∧
      ∃ again others, s'.InOrder (if id ∈ line then line else line ++ [id]) again others
        retried posted := by
  have quiet := order.reaping (by simp [phase])
  have lies := order.line
  rw [retrying_of_drain phase, List.append_nil] at lies
  rw [order.next, startsOf_append, order.quiet, List.append_nil] at fresh
  rcases order.first current with ⟨rfl, _⟩ | ⟨again', rfl, current'⟩
  · have lies : line = startsOf retried := lies.trans (List.append_nil _)
    have outside : id ∉ line := lies ▸ fresh
    rw [if_neg outside]
    refine ⟨.join line id outside, [], s'.executor.currentEvents, ⟨rfl, next.trans order.next,
      order.spawns, order.quiet, fun _ => quiet, ?_, fun _ none => absurd rfl none⟩⟩
    rw [lies, retrying]
    exact (List.append_nil _).symm
  · have lies : line = startsOf retried ++ id :: startsOf again' := by
      rw [lies, startsOf_cons_some starts]
    rw [if_pos (by simp [lies])]
    refine ⟨.stay line, again', others, ⟨current', next.trans order.next,
      fun other member => order.spawns other (List.mem_cons_of_mem _ member), order.quiet,
      fun _ => quiet, ?_, fun _ _ => exhausted⟩⟩
    rw [lies, retrying, List.append_assoc]
    rfl

end Popped

end InOrder

/-- A step that hands no event to a connection. -/
theorem LineInv.quiet (inv : s.LineInv line) (move : RunMove s label s')
    (quiet : ∀ event handler, ¬ s.Dispatches label event handler)
    (ordered : ∃ again others retried posted, s'.InOrder line again others retried posted) :
    s'.LineInv (s.inLine line label s') ∧ Line.Move line (s.inLine line label s') := by
  rw [inLine_quiet quiet]
  exact ⟨⟨inv.toBirthInv.move move, ordered⟩, .stay line⟩

/-- A step that completes an intent other than a retry, or is the kernel's. -/
theorem LineInv.idle (inv : s.LineInv line) (move : RunMove s label s')
    (quiet : ∀ event handler, ¬ s.Dispatches label event handler)
    (current : s'.executor.currentEvents = s.executor.currentEvents)
    (next : s'.executor.nextEvents = s.executor.nextEvents) (retrying : s'.retrying = s.retrying)
    (genAlloc : s'.executor.ioBufs.genAlloc = s.executor.ioBufs.genAlloc)
    (phase : s'.phase ≠ .completion → s.phase ≠ .completion) :
    s'.LineInv (s.inLine line label s') ∧ Line.Move line (s.inLine line label s') := by
  obtain ⟨again, others, retried, posted, order⟩ := inv.ordered
  exact inv.quiet move quiet
    ⟨again, others, retried, posted, order.idle current next retrying genAlloc phase⟩

/-- An event is handed to its connection. -/
theorem LineInv.dispatched (inv : s.LineInv line) (move : RunMove s label s')
    {handler handler' : ConnHandler} {intents : List MachineIntent}
    (dispatches : s.Dispatches label event handler)
    (handling : ConnMove handler s.executor.ioBufs event.reason handler' s'.executor.ioBufs intents)
    (current : s.executor.currentEvents = event :: s'.executor.currentEvents)
    (next : s'.executor.nextEvents = s.executor.nextEvents)
    (phase' : s'.phase = .completeIntent event.handle intents)
    (handlers : s'.handlerAt = Function.update s.handlerAt event.handle.genId (some handler')) :
    s'.LineInv (s.inLine line label s') ∧ Line.Move line (s.inLine line label s') := by
  obtain ⟨again, others, retried, posted, order⟩ := inv.ordered
  have births := inv.toBirthInv.move move
  have after : s'.handlerAt event.handle.genId = some handler' := by
    rw [handlers, Function.update_self]
  have names : event.handle.connection? = some event.handle.genId := if_pos dispatches.kind
  obtain ⟨reason, handle⟩ := event
  rw [inLine, dispatches.dispatched]
  simp only [after, Option.any_some]
  cases reason with
  | ioCompleted res flags =>
      have noRetry : MachineIntent.retry ∉ intents := by
        rcases handling.birth with ⟨started, _⟩ | ⟨_, noRetry, _⟩
        · cases started
        · exact noRetry
      obtain ⟨again, others, order'⟩ := order.popped dispatches.phase current next rfl
        (retrying_intents phase' noRetry) (fun started => by cases started)
      exact ⟨⟨births, again, others, retried, posted, order'⟩, .stay line⟩
  | spawn =>
      have starts : (RunQueueEvent.mk .spawn handle).start? = some handle.genId := names
      have fresh := inv.toBirthInv.start_fresh current starts
      obtain ⟨other, found, start⟩ := inv.toBirthInv.first_waits current starts
      rw [inv.queues.handlers.found dispatches, Option.some.injEq] at found
      subst found
      rw [if_pos rfl]
      rcases handling.start_cases start with ⟨free, started, noRetry⟩ | ⟨exhausted, waiting, rfl⟩
      · obtain ⟨moved, again, others, order'⟩ := order.served dispatches.phase current next names
          fresh (retrying_intents phase' noRetry) free
        rw [if_neg (by simp [started])]
        exact ⟨⟨births, again, others, retried, posted, order'⟩, moved⟩
      · have retrying : s'.retrying = [handle.genId] := by
          rw [Running.retrying, phase']
          exact List.filterMap_cons_some names
        obtain ⟨moved, again, others, order'⟩ := order.putOff dispatches.phase current next names
          fresh retrying exhausted
        rw [if_pos (by simp [waiting])]
        exact ⟨⟨births, again, others, retried, posted, order'⟩, moved⟩

/-- An event for a listener, or for a machine that is gone. -/
theorem LineInv.elsewhere (inv : s.LineInv line) {listened : Result Fd}
    (move : RunMove s (.tick listened) s') {intents : List MachineIntent}
    (quiet : ∀ event handler, ¬ s.Dispatches (.tick listened) event handler)
    (phase : s.phase = .drain)
    (current : s.executor.currentEvents = event :: s'.executor.currentEvents)
    (next : s'.executor.nextEvents = s.executor.nextEvents)
    (phase' : s'.phase = .completeIntent event.handle intents) (noRetry : .retry ∉ intents)
    (genAlloc : s'.executor.ioBufs.genAlloc = s.executor.ioBufs.genAlloc)
    (nobody : event.start? = none) :
    s'.LineInv (s.inLine line (.tick listened) s') ∧
      Line.Move line (s.inLine line (.tick listened) s') := by
  obtain ⟨again, others, retried, posted, order⟩ := inv.ordered
  obtain ⟨again, others, order'⟩ := order.popped phase current next nobody
    (retrying_intents phase' noRetry) fun _ => genAlloc
  exact inv.quiet move quiet ⟨again, others, retried, posted, order'⟩

/-- An event for a machine that is gone starts no connection. -/
theorem BirthInv.missing_start (inv : s.BirthInv)
    (current : s.executor.currentEvents = event :: others)
    (absent : s.executor.Missing event.handle) : event.start? = none := by
  rcases absent with ⟨listening, _⟩ | ⟨kind, none⟩
  · exact RunQueueEvent.start?_eq_none fun handling => ObjectHandle.notListener handling listening
  · cases starts : event.start? with
    | none => rfl
    | some id =>
        obtain ⟨handler, found, _⟩ := inv.first_waits current starts
        obtain ⟨_, rfl⟩ := RunQueueEvent.of_start? starts
        rw [inv.queues.handlers.pool.get_eq, Except.ok.injEq] at none
        cases found.symm.trans none

/-- Each step keeps the line, and moves it. -/
theorem LineInv.step (inv : s.LineInv line) (move : RunMove s label s') :
    s'.LineInv (s.inLine line label s') ∧ Line.Move line (s.inLine line label s') := by
  have births := inv.toBirthInv
  have queues := births.queues
  have wf := queues.wf
  have step := move
  obtain ⟨again, others, retried, posted, order⟩ := id inv.ordered
  cases move with
  | missing listened event queue phase pop absent =>
      have current := (taken_popped wf phase pop).2
      refine inv.elsewhere step (not_dispatches_of_pop pop ?_) phase current
        Executor.popped_nextEvents rfl (by simp) rfl (births.missing_start current absent)
      rintro _ handler ⟨⟩ kind found
      rcases absent with ⟨listening, _⟩ | ⟨_, none⟩
      · exact ObjectHandle.notListener kind listening
      · cases found.symm.trans none
  | listener listened event queue listener listener' intents phase pop kind found handling =>
      refine inv.elsewhere step (not_dispatches_of_pop pop ?_) phase (taken_popped wf phase pop).2
        Executor.popped_nextEvents rfl handling.notHandler.1.1 rfl ?_
      · rintro _ handler ⟨⟩ kind' _
        exact ObjectHandle.notListener kind' kind
      · exact RunQueueEvent.start?_eq_none fun handling => ObjectHandle.notListener handling kind
  | handler listened event queue handler handler' buffers intents phase pop kind found handling =>
      have resolved := found
      rw [queues.handlers.pool.get_eq, Except.ok.injEq] at resolved
      exact inv.dispatched step ⟨⟨listened, rfl⟩, phase, ⟨queue, pop⟩, kind, found⟩ handling
        (taken_popped wf phase pop).2 Executor.popped_nextEvents rfl
        (queues.handlers.pool.store_spec resolved handler').1
  | drained listened queue phase pop =>
      rcases RingBuffer.pop_inv (wf _) pop with ⟨_, empty, rfl⟩ | ⟨_, same, _⟩
      · have current : (s.executor.popped
            (s.executor.runQueues s.executor.currentRunQueue)).currentEvents =
              s.executor.currentEvents := Executor.popped_currentEvents
        refine inv.idle step (not_dispatches_of_pop pop (by simp)) current
          Executor.popped_nextEvents ?_ rfl (by simp [phase])
        rw [retrying, retrying, phase]
        rfl
      · cases same
  | finished listened handle phase =>
      refine inv.idle step (not_dispatches phase (by simp)) rfl rfl ?_ rfl (by simp [phase])
      rw [retrying, retrying, phase]
      rfl
  | retry listened handle rest queue phase push =>
      obtain ⟨next, current⟩ := Executor.pushed_nextEvents wf push
      exact inv.quiet step (not_dispatches phase (by simp))
        ⟨_, _, _, _, order.retry phase rfl current next rfl⟩
  | submit listened handle intent rest sqe phase submits =>
      exact inv.idle step (not_dispatches phase (by simp)) rfl rfl
        (retrying_cons phase (by cases submits <;> simp) rfl) rfl (by simp [phase])
  | spawned listened handle fixed rest fresh pool queue phase spawn push =>
      obtain ⟨current, next⟩ := Executor.pushed_currentEvents wf push
      exact inv.quiet step (not_dispatches phase (by simp))
        ⟨_, _, _, _, order.spawned current next (retrying_cons phase (by simp) rfl) rfl
          (by simp [phase])⟩
  | terminateListener listened handle rest freed pool phase kind despawn
  | terminate listened handle rest freed pool phase kind despawn =>
      exact inv.idle step (not_dispatches phase (by simp)) rfl rfl
        (retrying_cons phase (by simp) rfl) rfl (by simp [phase])
  | wait listened phase available =>
      refine inv.idle step (not_dispatches phase (by simp)) rfl rfl ?_ rfl (by simp [phase])
      rw [retrying, retrying, phase]
      rfl
  | reap listened cqe cq queue phase reaped push =>
      obtain ⟨next, current⟩ := Executor.pushed_nextEvents wf push
      refine inv.quiet step (not_dispatches phase (by simp))
        ⟨_, _, _, _, order.reaped current next rfl ?_ rfl rfl⟩
      rw [retrying, retrying, phase]
  | switch listened phase reaped =>
      rcases waiting_tick wf (.inr phase) step with ⟨completing, _⟩ | ⟨phase', current, next⟩
      · cases completing
      · exact inv.quiet step (not_dispatches phase (by simp))
          ⟨_, _, _, _, order.switched phase (queues.drained (.inr phase)) phase' current next⟩
  | take sqe sq submitted =>
      refine inv.idle step ?_ rfl rfl rfl rfl id
      rintro _ _ ⟨⟨_, ⟨⟩⟩⟩
  | complete index result flags data sqe ioBufs working written =>
      refine inv.idle step ?_ rfl rfl rfl ?_ id
      · rintro _ _ ⟨⟨_, ⟨⟩⟩⟩
      · rcases written with rfl | ⟨_, _, rfl⟩ <;> rfl

/-- At the start nobody was put off. -/
theorem lineInv_start {entries : Nat} {listeners connHandlers bufCount : UInt32}
    {raw : Option (Nat × (Nat → UInt8))}
    (started : start entries listeners connHandlers bufCount raw = .ok s) : s.LineInv [] := by
  obtain ⟨_, next, _⟩ := start_queues started
  obtain ⟨phase, _⟩ := start_fields started
  refine { toBirthInv := birthInv_start started
           ordered := ⟨[], s.executor.currentEvents, [], [], rfl, next, by simp, rfl, fun _ => rfl, ?_,
             fun _ none => absurd rfl none⟩ }
  rw [retrying_of_drain phase]
  rfl

/-- In every run the line lies in the queues, and nobody stands in it twice. -/
theorem lineInv_reach {listeners connHandlers bufCount : UInt32} {p : Running × List GenId}
    (reached : (lined listeners connHandlers bufCount).Reachable p) :
    p.1.LineInv p.2 ∧ p.2.Nodup := by
  refine reached.ghost_invariant (fun s line => s.LineInv line ∧ line.Nodup) ?_ ?_
  · rintro s ⟨_, _, started⟩
    exact ⟨lineInv_start started, List.nodup_nil⟩
  · rintro s line label s' ⟨inv, nodup⟩ stepped
    obtain ⟨inv', moved⟩ := inv.step (step_move stepped)
    exact ⟨inv', moved.nodup nodup⟩

/-- Any number of connections and buffers, any kernel, any order of steps: the connections that were
put off stand in a line, each of them once and in `Init`.  One that is put off for the first time
joins it at the end, and of those in line only the first one ever finds a buffer.  Who was never put
off is not in line, and may find a buffer before those who are. -/
theorem served_in_order {listeners connHandlers bufCount : UInt32} {p p' : Running × List GenId}
    {label : RunLabel} (reached : (lined listeners connHandlers bufCount).Reachable p)
    (stepped : (lined listeners connHandlers bufCount).step p label = some p') :
    p.2.Nodup ∧
      (∀ id ∈ p.2, ∃ handler, p.1.handlerAt id = some handler ∧ handler.state = .init) ∧
      Line.Move p.2 p'.2 := by
  obtain ⟨inv, nodup⟩ := lineInv_reach reached
  obtain ⟨_, _, _, _, order⟩ := inv.ordered
  obtain ⟨ran, traced⟩ := Machine.withGhost_step.mp stepped
  refine ⟨nodup, fun id member => inv.toBirthInv.waits (order.subset id member), ?_⟩
  rw [traced]
  exact (inv.step (step_move ran)).2

/-- The listener accepts three connections in one batch, and there is a buffer for the first of them
only: the turns up to the next `submit_and_wait`. -/
def acceptThree : List RunLabel :=
  ticks 4 ++ [.take, .complete 0 0 2 [], .complete 0 1 2 [], .complete 0 2 2 []] ++ ticks 24

/-- The peer of the first connection ends its stream, the others are put off again, and the descriptor
is closed: the turns up to the one that hands out the first event of the next tick. -/
def firstLeaves : List RunLabel :=
  [.take, .complete 1 0 0 []] ++ ticks 13 ++ [.take, .complete 1 0 0 []] ++ ticks 3

set_option maxRecDepth 100000 in
/-- Two connections were put off, and the first of them finds the buffer of the one that left. -/
theorem served_in_order_two :
    ∃ p p' : Running × List GenId, p.2 = [⟨1, 0⟩, ⟨0, 0⟩] ∧ p'.2 = [⟨0, 0⟩] ∧
      Line.Move p.2 p'.2 := by
  obtain ⟨p, reached, ends⟩ : ∃ p : Running × List GenId, (lined 1 3 1).Reachable p ∧
      (p.2 == [⟨1, 0⟩, ⟨0, 0⟩] &&
        ((lined 1 3 1).step p (.tick (.ok 3))).any fun p' => p'.2 == [⟨0, 0⟩]) = true := by
    have initial : ∀ s, start 16 1 3 1 (some (0x1000, fun _ => 0)) = .ok s →
        (lined 1 3 1).initial (s, []) := fun _ started => ⟨⟨16, _, started⟩, rfl⟩
    exact Machine.exists_reach_of_start _ initial (fun _ _ _ => true) (fun _ _ _ _ => trivial)
      (acceptThree ++ firstLeaves) _ (by decide +kernel)
  simp only [Bool.and_eq_true, Option.any_eq_true, beq_iff_eq] at ends
  obtain ⟨two, p', stepped, one⟩ := ends
  exact ⟨p, p', two, one, (served_in_order reached stepped).2.2⟩

/-- Any number of connections and buffers, any kernel, any order of steps: for as long as a connection
stands in the line of those that were put off, nobody comes to stand before it.  Those before it are a
rear part of those that were before it. -/
theorem nobody_overtakes {listeners connHandlers bufCount : UInt32} {p p' : Running × List GenId}
    (reached : (lined listeners connHandlers bufCount).Reachable p) (waits : id ∈ p.2)
    (leads : (lined listeners connHandlers bufCount).LeadsBy (fun _ _ q => id ∈ q.2) p p') :
    Line.ahead id p'.2 <:+ Line.ahead id p.2 := by
  suffices both : id ∈ p'.2 ∧ Line.ahead id p'.2 <:+ Line.ahead id p.2 from both.2
  induction leads with
  | refl => exact ⟨waits, List.suffix_rfl⟩
  | tail leads stepped inductionHypothesis =>
      obtain ⟨label, stepped, stays⟩ := stepped
      obtain ⟨before, overtaken⟩ := inductionHypothesis
      obtain ⟨inv, nodup⟩ := lineInv_reach
        (Machine.Leads.reachable (Machine.LeadsBy.leads leads) reached)
      obtain ⟨ran, traced⟩ := Machine.withGhost_step.mp stepped
      have moved := (inv.step (step_move ran)).2
      rw [← traced] at moved
      exact ⟨stays, (moved.ahead_suffix nodup before stays).trans overtaken⟩

set_option maxRecDepth 100000 in
/-- The second of the two waits while the first finds the buffer. -/
theorem nobody_overtakes_second :
    ∃ p p' : Running × List GenId, Line.ahead ⟨0, 0⟩ p.2 = [⟨1, 0⟩] ∧
      Line.ahead ⟨0, 0⟩ p'.2 = [] ∧ Line.ahead ⟨0, 0⟩ p'.2 <:+ Line.ahead ⟨0, 0⟩ p.2 := by
  obtain ⟨p, reached, ends⟩ : ∃ p : Running × List GenId, (lined 1 3 1).Reachable p ∧
      (p.2 == [⟨1, 0⟩, ⟨0, 0⟩] &&
        ((lined 1 3 1).run (fun _ _ q => decide (⟨0, 0⟩ ∈ q.2)) p (firstLeaves ++ ticks 1)).any
          fun p' => p'.2 == [⟨0, 0⟩]) = true := by
    have initial : ∀ s, start 16 1 3 1 (some (0x1000, fun _ => 0)) = .ok s →
        (lined 1 3 1).initial (s, []) := fun _ started => ⟨⟨16, _, started⟩, rfl⟩
    exact Machine.exists_reach_of_start _ initial (fun _ _ _ => true) (fun _ _ _ _ => trivial)
      acceptThree _ (by decide +kernel)
  simp only [Bool.and_eq_true, Option.any_eq_true, beq_iff_eq] at ends
  obtain ⟨two, p', ran, one⟩ := ends
  have leads := Machine.run_leadsBy (fun _ _ _ stays => of_decide_eq_true stays) ran
  have waits : ⟨0, 0⟩ ∈ p.2 := by simp [two]
  exact ⟨p, p', by rw [two]; decide, by rw [one]; decide, nobody_overtakes reached waits leads⟩

end Running

end Hoarder
