/-
Module: Hoarder.Proofs.WakeUps
Purpose: No wake-up is lost.  A connection that is put off waits for the next tick, and the executor
  blocks in `submit_and_wait` before it; whenever one waits, the kernel has an operation to complete,
  has completed one, or is about to be given one.  So a run that can take no step has panicked, or
  nothing is left to do.
Trusted boundary: none
Main exports: MachineIntent.submits, Running.Retrying, Running.Wakes, Running.WakeInv,
  Running.WakeInv.wakes_refused, Running.Wakes.progress, Running.WakeInv.move, Running.Over,
  Running.never_blocked
-/
import Hoarder.Proofs.Admission
import Hoarder.Proofs.DrainTick
import Hoarder.Proofs.UnderWay

namespace Hoarder

open Foundation

/-- Whether `complete_intent` hands an operation to the ring for the intent. -/
def MachineIntent.submits : MachineIntent → Bool
  | .submitMultishotAccept _ | .submitRecv _ _ _ | .closeFixed _ => true
  | .retry | .terminate | .spawnConnHandler _ => false

/-- Every event at a handler in `Recv` makes it submit an operation. -/
theorem ConnMove.submits_of_recv {self self' : ConnHandler} {buffers buffers' : IoBufs}
    {event : MachineEvent} {intents : List MachineIntent}
    (move : ConnMove self buffers event self' buffers' intents) {phase : RecvPhase}
    (receiving : self.state = .recv phase) : ∃ intent ∈ intents, intent.submits = true := by
  cases move with
  | endOfStream | transient | disconnected | ignored | received =>
      exact ⟨_, List.mem_cons_self .., rfl⟩
  | spawned _ _ start => simp [start] at receiving
  | retry _ start => simp [start] at receiving
  | closed _ start => simp [start] at receiving
  | closeAgain _ _ _ _ start => simp [start] at receiving
  | late _ start => simp [start] at receiving

namespace Running

variable {s s' : Running} {label : RunLabel} {handle : ObjectHandle}

/-- A connection was put off to the next tick, or is about to be. -/
inductive Retrying (s : Running) : Prop where
  | intent (handle : ObjectHandle) (member : .intent handle .retry ∈ s.agenda)
  | event (waits : s.executor.nextEvents ≠ [])

/-- The executor will not block, or the kernel will wake it: an operation is at the kernel, a
completion is posted, an intent is to submit an operation, or there is an event for a handler that
submits one on any event. -/
inductive Wakes (s : Running) : Prop where
  | op (sqe : Sqe) (member : sqe ∈ s.ops)
  | posted (available : s.executor.io.cq ≠ [])
  | intent (handle : ObjectHandle) (intent : MachineIntent)
      (member : .intent handle intent ∈ s.agenda) (submits : intent.submits = true)
  | event (res : Int32) (flags : UInt32) (handle : ObjectHandle)
      (member : .event ⟨.ioCompleted res flags, handle⟩ ∈ s.agenda)
      (kind : handle.poolId = connHandler) (handler : ConnHandler) (phase : RecvPhase)
      (found : s.handlerAt handle.genId = some handler) (receiving : handler.state = .recv phase)

/-- Until the completions are reaped, the events of the next tick are of connections that were put
off, and while there are any the executor will be woken. -/
structure WakeInv (s : Running) : Prop extends BufferInv s where
  births : s.BirthInv
  underWay : s.UnderWay
  spawns : s.phase ≠ .completion → ∀ event ∈ s.executor.nextEvents, event.reason = .spawn
  wakes : s.phase ≠ .completion → s.Retrying → s.Wakes

/-- A handler in `Recv` is not to be started. -/
theorem BirthInv.not_started (births : s.BirthInv) (kind : handle.poolId = connHandler)
    {handler : ConnHandler} {phase : RecvPhase} (found : s.handlerAt handle.genId = some handler)
    (receiving : handler.state = .recv phase) : .event ⟨.spawn, handle⟩ ∉ s.agenda := by
  intro member
  refine not_born births.tokens kind found (by simp [receiving]) .start (Multiset.mem_coe.mpr ?_)
  exact List.mem_filterMap.mpr ⟨_, member, rfl⟩

/-- When a handler finds no buffer, the one that holds the first buffer has an operation at the
kernel, or a completion on its way. -/
theorem WakeInv.wakes_refused (inv : s.WakeInv) {event : RunQueueEvent} {handler : ConnHandler}
    {buffers' : IoBufs} {intents : List MachineIntent} {rest : List AgendaItem}
    (found : s.handlerAt event.handle.genId = some handler) (start : handler.state = .init)
    (refused : s.executor.ioBufs.alloc = .ok (none, buffers'))
    (agenda : s.agenda = .event event :: rest)
    (agenda' : s'.agenda = intents.map (.intent event.handle) ++ rest) (ops : s'.ops = s.ops)
    {handler' : ConnHandler}
    (handlers : s'.handlerAt = Function.update s.handlerAt event.handle.genId (some handler')) :
    s'.Wakes := by
  have owns : s.executor.ioBufs.genAlloc.Owns fun id => (s.bufOwner id).map BufferHandle.id :=
    inv.owns
  obtain ⟨id, bufferId, holds, _⟩ := inv.toBufferInv.holder refused
    (show 0 < s.executor.ioBufs.genAlloc.capacity by
      rw [← owns.sized]
      exact owns.freeList.size_pos)
  obtain ⟨holder, phase, found', receiving, _⟩ := bufOwner_eq_some.mp holds
  have small := inv.handlers.pool.index_small (ObjectPool.lookup_valid found')
  have kind := ObjectHandle.poolId_new connHandler small
  have sameId := ObjectHandle.genId_new connHandler small
  rw [← sameId] at found'
  have different : (ObjectHandle.new connHandler id).genId ≠ event.handle.genId := by
    intro same
    rw [same, found] at found'
    cases found'
    rw [start] at receiving
    cases receiving
  cases inv.underWay.busy _ (.handler kind holder found') with
  | op sqe member => exact .op sqe (ops ▸ member)
  | item item member errand has =>
      rcases AgendaItem.errand?_handle has with ⟨intent, rfl⟩ | ⟨reason, rfl⟩
      · exact absurd member (intent_not_mem agenda _ intent)
      · cases reason with
        | spawn => exact absurd member (inv.births.not_started kind found' receiving)
        | ioCompleted res flags =>
            refine .event res flags _ ?_ kind holder phase ?_ receiving
            · rw [agenda] at member
              rcases List.mem_cons.mp member with same | behind
              · cases same
                exact absurd rfl different
              · rw [agenda']
                exact List.mem_append_right _ behind
            · rw [handlers, Function.update_of_ne different, found']

/-- Until the completions are reaped no step takes a completion off the ring. -/
theorem posted_move (reaping : s.phase ≠ .completion) (move : RunMove s label s')
    (available : s.executor.io.cq ≠ []) : s'.executor.io.cq ≠ [] := by
  cases move with
  | reap _ cqe cq queue phase => exact absurd phase reaping
  | complete => simp
  | missing | listener | handler | drained | finished | retry | submit | spawned
  | terminateListener | terminate | wait | switch | take => exact available

/-- A handler in `Recv` stays there, or submits an operation. -/
theorem Wakes.of_handler {event : RunQueueEvent} {handler handler' : ConnHandler}
    {intents : List MachineIntent} {rest : List AgendaItem}
    (move : ConnMove handler s.executor.ioBufs event.reason handler' s'.executor.ioBufs intents)
    (kind : event.handle.poolId = connHandler)
    (found : s.handlerAt event.handle.genId = some handler)
    (agenda : s.agenda = .event event :: rest)
    (agenda' : s'.agenda = intents.map (.intent event.handle) ++ rest)
    (handlers : s'.handlerAt = Function.update s.handlerAt event.handle.genId (some handler'))
    {res : Int32} {flags : UInt32} {waiting : ConnHandler} {phase : RecvPhase}
    (member : .event ⟨.ioCompleted res flags, handle⟩ ∈ s.agenda)
    (kind' : handle.poolId = connHandler) (found' : s.handlerAt handle.genId = some waiting)
    (receiving : waiting.state = .recv phase) : s'.Wakes := by
  by_cases same : handle = event.handle
  · subst same
    rw [found] at found'
    cases found'
    obtain ⟨intent, submitted, submits⟩ := move.submits_of_recv receiving
    refine .intent event.handle intent ?_ submits
    rw [agenda']
    exact List.mem_append_left _ (List.mem_map.mpr ⟨intent, submitted, rfl⟩)
  · have apart : handle.genId ≠ event.handle.genId := fun sameId =>
      same (ObjectHandle.eq_of_fields (kind'.trans kind.symm) sameId)
    refine .event res flags handle ?_ kind' waiting phase
      (by rw [handlers, Function.update_of_ne apart, found']) receiving
    rw [agenda] at member
    rcases List.mem_cons.mp member with sameEvent | behind
    · cases sameEvent
      exact absurd rfl same
    · rw [agenda']
      exact List.mem_append_right _ behind

/-- What will wake the executor still does so behind something that submits nothing, while the
handlers in `Recv` stay. -/
theorem Wakes.of_cons (wakes : s.Wakes) (available : s.executor.io.cq ≠ [] → s'.executor.io.cq ≠ [])
    {first : AgendaItem} {rest : List AgendaItem} (agenda : s.agenda = first :: rest)
    (behind : ∀ item ∈ rest, item ∈ s'.agenda) (ops : s'.ops = s.ops)
    (stays : ∀ id handler phase, s.handlerAt id = some handler → handler.state = .recv phase →
      s'.handlerAt id = some handler)
    (noSubmit : ∀ handle intent, first = .intent handle intent → intent.submits = false)
    (noRecv : ∀ event, first = .event event → ∀ handler phase, event.handle.poolId = connHandler →
      s.handlerAt event.handle.genId = some handler → handler.state ≠ .recv phase) : s'.Wakes := by
  cases wakes with
  | op sqe member => exact .op sqe (ops ▸ member)
  | posted posted => exact .posted (available posted)
  | intent handle intent member submits =>
      rw [agenda] at member
      rcases List.mem_cons.mp member with same | member
      · rw [noSubmit handle intent same.symm] at submits
        cases submits
      · exact .intent handle intent (behind _ member) submits
  | event res flags handle member kind handler phase found receiving =>
      rw [agenda] at member
      rcases List.mem_cons.mp member with same | member
      · exact absurd receiving (noRecv _ same.symm handler phase kind found)
      · exact .event res flags handle (behind _ member) kind handler phase
          (stays _ handler phase found receiving) receiving

/-- What will wake the executor goes on to do so, until the completions are reaped. -/
theorem Wakes.progress (wakes : s.Wakes) (inv : s.UnderWay) (reaping : s.phase ≠ .completion)
    (move : RunMove s label s') : s'.Wakes := by
  have available := posted_move reaping move
  cases inv.queues.progress move with
  | idle _ _ kernel agenda ops handlers =>
      cases wakes with
      | op sqe member => exact .op sqe (ops ▸ member)
      | posted posted => exact .posted (available posted)
      | intent handle intent member submits => exact .intent handle intent (agenda ▸ member) submits
      | event res flags handle member kind handler phase found receiving =>
          exact .event res flags handle (agenda ▸ member) kind handler phase (handlers ▸ found)
            receiving
  | missing _ _ event absent agenda ops handlers =>
      refine wakes.of_cons available agenda (fun _ member => member) ops
        (fun _ _ _ found _ => handlers ▸ found) (by simp) ?_
      rintro _ ⟨⟩ handler phase kind found
      rcases absent with ⟨listening, _⟩ | ⟨_, none⟩
      · exact absurd listening (ObjectHandle.notListener kind)
      · rw [none] at found
        cases found
  | handler _ _ event handler handler' intents rest kind found handling agenda agenda' ops handlers =>
      cases wakes with
      | op sqe member => exact .op sqe (ops ▸ member)
      | posted posted => exact .posted (available posted)
      | intent handle intent member => exact absurd member (intent_not_mem agenda handle intent)
      | event res flags handle member kind' waiting phase found' receiving =>
          exact .of_handler handling kind found agenda agenda' handlers member kind' found' receiving
  | listener _ _ event listener listener' intents rest kind found listening agenda agenda' ops
      handlers =>
      refine wakes.of_cons available agenda (fun item member => ?_) ops
        (fun _ _ _ found _ => handlers ▸ found) (by simp) ?_
      · rw [agenda']
        exact List.mem_append_right _ member
      · rintro _ ⟨⟩ handler phase handling
        exact absurd kind (ObjectHandle.notListener handling)
  | retry _ _ other front back agenda agenda' ops handlers =>
      refine wakes.of_cons available agenda ?_ ops (fun _ _ _ found _ => handlers ▸ found) ?_ (by simp)
      · rw [agenda']
        intro item member
        simp only [List.mem_append, List.mem_cons] at member ⊢
        tauto
      · rintro handle intent ⟨⟩
        rfl
  | submit _ _ other intent sqe submits agenda ops handlers =>
      exact .op sqe (by rw [ops]; exact Multiset.mem_cons_self ..)
  | spawned _ _ other fixed id front back small unbound agenda agenda' ops handlers =>
      refine wakes.of_cons available agenda ?_ ops ?_ ?_ (by simp)
      · rw [agenda']
        intro item member
        simp only [List.mem_append, List.mem_cons] at member ⊢
        tauto
      · intro id' handler phase found _
        rw [handlers, Function.update_of_ne, found]
        rintro rfl
        rw [unbound] at found
        cases found
      · rintro handle intent ⟨⟩
        rfl
  | terminated _ _ other kind agenda ops handlers =>
      obtain ⟨_, terminating, _⟩ := phase_of_agenda agenda
      obtain ⟨_, _, closing, closingFound, closed⟩ :=
        inv.queues.handlers.terminate other _ terminating (by simp)
      refine wakes.of_cons available agenda (fun _ member => member) ops ?_ ?_ (by simp)
      · intro id handler phase found receiving
        rw [handlers, Function.update_of_ne, found]
        rintro rfl
        rw [closingFound] at found
        cases found
        rw [closed] at receiving
        cases receiving
      · rintro handle intent ⟨⟩
        rfl
  | completed index result flags data _ sqe others working agenda ops ops' handlers =>
      cases move with
      | complete => exact .posted (by simp)

/-- A step of the executor leaves only connections that were put off for the next tick. -/
theorem WakeInv.spawns_move (inv : s.WakeInv) (move : RunMove s label s')
    (reaping' : s'.phase ≠ .completion) :
    (s.phase = .completion ∧ s'.phase = .drain ∧ s'.executor.nextEvents = []) ∨
      (s.phase ≠ .completion ∧
        ∀ event ∈ s'.executor.nextEvents, event ∈ s.executor.nextEvents ∨
          (event.reason = .spawn ∧ s.Retrying)) := by
  have wf := inv.births.queues.wf
  by_cases executor : ∃ listened, label = .tick listened
  · obtain ⟨listened, rfl⟩ := executor
    by_cases reaping : s.phase = .completion
    · rcases waiting_tick wf (.inr reaping) move with ⟨phase', _⟩ | ⟨phase', _, next⟩
      · exact absurd phase' reaping'
      · exact .inl ⟨reaping, phase', next.trans (inv.births.queues.drained (.inr reaping))⟩
    · refine .inr ⟨reaping, fun event member => ?_⟩
      rw [nextEvents_tick wf move fun completing => absurd completing reaping] at member
      rcases List.mem_append.mp member with before | added
      · exact .inl before
      · obtain ⟨handle, rest, phase, rfl⟩ := mem_pushedNext reaping added
        refine .inr ⟨rfl, .intent handle ?_⟩
        rw [agenda_intent phase]
        exact List.mem_cons_self
  · obtain ⟨phase, _, next, _⟩ := kernel_events (not_exists.mp executor) move
    rw [phase] at reaping'
    exact .inr ⟨reaping', fun event member => .inl (next ▸ member)⟩

/-- A step after which a connection is put off, and before which none was, is one at a handler that
finds no buffer. -/
theorem WakeInv.wakes_move (inv : s.WakeInv) (move : RunMove s label s')
    (reaping' : s'.phase ≠ .completion) (retrying' : s'.Retrying) : s'.Wakes := by
  rcases inv.spawns_move move reaping' with ⟨_, phase', next⟩ | ⟨reaping, next⟩
  · -- After the switch the queue of the next tick is the one that was drained.
    cases retrying' with
    | intent handle member =>
        rw [agenda_events (by simp [phase'])] at member
        simp at member
    | event waits => exact absurd next waits
  by_cases retrying : s.Retrying
  · exact (inv.wakes reaping retrying).progress inv.underWay reaping move
  have submitted : ∃ handle, .intent handle .retry ∈ s'.agenda := by
    cases retrying' with
    | intent handle member => exact ⟨handle, member⟩
    | event waits =>
        obtain ⟨event, member⟩ := List.exists_mem_of_ne_nil _ waits
        rcases next event member with before | ⟨_, before⟩
        · exact absurd (.event (List.ne_nil_of_mem before)) retrying
        · exact absurd before retrying
  obtain ⟨handle, member⟩ := submitted
  have notBefore : .intent handle .retry ∉ s.agenda := fun before =>
    retrying (.intent handle before)
  cases inv.births.queues.progress move with
  | handler _ _ event handler handler' intents rest kind found handling agenda agenda' ops handlers =>
      rw [agenda'] at member
      rcases List.mem_append.mp member with submitted | behind
      · simp only [List.mem_map, AgendaItem.intent.injEq] at submitted
        obtain ⟨_, submitted, rfl, rfl⟩ := submitted
        obtain ⟨start, refused⟩ := handling.retry_cases submitted
        exact inv.wakes_refused found start refused agenda agenda' ops handlers
      · exact absurd (agenda ▸ List.mem_cons_of_mem _ behind) notBefore
  | listener _ _ event listener listener' intents rest kind found listening agenda agenda' =>
      rw [agenda'] at member
      rcases List.mem_append.mp member with submitted | behind
      · simp only [List.mem_map, AgendaItem.intent.injEq] at submitted
        obtain ⟨_, submitted, rfl, rfl⟩ := submitted
        exact absurd submitted listening.notHandler.1.1
      · exact absurd (agenda ▸ List.mem_cons_of_mem _ behind) notBefore
  | idle _ _ _ agenda => exact absurd (agenda ▸ member) notBefore
  | missing _ _ _ _ agenda => exact absurd (agenda ▸ List.mem_cons_of_mem _ member) notBefore
  | submit _ _ _ _ _ _ agenda => exact absurd (agenda ▸ List.mem_cons_of_mem _ member) notBefore
  | terminated _ _ _ _ agenda => exact absurd (agenda ▸ List.mem_cons_of_mem _ member) notBefore
  | retry _ _ other front back agenda agenda' =>
      rw [agenda'] at member
      rw [agenda] at notBefore
      exact absurd (List.mem_cons_of_mem _ (by simpa using member)) notBefore
  | spawned _ _ other fixed id front back small unbound agenda agenda' =>
      rw [agenda'] at member
      rw [agenda] at notBefore
      exact absurd (List.mem_cons_of_mem _ (by simpa using member)) notBefore
  | completed index result flags data _ sqe others working agenda =>
      rw [agenda] at member
      exact absurd (by simpa using member) notBefore

/-- Each step keeps the invariant, unless a repeated close frees a reissued buffer. -/
theorem WakeInv.move (inv : s.WakeInv) (move : RunMove s label s')
    (met : noReissue s label s') : s'.WakeInv :=
  { inv.toBufferInv.move move met with
    births := inv.births.move move
    underWay := inv.underWay.move move
    spawns := fun reaping' event member => by
      rcases inv.spawns_move move reaping' with ⟨_, _, next⟩ | ⟨reaping, next⟩
      · rw [next] at member
        cases member
      · rcases next event member with before | ⟨spawn, _⟩
        · exact inv.spawns reaping event before
        · exact spawn
    wakes := inv.wakes_move move }

theorem wakeInv_start {entries : Nat} {listeners connHandlers bufCount : UInt32}
    {raw : Option (Nat × (Nat → UInt8))}
    (started : start entries listeners connHandlers bufCount raw = .ok s) : s.WakeInv := by
  obtain ⟨handle, agenda, _⟩ := start_waits started
  obtain ⟨_, next, _⟩ := start_queues started
  have none : s.executor.nextEvents = [] := next
  refine { bufferInv_start started with
           births := birthInv_start started, underWay := underWay_start started
           spawns := by simp [none], wakes := fun _ retrying => ?_ }
  cases retrying with
  | intent handle member => simp [agenda] at member
  | event waits => exact absurd none waits

/-! ### Runs that cannot go on -/

/-- Nothing is left to do: no connection, no listener that works, no buffer in use. -/
structure Over (s : Running) : Prop where
  phase : s.phase = .submitAndWait
  agenda : s.agenda = []
  handlers : ∀ id, s.handlerAt id = none
  listeners : ∀ id listener, s.listenerAt id = some listener → ∃ error, listener.state = .error error
  buffers : ∀ bufferId, ¬ s.executor.ioBufs.Outstanding bufferId

/-- A blocked executor that the kernel has nothing for has nothing to do. -/
theorem WakeInv.over (inv : s.WakeInv) (phase : s.phase = .submitAndWait) (noOps : s.ops = 0)
    (nonePosted : s.executor.io.cq = []) : s.Over := by
  have none : s.executor.nextEvents = [] := by
    by_contra waits
    cases inv.wakes (by simp [phase]) (.event waits) with
    | op sqe member => simp [noOps] at member
    | posted available => exact available nonePosted
    | intent handle intent member =>
        rw [agenda_events (by simp [phase])] at member
        simp at member
    | event res flags handle member =>
        -- The completion is not on a queue: the current one is empty, the next one holds starts.
        have drained : s.executor.currentEvents = [] := inv.births.queues.drained (.inl phase)
        rw [agenda_events (by simp [phase]), Executor.events_eq, drained, nonePosted] at member
        have waiting : (⟨.ioCompleted res flags, handle⟩ : RunQueueEvent) ∈ s.executor.nextEvents := by
          simpa using member
        have spawn := inv.spawns (by simp [phase]) _ waiting
        cases spawn
  have empty : s.agenda = [] := by
    have drained : s.executor.currentEvents = [] := inv.births.queues.drained (.inl phase)
    rw [agenda_events (by simp [phase]), Executor.events_eq, drained, none, nonePosted]
    rfl
  have idle : ∀ handle, ¬ s.Awaits handle := by
    intro handle waits
    cases inv.underWay.busy handle waits with
    | item item member => simp [empty] at member
    | op sqe member => simp [noOps] at member
  have noHandler : ∀ id, s.handlerAt id = .none := by
    intro id
    by_contra present
    obtain ⟨handler, found⟩ := Option.ne_none_iff_exists'.mp present
    have small := inv.handlers.pool.index_small (ObjectPool.lookup_valid found)
    refine idle (.new connHandler id) (.handler (ObjectHandle.poolId_new _ small) handler ?_)
    rw [ObjectHandle.genId_new _ small, found]
  refine ⟨phase, empty, noHandler, fun id listener found => ?_, fun bufferId outstanding => ?_⟩
  · by_contra working
    have small := inv.births.queues.listeners.index_small (ObjectPool.lookup_valid found)
    refine idle (.new tcpServer id) (.listener (ObjectHandle.poolId_new _ small) listener ?_
      (not_exists.mp working))
    rw [ObjectHandle.genId_new _ small, found]
  · obtain ⟨id, holds⟩ := inv.owns.outstanding_iff.mp outstanding
    obtain ⟨handler, _, found, _⟩ := bufOwner_eq_some.mp holds
    rw [noHandler id] at found
    cases found

/-- Any number of connections, any kernel, any order of steps, unless a repeated close frees a
reissued buffer: a run that can take no step has panicked, or it is over.  The executor never blocks
while there is a connection, a listener that works, or a connection that was put off. -/
theorem never_blocked {listeners connHandlers bufCount : UInt32}
    (reached : (machine listeners connHandlers bufCount).Reach noReissue s)
    (stuck : (machine listeners connHandlers bufCount).Stuck s) :
    (∀ listened submitted, ∃ fault, s.tick listened submitted = .error fault) ∨ s.Over := by
  have inv : s.WakeInv := reached.invariant WakeInv (fun _ ⟨_, _, started⟩ => wakeInv_start started)
    fun _ _ _ inv stepped met => inv.move (step_move stepped) met
  by_cases blocked : s.phase = .submitAndWait ∧ s.executor.io.cq = []
  · refine .inr (inv.over blocked.1 ?_ blocked.2)
    have noneTaken : s.step .take = none := stuck .take
    have noneCompleted : s.complete 0 0 0 [] = none := stuck (.complete 0 0 0 [])
    have sq : s.executor.io.sq = [] := by
      cases submitted : s.executor.io.sq with
      | nil => rfl
      | cons sqe sq => simp [step, submitted] at noneTaken
    have inFlight : s.executor.io.inFlight = [] := by
      cases working : s.executor.io.inFlight with
      | nil => rfl
      | cons sqe inFlight => simp [complete, working] at noneCompleted
    rw [ops, sq, inFlight]
    rfl
  · refine .inl fun listened submitted => ?_
    have noTurn : s.step (.tick listened) = none := stuck (.tick listened)
    rw [step, if_neg blocked] at noTurn
    -- A wait with a completion posted would return, so this turn asks the kernel nothing.
    have busy : s.phase ≠ .submitAndWait := by
      intro phase
      rw [tick, phase] at noTurn
      cases noTurn
    rw [tick_busy busy listened submitted (.ok s.executor.io.cq.length)]
    cases failed : s.tick listened (.ok s.executor.io.cq.length) with
    | error fault => exact ⟨fault, rfl⟩
    | ok next =>
        rw [failed] at noTurn
        cases noTurn

/-- Two connections, one after the other: each is accepted, ends and is closed; then the accept
fails. -/
def twoEnded : List RunLabel :=
  acceptOne ++ [.take, .complete 1 0 0 []] ++ ticks 7 ++
    [.take, .complete 1 0 0 [], .complete 0 0 2 []] ++ ticks 14 ++
    [.take, .complete 1 0 0 []] ++ ticks 7 ++
    [.take, .complete 1 0 0 [], .complete 0 (-23) 0 []] ++ ticks 10

set_option maxRecDepth 100000 in
/-- Two connections came and ended, and the listener failed: the executor waits, and the run is
over. -/
theorem never_blocked_ended :
    ∃ s : Running, (machine 1 1 1).Reachable s ∧
      s.executor.connHandlerPool.alloc.generation[0]? = some 2 ∧ (machine 1 1 1).Stuck s ∧ s.Over := by
  obtain ⟨s, reached, ends⟩ := @exists_reach_of_start 16 1 1 1 (some (0x1000, fun _ => 0)) _
    (fun s label _ => s.isNotReissued label) (fun _ _ _ passed => isNotReissued_sound passed)
    twoEnded
    (fun s => s.phase == .submitAndWait && s.executor.io.cq == [] && s.executor.io.sq == [] &&
      s.executor.io.inFlight == [] &&
      s.executor.connHandlerPool.alloc.generation[0]? == some 2) (by decide +kernel)
  simp only [Bool.and_eq_true, beq_iff_eq] at ends
  obtain ⟨⟨⟨⟨phase, cq⟩, sq⟩, inFlight⟩, despawned⟩ := ends
  have stuck : (machine 1 1 1).Stuck s := by
    intro label
    cases label with
    | tick listened => exact if_pos ⟨phase, cq⟩
    | take => simp [machine, step, sq]
    | complete index result flags data => simp [machine, step, complete, inFlight]
  refine ⟨s, reached.reachable, despawned, stuck,
    (never_blocked reached stuck).resolve_left fun panics => ?_⟩
  obtain ⟨fault, failed⟩ := panics (.ok 3) (.ok 1)
  rw [tick, phase] at failed
  cases failed

end Running

end Hoarder
