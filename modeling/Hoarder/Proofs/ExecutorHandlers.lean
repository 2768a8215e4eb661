/-
Module: Hoarder.Proofs.ExecutorHandlers
Purpose: The connection handlers of a running executor.  `HandlerInv` holds in every reachable state;
  under it a step changes what the handler pool resolves in one of three ways only, which
  `HandlerStep` lists.
Trusted boundary: none
Main exports: Running.handlerAt, Running.HandlerInv, Running.HandlerStep, Running.HandlerInv.step,
  Running.HandlerInv.dispatched, Running.HandlerInv.move, Running.handlerInv_start
-/
import Hoarder.Proofs.Executor

namespace Hoarder

open Foundation

namespace Running

variable {s s' : Running} {label : RunLabel}

/-- The connection handler an id resolves to. -/
def handlerAt (s : Running) (id : GenId) : Option ConnHandler :=
  s.executor.connHandlerPool.lookup id

/-- The pool is in order, and a `Terminate` in progress stands alone and comes from a handler that
is `Closed`. -/
structure HandlerInv (s : Running) : Prop where
  pool : s.executor.connHandlerPool.Inv
  terminate : ∀ handle intents, s.phase = .completeIntent handle intents → .terminate ∈ intents →
    intents = [.terminate] ∧ handle.poolId = connHandler ∧
      ∃ handler, s.handlerAt handle.genId = some handler ∧ handler.state = .closed

/-- What a step does to the handlers: nothing, an event at one of them, a new one, or the end of a
closed one. -/
inductive HandlerStep (s : Running) (label : RunLabel) (s' : Running) : Prop where
  | same (handlers : s'.handlerAt = s.handlerAt)
      (genAlloc : s'.executor.ioBufs.genAlloc = s.executor.ioBufs.genAlloc)
      (notDispatched : ∀ event handler, ¬ s.Dispatches label event handler)
  | event (event : RunQueueEvent) (handler handler' : ConnHandler) (intents : List MachineIntent)
      (dispatches : s.Dispatches label event handler)
      (found : s.handlerAt event.handle.genId = some handler)
      (move : ConnMove handler s.executor.ioBufs event.reason handler' s'.executor.ioBufs intents)
      (handlers : s'.handlerAt =
        Function.update s.handlerAt event.handle.genId (some handler'))
      (phase : s'.phase = .completeIntent event.handle intents)
      (io : s'.executor.io = s.executor.io)
  | spawned (handle : ObjectHandle) (fixed : Fixed) (rest : List MachineIntent) (id : GenId)
      (phase : s.phase = .completeIntent handle (.spawnConnHandler fixed :: rest))
      (phase' : s'.phase = .completeIntent handle rest)
      (small : id.index.toNat < 2 ^ 24) (unbound : s.handlerAt id = none)
      (handlers : s'.handlerAt = Function.update s.handlerAt id (some (ConnHandler.new fixed)))
      (genAlloc : s'.executor.ioBufs.genAlloc = s.executor.ioBufs.genAlloc)
  | terminated (handle : ObjectHandle) (handler : ConnHandler)
      (phase : s.phase = .completeIntent handle [.terminate])
      (phase' : s'.phase = .completeIntent handle [])
      (found : s.handlerAt handle.genId = some handler) (closed : handler.state = .closed)
      (handlers : s'.handlerAt = Function.update s.handlerAt handle.genId none)
      (genAlloc : s'.executor.ioBufs.genAlloc = s.executor.ioBufs.genAlloc)

/-- Outside the drain loop no event is dispatched. -/
theorem not_dispatches {phase : RunPhase} (before : s.phase = phase) (other : phase ≠ .drain) :
    ∀ event handler, ¬ s.Dispatches label event handler :=
  fun _ _ dispatches => other (before.symm.trans dispatches.phase)

/-- A step that has one outcome does not have the outcome of a dispatched event. -/
theorem not_dispatches_of_pop {listened : Result Fd} {answer : Option RunQueueEvent}
    {queue : RingBuffer RunQueueEvent}
    (pop : (s.executor.runQueues s.executor.currentRunQueue).pop = .ok (answer, queue))
    (other : ∀ event handler, answer = some event → event.handle.poolId = connHandler →
      s.executor.connHandlerPool.get event.handle ≠ .ok (some handler)) :
    ∀ event handler, ¬ s.Dispatches (.tick listened) event handler := by
  rintro event handler ⟨_, _, ⟨queue', pop'⟩, kind, found⟩
  rw [pop] at pop'
  cases pop'
  exact other event handler rfl kind found

theorem HandlerInv.found (inv : s.HandlerInv) {event : RunQueueEvent} {handler : ConnHandler}
    (dispatches : s.Dispatches label event handler) :
    s.handlerAt event.handle.genId = some handler := by
  have found := dispatches.found
  rwa [inv.pool.get_eq, Except.ok.injEq] at found

/-- Under the invariant every step is one of the four. -/
theorem HandlerInv.step (inv : s.HandlerInv) (move : RunMove s label s') :
    s.HandlerStep label s' ∧ s'.executor.connHandlerPool.Inv := by
  cases move with
  | missing listened event queue phase pop absent =>
      refine ⟨.same rfl rfl (not_dispatches_of_pop pop ?_), inv.pool⟩
      intro other handler same kind found
      cases same
      rcases absent with ⟨listening, _⟩ | ⟨_, none⟩
      · exact absurd listening (ObjectHandle.notListener kind)
      · rw [found] at none
        cases none
  | listener listened event queue listener listener' intents phase pop listening found move =>
      refine ⟨.same rfl rfl (not_dispatches_of_pop pop ?_), inv.pool⟩
      intro other handler same kind _
      cases same
      exact absurd listening (ObjectHandle.notListener kind)
  | handler listened event queue handler handler' buffers intents phase pop kind found move =>
      have dispatches : s.Dispatches (.tick listened) event handler :=
        ⟨⟨listened, rfl⟩, phase, ⟨queue, pop⟩, kind, found⟩
      obtain ⟨handlers, poolInv, _⟩ := inv.pool.store_spec (inv.found dispatches) handler'
      exact ⟨.event event handler handler' intents dispatches (inv.found dispatches) move handlers
        rfl rfl, poolInv⟩
  | drained listened queue phase pop =>
      exact ⟨.same rfl rfl (not_dispatches_of_pop pop (by simp)), inv.pool⟩
  | spawned listened handle fixed rest fresh pool queue phase spawn push =>
      rcases inv.pool.spawn_spec (ConnHandler.new fixed) with
        ⟨refused, _⟩ | ⟨id, next, spawned, _, small, unbound, handlers, poolInv, _⟩
      · rw [refused] at spawn
        cases spawn
      · rw [spawned] at spawn
        cases spawn
        exact ⟨.spawned handle fixed rest id phase rfl small unbound handlers rfl, poolInv⟩
  | terminate listened handle rest freed pool phase kind despawn =>
      obtain ⟨alone, _, handler, found, closed⟩ := inv.terminate handle _ phase (by simp)
      obtain ⟨_, rfl⟩ := List.cons.inj alone
      obtain ⟨next, despawned, _, handlers, poolInv, _⟩ := inv.pool.despawn_spec found
      rw [despawned] at despawn
      cases despawn
      exact ⟨.terminated handle handler phase rfl found closed handlers rfl, poolInv⟩
  | complete index result flags data sqe ioBufs working written =>
      refine ⟨.same rfl ?_ fun event handler dispatches => ?_, inv.pool⟩
      · rcases written with rfl | ⟨_, _, rfl⟩ <;> rfl
      · obtain ⟨_, tick⟩ := dispatches.tick
        cases tick
  | take sqe sq submitted =>
      refine ⟨.same rfl rfl fun event handler dispatches => ?_, inv.pool⟩
      obtain ⟨_, tick⟩ := dispatches.tick
      cases tick
  | finished _ _ phase => exact ⟨.same rfl rfl (not_dispatches phase (by simp)), inv.pool⟩
  | retry _ _ _ _ phase => exact ⟨.same rfl rfl (not_dispatches phase (by simp)), inv.pool⟩
  | submit _ _ _ _ _ phase => exact ⟨.same rfl rfl (not_dispatches phase (by simp)), inv.pool⟩
  | terminateListener _ _ _ _ _ phase =>
      exact ⟨.same rfl rfl (not_dispatches phase (by simp)), inv.pool⟩
  | wait _ phase => exact ⟨.same rfl rfl (not_dispatches phase (by simp)), inv.pool⟩
  | reap _ _ _ _ phase => exact ⟨.same rfl rfl (not_dispatches phase (by simp)), inv.pool⟩
  | switch _ phase => exact ⟨.same rfl rfl (not_dispatches phase (by simp)), inv.pool⟩

/-- The step that hands an event to a handler is the move of that handler. -/
theorem HandlerInv.dispatched (inv : s.HandlerInv) {event : RunQueueEvent} {handler : ConnHandler}
    (dispatches : s.Dispatches label event handler) (move : RunMove s label s') :
    ∃ handler' intents,
      ConnMove handler s.executor.ioBufs event.reason handler' s'.executor.ioBufs intents ∧
        s'.phase = .completeIntent event.handle intents ∧
        s'.handlerAt = Function.update s.handlerAt event.handle.genId (some handler') := by
  cases (inv.step move).1 with
  | same _ _ notDispatched => exact absurd dispatches (notDispatched event handler)
  | event other otherHandler handler' intents otherDispatches _ handling handlers phase' _ =>
      have same := otherDispatches.dispatched.symm.trans dispatches.dispatched
      cases same
      exact ⟨handler', intents, handling, phase', handlers⟩
  | spawned _ _ _ _ phase | terminated _ _ phase =>
      exact absurd dispatches (not_dispatches phase (by simp) event handler)

/-- Every step keeps the invariant. -/
theorem HandlerInv.move (inv : s.HandlerInv) (move : RunMove s label s') : s'.HandlerInv := by
  obtain ⟨step, poolInv⟩ := inv.step move
  refine ⟨poolInv, fun handle intents phase' submitted => ?_⟩
  cases step with
  | event event handler handler' intents' dispatches found handling handlers phase io =>
      rw [phase] at phase'
      cases phase'
      obtain ⟨alone, closed⟩ := handling.terminate submitted
      exact ⟨alone, dispatches.kind, handler', by rw [handlers, Function.update_self], closed⟩
  | terminated _ _ _ phase =>
      rw [phase] at phase'
      cases phase'
      cases submitted
  | spawned handle' fixed rest id before phase =>
      rw [phase] at phase'
      cases phase'
      obtain ⟨alone, _⟩ := inv.terminate handle _ before (List.mem_cons_of_mem _ submitted)
      cases alone
  | same handlers _ notDispatched =>
      rw [handlers]
      rcases intent_cases move phase' (List.ne_nil_of_mem submitted) with
        ⟨before | ⟨_, before⟩, _⟩ | ⟨_, _, _, _, listening⟩ | ⟨_, _, _, _, dispatches, _⟩
      · exact inv.terminate handle intents before submitted
      · obtain ⟨alone, _⟩ := inv.terminate handle _ before (List.mem_cons_of_mem _ submitted)
        obtain ⟨_, rfl⟩ := List.cons.inj alone
        cases submitted
      · exact absurd submitted listening.notHandler.1.2
      · exact absurd dispatches (notDispatched _ _)

/-- No step changes the number of connection handlers there is room for. -/
theorem capacity_move (inv : s.HandlerInv) (move : RunMove s label s') :
    s'.executor.connHandlerPool.alloc.capacity = s.executor.connHandlerPool.alloc.capacity := by
  cases move with
  | spawned listened handle fixed rest fresh pool queue phase spawn push =>
      rcases inv.pool.spawn_spec (ConnHandler.new fixed) with
        ⟨refused, _⟩ | ⟨_, _, spawned, _, _, _, _, _, generation⟩
      · rw [refused] at spawn
        cases spawn
      · rw [spawned] at spawn
        cases spawn
        exact congrArg Array.size generation
  | terminate listened handle rest freed pool phase kind despawn =>
      obtain ⟨_, _, handler, found, _⟩ := inv.terminate handle _ phase (by simp)
      obtain ⟨_, despawned, _, _, _, generation⟩ := inv.pool.despawn_spec found
      rw [despawned] at despawn
      cases despawn
      exact (congrArg Array.size generation).trans Array.size_setIfInBounds
  | missing | listener | handler | drained | finished | retry | submit | terminateListener | wait
  | reap | switch | take | complete => rfl

/-- A handler that a step ends is left behind, if no generation overflows. -/
theorem HandlerInv.left (inv : s.HandlerInv) (move : RunMove s label s')
    (noWrap : s.executor.connHandlerPool.alloc.NoWrap s'.executor.connHandlerPool.alloc) {id : GenId}
    {handler : ConnHandler} (found : s.handlerAt id = some handler) (ended : s'.handlerAt id = none) :
    s'.executor.connHandlerPool.alloc.LeftBehind id := by
  have kept : s'.handlerAt id = s.handlerAt id →
      s'.executor.connHandlerPool.alloc.LeftBehind id := by
    intro same
    rw [ended, found] at same
    cases same
  cases move with
  | handler listened event queue other other' buffers intents phase pop kind resolved handling =>
      rw [inv.pool.get_eq, Except.ok.injEq] at resolved
      obtain ⟨handlers, _⟩ := inv.pool.store_spec resolved other'
      rcases eq_or_ne id event.handle.genId with rfl | different
      · exact absurd (ended.symm.trans (congrFun handlers _)) (by simp)
      · exact kept ((congrFun handlers id).trans (Function.update_of_ne different ..))
  | spawned listened handle fixed rest fresh pool queue phase spawn push =>
      rcases inv.pool.spawn_spec (ConnHandler.new fixed) with
        ⟨refused, _⟩ | ⟨other, _, spawned, _, _, unbound, handlers, _⟩
      · rw [refused] at spawn
        cases spawn
      · rw [spawned] at spawn
        cases spawn
        rcases eq_or_ne id other with rfl | different
        · exact absurd (found.symm.trans unbound) (by simp)
        · exact kept ((congrFun handlers id).trans (Function.update_of_ne different ..))
  | terminate listened handle rest freed pool phase kind despawn =>
      obtain ⟨_, _, closing, resolved, _⟩ := inv.terminate handle _ phase (by simp)
      obtain ⟨_, despawned, _, handlers, _, generation⟩ := inv.pool.despawn_spec resolved
      rw [despawned] at despawn
      cases despawn
      rcases eq_or_ne id handle.genId with rfl | different
      · have valid := ObjectPool.lookup_valid found
        exact .of_invalidated valid (GenAlloc.isValid_next valid generation).1 noWrap
          ((congrArg Array.size generation).trans Array.size_setIfInBounds)
      · exact kept ((congrFun handlers id).trans (Function.update_of_ne different ..))
  | missing | listener | drained | finished | retry | submit | terminateListener | wait | reap
  | switch | take | complete => exact kept rfl

theorem handlerInv_start {entries : Nat} {listeners connHandlers bufCount : UInt32}
    {raw : Option (Nat × (Nat → UInt8))}
    (started : start entries listeners connHandlers bufCount raw = .ok s) :
    s.HandlerInv ∧ ∀ id, s.handlerAt id = none := by
  obtain ⟨phase, poolMade, _⟩ := start_fields started
  obtain ⟨poolInv, noneFound, _⟩ := ObjectPool.inv_of_new poolMade
  exact ⟨⟨poolInv, by simp [phase]⟩, noneFound⟩

end Running

end Hoarder
