/-
Module: Hoarder.Proofs.Server
Purpose: The executor as a server.  Seen through `sessions`, a run is a run of the abstract server:
  a connection takes a place in the pool of handlers, waits until it is admitted to a buffer, receives
  what the kernel delivers to it, hangs up, and is released.  No step takes a connection back.
Trusted boundary: none
Main exports: ConnHandler.session, Running.sessions, Running.ServerInv, Running.ServerInv.shows,
  Running.ServerInv.retries_iff, Running.refines_server, Running.sessions_advance
-/
import Hoarder.Foundation.Sessions
import Hoarder.Foundation.Simulation
import Hoarder.Proofs.Streams

namespace Hoarder

open Foundation

/-- The stage of a connection: what its handler has taken of its stream. -/
def ConnHandler.session (self : ConnHandler) (stream : List UInt8) : Session UInt8 :=
  match self.state with
  | .init => .waiting
  | .recv _ => .receiving (stream.take self.offset.toNat)
  | .closing | .closed => .leaving

namespace Running

variable {s s' : Running} {label : RunLabel} {streams : GenId → List UInt8} {base : Nat}
  {bufCount : UInt32} {id : GenId} {handler handler' : ConnHandler}

/-- The connections as sessions. -/
def sessions (s : Running) (streams : GenId → List UInt8) : Sessions GenId UInt8 :=
  fun id => (s.handlerAt id).map fun handler => handler.session (streams id)

/-- The places are those of the pool of handlers. -/
structure ServerInv (base : Nat) (connHandlers bufCount : UInt32) (s : Running)
    (streams : GenId → List UInt8) : Prop extends StreamInv base bufCount s streams where
  places : s.executor.connHandlerPool.alloc.capacity ≤ connHandlers.toNat

/-- A step of the kernel only adds to the streams. -/
theorem received_grows (index : Nat) (result : Int32) (flags : UInt32) (data : List UInt8)
    (id : GenId) : streams id <+: received s streams (.complete index result flags data) s' id := by
  cases working : s.executor.io.inFlight[index]? with
  | none => simp only [received, working, List.prefix_rfl]
  | some sqe =>
      obtain ⟨op, userData⟩ := sqe
      cases op with
      | acceptMulti | close => simp only [received, working, List.prefix_rfl]
      | readFixed fixed buf len bufIndex bufferId =>
          simp only [received, working]
          rcases eq_or_ne id (ObjectHandle.mk userData).genId with rfl | different
          · rw [Function.update_self]
            exact List.prefix_append _ data
          · rw [Function.update_of_ne different]

/-- A handler that stays as it is keeps its stage, whatever is delivered to it. -/
theorem StreamInv.session_kept (inv : s.StreamInv base bufCount streams)
    (found : s.handlerAt id = some handler) (found' : s'.handlerAt id = some handler) :
    handler.session (received s streams label s' id) = handler.session (streams id) := by
  by_cases kernel : ∃ index result flags data, label = .complete index result flags data
  · obtain ⟨index, result, flags, data, rfl⟩ := kernel
    obtain ⟨more, grows⟩ : streams id <+:
        received s streams (.complete index result flags data) s' id :=
      received_grows index result flags data id
    rw [← grows, ConnHandler.session, ConnHandler.session]
    cases stage : handler.state with
    | init | closing | closed => rfl
    | recv phase =>
        obtain ⟨bufferId, held⟩ := inv.held id handler phase found stage
        have receiving := (ConnHandler.receiving?_recv stage).trans held
        have behind := ((inv.connected id handler found).holds bufferId receiving).behind
        simp only [List.take_append_of_le_length behind]
  · have executor : ∀ index result flags data, label ≠ .complete index result flags data :=
      fun index result flags data same => kernel ⟨index, result, flags, data, same⟩
    rw [received_found executor found']

/-- While no handler changes, no session does. -/
theorem StreamInv.sessions_same (inv : s.StreamInv base bufCount streams)
    (handlers : s'.handlerAt = s.handlerAt) :
    s'.sessions (received s streams label s') = s.sessions streams := by
  funext id
  rw [sessions, sessions, handlers]
  cases found : s.handlerAt id with
  | none => rfl
  | some handler =>
      exact congrArg some (inv.session_kept found (by rw [handlers, found]))

/-- A change of one handler changes one session. -/
theorem StreamInv.sessions_update (inv : s.StreamInv base bufCount streams)
    {changed : Option ConnHandler}
    (handlers : s'.handlerAt = Function.update s.handlerAt id changed)
    (executor : ∀ index result flags data, label ≠ .complete index result flags data) :
    s'.sessions (received s streams label s') = Function.update (s.sessions streams) id
      (changed.map fun handler => handler.session (streams id)) := by
  funext other
  rcases eq_or_ne other id with rfl | different
  · rw [Function.update_self, sessions, handlers, Function.update_self]
    cases changed with
    | none => rfl
    | some handler =>
        have found : s'.handlerAt other = some handler := by rw [handlers, Function.update_self]
        exact congrArg (fun stream => some (handler.session stream)) (received_found executor found)
  · rw [Function.update_of_ne different, sessions, handlers, Function.update_of_ne different, sessions]
    cases found : s.handlerAt other with
    | none => rfl
    | some handler =>
        have found' : s'.handlerAt other = some handler := by
          rw [handlers, Function.update_of_ne different, found]
        exact congrArg some (inv.session_kept found found')

/-- The sessions that are receiving are the handlers that own a buffer. -/
theorem StreamInv.receiving_eq (inv : s.StreamInv base bufCount streams) :
    (s.sessions streams).receiving = {id | (s.bufOwner id).isSome} := by
  ext id
  constructor
  · rintro ⟨got, stage⟩
    obtain ⟨handler, found, stage⟩ := Option.map_eq_some_iff.mp stage
    unfold ConnHandler.session at stage
    cases start : handler.state with
    | recv phase =>
        obtain ⟨bufferId, held⟩ := inv.held id handler phase found start
        exact Option.isSome_iff_exists.mpr
          ⟨bufferId, bufOwner_eq_some.mpr ⟨handler, phase, found, start, held⟩⟩
    | init | closing | closed => simp [start] at stage
  · intro owns
    obtain ⟨bufferId, owns⟩ := Option.isSome_iff_exists.mp owns
    obtain ⟨handler, phase, found, start, _⟩ := bufOwner_eq_some.mp owns
    refine ⟨(streams id).take handler.offset.toNat, ?_⟩
    simp only [sessions, found, Option.map_some, ConnHandler.session, start]

variable {connHandlers : UInt32}

/-- A session that is receiving, by its handler. -/
theorem sessions_recv {phase : RecvPhase} (found : s.handlerAt id = some handler)
    (start : handler.state = .recv phase) :
    s.sessions streams id = some (.receiving ((streams id).take handler.offset.toNat)) := by
  simp only [sessions, found, Option.map_some, ConnHandler.session, start]

/-- An event leads to a retry exactly if it is the first of its handler, and every room is taken. -/
theorem StreamInv.retry_iff (inv : s.StreamInv base bufCount streams) {reason : MachineEvent}
    {buffers' : IoBufs} {intents : List MachineIntent} (found : s.handlerAt id = some handler)
    (move : ConnMove handler s.executor.ioBufs reason handler' buffers' intents) :
    .retry ∈ intents ↔ reason = .spawn ∧ s.sessions streams id = some .waiting ∧
      (s.sessions streams).receiving.ncard = bufCount.toNat := by
  have sum := inv.tally.free_add_owners
  rw [← inv.receiving_eq] at sum
  have stage : s.sessions streams id = some (handler.session (streams id)) := by
    rw [sessions, found]
    rfl
  rw [stage, ConnHandler.session]
  cases move with
  | spawned bufferId buffers' start allocated =>
      obtain ⟨genAlloc, ran, _⟩ := BufferPool.alloc_eq_ok allocated
      obtain ⟨_, _, free, _⟩ := inv.tally.idOwns.alloc_some ran
      rw [free, List.length_cons] at sum
      refine iff_of_false (by simp) ?_
      rintro ⟨_, _, full⟩
      omega
  | retry buffers' start refused =>
      obtain ⟨genAlloc, ran, _⟩ := BufferPool.alloc_eq_ok refused
      rw [(inv.tally.idOwns.alloc_none ran).2, List.length_nil, Nat.zero_add] at sum
      rw [start]
      exact iff_of_true (by simp) ⟨rfl, rfl, sum⟩
  | late event start => simp [start]
  | endOfStream | transient | disconnected | ignored | received | closed | closeAgain =>
      exact iff_of_false (by simp) fun first => by cases first.1

/-- An event shows as a move of the session of its handler, or not at all. -/
theorem StreamInv.shows_event (inv : s.StreamInv base bufCount streams) {reason : MachineEvent}
    {buffers' : IoBufs} {intents : List MachineIntent} (found : s.handlerAt id = some handler)
    (agrees : reason.Agrees handler (streams id))
    (move : ConnMove handler s.executor.ioBufs reason handler' buffers' intents) (places : Nat) :
    Function.update (s.sessions streams) id (some (handler'.session (streams id))) =
        s.sessions streams ∨
      Sessions.Move places bufCount.toNat (s.sessions streams)
        (Function.update (s.sessions streams) id (some (handler'.session (streams id)))) := by
  have stage : s.sessions streams id = some (handler.session (streams id)) := by
    rw [sessions, found]
    rfl
  have stays : handler'.session (streams id) = handler.session (streams id) →
      Function.update (s.sessions streams) id (some (handler'.session (streams id))) =
        s.sessions streams := by
    intro same
    rw [same, ← stage, Function.update_eq_self]
  have sum := inv.tally.free_add_owners
  rw [← inv.receiving_eq] at sum
  cases move with
  | spawned bufferId buffers' start allocated =>
      obtain ⟨genAlloc, ran, _⟩ := BufferPool.alloc_eq_ok allocated
      obtain ⟨_, _, free, _⟩ := inv.tally.idOwns.alloc_some ran
      rw [free, List.length_cons] at sum
      obtain ⟨none, _⟩ := (inv.connected id handler found).fresh start
      rw [ConnHandler.session, none, List.take_nil]
      refine .inr (.enter id ?_ (by omega))
      rw [stage, ConnHandler.session, start]
  | retry buffers' start refused =>
      obtain ⟨genAlloc, ran, _⟩ := BufferPool.alloc_eq_ok refused
      rw [(inv.tally.idOwns.alloc_none ran).2, List.length_nil, Nat.zero_add] at sum
      have waiting : s.sessions streams id = some .waiting := by
        rw [stage, ConnHandler.session, start]
      exact .inr (Sessions.PutOff.move ⟨waiting, sum, stays rfl⟩)
  | received res flags phase next bufferId positive start held parsed =>
      have counted : handler.offset.toNat + res.toNatClampNeg = (streams id).length :=
        agrees phase start
      have receiving := (ConnHandler.receiving?_recv start).trans held
      have room := ((inv.connected id handler found).holds bufferId receiving).room
      unfold bufferSize at room
      have advanced := (ConnMove.toNat_offset_add positive (by omega)).1.trans counted
      have more : (streams id).drop handler.offset.toNat ≠ [] := by
        have := (Int32.toNatClampNeg_pos_iff res).mpr positive
        rw [← List.length_pos_iff, List.length_drop]
        omega
      have next : Sessions.Move places bufCount.toNat (s.sessions streams)
          (Function.update (s.sessions streams) id (some (.receiving _))) :=
        .receive id _ _ (sessions_recv found start) more
      rw [List.take_append_drop] at next
      rw [ConnHandler.session, advanced, List.take_length]
      exact .inr next
  | endOfStream flags phase buffers' start freed =>
      exact .inr (.hangUp id _ (sessions_recv found start))
  | disconnected res flags phase bufferId buffers' negative errno start held freed =>
      exact .inr (.hangUp id _ (sessions_recv found start))
  | transient | ignored | late => exact .inl (stays rfl)
  | closed flags start => exact .inl (stays (by rw [ConnHandler.session, ConnHandler.session, start]))
  | closeAgain res flags buffers' nonzero start freed =>
      exact .inl (stays (by simp only [ConnHandler.session, start]))

/-- A new connection had a place. -/
theorem ServerInv.place (inv : s.ServerInv base connHandlers bufCount streams)
    (move : RunMove s label s') {fixed : Fixed} (unbound : s.handlerAt id = none)
    (handlers : s'.handlerAt = Function.update s.handlerAt id (some (ConnHandler.new fixed))) :
    (s.sessions streams).connected.ncard < connHandlers.toNat := by
  obtain ⟨finite, _⟩ := inv.tally.handlers.pool.live
  obtain ⟨_, sum⟩ := (inv.tally.handlers.move move).pool.live
  have places := inv.places
  rw [capacity_move inv.tally.handlers move] at sum
  have one_more : {other | (s'.executor.connHandlerPool.lookup other).isSome} =
      insert id {other | (s.executor.connHandlerPool.lookup other).isSome} := by
    ext other
    change (s'.handlerAt other).isSome ↔ other = id ∨ (s.handlerAt other).isSome
    rw [handlers]
    rcases eq_or_ne other id with rfl | different
    · simp
    · simp [different]
  have fresh : id ∉ {other | (s.executor.connHandlerPool.lookup other).isSome} := by
    change ¬ (s.handlerAt id).isSome
    simp [unbound]
  rw [one_more, Set.ncard_insert_of_notMem fresh finite] at sum
  have same : (s.sessions streams).connected =
      {other | (s.executor.connHandlerPool.lookup other).isSome} := by
    ext other
    simp [Sessions.connected, sessions, handlerAt]
  rw [same]
  omega

/-- A step shows as a move of the server, or not at all. -/
theorem ServerInv.shows (inv : s.ServerInv base connHandlers bufCount streams)
    (move : RunMove s label s') :
    s'.sessions (received s streams label s') = s.sessions streams ∨
      Sessions.Move connHandlers.toNat bufCount.toNat (s.sessions streams)
        (s'.sessions (received s streams label s')) := by
  cases inv.errands.queues.progress move with
  | idle _ _ _ _ _ handlers | missing _ _ _ _ _ _ handlers
  | listener _ _ _ _ _ _ _ _ _ _ _ _ _ handlers | retry _ _ _ _ _ _ _ _ handlers
  | submit _ _ _ _ _ _ _ _ handlers | completed _ _ _ _ _ _ _ _ _ _ _ handlers =>
      exact .inl (inv.sessions_same handlers)
  | handler listened _ event handler handler' intents rest kind found handling agenda _ _ handlers =>
      rw [inv.sessions_update handlers (by simp)]
      exact inv.shows_event found (inv.event_agrees kind found agenda) handling _
  | spawned listened _ handle fixed id front back small unbound agenda agenda' ops handlers =>
      have place := inv.place move unbound handlers
      rw [inv.sessions_update handlers (by simp)]
      refine .inr (.connect id ?_ place)
      rw [sessions, unbound]
      rfl
  | terminated listened _ handle kind agenda ops handlers =>
      obtain ⟨intents, phase, _⟩ := phase_of_agenda agenda
      obtain ⟨_, _, handler, found, closed⟩ := inv.tally.handlers.terminate handle _ phase (by simp)
      rw [inv.sessions_update handlers (by simp)]
      refine .inr (.release handle.genId ?_)
      simp only [sessions, found, Option.map_some, ConnHandler.session, closed]

/-- The step that hands an event to a handler submits a retry exactly if it puts a session off. -/
theorem ServerInv.retries_iff (inv : s.ServerInv base connHandlers bufCount streams)
    (move : RunMove s label s') {event : RunQueueEvent} {intents : List MachineIntent}
    (dispatches : s.Dispatches label event handler)
    (phase' : s'.phase = .completeIntent event.handle intents) :
    .retry ∈ intents ↔ event.reason = .spawn ∧ Sessions.PutOff bufCount.toNat
      (s.sessions streams) event.handle.genId (s'.sessions (received s streams label s')) := by
  have found := inv.tally.handlers.found dispatches
  obtain ⟨handler', submitted, handling, phase, handlers⟩ :=
    inv.tally.handlers.dispatched dispatches move
  rw [phase'] at phase
  cases phase
  have retries := inv.toStreamInv.retry_iff found handling
  constructor
  · intro again
    obtain ⟨spawned, waiting, full⟩ := retries.mp again
    refine ⟨spawned, waiting, full, ?_⟩
    -- The handler stays in `Init`, and its session is the one that was waiting.
    have stays : handler'.state = .init := by
      rcases handling.birth with ⟨_, _, stays, _⟩ | ⟨_, noRetry, _⟩
      · exact stays
      · exact absurd again noRetry
    obtain ⟨listened, rfl⟩ := dispatches.tick
    rw [inv.sessions_update handlers (by simp), Option.map_some, ConnHandler.session, stays,
      ← waiting, Function.update_eq_self]
  · rintro ⟨spawned, putOff⟩
    exact retries.mpr ⟨spawned, putOff.waiting, putOff.full⟩

/-- Every step keeps the invariant. -/
theorem ServerInv.step (inv : s.ServerInv base connHandlers bufCount streams)
    (stepped : s.step label = some s') (met : streamGuard s label s') :
    s'.ServerInv base connHandlers bufCount (received s streams label s') :=
  { inv.toStreamInv.step stepped met with
    places := (capacity_move inv.tally.handlers (step_move stepped)).trans_le inv.places }

theorem serverInv_start {entries : Nat} {listeners : UInt32} {raw : Option (Nat × (Nat → UInt8))}
    (started : start entries listeners connHandlers bufCount raw = .ok s) :
    s.ServerInv s.executor.ioBufs.pool.ptr connHandlers bufCount fun _ => [] := by
  obtain ⟨_, poolMade, _⟩ := start_fields started
  exact { streamInv_start started with places := ObjectPool.capacity_le poolMade }

theorem serverInv_reach {listeners : UInt32} {p : Running × (GenId → List UInt8)}
    (reached : (streamed listeners connHandlers bufCount).Reach streamGuard.onState p) :
    ∃ base, p.1.ServerInv base connHandlers bufCount p.2 := by
  refine reached.ghost_invariant
    (fun s streams => ∃ base, s.ServerInv base connHandlers bufCount streams) ?_ ?_
  · rintro s ⟨_, _, started⟩
    exact ⟨_, serverInv_start started⟩
  · rintro s streams label s' ⟨base, inv⟩ stepped met
    exact ⟨base, inv.step stepped met⟩

/-- Any number of connections, on a kernel that fails no read and counts the bytes it writes, any
split of the bytes of the peers and any order of steps, unless a repeated close frees a reissued
buffer: the run is one of the abstract server, with a place for each handler and a room for each
buffer.  Each step shows as one of its moves, or not at all; and an event of a handler leads to a
retry exactly if it is to start a session that waits while every room is taken, which is then put
off. -/
theorem refines_server {listeners : UInt32} {p : Running × (GenId → List UInt8)}
    (reached : (streamed listeners connHandlers bufCount).Reach streamGuard.onState p) :
    Relation.ReflTransGen (Sessions.Move connHandlers.toNat bufCount.toNat) (fun _ => none)
        (p.1.sessions p.2) ∧
      ∀ label p', (streamed listeners connHandlers bufCount).step p label = some p' →
        (p'.1.sessions p'.2 = p.1.sessions p.2 ∨
          Sessions.Move connHandlers.toNat bufCount.toNat (p.1.sessions p.2)
            (p'.1.sessions p'.2)) ∧
        ∀ event handler intents, p.1.Dispatches label event handler →
          p'.1.phase = .completeIntent event.handle intents →
          (.retry ∈ intents ↔ event.reason = .spawn ∧ Sessions.PutOff bufCount.toNat
            (p.1.sessions p.2) event.handle.genId (p'.1.sessions p'.2)) := by
  have both : (∃ base, p.1.ServerInv base connHandlers bufCount p.2) ∧
      Relation.ReflTransGen (Sessions.Move connHandlers.toNat bufCount.toNat) (fun _ => none)
        (p.1.sessions p.2) := by
    refine reached.simulated (fun p => ∃ base, p.1.ServerInv base connHandlers bufCount p.2)
      (fun p => p.1.sessions p.2) (fun _ => none) ?_ ?_
    · rintro ⟨s, streams⟩ ⟨⟨entries, raw, started⟩, traced⟩
      obtain rfl : streams = fun _ => [] := traced
      refine ⟨⟨_, serverInv_start started⟩, ?_⟩
      funext id
      simp only [sessions, (queueInv_start started).2.1 id, Option.map_none]
    · rintro ⟨s, streams⟩ label ⟨s', streams'⟩ ⟨base, inv⟩ stepped met
      obtain ⟨stepped, traced⟩ := Machine.withGhost_step.mp stepped
      obtain rfl : streams' = received s streams label s' := traced
      exact ⟨⟨base, inv.step stepped met⟩, inv.shows (step_move stepped)⟩
  obtain ⟨⟨base, inv⟩, run⟩ := both
  refine ⟨run, fun label p' stepped => ?_⟩
  obtain ⟨stepped, traced⟩ := Machine.withGhost_step.mp stepped
  rw [traced]
  exact ⟨inv.shows (step_move stepped), fun event handler intents dispatches phase' =>
    inv.retries_iff (step_move stepped) dispatches phase'⟩

set_option maxRecDepth 100000 in
/-- A connection that was admitted has received three bytes; and where two connections come, and there
is one buffer, the handler of the second submits a retry, and its session is put off. -/
theorem refines_server_received :
    (∃ (s : Running) (streams : GenId → List UInt8),
      s.sessions streams ⟨0, 0⟩ = some (.receiving [1, 2, 3]) ∧
        Relation.ReflTransGen (Sessions.Move 1 1) (fun _ => none) (s.sessions streams)) ∧
      ∃ (s s' : Running) (streams streams' : GenId → List UInt8),
        (∃ handle, s'.phase = .completeIntent handle [.retry]) ∧
          Sessions.PutOff 1 (s.sessions streams) ⟨0, 0⟩ (s'.sessions streams') := by
  constructor
  · obtain ⟨⟨s, streams⟩, reached, ends⟩ : ∃ p : Running × (GenId → List UInt8),
        (streamed 1 1 1).Reach streamGuard.onState p ∧
        (p.1.sessions p.2 ⟨0, 0⟩ == some (.receiving [1, 2, 3])) = true := by
      exact Machine.exists_reach_of_start _
        (@streamed_initial 16 1 1 1 (some (0x1000, fun _ => 0)))
        (fun p label _ => p.1.isStreamed label) (fun _ _ _ passed => isStreamed_sound passed)
        (acceptOne ++ [.take, .complete 1 3 0 [1, 2, 3]] ++ ticks 7) _ (by decide +kernel)
    exact ⟨s, streams, beq_iff_eq.mp ends, (refines_server reached).1⟩
  · obtain ⟨⟨s, streams⟩, reached, ends⟩ : ∃ p : Running × (GenId → List UInt8),
        (streamed 1 2 1).Reach streamGuard.onState p ∧
        ((p.1.dispatched? (.tick (.ok 3))).any fun handed =>
          handed.1.handle.genId == ⟨0, 0⟩ && ((streamed 1 2 1).step p (.tick (.ok 3))).any fun p' =>
            p'.1.phase == .completeIntent handed.1.handle [.retry]) = true := by
      exact Machine.exists_reach_of_start _
        (@streamed_initial 16 1 2 1 (some (0x1000, fun _ => 0)))
        (fun p label _ => p.1.isStreamed label) (fun _ _ _ passed => isStreamed_sound passed)
        (ticks 4 ++ [.take, .complete 0 0 2 [], .complete 0 1 2 []] ++ ticks 13) _
        (by decide +kernel)
    simp only [Option.any_eq_true, Bool.and_eq_true, beq_iff_eq] at ends
    obtain ⟨⟨event, handler⟩, handed, second, ⟨s', streams'⟩, stepped, phase'⟩ := ends
    have putOff := ((refines_server reached).2 _ _ stepped).2 event handler _
      (dispatches_of_dispatched handed) phase'
    rw [← second]
    exact ⟨s, s', streams, streams', ⟨event.handle, phase'⟩, (putOff.mp (by simp)).2⟩

/-! ### The life of a connection -/

/-- The condition on one step of `sessions_advance`. -/
def lifeGuard : Machine.Guard Running RunLabel := fun s label s' =>
  streamGuard s label s' ∧ noOverflow s label s'

/-- The connection is gone for good, or has reached this stage or a later one. -/
def Advanced (p : Running × (GenId → List UInt8)) (id : GenId) (session : Session UInt8) : Prop :=
  p.1.executor.connHandlerPool.alloc.LeftBehind id ∨
    ∃ later, p.1.sessions p.2 id = some later ∧ session.Before later

/-- What is left behind is no session. -/
theorem sessions_left (left : s.executor.connHandlerPool.alloc.LeftBehind id) :
    s.sessions streams id = none := by
  rw [sessions, Option.map_eq_none_iff, Option.eq_none_iff_forall_ne_some]
  intro handler found
  have valid := ObjectPool.lookup_valid found
  rw [left.invalid] at valid
  cases valid

/-- A step brings a connection forward, or ends it for good. -/
theorem ServerInv.advances (inv : s.ServerInv base connHandlers bufCount streams)
    (move : RunMove s label s') (noWrap : noOverflow s label s') {session : Session UInt8}
    (advanced : Advanced (s, streams) id session) :
    Advanced (s', received s streams label s') id session := by
  rcases advanced with left | ⟨later, stage, before⟩
  · exact .inl (left.mono noWrap (capacity_move inv.tally.handlers move))
  · change s.sessions streams id = some later at stage
    rcases inv.shows move with same | shown
    · exact .inr ⟨later, (congrFun same id).trans stage, before⟩
    · rcases shown.advances stage with ended | ⟨next, stage', further⟩
      · obtain ⟨handler, found, _⟩ := Option.map_eq_some_iff.mp stage
        exact .inl (inv.tally.handlers.left move noWrap found (Option.map_eq_none_iff.mp ended))
      · exact .inr ⟨next, stage', before.trans further⟩

/-- Every run brings a connection forward, or ends it for good. -/
theorem advanced_leadsBy {listeners : UInt32} {p p' : Running × (GenId → List UInt8)}
    (reached : (streamed listeners connHandlers bufCount).Reach lifeGuard.onState p)
    (leads : (streamed listeners connHandlers bufCount).LeadsBy lifeGuard.onState p p')
    {session : Session UInt8} (present : p.1.sessions p.2 id = some session) :
    Advanced p' id session := by
  refine leads.invariant reached (fun q => Advanced q id session)
    (.inr ⟨session, present, .refl session⟩) ?_
  rintro ⟨s, streams⟩ label ⟨s', streams'⟩ reached advanced stepped met
  obtain ⟨stepped, traced⟩ := Machine.withGhost_step.mp stepped
  obtain rfl : streams' = received s streams label s' := traced
  obtain ⟨base, inv⟩ := serverInv_reach (reached.mono fun _ _ _ met => met.1)
  exact inv.advances (step_move stepped) met.2 advanced

/-- On the same kernel, while no generation of a handler overflows: whatever happens, a connection
only goes forward.  Later in the run it has reached the same stage or a later one, with what it had
received as a beginning of what it has received, or it is gone and never comes back. -/
theorem sessions_advance {listeners : UInt32} {p p' : Running × (GenId → List UInt8)}
    (reached : (streamed listeners connHandlers bufCount).Reach lifeGuard.onState p)
    (leads : (streamed listeners connHandlers bufCount).LeadsBy lifeGuard.onState p p')
    {session : Session UInt8} (present : p.1.sessions p.2 id = some session) :
    (∃ later, p'.1.sessions p'.2 id = some later ∧ session.Before later) ∨
      ∀ p'', (streamed listeners connHandlers bufCount).LeadsBy lifeGuard.onState p' p'' →
        p''.1.sessions p''.2 id = none := by
  rcases advanced_leadsBy reached leads present with left | later
  · refine .inr fun p'' further => sessions_left ?_
    refine further.invariant (leads.reach reached)
      (fun q => q.1.executor.connHandlerPool.alloc.LeftBehind id) left ?_
    intro q label q' reached left stepped met
    obtain ⟨base, inv⟩ := serverInv_reach (reached.mono fun _ _ _ met => met.1)
    have move := step_move (Machine.withGhost_step.mp stepped).1
    exact left.mono met.2 (capacity_move inv.tally.handlers move)
  · exact .inl later

/-- `lifeGuard`, as a test. -/
def isLife (s : Running) (label : RunLabel) (s' : Running) : Bool :=
  s.isStreamed label && s.executor.connHandlerPool.alloc.noWrap s'.executor.connHandlerPool.alloc

theorem isLife_sound (passed : s.isLife label s' = true) : lifeGuard s label s' := by
  obtain ⟨streamed, noWrap⟩ := Bool.and_eq_true_iff.mp passed
  exact ⟨isStreamed_sound streamed, GenAlloc.noWrap_sound noWrap⟩

set_option maxRecDepth 100000 in
/-- A connection that has received three bytes receives one more. -/
theorem sessions_advance_more :
    ∃ (s s' : Running) (streams streams' : GenId → List UInt8),
      s.sessions streams ⟨0, 0⟩ = some (.receiving [1, 2, 3]) ∧
        ∃ later, s'.sessions streams' ⟨0, 0⟩ = some later ∧
          (Session.receiving [1, 2, 3]).Before later := by
  obtain ⟨⟨s, streams⟩, ⟨s', streams'⟩, reached, leads, ends⟩ :
      ∃ p p' : Running × (GenId → List UInt8),
        (streamed 1 1 1).Reach lifeGuard.onState p ∧
        (streamed 1 1 1).LeadsBy lifeGuard.onState p p' ∧
        (p.1.sessions p.2 ⟨0, 0⟩ == some (.receiving [1, 2, 3]) &&
          (p'.1.sessions p'.2 ⟨0, 0⟩).isSome) = true := by
    exact Machine.exists_leadsBy_of_start _
      (@streamed_initial 16 1 1 1 (some (0x1000, fun _ => 0))) (fun p label p' => p.1.isLife label p'.1)
      (fun _ _ _ passed => isLife_sound passed)
      (acceptOne ++ [.take, .complete 1 3 0 [1, 2, 3]] ++ ticks 7)
      ([.take, .complete 1 1 0 [4]] ++ ticks 7) _ (by decide +kernel)
  simp only [Bool.and_eq_true, beq_iff_eq] at ends
  obtain ⟨present, there⟩ := ends
  rcases sessions_advance reached leads present with later | gone
  · exact ⟨s, s', streams, streams', present, later⟩
  · rw [gone _ .refl] at there
    cases there

end Running

end Hoarder
