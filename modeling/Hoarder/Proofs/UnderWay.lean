/-
Module: Hoarder.Proofs.UnderWay
Purpose: No machine is forgotten.  On any kernel something is under way for every connection handler,
  and for every listener that has not failed: an intent, an event, a completion or an operation.  On
  a kernel that fails no read it is exactly one.
Trusted boundary: none
Main exports: Running.Busy, Running.Awaits, Running.UnderWay, Running.UnderWay.move,
  Running.start_waits, Running.nothing_forgotten, Running.isPosted, Running.one_errand_each
-/
import Hoarder.Proofs.Errands

namespace Hoarder

open Foundation

/-- An item's errand is for the machine that the item is about. -/
theorem AgendaItem.errand?_handle {item : AgendaItem} {handle : ObjectHandle} {errand : Errand}
    (has : item.errand? = some (handle, errand)) :
    (∃ intent, item = .intent handle intent) ∨ ∃ reason, item = .event ⟨reason, handle⟩ := by
  cases item with
  | intent other intent =>
      obtain ⟨_, _, same⟩ := Option.map_eq_some_iff.mp has
      cases same
      exact .inl ⟨intent, rfl⟩
  | event event =>
      obtain ⟨reason, other⟩ := event
      cases reason with
      | spawn =>
          cases has
          exact .inr ⟨.spawn, rfl⟩
      | ioCompleted res flags =>
          simp only [AgendaItem.errand?, Option.ite_none_left_eq_some] at has
          cases has.2
          exact .inr ⟨.ioCompleted res flags, rfl⟩

/-- An event leaves a handler with an errand, unless the handler is `Closed`. -/
theorem ConnMove.exists_errand {self self' : ConnHandler} {buffers buffers' : IoBufs}
    {event : MachineEvent} {intents : List MachineIntent}
    (move : ConnMove self buffers event self' buffers' intents) (notClosed : self.state ≠ .closed) :
    ∃ intent ∈ intents, ∃ errand, intent.errand? = some errand := by
  cases move with
  | late event start => exact absurd start notClosed
  | spawned | retry | endOfStream | transient | disconnected | ignored | received | closed
  | closeAgain => exact ⟨_, List.mem_cons_self .., _, rfl⟩

/-- A handler that an event closes is to be terminated. -/
theorem ConnMove.terminates {self self' : ConnHandler} {buffers buffers' : IoBufs}
    {event : MachineEvent} {intents : List MachineIntent}
    (move : ConnMove self buffers event self' buffers' intents) (notClosed : self.state ≠ .closed)
    (closed : self'.state = .closed) : .terminate ∈ intents := by
  cases move with
  | closed => exact List.mem_singleton_self _
  | late event start => exact absurd start notClosed
  | retry | transient | ignored | closeAgain => exact absurd closed notClosed
  | spawned | endOfStream | disconnected | received => cases closed

namespace Running

variable {s s' : Running} {label : RunLabel} {handle key : ObjectHandle} {errand : Errand}

/-- Something is under way for the machine: it is before the executor, or at the kernel. -/
inductive Busy (s : Running) (handle : ObjectHandle) : Prop where
  | item (item : AgendaItem) (member : item ∈ s.agenda) (errand : Errand)
      (has : item.errand? = some (handle, errand))
  | op (sqe : Sqe) (member : sqe ∈ s.ops) (owner : ObjectHandle.mk sqe.userData = handle)

/-- What is under way is an errand. -/
theorem busy_iff : s.Busy handle ↔ ∃ errand, (handle, errand) ∈ s.errands := by
  constructor
  · rintro (⟨item, member, errand, has⟩ | ⟨sqe, member, rfl⟩)
    · exact ⟨errand, Multiset.mem_add.mpr (.inl (Multiset.mem_coe.mpr
        (List.mem_filterMap.mpr ⟨item, member, has⟩)))⟩
    · exact ⟨sqe.op.errand, Multiset.mem_add.mpr (.inr (Multiset.mem_map.mpr ⟨sqe, member, rfl⟩))⟩
  · rintro ⟨errand, member⟩
    rcases Multiset.mem_add.mp member with inAgenda | atKernel
    · obtain ⟨item, member, has⟩ := List.mem_filterMap.mp (Multiset.mem_coe.mp inAgenda)
      exact .item item member errand has
    · obtain ⟨sqe, member, same⟩ := Multiset.mem_map.mp atKernel
      exact .op sqe member (congrArg Prod.fst same)

/-- The machine is there and has not failed: it has something to wait for. -/
inductive Awaits (s : Running) (handle : ObjectHandle) : Prop where
  | handler (kind : handle.poolId = connHandler) (handler : ConnHandler)
      (found : s.handlerAt handle.genId = some handler)
  | listener (kind : handle.poolId = tcpServer) (listener : TcpServer)
      (found : s.listenerAt handle.genId = some listener)
      (working : ∀ error, listener.state ≠ .error error)

/-- A machine that is waited for stays so while no machine changes. -/
theorem Awaits.of_same (waits : s'.Awaits handle) (handlers : s'.handlerAt = s.handlerAt)
    (listeners : s'.listenerAt = s.listenerAt) : s.Awaits handle := by
  cases waits with
  | handler kind handler found => exact .handler kind handler (by rw [← handlers, found])
  | listener kind listener found working =>
      exact .listener kind listener (by rw [← listeners, found]) working

/-- A change of one handler leaves the other machines. -/
theorem Awaits.of_handler {changed : Option ConnHandler} (waits : s'.Awaits key)
    (kind : handle.poolId = connHandler) (different : key ≠ handle)
    (handlers : s'.handlerAt = Function.update s.handlerAt handle.genId changed)
    (listeners : s'.listenerAt = s.listenerAt) : s.Awaits key := by
  cases waits with
  | handler kind' handler found =>
      have apart : key.genId ≠ handle.genId := fun same =>
        different (ObjectHandle.eq_of_fields (kind'.trans kind.symm) same)
      rw [handlers, Function.update_of_ne apart] at found
      exact .handler kind' handler found
  | listener kind' listener found working =>
      exact .listener kind' listener (by rw [← listeners, found]) working

/-- A change of one listener leaves the other machines. -/
theorem Awaits.of_listener {changed : Option TcpServer} (waits : s'.Awaits key)
    (kind : handle.poolId = tcpServer) (different : key ≠ handle)
    (handlers : s'.handlerAt = s.handlerAt)
    (listeners : s'.listenerAt = Function.update s.listenerAt handle.genId changed) :
    s.Awaits key := by
  cases waits with
  | handler kind' handler found => exact .handler kind' handler (by rw [← handlers, found])
  | listener kind' listener found working =>
      have apart : key.genId ≠ handle.genId := fun same =>
        different (ObjectHandle.eq_of_fields (kind'.trans kind.symm) same)
      rw [listeners, Function.update_of_ne apart] at found
      exact .listener kind' listener found working

/-- Every machine that waits has something to wait for.  A handler that is `Closed` is about to be
terminated, and what listeners have submitted are accepts. -/
structure UnderWay (s : Running) : Prop where
  queues : s.QueueInv
  accepts : ∀ sqe ∈ s.ops, (ObjectHandle.mk sqe.userData).poolId = tcpServer →
    ∃ fd, sqe.op = .acceptMulti fd
  listens : ∀ handle intent, .intent handle intent ∈ s.agenda → handle.poolId = tcpServer →
    (∀ fixed, intent ≠ .closeFixed fixed) ∧
      ∀ fixed bufferId offset, intent ≠ .submitRecv fixed bufferId offset
  closed : ∀ handle handler, handle.poolId = connHandler →
    s.handlerAt handle.genId = some handler → handler.state = .closed →
    .intent handle .terminate ∈ s.agenda
  busy : ∀ handle, s.Awaits handle → s.Busy handle

/-- While an event comes first, no handler is `Closed`. -/
theorem UnderWay.not_closed (inv : s.UnderWay) {event : RunQueueEvent} {rest : List AgendaItem}
    (agenda : s.agenda = .event event :: rest) (kind : handle.poolId = connHandler)
    {handler : ConnHandler} (found : s.handlerAt handle.genId = some handler) :
    handler.state ≠ .closed := fun closed =>
  intent_not_mem agenda handle .terminate (inv.closed handle handler kind found closed)

/-- What listeners submit are accepts. -/
theorem UnderWay.listens_progress (inv : s.UnderWay) (progress : s.Progress label s')
    {intent : MachineIntent} (member : .intent handle intent ∈ s'.agenda)
    (kind : handle.poolId = tcpServer) :
    (∀ fixed, intent ≠ .closeFixed fixed) ∧
      ∀ fixed bufferId offset, intent ≠ .submitRecv fixed bufferId offset := by
  rcases progress.intent_cases member with
    before | ⟨_, _, _, _, handling, _⟩ | ⟨_, _, _, _, intents, _, _, move, submitted⟩
  · exact inv.listens handle intent before kind
  · exact absurd kind (ObjectHandle.notListener handling)
  · obtain ⟨_, noClose, noRecv⟩ := move.notHandler
    constructor
    · rintro fixed rfl
      exact noClose fixed submitted
    · rintro fixed bufferId offset rfl
      exact noRecv fixed bufferId offset submitted

theorem UnderWay.accepts_progress (inv : s.UnderWay) (progress : s.Progress label s') {sqe : Sqe}
    (member : sqe ∈ s'.ops) (kind : (ObjectHandle.mk sqe.userData).poolId = tcpServer) :
    ∃ fd, sqe.op = .acceptMulti fd := by
  rcases progress.op_cases member with before | ⟨handle, intent, pending, submits⟩
  · exact inv.accepts sqe before kind
  · cases submits with
    | accept fd => exact ⟨fd, rfl⟩
    | close fixed => exact absurd rfl ((inv.listens handle _ pending kind).1 fixed)
    | recv fixed bufferId offset =>
        exact absurd rfl ((inv.listens handle _ pending kind).2 fixed bufferId offset)

/-- A handler that is `Closed` is about to be terminated. -/
theorem UnderWay.closed_progress (inv : s.UnderWay) (progress : s.Progress label s')
    {handler : ConnHandler} (kind : handle.poolId = connHandler)
    (found : s'.handlerAt handle.genId = some handler) (closed : handler.state = .closed) :
    .intent handle .terminate ∈ s'.agenda := by
  have pending : s'.handlerAt = s.handlerAt → .intent handle .terminate ∈ s.agenda := by
    intro handlers
    rw [handlers] at found
    exact inv.closed handle handler kind found closed
  -- The terminate is behind the item that is done.
  have behind : ∀ {first rest}, s.agenda = first :: rest → first ≠ .intent handle .terminate →
      .intent handle .terminate ∈ s.agenda → .intent handle .terminate ∈ rest := by
    intro first rest agenda other member
    rw [agenda] at member
    exact (List.mem_cons.mp member).resolve_left (Ne.symm other)
  cases progress with
  | idle _ _ kernel agenda ops handlers => exact agenda ▸ pending handlers
  | missing _ _ event absent agenda ops handlers =>
      exact behind agenda (by simp) (pending handlers)
  | handler _ _ event other other' intents rest kind' found' move agenda agenda' ops handlers =>
      rw [handlers] at found
      rcases eq_or_ne handle.genId event.handle.genId with same | different
      · rw [same, Function.update_self] at found
        cases found
        obtain rfl := ObjectHandle.eq_of_fields (kind.trans kind'.symm) same
        have submitted := move.terminates (inv.not_closed agenda kind found') closed
        rw [agenda']
        exact List.mem_append_left _ (List.mem_map.mpr ⟨_, submitted, rfl⟩)
      · rw [Function.update_of_ne different] at found
        exact absurd closed (inv.not_closed agenda kind found)
  | listener _ _ event listener listener' intents rest kind' found' move agenda agenda' ops
      handlers =>
      exact absurd (pending handlers) (intent_not_mem agenda handle .terminate)
  | retry _ _ other front back agenda agenda' ops handlers =>
      have member := behind agenda (by simp) (pending handlers)
      rw [agenda']
      simpa using member
  | submit _ _ other intent sqe submits agenda ops handlers =>
      refine behind agenda ?_ (pending handlers)
      cases submits <;> simp
  | spawned _ _ other fixed id front back small unbound agenda agenda' ops handlers =>
      rw [handlers] at found
      rcases eq_or_ne handle.genId id with rfl | different
      · rw [Function.update_self] at found
        cases found
        cases closed
      · rw [Function.update_of_ne different] at found
        have member := behind agenda (by simp) (inv.closed handle handler kind found closed)
        rw [agenda']
        simpa using member
  | terminated _ _ other kind' agenda ops handlers =>
      rw [handlers] at found
      rcases eq_or_ne handle.genId other.genId with same | different
      · rw [same, Function.update_self] at found
        cases found
      · rw [Function.update_of_ne different] at found
        refine behind agenda ?_ (inv.closed handle handler kind found closed)
        intro same
        cases same
        exact different rfl
  | completed index result flags data _ sqe others working agenda ops ops' handlers =>
      rw [agenda]
      exact List.mem_append_left _ (pending handlers)

/-- What is under way for a machine stays so when another item is done. -/
theorem Busy.of_cons {first : AgendaItem} {rest : List AgendaItem} (busy : s.Busy handle)
    (agenda : s.agenda = first :: rest) (other : ∀ errand, first.errand? ≠ some (handle, errand))
    (kept : ∀ item ∈ rest, item ∈ s'.agenda) (ops : s'.ops = s.ops) : s'.Busy handle := by
  cases busy with
  | item item member errand has =>
      rw [agenda] at member
      rcases List.mem_cons.mp member with rfl | behind
      · exact absurd has (other errand)
      · exact .item item (kept item behind) errand has
  | op sqe member owner => exact .op sqe (ops ▸ member) owner

/-- An event ends no errand of another machine. -/
theorem errand?_other {event : RunQueueEvent} (different : handle ≠ event.handle) (errand : Errand) :
    (AgendaItem.event event).errand? ≠ some (handle, errand) := by
  intro has
  rcases AgendaItem.errand?_handle has with ⟨_, same⟩ | ⟨_, same⟩
  · cases same
  · cases same
    exact different rfl

/-- An intent that was submitted is under way. -/
theorem busy_of_intent {intents : List MachineIntent} {rest : List AgendaItem}
    {intent : MachineIntent} (agenda' : s'.agenda = intents.map (.intent handle) ++ rest)
    (submitted : intent ∈ intents) (has : intent.errand? = some errand) : s'.Busy handle := by
  refine .item (.intent handle intent) ?_ errand (by rw [AgendaItem.errand?, has]; rfl)
  rw [agenda']
  exact List.mem_append_left _ (List.mem_map.mpr ⟨intent, submitted, rfl⟩)

/-- An event at a listener leaves every machine busy that waits. -/
theorem UnderWay.busy_listener (inv : s.UnderWay) {listened : Result Fd} {event : RunQueueEvent}
    {listener listener' : TcpServer} {intents : List MachineIntent} {rest : List AgendaItem}
    (kind : event.handle.poolId = tcpServer)
    (found : s.listenerAt event.handle.genId = some listener)
    (move : ListenerMove listener listened event.reason listener' intents)
    (agenda : s.agenda = .event event :: rest)
    (agenda' : s'.agenda = intents.map (.intent event.handle) ++ rest) (ops : s'.ops = s.ops)
    (handlers : s'.handlerAt = s.handlerAt)
    (listeners : s'.listenerAt = Function.update s.listenerAt event.handle.genId (some listener'))
    (waits : s'.Awaits handle) : s'.Busy handle := by
  have kept : ∀ item ∈ rest, item ∈ s'.agenda := fun item member =>
    agenda' ▸ List.mem_append_right _ member
  by_cases same : handle = event.handle
  · subst same
    have working : ∀ error, listener'.state ≠ .error error := by
      cases waits with
      | handler handling => exact absurd kind (ObjectHandle.notListener handling)
      | listener _ other found' working =>
          rw [listeners, Function.update_self] at found'
          cases found'
          exact working
    obtain ⟨reason, handle⟩ := event
    cases move with
    | listening fd start answer => exact busy_of_intent agenda' (List.mem_singleton_self _) rfl
    | refused error start answer => exact absurd rfl (working error)
    | failed res flags start negative => exact absurd rfl (working _)
    | accepted res flags start success more =>
        -- The accept goes on, so the completion was no errand of the listener.
        refine (inv.busy handle (.listener kind listener found working)).of_cons agenda ?_ kept ops
        intro errand
        rw [errand?_more kind more]
        simp
    | rearmed res flags start success last =>
        exact busy_of_intent agenda' (List.mem_cons_of_mem _ (List.mem_singleton_self _)) rfl
    | ignored res flags error start => exact absurd start (working error)
  · exact (inv.busy handle (waits.of_listener kind same handlers listeners)).of_cons agenda
      (errand?_other same) kept ops

/-- A completion takes the place of its operation, if that does not go on. -/
theorem UnderWay.busy_completed (inv : s.UnderWay) {result : Int32} {flags : UInt32} {sqe : Sqe}
    {others : Multiset Sqe}
    (agenda : s'.agenda = s.agenda ++ [.event ⟨.ioCompleted result flags, ⟨sqe.userData⟩⟩])
    (ops : s.ops = sqe ::ₘ others)
    (ops' : s'.ops = if staysInFlight sqe.op flags then sqe ::ₘ others else others)
    (busy : s.Busy handle) : s'.Busy handle := by
  cases busy with
  | item item member errand has =>
      exact .item item (agenda ▸ List.mem_append_left _ member) errand has
  | op other member owner =>
      by_cases stays : staysInFlight sqe.op flags = true
      · rw [if_pos stays, ← ops] at ops'
        exact .op other (ops' ▸ member) owner
      · rw [if_neg stays] at ops'
        have inv' := inv.accepts other member
        rw [ops] at member
        rcases Multiset.mem_cons.mp member with rfl | behind
        · subst owner
          refine .item (.event ⟨.ioCompleted result flags, ⟨other.userData⟩⟩) ?_
            (.completed result) ?_
          · rw [agenda]
            simp
          · apply if_neg
            rintro ⟨listening, more⟩
            obtain ⟨fd, isAccept⟩ := inv' listening
            rw [isAccept] at stays
            exact stays more
        · exact .op other (ops' ▸ behind) owner

/-- Each step leaves every machine busy that waits. -/
theorem UnderWay.busy_progress (inv : s.UnderWay) (progress : s.Progress label s')
    (waits : s'.Awaits handle) : s'.Busy handle := by
  cases progress with
  | idle _ _ kernel agenda ops handlers listeners =>
      cases inv.busy handle (waits.of_same handlers listeners) with
      | item item member errand has => exact .item item (agenda ▸ member) errand has
      | op sqe member owner => exact .op sqe (ops ▸ member) owner
  | missing _ _ event absent agenda ops handlers listeners =>
      have waited := waits.of_same handlers listeners
      refine (inv.busy handle waited).of_cons agenda (errand?_other ?_) (fun _ member => member) ops
      rintro rfl
      rcases absent with ⟨kind, none⟩ | ⟨kind, none⟩
      · cases waited with
        | handler handling => exact absurd kind (ObjectHandle.notListener handling)
        | listener _ listener found =>
            rw [none] at found
            cases found
      · cases waited with
        | handler _ handler found =>
            rw [none] at found
            cases found
        | listener listening => exact absurd listening (ObjectHandle.notListener kind)
  | handler _ _ event other other' intents rest kind found move agenda agenda' ops handlers
      listeners =>
      by_cases same : handle = event.handle
      · subst same
        obtain ⟨intent, submitted, errand, has⟩ :=
          move.exists_errand (inv.not_closed agenda kind found)
        exact busy_of_intent agenda' submitted has
      · refine (inv.busy handle (waits.of_handler kind same handlers listeners)).of_cons agenda
          (errand?_other same) (fun item member => ?_) ops
        rw [agenda']
        exact List.mem_append_right _ member
  | listener _ _ event listener listener' intents rest kind found move agenda agenda' ops handlers
      listeners =>
      exact inv.busy_listener kind found move agenda agenda' ops handlers listeners waits
  | retry _ _ other front back agenda agenda' ops handlers listeners =>
      by_cases same : handle = other
      · subst same
        exact .item (.event ⟨.spawn, handle⟩) (by rw [agenda']; simp) .start rfl
      · refine (inv.busy handle (waits.of_same handlers listeners)).of_cons agenda ?_ ?_ ops
        · intro errand has
          cases has
          exact same rfl
        · rw [agenda']
          intro item member
          simp only [List.mem_append, List.mem_cons] at member ⊢
          tauto
  | submit _ _ other intent sqe submits agenda ops handlers listeners =>
      have owner : ObjectHandle.mk sqe.userData = other := by
        cases submits <;> rfl
      by_cases same : handle = other
      · subst same
        exact .op sqe (by rw [ops]; exact Multiset.mem_cons_self ..) owner
      · cases inv.busy handle (waits.of_same handlers listeners) with
        | item item member errand has =>
            rw [agenda] at member
            rcases List.mem_cons.mp member with rfl | behind
            · rcases AgendaItem.errand?_handle has with ⟨_, isIntent⟩ | ⟨_, isEvent⟩
              · cases isIntent
                exact absurd rfl same
              · cases isEvent
            · exact .item item behind errand has
        | op another member owner' =>
            exact .op another (by rw [ops]; exact Multiset.mem_cons_of_mem member) owner'
  | spawned _ _ other fixed id front back small unbound agenda agenda' ops handlers listeners =>
      have kind := ObjectHandle.poolId_new connHandler small
      have sameId := ObjectHandle.genId_new connHandler small
      by_cases same : handle = .new connHandler id
      · subst same
        exact .item (.event ⟨.spawn, .new connHandler id⟩) (by rw [agenda']; simp) .start rfl
      · rw [← sameId] at handlers
        refine (inv.busy handle (waits.of_handler kind same handlers listeners)).of_cons agenda
          (by simp [AgendaItem.errand?, MachineIntent.errand?]) ?_ ops
        rw [agenda']
        intro item member
        simp only [List.mem_append, List.mem_cons] at member ⊢
        tauto
  | terminated _ _ other kind agenda ops handlers listeners =>
      have different : handle ≠ other := by
        rintro rfl
        cases waits with
        | handler _ handler found =>
            rw [handlers, Function.update_self] at found
            cases found
        | listener listening => exact absurd listening (ObjectHandle.notListener kind)
      refine (inv.busy handle (waits.of_handler kind different handlers listeners)).of_cons agenda ?_
        (fun _ member => member) ops
      intro errand has
      cases has
      exact different rfl
  | completed index result flags data _ sqe others working agenda ops ops' handlers listeners =>
      exact inv.busy_completed agenda ops ops' (inv.busy handle (waits.of_same handlers listeners))

/-- Each step keeps the invariant. -/
theorem UnderWay.move (inv : s.UnderWay) (move : RunMove s label s') : s'.UnderWay :=
  have progress := inv.queues.progress move
  { queues := inv.queues.move move
    accepts := fun _ => inv.accepts_progress progress
    listens := fun _ _ => inv.listens_progress progress
    closed := fun _ _ => inv.closed_progress progress
    busy := fun _ => inv.busy_progress progress }

/-- At the start of a run there is one machine, the listener, and it is to be started. -/
theorem start_waits {entries : Nat} {listeners connHandlers bufCount : UInt32}
    {raw : Option (Nat × (Nat → UInt8))}
    (started : start entries listeners connHandlers bufCount raw = .ok s) :
    ∃ handle, s.agenda = [.event ⟨.spawn, handle⟩] ∧ handle.poolId = tcpServer ∧
      ∀ id, s.listenerAt id ≠ none → id = handle.genId := by
  obtain ⟨_, _, _, handle, _, kind, agenda, _⟩ := queueInv_start started
  obtain ⟨_, next, seeded, current, pool, poolMade, spawn⟩ := start_queues started
  obtain ⟨phase, _, _, _, _, cq, _⟩ := start_fields started
  have first : s.agenda = [.event ⟨.spawn, seeded⟩] := by
    rw [agenda_events (by simp [phase]), Executor.events, cq, next, current]
    rfl
  rw [agenda] at first
  cases first
  refine ⟨handle, agenda, kind, fun id present => ?_⟩
  obtain ⟨poolInv, empty, _⟩ := ObjectPool.inv_of_new poolMade
  rcases poolInv.spawn_spec (TcpServer.new "0.0.0.0:3000" 4096) with
    ⟨refused, _⟩ | ⟨fresh, _, spawned, _, small, _, listeners, _⟩
  · rw [refused] at spawn
    cases spawn
  · rw [spawned] at spawn
    obtain ⟨same, rfl⟩ := Prod.mk.inj (Except.ok.inj spawn)
    cases same
    rw [ObjectHandle.genId_new _ small]
    by_contra different
    rw [listenerAt, listeners, Function.update_of_ne different] at present
    exact present (empty id)

/-- At the start of a run the listener waits, and nothing else does. -/
theorem underWay_start {entries : Nat} {listeners connHandlers bufCount : UInt32}
    {raw : Option (Nat × (Nat → UInt8))}
    (started : start entries listeners connHandlers bufCount raw = .ok s) : s.UnderWay := by
  obtain ⟨queues, noneFound, noOps, _⟩ := queueInv_start started
  obtain ⟨handle, agenda, kind, alone⟩ := start_waits started
  refine ⟨queues, by simp [noOps], by simp [agenda], by simp [noneFound], fun other waits => ?_⟩
  cases waits with
  | handler _ handler found =>
      rw [noneFound] at found
      cases found
  | listener kind' listener found =>
      have sameId := alone other.genId (by simp [found])
      obtain rfl := ObjectHandle.eq_of_fields (kind'.trans kind.symm) sameId
      exact .item (.event ⟨.spawn, other⟩) (by simp [agenda]) .start rfl

theorem underWay_reach {listeners connHandlers bufCount : UInt32}
    (reached : (machine listeners connHandlers bufCount).Reachable s) : s.UnderWay :=
  reached.invariant UnderWay (fun _ ⟨_, _, started⟩ => underWay_start started)
    fun _ _ _ inv stepped _ => inv.move (step_move stepped)

/-- Any number of connections, any kernel, any order of steps: something is under way for every
connection handler, and for every listener that is not in `Error`. -/
theorem nothing_forgotten {listeners connHandlers bufCount : UInt32}
    (reached : (machine listeners connHandlers bufCount).Reachable s) :
    (∀ handle handler, handle.poolId = connHandler → s.handlerAt handle.genId = some handler →
      s.Busy handle) ∧
    ∀ handle listener, handle.poolId = tcpServer → s.listenerAt handle.genId = some listener →
      (∃ error, listener.state = .error error) ∨ s.Busy handle := by
  have inv := underWay_reach reached
  refine ⟨fun handle handler kind found => inv.busy handle (.handler kind handler found),
    fun handle listener kind found => ?_⟩
  by_cases failed : ∃ error, listener.state = .error error
  · exact .inl failed
  · exact .inr (inv.busy handle (.listener kind listener found (not_exists.mp failed)))

set_option maxRecDepth 100000 in
/-- A connection that ended is closing, and something is under way for it. -/
theorem nothing_forgotten_closing :
    ∃ s : Running, (s.handlerAt ⟨0, 0⟩).map ConnHandler.state = some .closing ∧
      s.Busy ⟨0x0200000000000000⟩ := by
  obtain ⟨s, reached, ends⟩ := @exists_reach_of_start 16 1 1 1 (some (0x1000, fun _ => 0)) _
    (fun _ _ _ => true) (fun _ _ _ _ => trivial)
    (acceptOne ++ [.take, .complete 1 0 0 []] ++ ticks 5)
    (fun s => (s.handlerAt ⟨0, 0⟩).map ConnHandler.state == some .closing) (by decide +kernel)
  have closing := beq_iff_eq.mp ends
  obtain ⟨handler, found, _⟩ := Option.map_eq_some_iff.mp closing
  exact ⟨s, closing, (nothing_forgotten reached).1 ⟨0x0200000000000000⟩ handler (by decide) found⟩

/-- What a machine is waited for with is there. -/
theorem Fits.waits (fits : s.Fits handle errand) : s.Awaits handle := by
  cases fits with
  | handler kind handler found => exact .handler kind handler found
  | listener kind listener found waits =>
      refine .listener kind listener found fun error failed => ?_
      cases errand with
      | start | accept | completed =>
          rw [show listener.state = _ from waits] at failed
          cases failed
      | read | close | terminate => exact waits

/-- On a kernel that fails no read and ends a multishot that it fails, any number of connections, in
any order of steps: the machines that wait are those that something is under way for, it is one
thing for each, and it is one that the state of the machine expects. -/
theorem one_errand_each {listeners connHandlers bufCount : UInt32}
    (reached : (machine listeners connHandlers bufCount).Reach kernelPosts s) :
    (s.errands.map Prod.fst).Nodup ∧
      (∀ handle, s.Awaits handle ↔ ∃ errand, (handle, errand) ∈ s.errands) ∧
      ∀ handle errand, (handle, errand) ∈ s.errands → s.Fits handle errand := by
  have both : s.UnderWay ∧ s.ErrandInv := reached.invariant (fun s => s.UnderWay ∧ s.ErrandInv)
    (fun _ ⟨_, _, started⟩ => ⟨underWay_start started, (errandInv_start started).1⟩)
    fun _ _ _ ⟨inv, errands⟩ stepped posts =>
      have move := step_move stepped
      ⟨inv.move move, errands.move move posts⟩
  obtain ⟨inv, errands⟩ := both
  refine ⟨errands.tokens.nodup, fun handle => ⟨fun waits => ?_, fun ⟨errand, member⟩ => ?_⟩,
    errands.tokens.fits⟩
  · exact busy_iff.mp (inv.busy handle waits)
  · exact (errands.tokens.fits handle errand member).waits

/-- `kernelPosts`, as a test. -/
def isPosted (s : Running) : RunLabel → Bool
  | .complete index result flags _ =>
      s.executor.io.inFlight[index]?.all fun sqe =>
        match sqe.op with
        | .acceptMulti _ => 0 ≤ result || !moreIo flags
        | .readFixed _ _ _ _ _ => 0 ≤ result
        | .close _ => true
  | _ => true

theorem isPosted_sound (passed : s.isPosted label = true) : kernelPosts s label s' := by
  rintro index result flags data ⟨op, userData⟩ rfl working
  cases op with
  | acceptMulti fd =>
      intro negative
      have posted : 0 ≤ result ∨ moreIo flags = false := by
        simpa [isPosted, working] using passed
      exact posted.resolve_left (Int32.not_le.mpr negative)
  | readFixed fixed buf len bufIndex bufferId =>
      have posted : 0 ≤ result := by simpa [isPosted, working] using passed
      exact posted
  | close fixed => trivial

set_option maxRecDepth 100000 in
/-- The listener and a connection, each with one operation at the kernel. -/
theorem one_errand_each_two :
    ∃ s : Running, s.ops.card = 2 ∧ (s.errands.map Prod.fst).Nodup ∧
      s.Awaits ⟨0x0200000000000000⟩ := by
  obtain ⟨s, reached, ends⟩ := @exists_reach_of_start 16 1 1 1 (some (0x1000, fun _ => 0)) _
    (fun s label _ => s.isPosted label) (fun _ _ _ passed => isPosted_sound passed)
    (acceptOne ++ [.take])
    (fun s => s.executor.io.sq == [] && s.executor.io.inFlight.map Sqe.errand ==
      [(⟨0x0100000000000000⟩, .accept), (⟨0x0200000000000000⟩, .read)]) (by decide +kernel)
  simp only [Bool.and_eq_true, beq_iff_eq] at ends
  obtain ⟨none, inFlight⟩ := ends
  have ops : s.ops.map Sqe.errand =
      {(⟨0x0100000000000000⟩, .accept), (⟨0x0200000000000000⟩, .read)} := by
    rw [Running.ops, none, List.nil_append, Multiset.map_coe, inFlight]
    rfl
  obtain ⟨once, waits, _⟩ := one_errand_each reached
  refine ⟨s, ?_, once, (waits _).mpr ⟨.read, ?_⟩⟩
  · rw [← Multiset.card_map Sqe.errand, ops]
    rfl
  · rw [errands, errandsOf, ops]
    simp

end Running

end Hoarder
