/-
Module: Hoarder.Proofs.AnsweredTwice
Purpose: What the errors of a connection leave behind.  A handler answers every event with one intent,
  and an error that `handle_io_error` answers itself with two.  So the load of a connection, all that
  is under way for it, is one and the number of errors that its handler has answered twice, on any
  kernel and for as long as the connection lives.
Trusted boundary: none
Main exports: ConnHandler.answersError, Running.load, Running.answersTwice?, Running.twiceAnswered,
  Running.LoadInv, Running.LoadInv.step, Running.load_counts_errors
-/
import Hoarder.Foundation.Ghost
import Hoarder.Proofs.Births
import Hoarder.Proofs.ConnIntents
import Hoarder.Proofs.UnderWay

namespace Hoarder

open Foundation

namespace ConnHandler

/-- `AnswersError`, as a test. -/
def answersError (self : ConnHandler) : MachineEvent → Bool
  | .ioCompleted res _ =>
      match self.state with
      | .recv _ =>
          transientErrnos.contains (Errno.fromRawSyscallError res) ||
            disconnectErrnos.contains (Errno.fromRawSyscallError res)
      | .init | .closing | .closed => false
  | .spawn => false

theorem answersError_iff {self : ConnHandler} {event : MachineEvent} :
    self.answersError event = true ↔ self.AnswersError event := by
  constructor
  · intro answers
    unfold answersError at answers
    split at answers
    · rename_i res flags
      split at answers
      · rename_i phase start
        exact ⟨phase, res, flags, start, rfl, by simpa using answers⟩
      · cases answers
      · cases answers
      · cases answers
    · cases answers
  · rintro ⟨phase, res, flags, start, rfl, kind⟩
    simpa [answersError, start] using kind

end ConnHandler

/-- The intents of a handler that are part of an errand: two for an error answered twice, otherwise
one. -/
theorem ConnMove.errands {self self' : ConnHandler} {buffers buffers' : IoBufs}
    {event : MachineEvent} {intents : List MachineIntent}
    (move : ConnMove self buffers event self' buffers' intents) (notClosed : self.state ≠ .closed) :
    intents.countP (fun intent => intent.errand?.isSome) =
      if self.answersError event then 2 else 1 := by
  have quiet : ¬ self.AnswersError event → self.answersError event = false := by
    intro notAnswered
    rw [← Bool.not_eq_true, ConnHandler.answersError_iff]
    exact notAnswered
  have single := move.oneIntent_iff notClosed
  cases move with
  | transient res flags phase bufferId negative kind start held =>
      rw [ConnHandler.answersError_iff.mpr ⟨phase, res, flags, start, rfl, .inl kind⟩]
      rfl
  | disconnected res flags phase bufferId buffers' negative kind start held freed =>
      rw [ConnHandler.answersError_iff.mpr ⟨phase, res, flags, start, rfl, .inr kind⟩]
      rfl
  | late event start => exact absurd start notClosed
  | retry => rw [quiet (single.mp .retry)]; rfl
  | closed => rw [quiet (single.mp .terminate)]; rfl
  | endOfStream | closeAgain => rw [quiet (single.mp (.closeFixed _))]; rfl
  | spawned | ignored | received => rw [quiet (single.mp (.submitRecv ..))]; rfl

namespace Running

variable {s s' : Running} {label : RunLabel} {key handle : ObjectHandle} {counts : GenId → Nat}

/-! ### The load of a machine -/

section Counting

variable {item : AgendaItem} {agenda agenda' rest : List AgendaItem} {ops : Multiset Sqe}
  {held : ObjectHandle × Errand}

/-- How many errands of an agenda and of operations are those of a machine. -/
def loadOf (agenda : List AgendaItem) (ops : Multiset Sqe) (key : ObjectHandle) : Nat :=
  ((errandsOf agenda ops).map Prod.fst).count key

theorem loadOf_cons_some (has : item.errand? = some held) :
    loadOf (item :: rest) ops key = loadOf rest ops key + if key = held.1 then 1 else 0 := by
  rw [loadOf, errandsOf_cons_some has, Multiset.map_cons, Multiset.count_cons]
  rfl

theorem loadOf_cons_none (has : item.errand? = none) :
    loadOf (item :: rest) ops key = loadOf rest ops key := by
  rw [loadOf, errandsOf_cons_none has]
  rfl

/-- An item about another machine adds nothing. -/
theorem loadOf_cons_other (other : item.handle ≠ key) :
    loadOf (item :: rest) ops key = loadOf rest ops key := by
  cases has : item.errand? with
  | none => exact loadOf_cons_none has
  | some held =>
      have same : held.1 = item.handle := by
        rcases AgendaItem.errand?_handle has with ⟨intent, rfl⟩ | ⟨reason, rfl⟩ <;> rfl
      rw [loadOf_cons_some has, if_neg (by rw [same]; exact Ne.symm other), Nat.add_zero]

theorem loadOf_perm (perm : agenda.Perm agenda') : loadOf agenda ops key = loadOf agenda' ops key := by
  rw [loadOf, errandsOf_perm perm]
  rfl

theorem loadOf_submitted (sqe : Sqe) :
    loadOf agenda (sqe ::ₘ ops) key =
      loadOf agenda ops key + if key = ⟨sqe.userData⟩ then 1 else 0 := by
  rw [loadOf, errandsOf_submitted, Multiset.map_cons, Multiset.count_cons]
  rfl

/-- The intents of a machine add to its load those that are part of an errand. -/
theorem loadOf_intents (intents : List MachineIntent) :
    loadOf (intents.map (.intent handle) ++ rest) ops key = loadOf rest ops key +
      if key = handle then intents.countP (fun intent => intent.errand?.isSome) else 0 := by
  induction intents with
  | nil => simp
  | cons intent intents inductionHypothesis =>
      rw [List.map_cons, List.cons_append]
      cases isPart : intent.errand? with
      | none =>
          have has : (AgendaItem.intent handle intent).errand? = none := by
            rw [AgendaItem.errand?, isPart]
            rfl
          rw [loadOf_cons_none has, inductionHypothesis, List.countP_cons_of_neg (by simp [isPart])]
      | some errand =>
          have has : (AgendaItem.intent handle intent).errand? = some (handle, errand) := by
            rw [AgendaItem.errand?, isPart]
            rfl
          rw [loadOf_cons_some has, inductionHypothesis, List.countP_cons_of_pos (by simp [isPart])]
          split <;> omega

end Counting

/-- All that is under way for a machine. -/
def load (s : Running) (key : ObjectHandle) : Nat :=
  (s.errands.map Prod.fst).count key

/-! ### The errors that were answered twice -/

/-- The connection whose handler answers an error twice in this step. -/
def answersTwice? (s : Running) (label : RunLabel) : Option GenId :=
  match s.dispatched? label with
  | some (event, handler) =>
      if handler.answersError event.reason then some event.handle.genId else none
  | none => none

/-- The errors of each live connection that its handler has answered twice. -/
def twiceAnswered (s : Running) (counts : GenId → Nat) (label : RunLabel) (s' : Running) :
    GenId → Nat := fun id =>
  if (s'.handlerAt id).isSome then
    counts id + if s.answersTwice? label = some id then 1 else 0
  else 0

/-- The runs, with the errors answered twice beside them. -/
def errorCounted (listeners connHandlers bufCount : UInt32) :
    Machine (Running × (GenId → Nat)) RunLabel :=
  (machine listeners connHandlers bufCount).withGhost (fun _ _ => 0) twiceAnswered

/-- The event that a step hands to a handler comes first, and its intents take its place. -/
theorem Dispatches.agenda {event : RunQueueEvent} {handler : ConnHandler} (inv : s.QueueInv)
    (dispatches : s.Dispatches label event handler) (move : RunMove s label s') :
    ∃ handler' intents rest,
      ConnMove handler s.executor.ioBufs event.reason handler' s'.executor.ioBufs intents ∧
      s.agenda = .event event :: rest ∧
      s'.agenda = intents.map (.intent event.handle) ++ rest ∧ s'.ops = s.ops ∧
      s'.handlerAt = Function.update s.handlerAt event.handle.genId (some handler') := by
  obtain ⟨⟨listened, rfl⟩, draining, ⟨queue, pop⟩, kind, found⟩ := dispatches
  have wrongPhase : ∀ {P : Prop} {phase : RunPhase}, s.phase = phase → phase ≠ .drain → P := by
    intro P phase before other
    exact absurd (before.symm.trans draining) other
  have resolved := found
  rw [inv.handlers.pool.get_eq, Except.ok.injEq] at resolved
  cases move with
  | handler _ _ _ _ handler' _ intents _ pop' _ found' handling =>
      rw [pop] at pop'
      cases pop'
      rw [found] at found'
      cases found'
      exact ⟨handler', intents, _, handling, agenda_popped inv.wf draining pop, rfl, rfl,
        (inv.handlers.pool.store_spec resolved handler').1⟩
  | missing _ _ _ _ pop' absent =>
      rw [pop] at pop'
      cases pop'
      rcases absent with ⟨listening, _⟩ | ⟨_, none⟩
      · exact absurd listening (ObjectHandle.notListener kind)
      · rw [found] at none
        cases none
  | listener _ _ _ _ _ _ _ pop' listening =>
      rw [pop] at pop'
      cases pop'
      exact absurd listening (ObjectHandle.notListener kind)
  | drained _ _ _ pop' =>
      rw [pop] at pop'
      cases pop'
  | finished _ _ phase | retry _ _ _ _ phase | submit _ _ _ _ _ phase
  | spawned _ _ _ _ _ _ _ phase | terminateListener _ _ _ _ _ phase
  | terminate _ _ _ _ _ phase | wait _ phase | reap _ _ _ _ phase | switch _ phase =>
      exact wrongPhase phase (by simp)

/-- An event that comes first and whose intents take its place was handed to its handler. -/
theorem dispatches_of_agenda (inv : s.QueueInv) (move : RunMove s label s') {event : RunQueueEvent}
    {intent : MachineIntent} {rest more : List AgendaItem} {handler : ConnHandler}
    (kind : event.handle.poolId = connHandler) (found : s.handlerAt event.handle.genId = some handler)
    (agenda : s.agenda = .event event :: rest)
    (agenda' : s'.agenda = .intent event.handle intent :: more) :
    s.Dispatches label event handler := by
  obtain ⟨intents, phase', _⟩ := phase_of_agenda agenda'
  -- An intent that was pending before would come before the event.
  have notPending : ∀ {P : Prop} {other first others},
      s.phase = .completeIntent other (first :: others) → P := by
    intro P other first others phase
    rw [agenda_intent phase] at agenda
    cases agenda
  cases move with
  | handler listened other queue handler'' handler' buffers intents phase pop _ found' =>
      have first := agenda_popped inv.wf phase pop
      rw [agenda] at first
      cases first
      have resolved := inv.handlers.pool.get_eq event.handle
      rw [resolved, Except.ok.injEq] at found'
      exact ⟨⟨listened, rfl⟩, phase, ⟨queue, pop⟩, kind, resolved.trans (congrArg _ found)⟩
  | listener _ _ _ _ _ _ _ _ listening =>
      rw [(RunPhase.completeIntent.inj phase').1] at listening
      exact absurd listening (ObjectHandle.notListener kind)
  | missing => cases (RunPhase.completeIntent.inj phase').2
  | drained | finished | wait | reap | switch => cases phase'
  | retry _ _ _ _ phase | submit _ _ _ _ _ phase | spawned _ _ _ _ _ _ _ phase
  | terminateListener _ _ _ _ _ phase | terminate _ _ _ _ _ phase => exact notPending phase
  | take | complete => exact notPending phase'

/-- The load of every live handler is one and the errors that it has answered twice. -/
structure LoadInv (s : Running) (counts : GenId → Nat) : Prop extends PastInv s where
  underWay : s.UnderWay
  accepts : ∀ handle fd, .intent handle (.submitMultishotAccept fd) ∈ s.agenda →
    handle.poolId = tcpServer
  multishots : ∀ sqe ∈ s.ops, ∀ fd, sqe.op = .acceptMulti fd →
    (ObjectHandle.mk sqe.userData).poolId = tcpServer
  loads : ∀ key handler, key.poolId = connHandler → s.handlerAt key.genId = some handler →
    s.load key = 1 + counts key.genId
  gone : ∀ id, s.handlerAt id = none → counts id = 0

/-- Only listeners accept. -/
theorem LoadInv.accepts_progress (inv : s.LoadInv counts) (progress : s.Progress label s') :
    (∀ handle fd, .intent handle (.submitMultishotAccept fd) ∈ s'.agenda →
      handle.poolId = tcpServer) ∧
    ∀ sqe ∈ s'.ops, ∀ fd, sqe.op = .acceptMulti fd →
      (ObjectHandle.mk sqe.userData).poolId = tcpServer := by
  constructor
  · intro handle fd member
    rcases progress.intent_cases member with
      before | ⟨_, _, _, _, _, _, _, handling, submitted⟩ | ⟨_, _, _, _, _, kind, _⟩
    · exact inv.accepts handle fd before
    · exact absurd submitted (handling.notListener 0 fd).2
    · exact kind
  · intro sqe member fd isAccept
    rcases progress.op_cases member with before | ⟨handle, intent, pending, submits⟩
    · exact inv.multishots sqe before fd isAccept
    · cases submits with
      | accept fd' => exact inv.accepts handle fd' pending
      | recv | close => cases isAccept

/-- Nothing is under way for a handle that was not given out. -/
theorem PastInv.load_unbound (inv : s.PastInv) (kind : key.poolId = connHandler)
    (unbound : s.handlerAt key.genId = none)
    (fresh : ¬ s.executor.connHandlerPool.alloc.LeftBehind key.genId) : s.load key = 0 := by
  have notPast : ¬ s.Past key := by
    rintro (⟨listening, _⟩ | ⟨_, handler, found, _⟩ | ⟨_, left⟩)
    · exact ObjectHandle.notListener kind listening
    · rw [unbound] at found
      cases found
    · exact fresh left
  rw [load, Multiset.count_eq_zero, Multiset.mem_map]
  rintro ⟨⟨handle, errand⟩, member, rfl⟩
  rcases Multiset.mem_add.mp member with listed | submitted
  · obtain ⟨item, member, has⟩ := List.mem_filterMap.mp (Multiset.mem_coe.mp listed)
    have same : item.handle = handle := by
      rcases AgendaItem.errand?_handle has with ⟨intent, rfl⟩ | ⟨reason, rfl⟩ <;> rfl
    cases birth : item.birth? with
    | none => exact notPast (same ▸ inv.agenda item member birth)
    | some born =>
        have start : born = (item.handle, .start) := by
          unfold AgendaItem.birth? at birth
          split at birth <;> cases birth <;> rfl
        have pending : (handle, Errand.start) ∈ s.births :=
          Multiset.mem_coe.mpr (List.mem_filterMap.mpr ⟨item, member, by rw [birth, start, same]⟩)
        exact (inv.tokens.fits handle .start pending).handler_ne_none kind unbound
  · obtain ⟨sqe, member, same⟩ := Multiset.mem_map.mp submitted
    exact notPast ((congrArg Prod.fst same) ▸ inv.ops sqe member)

/-- What a step adds to the load of a handler that is there before and after it. -/
theorem LoadInv.loads_step (inv : s.LoadInv counts) (move : RunMove s label s')
    (kind : key.poolId = connHandler) {handler handler' : ConnHandler}
    (found : s.handlerAt key.genId = some handler)
    (found' : s'.handlerAt key.genId = some handler') :
    s'.load key = s.load key + if s.answersTwice? label = some key.genId then 1 else 0 := by
  have here : s.load key = loadOf s.agenda s.ops key := rfl
  have there : s'.load key = loadOf s'.agenda s'.ops key := rfl
  rw [here, there]
  cases handed : s.dispatched? label with
  | some pair =>
      obtain ⟨event, other⟩ := pair
      have dispatches := dispatches_of_dispatched handed
      obtain ⟨_, intents, rest, handling, agenda, agenda', ops, _⟩ := dispatches.agenda inv.queues move
      have resolved := inv.queues.handlers.found dispatches
      have notClosed := inv.underWay.not_closed agenda dispatches.kind resolved
      have twice : s.answersTwice? label =
          if other.answersError event.reason then some event.handle.genId else none := by
        rw [answersTwice?, handed]
      rw [agenda, agenda', ops, loadOf_intents, handling.errands notClosed, twice,
        loadOf_cons_some (errand?_event dispatches.kind)]
      by_cases same : key = event.handle
      · subst same
        cases other.answersError event.reason <;> simp
      · have different : event.handle.genId ≠ key.genId := fun equal =>
          same (ObjectHandle.eq_of_fields (kind.trans dispatches.kind.symm) equal.symm)
        cases other.answersError event.reason <;> simp [same, different]
  | none =>
      rw [answersTwice?, handed, if_neg (by simp), Nat.add_zero]
      cases inv.queues.progress move with
      | idle _ _ _ agenda ops => rw [agenda, ops]
      | missing _ _ event absent agenda ops =>
          have other : (AgendaItem.event event).handle ≠ key := by
            rintro rfl
            rcases absent with ⟨listening, _⟩ | ⟨_, none⟩
            · exact ObjectHandle.notListener kind listening
            · cases none.symm.trans found
          rw [agenda, ops, loadOf_cons_other other]
      | handler _ _ event other other' intents rest kind' found'' handling agenda agenda' =>
          -- It would have been dispatched.
          have submitted := handling.errands (inv.underWay.not_closed agenda kind' found'')
          cases intents with
          | nil =>
              split at submitted <;> cases submitted
          | cons intent intents =>
              have dispatches := dispatches_of_agenda inv.queues move kind' found'' agenda agenda'
              rw [dispatches.dispatched] at handed
              cases handed
      | listener _ _ event listener listener' intents rest listening found'' handling agenda agenda'
          ops =>
          have different : key ≠ event.handle := by
            rintro rfl
            exact ObjectHandle.notListener kind listening
          have other : (AgendaItem.event event).handle ≠ key := Ne.symm different
          rw [agenda, agenda', ops, loadOf_intents, if_neg different, loadOf_cons_other other,
            Nat.add_zero]
      | retry _ _ handle front back agenda agenda' ops =>
          have pending : (AgendaItem.intent handle .retry).errand? = some (handle, .start) := rfl
          have posted : (AgendaItem.event ⟨.spawn, handle⟩).errand? = some (handle, .start) := rfl
          rw [agenda, agenda', ops, loadOf_perm List.perm_middle, loadOf_cons_some pending,
            loadOf_cons_some posted]
      | submit _ _ handle intent sqe submits agenda ops =>
          have pending : ∃ errand, intent.errand? = some errand ∧ ⟨sqe.userData⟩ = handle := by
            cases submits <;> exact ⟨_, rfl, rfl⟩
          obtain ⟨errand, isPart, owner⟩ := pending
          have has : (AgendaItem.intent handle intent).errand? = some (handle, errand) := by
            rw [AgendaItem.errand?, isPart]
            rfl
          rw [agenda, ops, loadOf_submitted, loadOf_cons_some has, owner]
      | spawned _ _ handle fixed id front back small unbound agenda agenda' ops =>
          have other : (AgendaItem.event ⟨.spawn, .new connHandler id⟩).handle ≠ key := by
            rintro rfl
            rw [show id = _ from (ObjectHandle.genId_new connHandler small).symm] at unbound
            cases unbound.symm.trans found
          have none : (AgendaItem.intent handle (.spawnConnHandler fixed)).errand? = none := rfl
          rw [agenda, agenda', ops, loadOf_perm List.perm_middle, loadOf_cons_none none,
            loadOf_cons_other other]
      | terminated _ _ handle kind' agenda ops handlers =>
          have other : (AgendaItem.intent handle .terminate).handle ≠ key := by
            rintro rfl
            rw [handlers] at found'
            simp [AgendaItem.handle] at found'
          rw [agenda, ops, loadOf_cons_other other]
      | completed index result flags data _ sqe others working agenda ops ops' =>
          have member : sqe ∈ s.ops := ops ▸ Multiset.mem_cons_self sqe others
          rw [agenda, loadOf_perm (List.perm_append_singleton _ _), ops, ops', loadOf_submitted]
          by_cases same : key = ⟨sqe.userData⟩
          · have once : staysInFlight sqe.op flags = false := by
              cases isOp : sqe.op with
              | acceptMulti fd =>
                  have listening := inv.multishots sqe member fd isOp
                  rw [← same] at listening
                  exact absurd listening (ObjectHandle.notListener kind)
              | readFixed | close => rfl
            rw [once, loadOf_cons_some (errand?_event (same ▸ kind)), if_pos same]
            rfl
          · have other : (AgendaItem.event ⟨.ioCompleted result flags, ⟨sqe.userData⟩⟩).handle ≠ key :=
              Ne.symm same
            rw [loadOf_cons_other other, if_neg same, Nat.add_zero]
            split
            · rw [loadOf_submitted, if_neg same, Nat.add_zero]
            · rfl

/-- A new handler has its start under way, and nothing else. -/
theorem LoadInv.load_spawned (inv : s.LoadInv counts) (progress : s.Progress label s')
    (kind : key.poolId = connHandler) {handler' : ConnHandler}
    (unbound : s.handlerAt key.genId = none) (found' : s'.handlerAt key.genId = some handler')
    (fresh : ¬ s.executor.connHandlerPool.alloc.LeftBehind key.genId) : s'.load key = 1 := by
  have kept : s'.handlerAt key.genId = s.handlerAt key.genId → s'.load key = 1 := by
    intro same
    rw [found', unbound] at same
    cases same
  cases progress with
  | idle _ _ _ _ _ handlers | missing _ _ _ _ _ _ handlers
  | listener _ _ _ _ _ _ _ _ _ _ _ _ _ handlers | retry _ _ _ _ _ _ _ _ handlers
  | submit _ _ _ _ _ _ _ _ handlers | completed _ _ _ _ _ _ _ _ _ _ _ handlers =>
      exact kept (congrFun handlers _)
  | handler _ _ event other _ _ _ _ found _ _ _ _ handlers =>
      refine kept ?_
      rw [handlers, Function.update_of_ne]
      intro same
      rw [← same, unbound] at found
      cases found
  | terminated _ _ handle _ _ _ handlers =>
      rw [handlers] at found'
      rcases eq_or_ne key.genId handle.genId with same | different
      · rw [same, Function.update_self] at found'
        cases found'
      · rw [Function.update_of_ne different, unbound] at found'
        cases found'
  | spawned _ _ handle fixed id front back small _ agenda agenda' ops handlers =>
      rcases eq_or_ne key.genId id with rfl | different
      · have mine : key = .new connHandler key.genId :=
          ObjectHandle.eq_of_fields (kind.trans (ObjectHandle.poolId_new connHandler small).symm)
            (ObjectHandle.genId_new connHandler small).symm
        have zero : loadOf s.agenda s.ops key = 0 := inv.load_unbound kind unbound fresh
        have none : (AgendaItem.intent handle (.spawnConnHandler fixed)).errand? = none := rfl
        have start : (AgendaItem.event ⟨.spawn, .new connHandler key.genId⟩).errand? =
            some (.new connHandler key.genId, .start) := rfl
        rw [agenda, loadOf_cons_none none] at zero
        change loadOf s'.agenda s'.ops key = 1
        rw [agenda', ops, loadOf_perm List.perm_middle, loadOf_cons_some start, zero, if_pos mine]
      · exact kept (by rw [handlers, Function.update_of_ne different])

/-- Every step keeps the invariant, while no generation overflows. -/
theorem LoadInv.step (inv : s.LoadInv counts) (move : RunMove s label s')
    (noWrap : noOverflow s label s') : s'.LoadInv (twiceAnswered s counts label s') := by
  have progress := inv.queues.progress move
  obtain ⟨accepts, multishots⟩ := inv.accepts_progress progress
  refine
    { inv.toPastInv.move move noWrap with
      underWay := inv.underWay.move move
      accepts := accepts
      multishots := multishots
      loads := fun key handler kind found' => ?_
      gone := fun id unbound => by rw [twiceAnswered, unbound]; rfl }
  have there : (s'.handlerAt key.genId).isSome := by simp [found']
  rw [twiceAnswered, if_pos there]
  cases found : s.handlerAt key.genId with
  | some before =>
      rw [inv.loads_step move kind found found', inv.loads key before kind found, Nat.add_assoc]
  | none =>
      have fresh : ¬ s.executor.connHandlerPool.alloc.LeftBehind key.genId := by
        intro left
        have invalid := (left.mono noWrap (capacity_move inv.queues.handlers move)).invalid
        rw [ObjectPool.lookup_valid found'] at invalid
        cases invalid
      have none : s.answersTwice? label ≠ some key.genId := by
        unfold answersTwice?
        split
        · rename_i event handler handed
          have resolved := inv.queues.handlers.found (dispatches_of_dispatched handed)
          split
          · intro same
            rw [Option.some.inj same, found] at resolved
            cases resolved
          · simp
        · simp
      rw [inv.load_spawned progress kind found found' fresh, inv.gone _ found, if_neg none]

theorem loadInv_start {entries : Nat} {listeners connHandlers bufCount : UInt32}
    {raw : Option (Nat × (Nat → UInt8))}
    (started : start entries listeners connHandlers bufCount raw = .ok s) :
    s.LoadInv fun _ => 0 := by
  obtain ⟨_, noneFound, noOps, handle, _, _, agenda, _⟩ := queueInv_start started
  exact
    { pastInv_start started with
      underWay := underWay_start started
      accepts := by simp [agenda]
      multishots := by simp [noOps]
      loads := by simp [noneFound]
      gone := fun _ _ => rfl }

/-- Any number of connections, any kernel, any order of steps, while no generation of a handler
overflows: what is under way for a connection is one thing, and one more for every error that its
handler has answered twice. -/
theorem load_counts_errors {listeners connHandlers bufCount : UInt32} {p : Running × (GenId → Nat)}
    (reached : (errorCounted listeners connHandlers bufCount).Reach noOverflow.onState p)
    (handle : ObjectHandle) (handler : ConnHandler) (kind : handle.poolId = connHandler)
    (found : p.1.handlerAt handle.genId = some handler) :
    p.1.load handle = 1 + p.2 handle.genId := by
  have inv : p.1.LoadInv p.2 := by
    refine reached.ghost_invariant LoadInv ?_ ?_
    · rintro s ⟨_, _, started⟩
      exact loadInv_start started
    · intro s counts label s' inv stepped met
      exact inv.step (step_move stepped) met
  exact inv.loads handle handler kind found

set_option maxRecDepth 100000 in
/-- The first read of a connection fails with `EAGAIN`: from then on there are two. -/
theorem load_counts_errors_again :
    ∃ (s : Running) (counts : GenId → Nat), counts ⟨0, 0⟩ = 1 ∧
      s.load ⟨0x0200000000000000⟩ = 2 ∧
        s.executor.io.inFlight.countP (fun sqe => sqe.userData = 0x0200000000000000) = 2 := by
  obtain ⟨⟨s, counts⟩, reached, ends⟩ : ∃ p : Running × (GenId → Nat),
      (errorCounted 1 1 1).Reach noOverflow.onState p ∧
      ((p.1.handlerAt ⟨0, 0⟩).isSome && p.2 ⟨0, 0⟩ == 1 &&
        p.1.executor.io.inFlight.countP (fun sqe => sqe.userData = 0x0200000000000000) == 2) =
          true := by
    have initial : ∀ s, start 16 1 1 1 (some (0x1000, fun _ => 0)) = .ok s →
        (errorCounted 1 1 1).initial (s, fun _ => 0) := fun _ started => ⟨⟨16, _, started⟩, rfl⟩
    exact Machine.exists_reach_of_start _ initial
      (fun p _ p' => p.1.executor.connHandlerPool.alloc.noWrap p'.1.executor.connHandlerPool.alloc)
      (fun _ _ _ passed => GenAlloc.noWrap_sound passed)
      (acceptOne ++ [.take, .complete 1 (-11) 0 []] ++ ticks 8 ++ [.take, .take]) _
      (by decide +kernel)
  simp only [Bool.and_eq_true, beq_iff_eq] at ends
  obtain ⟨⟨there, once⟩, two⟩ := ends
  obtain ⟨handler, found⟩ := Option.isSome_iff_exists.mp there
  have load := load_counts_errors reached ⟨0x0200000000000000⟩ handler (by decide) found
  have counted : 1 + counts ⟨0, 0⟩ = 2 := by rw [once]
  exact ⟨s, counts, once, load.trans counted, two⟩

end Running

end Hoarder
