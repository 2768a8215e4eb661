/-
Module: Hoarder.Proofs.Births
Purpose: A machine is started once.  On any kernel the `Spawn` events and retries under way are for
  different machines, each of them in `Init`; operations and completions are for machines that have
  left `Init`, or, while no generation overflows, for machines that are gone.  So every event finds
  a machine that takes it, and no `unreachable!()` is reached.
Trusted boundary: none
Main exports: AgendaItem.birth?, Running.births, Running.BirthInv, Running.Past,
  Running.noOverflow, Running.PastInv, Running.PastInv.expected, Running.tick_ne_unreachable
-/
import Hoarder.Proofs.Errands
import Hoarder.Proofs.ExecutorFaults

namespace Hoarder

open Foundation

/-- The machine that an item of the agenda is to start, if it is to start one. -/
def AgendaItem.birth? : AgendaItem → Option (ObjectHandle × Errand)
  | .intent handle .retry => some (handle, .start)
  | .event ⟨.spawn, handle⟩ => some (handle, .start)
  | _ => none

/-- The machine that an item of the agenda is about. -/
def AgendaItem.handle : AgendaItem → ObjectHandle
  | .intent handle _ => handle
  | .event ⟨_, handle⟩ => handle

/-- A handler starts again only if it was to start and had to retry. -/
theorem ConnMove.birth {self self' : ConnHandler} {buffers buffers' : IoBufs}
    {event : MachineEvent} {intents : List MachineIntent}
    (move : ConnMove self buffers event self' buffers' intents) :
    (event = .spawn ∧ self.state = .init ∧ self'.state = .init ∧ intents = [.retry]) ∨
      (self'.state ≠ .init ∧ .retry ∉ intents ∧ (event = .spawn ∨ self.state ≠ .init)) := by
  cases move with
  | retry buffers' start refused => exact .inl ⟨rfl, start, start, rfl⟩
  | spawned => exact .inr (by simp)
  | late event start => exact .inr (by simp [start])
  | closeAgain res flags buffers' nonzero start freed => exact .inr (by simp [start])
  | endOfStream flags phase buffers' start freed => exact .inr (by simp [start])
  | transient res flags phase handle negative kind start held => exact .inr (by simp [start])
  | disconnected res flags phase handle buffers' negative kind start held freed =>
      exact .inr (by simp [start])
  | ignored res flags phase handle negative notTransient notUnexpected notDisconnect start held =>
      exact .inr (by simp [start])
  | received res flags phase next handle positive start held parsed =>
      exact .inr (by simp [start])
  | closed flags start => exact .inr (by simp [start])

/-- A listener never starts again. -/
theorem ListenerMove.birth {self self' : TcpServer} {listened : Result Fd} {event : MachineEvent}
    {intents : List MachineIntent} (move : ListenerMove self listened event self' intents) :
    self'.state ≠ .init ∧ (event = .spawn ∨ self.state ≠ .init) := by
  cases move with
  | listening | refused => simp
  | failed res flags start negative => simp [start]
  | accepted res flags start success more => simp [start]
  | rearmed res flags start success last => simp [start]
  | ignored res flags error start => simp [start]

namespace Running

variable {s s' : Running} {label : RunLabel} {handle : ObjectHandle}

section Counting

variable {item : AgendaItem} {agenda agenda' rest : List AgendaItem}
  {held : ObjectHandle × Errand} {intents : List MachineIntent}

/-- The machines that an agenda is to start. -/
def birthsOf (agenda : List AgendaItem) : Multiset (ObjectHandle × Errand) :=
  (agenda.filterMap AgendaItem.birth? : List (ObjectHandle × Errand))

theorem birthsOf_cons_some (has : item.birth? = some held) :
    birthsOf (item :: rest) = held ::ₘ birthsOf rest := by
  rw [birthsOf, List.filterMap_cons_some has]
  rfl

theorem birthsOf_cons_none (has : item.birth? = none) : birthsOf (item :: rest) = birthsOf rest := by
  rw [birthsOf, List.filterMap_cons_none has]
  rfl

theorem birthsOf_perm (perm : agenda.Perm agenda') : birthsOf agenda = birthsOf agenda' :=
  Multiset.coe_eq_coe.mpr (perm.filterMap AgendaItem.birth?)

/-- Intents other than a retry start nothing. -/
theorem birthsOf_intents (noRetry : .retry ∉ intents) :
    birthsOf (intents.map (.intent handle) ++ rest) = birthsOf rest := by
  induction intents with
  | nil => rfl
  | cons intent intents inductionHypothesis =>
      rw [List.mem_cons, not_or] at noRetry
      have has : (AgendaItem.intent handle intent).birth? = none := by
        cases intent with
        | retry => exact absurd rfl noRetry.1
        | terminate | closeFixed | spawnConnHandler | submitMultishotAccept | submitRecv => rfl
      rw [List.map_cons, List.cons_append, birthsOf_cons_none has, inductionHypothesis noRetry.2]

end Counting

/-- The machines that are to be started. -/
def births (s : Running) : Multiset (ObjectHandle × Errand) :=
  birthsOf s.agenda

/-- Each machine is to be started at most once, and is in `Init` if it is. -/
structure BirthInv (s : Running) : Prop where
  queues : s.QueueInv
  tokens : Tokens s.Fits s.births

/-- What is to be started is a start. -/
theorem start_of_mem {errand : Errand} {agenda : List AgendaItem}
    (member : (handle, errand) ∈ birthsOf agenda) : errand = .start := by
  obtain ⟨item, _, has⟩ := List.mem_filterMap.mp (Multiset.mem_coe.mp member)
  unfold AgendaItem.birth? at has
  split at has <;> cases has <;> rfl

/-- A handler that has left `Init` is not to be started. -/
theorem not_born {agenda : List AgendaItem} (held : Tokens s.Fits (birthsOf agenda))
    (kind : handle.poolId = connHandler) {handler : ConnHandler}
    (found : s.handlerAt handle.genId = some handler) (started : handler.state ≠ .init)
    (errand : Errand) : (handle, errand) ∉ birthsOf agenda := by
  intro member
  obtain rfl := start_of_mem member
  exact started ((held.fits _ _ member).handler_of kind found)

/-- A listener that has left `Init` is not to be started. -/
theorem not_born_listener {agenda : List AgendaItem} (held : Tokens s.Fits (birthsOf agenda))
    (kind : handle.poolId = tcpServer) {listener : TcpServer}
    (found : s.listenerAt handle.genId = some listener) (started : listener.state ≠ .init)
    (errand : Errand) : (handle, errand) ∉ birthsOf agenda := by
  intro member
  obtain rfl := start_of_mem member
  exact started ((held.fits _ _ member).listener_of kind found)

/-- Each step keeps one start for each machine that is in `Init`. -/
theorem BirthInv.progress (inv : s.BirthInv) (progress : s.Progress label s') :
    Tokens s'.Fits s'.births := by
  have same : s'.births = s.births → s'.handlerAt = s.handlerAt → s'.listenerAt = s.listenerAt →
      Tokens s'.Fits s'.births := by
    intro births handlers listeners
    rw [births]
    exact inv.tokens.frame fun other token _ fits => fits.of_same handlers listeners
  have held := inv.tokens
  cases progress with
  | idle _ _ kernel agenda ops handlers listeners =>
      exact same (by rw [births, agenda, births]) handlers listeners
  | missing listened _ event absent agenda ops handlers listeners =>
      obtain ⟨reason, handle⟩ := event
      rw [births, agenda] at held
      have kept : ∀ other token, s.Fits other token → s'.Fits other token :=
        fun other token fits => fits.of_same handlers listeners
      cases reason with
      | spawn =>
          rw [birthsOf_cons_some rfl] at held
          exact held.remove fun other token _ => kept other token
      | ioCompleted res flags =>
          rw [birthsOf_cons_none rfl] at held
          exact held.frame fun other token _ => kept other token
  | handler listened _ event handler handler' intents rest kind found move agenda agenda' ops
      handlers listeners =>
      obtain ⟨reason, handle⟩ := event
      have frame : ∀ other token, other ≠ handle → s.Fits other token → s'.Fits other token :=
        fun other token different fits => fits.frame_handler kind different handlers listeners
      rw [births, agenda] at held
      rw [births, agenda']
      rcases move.birth with ⟨rfl, _, start, rfl⟩ | ⟨_, noRetry, waited⟩
      · rw [birthsOf_cons_some rfl] at held
        have fits : s'.Fits handle .start :=
          .handler kind handler' (by rw [handlers, Function.update_self]) start
        exact held.exchange fits frame
      · rw [birthsOf_intents noRetry]
        cases reason with
        | spawn =>
            rw [birthsOf_cons_some rfl] at held
            exact held.remove frame
        | ioCompleted res flags =>
            rw [birthsOf_cons_none rfl] at held
            have before := waited.resolve_left (by simp)
            exact tokens_frame held kind (not_born held kind found before) handlers listeners
  | listener listened _ event listener listener' intents rest kind found move agenda agenda' ops
      handlers listeners =>
      obtain ⟨reason, handle⟩ := event
      have frame : ∀ other token, other ≠ handle → s.Fits other token → s'.Fits other token :=
        fun other token different fits => fits.frame_listener kind different handlers listeners
      rw [births, agenda] at held
      rw [births, agenda', birthsOf_intents move.notHandler.1.1]
      cases reason with
      | spawn =>
          rw [birthsOf_cons_some rfl] at held
          exact held.remove frame
      | ioCompleted res flags =>
          rw [birthsOf_cons_none rfl] at held
          have before := move.birth.2.resolve_left (by simp)
          refine held.frame fun other token member fits => frame other token ?_ fits
          rintro rfl
          exact not_born_listener held kind found before token member
  | retry listened _ handle front back agenda agenda' ops handlers listeners =>
      refine same ?_ handlers listeners
      rw [births, agenda', birthsOf_perm List.perm_middle, birthsOf_cons_some rfl, births, agenda,
        birthsOf_cons_some rfl]
  | submit listened _ handle intent sqe submits agenda ops handlers listeners =>
      have noBirth : (AgendaItem.intent handle intent).birth? = none := by
        cases submits <;> rfl
      refine same ?_ handlers listeners
      rw [births, births, agenda, birthsOf_cons_none noBirth]
  | spawned listened _ handle fixed id front back small unbound agenda agenda' ops handlers
      listeners =>
      rw [births, agenda, birthsOf_cons_none rfl] at held
      rw [births, agenda', birthsOf_perm List.perm_middle, birthsOf_cons_some rfl]
      exact tokens_spawned held small unbound handlers listeners
  | terminated listened _ handle kind agenda ops handlers listeners =>
      obtain ⟨_, phase, _⟩ := phase_of_agenda agenda
      obtain ⟨_, _, handler, found, closed⟩ := inv.queues.handlers.terminate handle _ phase (by simp)
      rw [births, agenda, birthsOf_cons_none rfl] at held
      exact tokens_frame held kind (not_born held kind found (by simp [closed])) handlers listeners
  | completed index result flags data _ sqe others working agenda ops ops' handlers listeners =>
      refine same ?_ handlers listeners
      rw [births, agenda, birthsOf_perm (List.perm_append_singleton _ _), birthsOf_cons_none rfl]
      rfl

/-- Each step keeps the invariant. -/
theorem BirthInv.move (inv : s.BirthInv) (move : RunMove s label s') : s'.BirthInv :=
  ⟨inv.queues.move move, inv.progress (inv.queues.progress move)⟩

/-- At the start of a run the listener is to be started. -/
theorem birthInv_start {entries : Nat} {listeners connHandlers bufCount : UInt32}
    {raw : Option (Nat × (Nat → UInt8))}
    (started : start entries listeners connHandlers bufCount raw = .ok s) : s.BirthInv := by
  obtain ⟨queues, _, _, handle, listener, kind, agenda, found, waits⟩ := queueInv_start started
  have one : s.births = {(handle, .start)} := by
    rw [births, agenda]
    rfl
  refine ⟨queues, ?_⟩
  rw [one]
  exact Tokens.empty.add (by simp) (.listener kind listener found waits)

/-! ### Machines that have started -/

/-- The machine has left `Init`, or is gone for good. -/
inductive Past (s : Running) (handle : ObjectHandle) : Prop where
  | listener (kind : handle.poolId = tcpServer) (listener : TcpServer)
      (found : s.listenerAt handle.genId = some listener) (started : listener.state ≠ .init)
  | handler (kind : handle.poolId = connHandler) (handler : ConnHandler)
      (found : s.handlerAt handle.genId = some handler) (started : handler.state ≠ .init)
  | gone (kind : handle.poolId = connHandler)
      (left : s.executor.connHandlerPool.alloc.LeftBehind handle.genId)

/-- The condition on one step that no generation of a connection handler overflows. -/
def noOverflow : Machine.Guard Running RunLabel := fun s _ s' =>
  s.executor.connHandlerPool.alloc.NoWrap s'.executor.connHandlerPool.alloc

/-- A step changes at most the listener that an event is for. -/
theorem Progress.listener_cases (progress : s.Progress label s') :
    s'.listenerAt = s.listenerAt ∨
      ∃ id listener listener' listened event intents,
        s.listenerAt id = some listener ∧
        ListenerMove listener listened event listener' intents ∧
        s'.listenerAt = Function.update s.listenerAt id (some listener') := by
  cases progress with
  | listener listened _ event listener listener' intents rest kind found move agenda agenda' ops
      handlers listeners =>
      exact .inr ⟨_, listener, listener', listened, event.reason, intents, found, move, listeners⟩
  | idle _ _ _ _ _ _ listeners => exact .inl listeners
  | missing _ _ _ _ _ _ _ listeners => exact .inl listeners
  | handler _ _ _ _ _ _ _ _ _ _ _ _ _ _ listeners => exact .inl listeners
  | retry _ _ _ _ _ _ _ _ _ listeners => exact .inl listeners
  | submit _ _ _ _ _ _ _ _ _ listeners => exact .inl listeners
  | spawned _ _ _ _ _ _ _ _ _ _ _ _ _ listeners => exact .inl listeners
  | terminated _ _ _ _ _ _ _ listeners => exact .inl listeners
  | completed _ _ _ _ _ _ _ _ _ _ _ _ listeners => exact .inl listeners

/-- What has started stays so, while no generation overflows. -/
theorem Past.move (past : s.Past handle) (inv : s.QueueInv) (move : RunMove s label s')
    (noWrap : noOverflow s label s') : s'.Past handle := by
  cases past with
  | gone kind left => exact .gone kind (left.mono noWrap (capacity_move inv.handlers move))
  | listener kind listener found started =>
      rcases (inv.progress move).listener_cases with
        listeners | ⟨id, other, other', _, _, _, found', handling, listeners⟩
      · exact .listener kind listener (by rw [listeners, found]) started
      · rcases eq_or_ne handle.genId id with rfl | different
        · exact .listener kind other' (by rw [listeners, Function.update_self]) handling.birth.1
        · exact .listener kind listener (by rw [listeners, Function.update_of_ne different, found])
            started
  | handler kind handler found started =>
      have kept : s'.handlerAt handle.genId = s.handlerAt handle.genId → s'.Past handle := fun same =>
        .handler kind handler (same.trans found) started
      cases (inv.handlers.step move).1 with
      | same handlers => exact kept (congrFun handlers _)
      | event event other other' intents dispatches found' handling handlers =>
          rcases eq_or_ne handle.genId event.handle.genId with same | different
          · rw [same, found'] at found
            cases found
            have found'' : s'.handlerAt handle.genId = some other' := by
              rw [handlers, same, Function.update_self]
            rcases handling.birth with ⟨_, start, _⟩ | ⟨started', _⟩
            · exact absurd start started
            · exact .handler kind other' found'' started'
          · exact kept (by rw [handlers, Function.update_of_ne different])
      | spawned _ _ _ id _ _ small unbound handlers =>
          rcases eq_or_ne handle.genId id with rfl | different
          · rw [unbound] at found
            cases found
          · exact kept (by rw [handlers, Function.update_of_ne different])
      | terminated closing _ _ _ _ _ handlers =>
          rcases eq_or_ne handle.genId closing.genId with same | different
          · exact .gone kind (inv.handlers.left move noWrap found
              (by rw [handlers, same, Function.update_self]))
          · exact kept (by rw [handlers, Function.update_of_ne different])

/-- What is under way and is not to start a machine is for a machine that has started. -/
structure PastInv (s : Running) : Prop extends BirthInv s where
  agenda : ∀ item ∈ s.agenda, item.birth? = none → s.Past item.handle
  ops : ∀ sqe ∈ s.ops, s.Past ⟨sqe.userData⟩

/-- Each step keeps the invariant, while no generation overflows. -/
theorem PastInv.move (inv : s.PastInv) (move : RunMove s label s')
    (noWrap : noOverflow s label s') : s'.PastInv := by
  have progress := inv.queues.progress move
  have past : ∀ {handle}, s.Past handle → s'.Past handle := fun past =>
    past.move inv.queues move noWrap
  refine { toBirthInv := inv.toBirthInv.move move, agenda := ?_, ops := ?_ }
  · intro item member noBirth
    cases item with
    | intent handle intent =>
        rcases progress.intent_cases member with
          before | ⟨handler, handler', _, intents, kind, _, handlers, handling, submitted⟩ |
            ⟨_, _, _, listener', _, kind, listeners, handling, _⟩
        · exact past (inv.agenda _ before noBirth)
        · rcases handling.birth with ⟨_, _, _, rfl⟩ | ⟨started, _⟩
          · obtain rfl := List.mem_singleton.mp submitted
            cases noBirth
          · exact .handler kind handler' (by rw [handlers]; exact Function.update_self ..) started
        · exact .listener kind listener' (by rw [listeners]; exact Function.update_self ..)
            handling.birth.1
    | event event =>
        rcases progress.event_cases member with
          before | start | ⟨_, _, _, _, sqe, _, _, pending, rfl⟩
        · exact past (inv.agenda _ before noBirth)
        · obtain ⟨reason, handle⟩ := event
          cases start
          cases noBirth
        · exact past (inv.ops sqe pending)
  · intro sqe member
    rcases progress.op_cases member with before | ⟨handle, intent, pending, submits⟩
    · exact past (inv.ops sqe before)
    · have noBirth : (AgendaItem.intent handle intent).birth? = none := by
        cases submits <;> rfl
      have now := past (inv.agenda (.intent handle intent) pending noBirth)
      cases submits <;> exact now

/-- At the start of a run nothing has started. -/
theorem pastInv_start {entries : Nat} {listeners connHandlers bufCount : UInt32}
    {raw : Option (Nat × (Nat → UInt8))}
    (started : start entries listeners connHandlers bufCount raw = .ok s) : s.PastInv := by
  obtain ⟨_, _, noOps, handle, _, _, agenda, _⟩ := queueInv_start started
  refine { toBirthInv := birthInv_start started, agenda := ?_, ops := by simp [noOps] }
  simp [agenda, AgendaItem.birth?]

/-! ### No event is out of place -/

/-- Every event that comes first is expected. -/
theorem PastInv.expected (inv : s.PastInv) {event : RunQueueEvent} {rest : List AgendaItem}
    (agenda : s.agenda = .event event :: rest) : s.Expected event := by
  obtain ⟨reason, handle⟩ := event
  cases reason with
  | spawn =>
      have held := inv.tokens
      rw [births, agenda, birthsOf_cons_some rfl] at held
      have fits := held.fits _ _ (Multiset.mem_cons_self ..)
      cases held.fits _ _ (Multiset.mem_cons_self ..) with
      | handler kind =>
          exact .handler kind fun handler found => ⟨fun _ => fits.handler_of kind found, fun _ => rfl⟩
      | listener kind =>
          exact .listener kind fun listener found => ⟨fun _ => fits.listener_of kind found, fun _ => rfl⟩
  | ioCompleted res flags =>
      have past : s.Past handle := inv.agenda (.event ⟨.ioCompleted res flags, handle⟩)
        (by simp [agenda]) rfl
      cases past with
      | listener kind listener found started =>
          refine .listener kind fun other found' => ?_
          rw [found] at found'
          cases found'
          exact ⟨by simp, fun start => absurd start started⟩
      | handler kind handler found started =>
          refine .handler kind fun other found' => ?_
          rw [found] at found'
          cases found'
          exact ⟨by simp, fun start => absurd start started⟩
      | gone kind left =>
          refine .handler kind fun other found => ?_
          have valid := ObjectPool.lookup_valid found
          rw [left.invalid] at valid
          cases valid

/-- A turn of the executor on which every event is expected reaches no `unreachable!()`. -/
theorem tick_ne_unreachable (inv : s.PastInv) (listened : Result Fd) (submitted : Result Nat) :
    s.tick listened submitted ≠ .error .unreachable := by
  intro failed
  rcases tick_error inv.queues failed with known | ⟨_, event, rest, agenda, unexpected⟩ | ⟨other, _⟩
  · exact absurd known (by decide)
  · exact unexpected (inv.expected agenda)
  · cases other

end Running

end Hoarder
