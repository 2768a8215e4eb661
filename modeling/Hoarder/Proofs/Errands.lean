/-
Module: Hoarder.Proofs.Errands
Purpose: One errand for each machine.  On a kernel that fails no read and ends a multishot that it
  fails, every machine has at most one operation, completion, event or intent under way, and it is
  one that the state of the machine expects.
Trusted boundary: none
Main exports: Errand, Running.errands, Running.Fits, Running.ErrandInv, Op.Posts,
  Running.tokens_spawned, Running.ErrandInv.move
-/
import Hoarder.Foundation.Tokens
import Hoarder.Proofs.Agenda

namespace Hoarder

open Foundation

/-- What is under way for a machine. -/
inductive Errand where
  | start
  | accept
  | read
  | close (fixed : Fixed)
  | completed (res : Int32)
  | terminate
deriving DecidableEq, Repr

namespace Errand

/-- The errand is one that a connection handler in this state waits for.  A read that failed is
not: it leaves the handler with two reads, or with a read and a close. -/
def FitsHandler (handler : ConnHandler) : Errand → Prop
  | .start => handler.state = .init
  | .read => ∃ phase, handler.state = .recv phase
  | .close fixed => handler.state = .closing ∧ fixed = handler.socket
  | .completed res => (0 ≤ res ∧ ∃ phase, handler.state = .recv phase) ∨ handler.state = .closing
  | .terminate => handler.state = .closed
  | .accept => False

/-- The errand is one that a listener in this state waits for. -/
def FitsListener (listener : TcpServer) : Errand → Prop
  | .start => listener.state = .init
  | .accept => listener.state = .accepting
  | .completed _ => listener.state = .accepting
  | .read => False
  | .close _ => False
  | .terminate => False

end Errand

/-- The errand an event ends. -/
def MachineEvent.errand : MachineEvent → Errand
  | .spawn => .start
  | .ioCompleted res _ => .completed res

/-- The errand an intent is part of.  A new connection has none before it is spawned. -/
def MachineIntent.errand? : MachineIntent → Option Errand
  | .retry => some .start
  | .terminate => some .terminate
  | .closeFixed fixed => some (.close fixed)
  | .spawnConnHandler _ => none
  | .submitMultishotAccept _ => some .accept
  | .submitRecv _ _ _ => some .read

/-- The errand an operation is part of. -/
def Op.errand : Op → Errand
  | .acceptMulti _ => .accept
  | .readFixed _ _ _ _ _ => .read
  | .close fixed => .close fixed

/-- The errand an item of the agenda is part of, with its machine.  A completion of an accept that
goes on is not the end of it. -/
def AgendaItem.errand? : AgendaItem → Option (ObjectHandle × Errand)
  | .intent handle submitted => submitted.errand?.map fun errand => (handle, errand)
  | .event ⟨.ioCompleted res flags, handle⟩ =>
      if handle.poolId = tcpServer ∧ moreIo flags = true then none
      else some (handle, .completed res)
  | .event ⟨.spawn, handle⟩ => some (handle, .start)

/-- The errand of a submitted operation, with its machine. -/
def Sqe.errand (sqe : Sqe) : ObjectHandle × Errand :=
  (⟨sqe.userData⟩, sqe.op.errand)

/-- A completion of a connection of a listener: its machine, the result and the flags. -/
def AgendaItem.accept? : AgendaItem → Option (ObjectHandle × Int32 × UInt32)
  | .event ⟨.ioCompleted res flags, handle⟩ =>
      if handle.poolId = tcpServer then some (handle, res, flags) else none
  | _ => none

/-- What the kernel posts: an accept that fails is over, and no read fails. -/
def Op.Posts (self : Op) (result : Int32) (flags : UInt32) : Prop :=
  match self with
  | .acceptMulti _ => result < 0 → moreIo flags = false
  | .readFixed _ _ _ _ _ => 0 ≤ result
  | .close _ => True

/-- Under a fitting event a handler exchanges its errand for another one that it waits for. -/
theorem ConnMove.errand {self self' : ConnHandler} {buffers buffers' : IoBufs}
    {event : MachineEvent} {intents : List MachineIntent}
    (move : ConnMove self buffers event self' buffers' intents)
    (fits : event.errand.FitsHandler self) :
    ∃ errand : Errand, intents.filterMap MachineIntent.errand? = [errand] ∧
      errand.FitsHandler self' := by
  have notNegative : ∀ {res flags phase}, self.state = .recv phase → res < 0 →
      ¬ (MachineEvent.ioCompleted res flags).errand.FitsHandler self := by
    rintro res flags phase start negative (⟨success, _⟩ | closing)
    · exact absurd negative (Int32.not_lt.mpr success)
    · rw [start] at closing
      cases closing
  cases move with
  | spawned => exact ⟨.read, rfl, _, rfl⟩
  | retry buffers' start refused => exact ⟨.start, rfl, start⟩
  | endOfStream => exact ⟨.close self.socket, rfl, rfl, rfl⟩
  | transient res flags phase handle negative kind start held =>
      exact absurd fits (notNegative start negative)
  | disconnected res flags phase handle buffers' negative kind start held freed =>
      exact absurd fits (notNegative start negative)
  | ignored res flags phase handle negative notTransient notUnexpected notDisconnect start held =>
      exact absurd fits (notNegative start negative)
  | received => exact ⟨.read, rfl, _, rfl⟩
  | closed => exact ⟨.terminate, rfl, rfl⟩
  | closeAgain res flags buffers' nonzero start freed =>
      exact ⟨.close self.socket, rfl, start, rfl⟩
  | late event start =>
      cases event with
      | spawn =>
          have init : self.state = .init := fits
          rw [start] at init
          cases init
      | ioCompleted res flags =>
          rcases fits with ⟨_, _, recv⟩ | closing
          · rw [start] at recv
            cases recv
          · rw [start] at closing
            cases closing

namespace Running

variable {s s' : Running} {label : RunLabel} {handle key : ObjectHandle} {errand : Errand}

/-- What is under way in an agenda and at the kernel. -/
def errandsOf (agenda : List AgendaItem) (ops : Multiset Sqe) : Multiset (ObjectHandle × Errand) :=
  (agenda.filterMap AgendaItem.errand? : List (ObjectHandle × Errand)) + ops.map Sqe.errand

/-- Everything that is under way. -/
def errands (s : Running) : Multiset (ObjectHandle × Errand) :=
  errandsOf s.agenda s.ops

/-- The completions of listeners that are under way, in order. -/
def accepts (s : Running) : List (ObjectHandle × Int32 × UInt32) :=
  s.agenda.filterMap AgendaItem.accept?

/-- The machine is there, and waits for the errand. -/
inductive Fits (s : Running) (handle : ObjectHandle) (errand : Errand) : Prop where
  | handler (kind : handle.poolId = connHandler) (handler : ConnHandler)
      (found : s.handlerAt handle.genId = some handler) (waits : errand.FitsHandler handler)
  | listener (kind : handle.poolId = tcpServer) (listener : TcpServer)
      (found : s.listenerAt handle.genId = some listener) (waits : errand.FitsListener listener)

/-- While completions of a listener are under way it accepts; only the last one may end the
multishot, and one that failed does. -/
structure AcceptInv (s : Running) : Prop where
  accepting : ∀ accept ∈ s.accepts, accept.1.poolId = tcpServer ∧ ∃ listener,
    s.listenerAt accept.1.genId = some listener ∧ listener.state = .accepting
  failed : ∀ accept ∈ s.accepts, accept.2.1 < 0 → moreIo accept.2.2 = false
  ordered : s.accepts.Pairwise fun first second =>
    first.1 = second.1 → moreIo first.2.2 = true

/-- Each machine has at most one errand, and waits for it. -/
structure ErrandInv (s : Running) : Prop extends AcceptInv s where
  queues : s.QueueInv
  tokens : Tokens s.Fits s.errands

/-- The errand of a connection handler. -/
theorem Fits.handler_of (fits : s.Fits handle errand) (kind : handle.poolId = connHandler)
    {handler : ConnHandler} (found : s.handlerAt handle.genId = some handler) :
    errand.FitsHandler handler := by
  cases fits with
  | handler _ other found' waits =>
      rw [found] at found'
      cases found'
      exact waits
  | listener listening =>
      exact absurd listening (ObjectHandle.notListener kind)

/-- The errand of a listener. -/
theorem Fits.listener_of (fits : s.Fits handle errand) (kind : handle.poolId = tcpServer)
    {listener : TcpServer} (found : s.listenerAt handle.genId = some listener) :
    errand.FitsListener listener := by
  cases fits with
  | handler handling =>
      exact absurd kind (ObjectHandle.notListener handling)
  | listener _ other found' waits =>
      rw [found] at found'
      cases found'
      exact waits

/-- An errand fits as long as its machine stays as it is. -/
theorem Fits.congr (fits : s.Fits handle errand)
    (handlers : handle.poolId = connHandler → s'.handlerAt handle.genId = s.handlerAt handle.genId)
    (listeners : handle.poolId = tcpServer →
      s'.listenerAt handle.genId = s.listenerAt handle.genId) : s'.Fits handle errand := by
  cases fits with
  | handler kind handler found waits =>
      exact .handler kind handler ((handlers kind).trans found) waits
  | listener kind listener found waits =>
      exact .listener kind listener ((listeners kind).trans found) waits

/-- An errand of a connection handler is for one that is there. -/
theorem Fits.handler_ne_none (fits : s.Fits handle errand) (kind : handle.poolId = connHandler) :
    s.handlerAt handle.genId ≠ none := by
  cases fits with
  | handler _ handler found => simp [found]
  | listener listening => exact absurd listening (ObjectHandle.notListener kind)

/-- An errand of a listener is for one that is there. -/
theorem Fits.listener_ne_none (fits : s.Fits handle errand) (kind : handle.poolId = tcpServer) :
    s.listenerAt handle.genId ≠ none := by
  cases fits with
  | handler handling => exact absurd kind (ObjectHandle.notListener handling)
  | listener _ listener found => simp [found]

/-- An errand fits while no machine changes. -/
theorem Fits.of_same (fits : s.Fits handle errand) (handlers : s'.handlerAt = s.handlerAt)
    (listeners : s'.listenerAt = s.listenerAt) : s'.Fits handle errand :=
  fits.congr (fun _ => by rw [handlers]) fun _ => by rw [listeners]

/-- A change of one connection handler leaves the errands of all other machines. -/
theorem Fits.frame_handler {changed : Option ConnHandler} (fits : s.Fits key errand)
    (kind : handle.poolId = connHandler) (different : key ≠ handle)
    (handlers : s'.handlerAt = Function.update s.handlerAt handle.genId changed)
    (listeners : s'.listenerAt = s.listenerAt) : s'.Fits key errand := by
  refine fits.congr (fun kind' => ?_) fun _ => by rw [listeners]
  have apart : key.genId ≠ handle.genId := fun same =>
    different (ObjectHandle.eq_of_fields (kind'.trans kind.symm) same)
  rw [handlers, Function.update_of_ne apart]

/-- A change of one listener leaves the errands of all other machines. -/
theorem Fits.frame_listener {changed : Option TcpServer} (fits : s.Fits key errand)
    (kind : handle.poolId = tcpServer) (different : key ≠ handle)
    (handlers : s'.handlerAt = s.handlerAt)
    (listeners : s'.listenerAt = Function.update s.listenerAt handle.genId changed) :
    s'.Fits key errand := by
  apply fits.congr (fun _ => by rw [handlers])
  intro kind'
  have apart : key.genId ≠ handle.genId := fun same =>
    different (ObjectHandle.eq_of_fields (kind'.trans kind.symm) same)
  rw [listeners, Function.update_of_ne apart]

/-- A change of one handler leaves what does not concern it. -/
theorem tokens_frame {tokens : Multiset (ObjectHandle × Errand)} {changed : Option ConnHandler}
    (held : Tokens s.Fits tokens) (kind : handle.poolId = connHandler)
    (absent : ∀ errand, (handle, errand) ∉ tokens)
    (handlers : s'.handlerAt = Function.update s.handlerAt handle.genId changed)
    (listeners : s'.listenerAt = s.listenerAt) : Tokens s'.Fits tokens := by
  refine held.frame fun other errand member fits => fits.frame_handler kind ?_ handlers listeners
  rintro rfl
  exact absent errand member

/-- A handle that no machine was given has no errand. -/
theorem not_held {tokens : Multiset (ObjectHandle × Errand)} (held : Tokens s.Fits tokens)
    {id : GenId} (small : id.index.toNat < 2 ^ 24) (unbound : s.handlerAt id = none)
    (errand : Errand) : (ObjectHandle.new connHandler id, errand) ∉ tokens := by
  intro member
  have found := (held.fits _ _ member).handler_ne_none (ObjectHandle.poolId_new connHandler small)
  rw [ObjectHandle.genId_new connHandler small] at found
  exact found unbound

/-- A handler that is spawned is to be started. -/
theorem tokens_spawned {tokens : Multiset (ObjectHandle × Errand)} (held : Tokens s.Fits tokens)
    {id : GenId} {fixed : Fixed} (small : id.index.toNat < 2 ^ 24) (unbound : s.handlerAt id = none)
    (handlers : s'.handlerAt = Function.update s.handlerAt id (some (ConnHandler.new fixed)))
    (listeners : s'.listenerAt = s.listenerAt) :
    Tokens s'.Fits ((ObjectHandle.new connHandler id, .start) ::ₘ tokens) := by
  have kind := ObjectHandle.poolId_new connHandler small
  have sameId := ObjectHandle.genId_new connHandler small
  have fresh := not_held held small unbound
  apply (tokens_frame held kind fresh (by rw [handlers, sameId]) listeners).add fresh
  exact .handler kind (ConnHandler.new fixed) (by rw [handlers, sameId, Function.update_self]) rfl

section Counting

variable {item : AgendaItem} {agenda agenda' rest : List AgendaItem} {ops : Multiset Sqe}
  {held : ObjectHandle × Errand} {intents : List MachineIntent}

theorem errandsOf_cons_some (has : item.errand? = some held) :
    errandsOf (item :: rest) ops = held ::ₘ errandsOf rest ops := by
  rw [errandsOf, List.filterMap_cons_some has, ← Multiset.cons_coe, Multiset.cons_add]
  rfl

theorem errandsOf_cons_none (has : item.errand? = none) :
    errandsOf (item :: rest) ops = errandsOf rest ops := by
  rw [errandsOf, List.filterMap_cons_none has]
  rfl

theorem errandsOf_perm (perm : agenda.Perm agenda') : errandsOf agenda ops = errandsOf agenda' ops := by
  rw [errandsOf, Multiset.coe_eq_coe.mpr (perm.filterMap AgendaItem.errand?)]
  rfl

theorem errandsOf_submitted (sqe : Sqe) :
    errandsOf agenda (sqe ::ₘ ops) = sqe.errand ::ₘ errandsOf agenda ops := by
  rw [errandsOf, Multiset.map_cons, Multiset.add_cons]
  rfl

/-- Intents that are part of no errand. -/
theorem errandsOf_intents_none (none : intents.filterMap MachineIntent.errand? = []) :
    errandsOf (intents.map (.intent handle) ++ rest) ops = errandsOf rest ops := by
  induction intents with
  | nil => rfl
  | cons intent intents inductionHypothesis =>
      have noneHere := List.filterMap_eq_nil_iff.mp none
      have has : (AgendaItem.intent handle intent).errand? = .none := by
        rw [AgendaItem.errand?, noneHere intent (List.mem_cons_self ..)]
        rfl
      rw [List.map_cons, List.cons_append, errandsOf_cons_none has]
      apply inductionHypothesis
      exact List.filterMap_eq_nil_iff.mpr fun other member =>
        noneHere other (List.mem_cons_of_mem _ member)

/-- Intents one of which is part of an errand. -/
theorem errandsOf_intents_one (one : intents.filterMap MachineIntent.errand? = [errand]) :
    errandsOf (intents.map (.intent handle) ++ rest) ops =
      (handle, errand) ::ₘ errandsOf rest ops := by
  induction intents with
  | nil => cases one
  | cons intent intents inductionHypothesis =>
      rw [List.map_cons, List.cons_append]
      cases isPart : intent.errand? with
      | none =>
          have has : (AgendaItem.intent handle intent).errand? = none := by
            rw [AgendaItem.errand?, isPart]
            rfl
          rw [List.filterMap_cons_none isPart] at one
          rw [errandsOf_cons_none has, inductionHypothesis one]
      | some other =>
          have has : (AgendaItem.intent handle intent).errand? = some (handle, other) := by
            rw [AgendaItem.errand?, isPart]
            rfl
          rw [List.filterMap_cons_some isPart] at one
          obtain ⟨rfl, none⟩ := List.cons.inj one
          rw [errandsOf_cons_some has, errandsOf_intents_none none]

end Counting

/-- Intents are no completions. -/
theorem accept?_intents (handle : ObjectHandle) (intents : List MachineIntent) :
    (intents.map (AgendaItem.intent handle)).filterMap AgendaItem.accept? = [] := by
  induction intents with
  | nil => rfl
  | cons intent intents inductionHypothesis =>
      rw [List.map_cons, List.filterMap_cons_none rfl, inductionHypothesis]

/-- An event at a connection handler ends an errand. -/
theorem errand?_event {event : RunQueueEvent} (kind : event.handle.poolId = connHandler) :
    AgendaItem.errand? (.event event) = some (event.handle, event.reason.errand) := by
  obtain ⟨reason, handle⟩ := event
  have notListener := ObjectHandle.notListener kind
  cases reason with
  | spawn => rfl
  | ioCompleted res flags => simp [AgendaItem.errand?, notListener, MachineEvent.errand]

/-- An event at a connection handler is no completion of a listener. -/
theorem accept?_event {event : RunQueueEvent} (kind : event.handle.poolId = connHandler) :
    AgendaItem.accept? (.event event) = none := by
  obtain ⟨reason, handle⟩ := event
  have notListener := ObjectHandle.notListener kind
  cases reason with
  | spawn => rfl
  | ioCompleted res flags => simp [AgendaItem.accept?, notListener]

/-- What a step of the kernel must meet. -/
def kernelPosts : Machine.Guard Running RunLabel := fun s label _ =>
  ∀ index result flags data sqe, label = .complete index result flags data →
    s.executor.io.inFlight[index]? = some sqe → sqe.op.Posts result flags

/-- The first completion of a listener. -/
theorem accepts_cons {res : Int32} {flags : UInt32} {rest : List AgendaItem}
    (kind : handle.poolId = tcpServer)
    (agenda : s.agenda = .event ⟨.ioCompleted res flags, handle⟩ :: rest) :
    s.accepts = (handle, res, flags) :: rest.filterMap AgendaItem.accept? := by
  rw [accepts, agenda]
  exact List.filterMap_cons_some (by simp [AgendaItem.accept?, kind])

/-- The errand of the listener's completion at the front of the agenda, if it is the last. -/
theorem errand?_last {res : Int32} {flags : UInt32} (last : moreIo flags = false) :
    AgendaItem.errand? (.event ⟨.ioCompleted res flags, handle⟩) =
      some (handle, .completed res) := by
  simp [AgendaItem.errand?, last]

/-- A completion of an accept that goes on is part of no errand of its own. -/
theorem errand?_more {res : Int32} {flags : UInt32} (kind : handle.poolId = tcpServer)
    (more : moreIo flags = true) :
    AgendaItem.errand? (.event ⟨.ioCompleted res flags, handle⟩) = none := by
  simp [AgendaItem.errand?, kind, more]

/-- An event at a listener: it waits for what it arms, and is over with what it gives up. -/
theorem ErrandInv.tokens_listener (inv : s.ErrandInv) {listened : Result Fd}
    {event : RunQueueEvent} {listener listener' : TcpServer} {intents : List MachineIntent}
    {rest : List AgendaItem} (kind : event.handle.poolId = tcpServer)
    (found : s.listenerAt event.handle.genId = some listener)
    (move : ListenerMove listener listened event.reason listener' intents)
    (agenda : s.agenda = .event event :: rest)
    (agenda' : s'.agenda = intents.map (.intent event.handle) ++ rest) (ops : s'.ops = s.ops)
    (handlers : s'.handlerAt = s.handlerAt)
    (listeners : s'.listenerAt =
      Function.update s.listenerAt event.handle.genId (some listener')) :
    Tokens s'.Fits s'.errands := by
  obtain ⟨reason, handle⟩ := event
  have frame : ∀ other token, other ≠ handle → s.Fits other token → s'.Fits other token :=
    fun other token different fits => fits.frame_listener kind different handlers listeners
  have found' : s'.listenerAt handle.genId = some listener' := by
    rw [listeners, Function.update_self]
  have held := inv.tokens
  rw [errands, agenda] at held
  rw [errands, agenda', ops]
  cases move with
  | listening fd start answer =>
      rw [errandsOf_cons_some rfl] at held
      rw [errandsOf_intents_one rfl]
      exact held.exchange (.listener kind _ found' rfl) frame
  | refused error start answer =>
      rw [errandsOf_cons_some rfl] at held
      exact held.remove frame
  | failed res flags start negative =>
      have last := inv.failed (handle, res, flags) (by simp [accepts_cons kind agenda]) negative
      rw [errandsOf_cons_some (errand?_last last)] at held
      exact held.remove frame
  | accepted res flags start success more =>
      rw [errandsOf_cons_none (errand?_more kind more)] at held
      rw [errandsOf_intents_none rfl]
      refine held.frame fun other token _ fits => fits.congr (fun _ => by rw [handlers]) fun _ => ?_
      rw [listeners, ← found, Function.update_eq_self]
  | rearmed res flags start success last =>
      rw [errandsOf_cons_some (errand?_last last)] at held
      rw [errandsOf_intents_one rfl]
      exact held.exchange (.listener kind _ found' start) frame
  | ignored res flags error start =>
      obtain ⟨_, other, found', accepting⟩ :=
        inv.accepting (handle, res, flags) (by simp [accepts_cons kind agenda])
      rw [found] at found'
      cases found'
      rw [start] at accepting
      cases accepting

/-- A completion: the errand goes on, or the operation is exchanged for its completion. -/
theorem ErrandInv.tokens_completed (inv : s.ErrandInv) {result : Int32} {flags : UInt32}
    {sqe : Sqe} {others : Multiset Sqe} (posts : sqe.op.Posts result flags)
    (agenda : s'.agenda = s.agenda ++ [.event ⟨.ioCompleted result flags, ⟨sqe.userData⟩⟩])
    (ops : s.ops = sqe ::ₘ others)
    (ops' : s'.ops = if staysInFlight sqe.op flags then sqe ::ₘ others else others)
    (handlers : s'.handlerAt = s.handlerAt) (listeners : s'.listenerAt = s.listenerAt) :
    Tokens s'.Fits s'.errands := by
  obtain ⟨op, userData⟩ := sqe
  have frame : ∀ other token, s.Fits other token → s'.Fits other token :=
    fun other token fits => fits.of_same handlers listeners
  have held := inv.tokens
  rw [errands, ops, errandsOf_submitted] at held
  have fits := held.fits ⟨userData⟩ op.errand (Multiset.mem_cons_self ..)
  have appended : s'.errands = errandsOf (.event ⟨.ioCompleted result flags, ⟨userData⟩⟩ :: s.agenda)
      (if staysInFlight op flags then ⟨op, userData⟩ ::ₘ others else others) := by
    rw [errands, agenda, ops', errandsOf_perm (List.perm_append_singleton _ _)]
  -- The operation leaves, and its completion joins the agenda.
  have replaced : ∀ errand : Errand, staysInFlight op flags = false →
      AgendaItem.errand? (.event ⟨.ioCompleted result flags, ⟨userData⟩⟩) =
        some (⟨userData⟩, errand) → s'.Fits ⟨userData⟩ errand → Tokens s'.Fits s'.errands := by
    intro errand leaves has waits
    rw [appended, errandsOf_cons_some has, leaves]
    exact held.exchange waits fun other token _ => frame other token
  cases op with
  | acceptMulti fd =>
      cases fits with
      | handler _ _ _ waits => exact absurd waits id
      | listener kind listener found waits =>
          cases more : moreIo flags with
          | false =>
              exact replaced _ more (errand?_last more)
                (.listener kind listener (by rw [listeners, found]) waits)
          | true =>
              have stays : staysInFlight (.acceptMulti fd) flags = true := more
              rw [appended, errandsOf_cons_none (errand?_more kind more), stays, if_pos rfl,
                errandsOf_submitted]
              exact held.frame fun other token _ => frame other token
  | readFixed fixed buf len bufIndex bufferId =>
      cases fits with
      | listener _ _ _ waits => exact absurd waits id
      | handler kind handler found waits =>
          exact replaced _ rfl (errand?_event kind)
            (.handler kind handler (by rw [handlers, found]) (.inl ⟨posts, waits⟩))
  | close fixed =>
      cases fits with
      | listener _ _ _ waits => exact absurd waits id
      | handler kind handler found waits =>
          exact replaced _ rfl (errand?_event kind)
            (.handler kind handler (by rw [handlers, found]) (.inr waits.1))

/-- No event is for a machine that is gone. -/
theorem ErrandInv.not_missing (inv : s.ErrandInv) {event : RunQueueEvent} {rest : List AgendaItem}
    (agenda : s.agenda = .event event :: rest) :
    ¬ ((event.handle.poolId = tcpServer ∧ s.listenerAt event.handle.genId = none) ∨
      (event.handle.poolId = connHandler ∧ s.handlerAt event.handle.genId = none)) := by
  obtain ⟨reason, handle⟩ := event
  have held := inv.tokens
  rw [errands, agenda] at held
  rintro (⟨kind, none⟩ | ⟨kind, none⟩)
  · cases reason with
    | spawn =>
        rw [errandsOf_cons_some rfl] at held
        exact (held.fits _ _ (Multiset.mem_cons_self ..)).listener_ne_none kind none
    | ioCompleted res flags =>
        obtain ⟨_, listener, found, _⟩ :=
          inv.accepting (handle, res, flags) (by simp [accepts_cons kind agenda])
        rw [none] at found
        cases found
  · rw [errandsOf_cons_some (errand?_event kind)] at held
    exact (held.fits _ _ (Multiset.mem_cons_self ..)).handler_ne_none kind none

/-- Each step keeps one errand for each machine. -/
theorem ErrandInv.tokens_progress (inv : s.ErrandInv) (progress : s.Progress label s')
    (posts : kernelPosts s label s') : Tokens s'.Fits s'.errands := by
  have same : s'.errands = s.errands → s'.handlerAt = s.handlerAt → s'.listenerAt = s.listenerAt →
      Tokens s'.Fits s'.errands := by
    intro errands handlers listeners
    rw [errands]
    exact inv.tokens.frame fun other token _ fits => fits.of_same handlers listeners
  have held := inv.tokens
  cases progress with
  | idle _ _ kernel agenda ops handlers listeners =>
      exact same (by rw [errands, agenda, ops, errands]) handlers listeners
  | missing listened _ event absent agenda ops handlers listeners =>
      exact absurd absent (inv.not_missing agenda)
  | handler listened _ event handler handler' intents rest kind found move agenda agenda' ops
      handlers listeners =>
      rw [errands, agenda, errandsOf_cons_some (errand?_event kind)] at held
      have fits := held.fits _ _ (Multiset.mem_cons_self ..)
      obtain ⟨errand, submitted, waits⟩ := move.errand (fits.handler_of kind found)
      rw [errands, agenda', ops, errandsOf_intents_one submitted]
      exact held.exchange (.handler kind handler' (by rw [handlers, Function.update_self]) waits)
        fun other token different fits => fits.frame_handler kind different handlers listeners
  | listener listened _ event listener listener' intents rest kind found move agenda agenda' ops
      handlers listeners =>
      exact inv.tokens_listener kind found move agenda agenda' ops handlers listeners
  | retry listened _ handle front back agenda agenda' ops handlers listeners =>
      refine same ?_ handlers listeners
      rw [errands, agenda', ops, errandsOf_perm List.perm_middle, errandsOf_cons_some rfl, errands,
        agenda, errandsOf_cons_some rfl]
  | submit listened _ handle intent sqe submits agenda ops handlers listeners =>
      have taken : (AgendaItem.intent handle intent).errand? = some sqe.errand := by
        cases submits <;> rfl
      refine same ?_ handlers listeners
      rw [errands, ops, errandsOf_submitted, errands, agenda, errandsOf_cons_some taken]
  | spawned listened _ handle fixed id front back small unbound agenda agenda' ops handlers
      listeners =>
      rw [errands, agenda, errandsOf_cons_none rfl] at held
      rw [errands, agenda', ops, errandsOf_perm List.perm_middle, errandsOf_cons_some rfl]
      exact tokens_spawned held small unbound handlers listeners
  | terminated listened _ handle kind agenda ops handlers listeners =>
      rw [errands, agenda, errandsOf_cons_some rfl] at held
      rw [errands, ops]
      exact held.remove fun other token different fits =>
        fits.frame_handler kind different handlers listeners
  | completed index result flags data _ sqe others working agenda ops ops' handlers listeners =>
      exact inv.tokens_completed (posts index result flags data sqe rfl working) agenda ops ops'
        handlers listeners

/-- Completions that are taken leave the invariant of the others. -/
theorem AcceptInv.shrink (inv : s.AcceptInv) (taken : s'.accepts.Sublist s.accepts)
    (kept : ∀ accept ∈ s'.accepts,
      s'.listenerAt accept.1.genId = s.listenerAt accept.1.genId) : s'.AcceptInv := by
  refine ⟨fun accept member => ?_, fun accept member => inv.failed accept (taken.subset member),
    inv.ordered.sublist taken⟩
  rw [kept accept member]
  exact inv.accepting accept (taken.subset member)

/-- An event at a listener leaves alone what the completions behind it wait for. -/
theorem AcceptInv.listener (inv : s.AcceptInv) {listened : Result Fd} {event : RunQueueEvent}
    {listener listener' : TcpServer} {intents : List MachineIntent} {rest : List AgendaItem}
    (kind : event.handle.poolId = tcpServer)
    (found : s.listenerAt event.handle.genId = some listener)
    (move : ListenerMove listener listened event.reason listener' intents)
    (agenda : s.agenda = .event event :: rest)
    (agenda' : s'.agenda = intents.map (.intent event.handle) ++ rest)
    (listeners : s'.listenerAt =
      Function.update s.listenerAt event.handle.genId (some listener')) : s'.AcceptInv := by
  obtain ⟨reason, handle⟩ := event
  have accepts' : s'.accepts = rest.filterMap AgendaItem.accept? := by
    rw [accepts, agenda', List.filterMap_append, accept?_intents, List.nil_append]
  have taken : s'.accepts.Sublist s.accepts := by
    rw [accepts', accepts, agenda]
    exact (List.sublist_cons_self _ rest).filterMap _
  apply inv.shrink taken
  intro accept member
  obtain ⟨kind', other, found', accepting⟩ := inv.accepting accept (taken.subset member)
  by_cases same : accept.1.genId = handle.genId
  · rw [same, found] at found'
    cases found'
    rw [listeners, same, Function.update_self, found]
    cases move with
    | listening fd start =>
        rw [start] at accepting
        cases accepting
    | refused error start =>
        rw [start] at accepting
        cases accepting
    | failed res flags start negative =>
        have heads := accepts_cons kind agenda
        have last := inv.failed (handle, res, flags) (by simp [heads]) negative
        have ordered := inv.ordered
        rw [heads, List.pairwise_cons] at ordered
        rw [accepts'] at member
        have more := ordered.1 accept member
          (ObjectHandle.eq_of_fields (kind.trans kind'.symm) same.symm)
        rw [last] at more
        cases more
    | accepted | rearmed | ignored => rfl
  · rw [listeners, Function.update_of_ne same]

/-- A completion of a listener joins those under way, none of which is the last. -/
theorem ErrandInv.accepts_completed (inv : s.ErrandInv) {result : Int32} {flags : UInt32}
    {sqe : Sqe} {others : Multiset Sqe} (posts : sqe.op.Posts result flags)
    (agenda : s'.agenda = s.agenda ++ [.event ⟨.ioCompleted result flags, ⟨sqe.userData⟩⟩])
    (ops : s.ops = sqe ::ₘ others) (listeners : s'.listenerAt = s.listenerAt) : s'.AcceptInv := by
  obtain ⟨op, userData⟩ := sqe
  have held := inv.tokens
  rw [errands, ops, errandsOf_submitted] at held
  have fits := held.fits ⟨userData⟩ op.errand (Multiset.mem_cons_self ..)
  have appended : s'.accepts = s.accepts ++
      (AgendaItem.accept? (.event ⟨.ioCompleted result flags, ⟨userData⟩⟩)).toList := by
    rw [accepts, agenda, List.filterMap_append, accepts]
    cases has : AgendaItem.accept? (.event ⟨.ioCompleted result flags, ⟨userData⟩⟩) with
    | none => rw [List.filterMap_cons_none has]; rfl
    | some accept => rw [List.filterMap_cons_some has]; rfl
  have noAccept : (ObjectHandle.mk userData).poolId = connHandler → s'.AcceptInv := by
    intro kind
    have isNone : AgendaItem.accept? (.event ⟨.ioCompleted result flags, ⟨userData⟩⟩) = none :=
      accept?_event kind
    rw [isNone, Option.toList_none, List.append_nil] at appended
    exact inv.shrink (by rw [appended]) fun _ _ => by rw [listeners]
  cases op with
  | readFixed fixed buf len bufIndex bufferId =>
      cases fits with
      | listener _ _ _ waits => exact absurd waits id
      | handler kind => exact noAccept kind
  | close fixed =>
      cases fits with
      | listener _ _ _ waits => exact absurd waits id
      | handler kind => exact noAccept kind
  | acceptMulti fd =>
      cases fits with
      | handler _ _ _ waits => exact absurd waits id
      | listener kind listener found waits =>
          have has : AgendaItem.accept? (.event ⟨.ioCompleted result flags, ⟨userData⟩⟩) =
              some (⟨userData⟩, result, flags) := by
            simp [AgendaItem.accept?, kind]
          rw [has, Option.toList_some] at appended
          refine ⟨?_, ?_, ?_⟩
          · rw [appended, listeners]
            intro accept member
            rcases List.mem_append.mp member with member | member
            · exact inv.accepting accept member
            · obtain rfl := List.mem_singleton.mp member
              exact ⟨kind, listener, found, waits⟩
          · rw [appended]
            intro accept member
            rcases List.mem_append.mp member with member | member
            · exact inv.failed accept member
            · obtain rfl := List.mem_singleton.mp member
              exact posts
          · rw [appended]
            refine List.pairwise_append.mpr ⟨inv.ordered, List.pairwise_singleton .., ?_⟩
            rintro ⟨handle, res, flags'⟩ before accept member same
            obtain rfl := List.mem_singleton.mp member
            obtain rfl : handle = ⟨userData⟩ := same
            cases more : moreIo flags' with
            | true => rfl
            | false =>
                -- The last completion is an errand of the listener, beside the operation.
                refine absurd ?_ (held.unique (.completed res))
                obtain ⟨item, inAgenda, isAccept⟩ := List.mem_filterMap.mp before
                rw [errandsOf]
                refine Multiset.mem_add.mpr (.inl (Multiset.mem_coe.mpr ?_))
                refine List.mem_filterMap.mpr ⟨item, inAgenda, ?_⟩
                unfold AgendaItem.accept? at isAccept
                split at isAccept
                · split at isAccept
                  · cases isAccept
                    exact errand?_last more
                  · cases isAccept
                · cases isAccept

/-- Each step keeps the order of the completions of the listeners. -/
theorem ErrandInv.accepts_progress (inv : s.ErrandInv) (progress : s.Progress label s')
    (posts : kernelPosts s label s') : s'.AcceptInv := by
  have shrunk : s'.accepts.Sublist s.accepts → s'.listenerAt = s.listenerAt → s'.AcceptInv :=
    fun taken listeners => inv.shrink taken fun _ _ => by rw [listeners]
  cases progress with
  | idle _ _ kernel agenda ops handlers listeners =>
      exact shrunk (by rw [accepts, agenda, accepts]) listeners
  | missing listened _ event absent agenda ops handlers listeners =>
      refine shrunk ?_ listeners
      rw [accepts, accepts, agenda]
      exact (List.sublist_cons_self _ _).filterMap _
  | handler listened _ event handler handler' intents rest kind found move agenda agenda' ops
      handlers listeners =>
      refine shrunk ?_ listeners
      rw [accepts, accepts, agenda, agenda', List.filterMap_append, accept?_intents]
      exact (List.sublist_cons_self _ _).filterMap _
  | listener listened _ event listener listener' intents rest kind found move agenda agenda' ops
      handlers listeners =>
      exact inv.toAcceptInv.listener kind found move agenda agenda' listeners
  | retry listened _ handle front back agenda agenda' ops handlers listeners =>
      refine shrunk ?_ listeners
      rw [accepts, accepts, agenda, agenda', List.filterMap_append, List.filterMap_cons_none rfl,
        List.filterMap_cons_none rfl, List.filterMap_append]
  | submit listened _ handle intent sqe submits agenda ops handlers listeners =>
      refine shrunk ?_ listeners
      rw [accepts, accepts, agenda]
      exact (List.sublist_cons_self _ _).filterMap _
  | spawned listened _ handle fixed id front back small unbound agenda agenda' ops handlers
      listeners =>
      refine shrunk ?_ listeners
      rw [accepts, accepts, agenda, agenda', List.filterMap_append, List.filterMap_cons_none rfl,
        List.filterMap_cons_none rfl, List.filterMap_append]
  | terminated listened _ handle kind agenda ops handlers listeners =>
      refine shrunk ?_ listeners
      rw [accepts, accepts, agenda]
      exact (List.sublist_cons_self _ _).filterMap _
  | completed index result flags data _ sqe others working agenda ops ops' handlers listeners =>
      exact inv.accepts_completed (posts index result flags data sqe rfl working) agenda ops
        listeners

/-- On a kernel that keeps its promises every step keeps the invariant. -/
theorem ErrandInv.move (inv : s.ErrandInv) (move : RunMove s label s')
    (posts : kernelPosts s label s') : s'.ErrandInv :=
  have progress := inv.queues.progress move
  { inv.accepts_progress progress posts with
    queues := inv.queues.move move
    tokens := inv.tokens_progress progress posts }

/-- At the start of a run the listener is to be started. -/
theorem errandInv_start {entries : Nat} {listeners connHandlers bufCount : UInt32}
    {raw : Option (Nat × (Nat → UInt8))}
    (started : start entries listeners connHandlers bufCount raw = .ok s) :
    s.ErrandInv ∧ (∀ id, s.handlerAt id = none) ∧
      ∃ handle, s.agenda = [.event ⟨.spawn, handle⟩] := by
  obtain ⟨queues, noneFound, noOps, handle, listener, kind, agenda, found, waits⟩ :=
    queueInv_start started
  have noAccepts : s.accepts = [] := by
    rw [accepts, agenda]
    rfl
  have one : s.errands = {(handle, .start)} := by
    rw [errands, agenda, noOps]
    rfl
  refine ⟨⟨⟨by simp [noAccepts], by simp [noAccepts], by simp [noAccepts]⟩, queues, ?_⟩, noneFound,
    handle, agenda⟩
  rw [one]
  exact Tokens.empty.add (by simp) (.listener kind listener found waits)

end Running

end Hoarder
