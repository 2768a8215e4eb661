/-
Module: Hoarder.Proofs.Instances
Purpose: Whose completion an event is.  A ledger beside the running executor numbers the machines in
  the order in which they are spawned, and carries with every operation, completion and event the
  number of the machine that it goes back to.  Without generation overflow a completion is
  processed by the machine that submitted the operation, or by none.
Trusted boundary: none
Main exports: ObjectHandle.slot, Ledger, Ledger.trace, Running.traced, Running.Ledger.Consistent,
  Running.completions_return
-/
import Hoarder.Foundation.Ghost
import Hoarder.Proofs.Births

namespace Hoarder

open Foundation

/-- The slot of a pool that a handle names, whatever its generation. -/
def ObjectHandle.slot (self : ObjectHandle) : UInt8 × UInt32 := (self.poolId, self.index)

/-- The machine of a handle is in its pool. -/
def Executor.resolves (self : Executor) (handle : ObjectHandle) : Bool :=
  if handle.poolId = tcpServer then
    match self.tcpListenerPool.get handle with
    | .ok (some _) => true
    | _ => false
  else if handle.poolId = connHandler then
    match self.connHandlerPool.get handle with
    | .ok (some _) => true
    | _ => false
  else false

/-- Who is who.  A machine instance is numbered by its place in `handles`, the handles that were
given out.  `occupants` names the instance in each slot of the pools, and `processing` the one whose
event is in progress.  The lists name, for each element of the queue they are called after, the
instance that submitted the operation, asked for the retry, or is to be spawned. -/
structure Ledger where
  handles : List ObjectHandle
  occupants : UInt8 × UInt32 → Option Nat
  processing : Option Nat
  queues : Fin 2 → List (Option Nat)
  sq : List (Option Nat)
  inFlight : List (Option Nat)
  cq : List (Option Nat)

namespace Ledger

/-- Nobody was spawned. -/
def empty : Ledger :=
  { handles := [], occupants := fun _ => none, processing := none, queues := fun _ => [], sq := [],
    inFlight := [], cq := [] }

/-- A tag joins one of the run queues. -/
def enqueue (self : Ledger) (idx : Fin 2) (who : Option Nat) : Ledger :=
  { self with queues := Function.update self.queues idx (self.queues idx ++ [who]) }

/-- An instance is spawned, and its event joins one of the run queues. -/
def enroll (self : Ledger) (handle : ObjectHandle) (idx : Fin 2) : Ledger :=
  { self.enqueue idx (some self.handles.length) with
    handles := self.handles ++ [handle]
    occupants := Function.update self.occupants handle.slot (some self.handles.length) }

/-- The instance in progress submits an operation. -/
def submit (self : Ledger) : Ledger := { self with sq := self.sq ++ [self.processing] }

/-- The instance that processes an event for a handle: the one in its slot, if the pool finds it. -/
def processor (self : Ledger) (executor : Executor) (handle : ObjectHandle) : Option Nat :=
  if executor.resolves handle then self.occupants handle.slot else none

/-- An instance that is in a pool. -/
def Live (self : Ledger) (who : Nat) : Prop := ∃ slot, self.occupants slot = some who

/-- The listener is the first instance. -/
def start (s : Running) : Ledger :=
  match (s.executor.runQueues s.executor.currentRunQueue).pop with
  | .ok (some event, _) => empty.enroll event.handle s.executor.currentRunQueue
  | _ => empty

/-- One completed intent: what is submitted goes back to the instance in progress. -/
def completeIntent (self : Ledger) (executor : Executor) (handle : ObjectHandle) :
    MachineIntent → Ledger
  | .retry => self.enqueue executor.nextRunQueueIdx self.processing
  | .spawnConnHandler fixed =>
      match executor.connHandlerPool.spawn (ConnHandler.new fixed) with
      | .ok (some fresh, _) => self.enroll fresh executor.currentRunQueue
      | _ => self
  | .terminate => { self with occupants := Function.update self.occupants handle.slot none }
  | .submitMultishotAccept _ => self.submit
  | .submitRecv _ _ _ => self.submit
  | .closeFixed _ => self.submit

/-- One step of `run`. -/
def tick (self : Ledger) (s : Running) : Ledger :=
  let executor := s.executor
  let current := executor.currentRunQueue
  match s.phase with
  | .drain =>
      match (executor.runQueues current).pop with
      | .ok (some event, _) =>
          { self with
            processing := self.processor executor event.handle
            queues := Function.update self.queues current (self.queues current).tail }
      | _ => self
  | .completeIntent handle (intent :: _) => self.completeIntent executor handle intent
  | .completion =>
      match self.cq with
      | who :: cq => { self.enqueue executor.nextRunQueueIdx who with cq }
      | [] => self
  | _ => self

/-- One step of executor or kernel. -/
def trace (s : Running) (self : Ledger) (label : RunLabel) (_ : Running) : Ledger :=
  match label with
  | .tick _ => self.tick s
  | .take =>
      match self.sq with
      | who :: sq => { self with sq, inFlight := self.inFlight ++ [who] }
      | [] => self
  | .complete index _ flags _ =>
      match s.executor.io.inFlight[index]?, self.inFlight[index]? with
      | some sqe, some who =>
          { self with
            inFlight :=
              if Running.staysInFlight sqe.op flags then self.inFlight
              else self.inFlight.eraseIdx index
            cq := self.cq ++ [who] }
      | _, _ => self

end Ledger

namespace Running

variable {s s' : Running} {label : RunLabel} {handle : ObjectHandle} {l : Ledger}

/-- All runs of an executor, with the ledger. -/
def traced (listeners connHandlers bufCount : UInt32) : Machine (Running × Ledger) RunLabel :=
  (machine listeners connHandlers bufCount).withGhost Ledger.start Ledger.trace

/-! ### Handles that resolve -/

/-- The machine of a handle is there. -/
def Resolves (s : Running) (handle : ObjectHandle) : Prop :=
  (handle.poolId = tcpServer ∧ (s.listenerAt handle.genId).isSome) ∨
    (handle.poolId = connHandler ∧ (s.handlerAt handle.genId).isSome)

theorem resolves_iff (inv : s.QueueInv) : s.executor.resolves handle = true ↔ s.Resolves handle := by
  have listeners : s.executor.tcpListenerPool.get handle = .ok (s.listenerAt handle.genId) :=
    inv.listeners.get_eq handle
  have handlers : s.executor.connHandlerPool.get handle = .ok (s.handlerAt handle.genId) :=
    inv.handlers.pool.get_eq handle
  have apart : tcpServer ≠ connHandler := by decide
  unfold Executor.resolves Resolves
  rw [listeners, handlers]
  split
  · rename_i kind
    cases s.listenerAt handle.genId <;> simp [kind, apart]
  · rename_i notListener
    split
    · rename_i kind
      cases s.handlerAt handle.genId <;> simp [kind, apart.symm]
    · rename_i notHandler
      simp [notListener, notHandler]

/-- Two machines are never in one slot. -/
theorem Resolves.unique (resolves : s.Resolves handle) {other : ObjectHandle}
    (resolves' : s.Resolves other) (same : handle.slot = other.slot) : handle = other := by
  obtain ⟨samePool, sameIndex⟩ := Prod.mk.inj same
  apply ObjectHandle.eq_of_fields samePool
  rcases resolves with ⟨kind, found⟩ | ⟨kind, found⟩ <;>
    rcases resolves' with ⟨kind', found'⟩ | ⟨kind', found'⟩
  · exact GenAlloc.isValid.unique (ObjectPool.valid_of_isSome found)
      (ObjectPool.valid_of_isSome found') sameIndex
  · exact absurd (samePool.symm.trans kind) (ObjectHandle.notListener kind')
  · exact absurd (samePool.trans kind') (ObjectHandle.notListener kind)
  · exact GenAlloc.isValid.unique (ObjectPool.valid_of_isSome found)
      (ObjectPool.valid_of_isSome found') sameIndex

theorem isSome_update {κ α : Type} [DecidableEq κ] {map : κ → Option α} {key : κ} {old : α}
    (found : map key = some old) (value : α) (other : κ) :
    (Function.update map key (some value) other).isSome = (map other).isSome := by
  rcases eq_or_ne other key with rfl | different
  · rw [Function.update_self, found]
    rfl
  · rw [Function.update_of_ne different]

theorem resolves_congr (listeners : ∀ id, (s'.listenerAt id).isSome = (s.listenerAt id).isSome)
    (handlers : ∀ id, (s'.handlerAt id).isSome = (s.handlerAt id).isSome) (handle : ObjectHandle) :
    s'.Resolves handle ↔ s.Resolves handle := by
  rw [Resolves, Resolves, listeners, handlers]

/-- A new handler joins the machines that are there. -/
theorem resolves_spawned {id : GenId} {handler : ConnHandler} (small : id.index.toNat < 2 ^ 24)
    (listeners : s'.listenerAt = s.listenerAt)
    (handlers : s'.handlerAt = Function.update s.handlerAt id (some handler)) (other : ObjectHandle) :
    s'.Resolves other ↔ other = .new connHandler id ∨ s.Resolves other := by
  have kind := ObjectHandle.poolId_new connHandler small
  have sameId := ObjectHandle.genId_new connHandler small
  rw [Resolves, Resolves, listeners, handlers]
  rcases eq_or_ne other.genId id with same | different
  · rw [same, Function.update_self]
    constructor
    · rintro (listening | ⟨kind', _⟩)
      · exact .inr (.inl listening)
      · exact .inl (ObjectHandle.eq_of_fields (kind'.trans kind.symm) (same.trans sameId.symm))
    · rintro (rfl | listening | ⟨kind', _⟩)
      · exact .inr ⟨kind, rfl⟩
      · exact .inl listening
      · exact .inr ⟨kind', rfl⟩
  · rw [Function.update_of_ne different]
    have otherHandle : other ≠ .new connHandler id := by
      rintro rfl
      exact different sameId
    exact (or_iff_right otherHandle).symm

/-- A handler that ends leaves the machines that are there. -/
theorem resolves_terminated (kind : handle.poolId = connHandler)
    (listeners : s'.listenerAt = s.listenerAt)
    (handlers : s'.handlerAt = Function.update s.handlerAt handle.genId none) (other : ObjectHandle) :
    s'.Resolves other ↔ other ≠ handle ∧ s.Resolves other := by
  rw [Resolves, Resolves, listeners, handlers]
  rcases eq_or_ne other.genId handle.genId with same | different
  · rw [same, Function.update_self]
    constructor
    · rintro (⟨listening, found⟩ | ⟨_, found⟩)
      · refine ⟨?_, .inl ⟨listening, found⟩⟩
        rintro rfl
        exact absurd listening (ObjectHandle.notListener kind)
      · cases found
    · rintro ⟨otherHandle, listening | ⟨kind', _⟩⟩
      · exact .inl listening
      · exact absurd (ObjectHandle.eq_of_fields (kind'.trans kind.symm) same) otherHandle
  · rw [Function.update_of_ne different]
    have otherHandle : other ≠ handle := by
      rintro rfl
      exact different rfl
    exact (and_iff_right otherHandle).symm

/-- The step completes no intent that spawns or ends a machine. -/
def Keeps (s : Running) (label : RunLabel) : Prop :=
  ∀ listened handle intent rest, label = .tick listened →
    s.phase = .completeIntent handle (intent :: rest) →
    intent ≠ .terminate ∧ ∀ fixed, intent ≠ .spawnConnHandler fixed

/-- A step in another phase spawns and ends no machine. -/
theorem keeps_of_phase {phase : RunPhase} (before : s.phase = phase)
    (other : ∀ handle intent rest, phase ≠ .completeIntent handle (intent :: rest)) :
    s.Keeps label := by
  intro _ handle intent rest _ completing
  exact absurd (before.symm.trans completing) (other handle intent rest)

/-- A step spawns one machine, or ends one, or leaves those that are there. -/
theorem resolves_move (inv : s.QueueInv) (move : RunMove s label s') :
    (s.Keeps label ∧ ∀ other, s'.Resolves other ↔ s.Resolves other) ∨
      (∃ listened handle fixed rest fresh pool, label = .tick listened ∧
        s.phase = .completeIntent handle (.spawnConnHandler fixed :: rest) ∧
        s.executor.connHandlerPool.spawn (ConnHandler.new fixed) = .ok (some fresh, pool) ∧
        ¬ s.Resolves fresh ∧ ∀ other, s'.Resolves other ↔ other = fresh ∨ s.Resolves other) ∨
      ∃ listened handle rest, label = .tick listened ∧
        s.phase = .completeIntent handle (.terminate :: rest) ∧ s.Resolves handle ∧
        ∀ other, s'.Resolves other ↔ other ≠ handle ∧ s.Resolves other := by
  cases move with
  | listener listened event queue listener listener' intents phase pop kind found handling =>
      rw [inv.listeners.get_eq, Except.ok.injEq] at found
      obtain ⟨listeners, _⟩ := inv.listeners.store_spec found listener'
      refine .inl ⟨keeps_of_phase phase (by simp), resolves_congr (fun id => ?_) fun _ => rfl⟩
      exact (congrArg Option.isSome (congrFun listeners id)).trans (isSome_update found listener' id)
  | handler listened event queue handler handler' buffers intents phase pop kind found handling =>
      rw [inv.handlers.pool.get_eq, Except.ok.injEq] at found
      obtain ⟨handlers, _⟩ := inv.handlers.pool.store_spec found handler'
      refine .inl ⟨keeps_of_phase phase (by simp), resolves_congr (fun _ => rfl) fun id => ?_⟩
      exact (congrArg Option.isSome (congrFun handlers id)).trans (isSome_update found handler' id)
  | spawned listened handle fixed rest fresh pool queue phase spawn push =>
      rcases inv.handlers.pool.spawn_spec (ConnHandler.new fixed) with
        ⟨refused, _⟩ | ⟨id, _, spawned, _, small, unbound, handlers, _⟩
      · rw [refused] at spawn
        cases spawn
      · have spawnRan := spawn
        rw [spawned] at spawn
        cases spawn
        refine .inr (.inl ⟨listened, handle, fixed, rest, _, pool, rfl, phase, spawnRan, ?_,
          resolves_spawned small rfl handlers⟩)
        rintro (⟨listening, _⟩ | ⟨_, found⟩)
        · rw [ObjectHandle.poolId_new connHandler small] at listening
          exact absurd listening (by decide)
        · rw [ObjectHandle.genId_new connHandler small] at found
          rw [handlerAt, unbound] at found
          cases found
  | terminate listened handle rest freed pool phase kind despawn =>
      obtain ⟨_, _, handler, found, _⟩ := inv.handlers.terminate handle _ phase (by simp)
      obtain ⟨_, despawned, _, handlers, _⟩ := inv.handlers.pool.despawn_spec found
      rw [despawned] at despawn
      cases despawn
      exact .inr (.inr ⟨listened, handle, rest, rfl, phase,
        .inr ⟨kind, Option.isSome_iff_exists.mpr ⟨handler, found⟩⟩,
        resolves_terminated kind rfl handlers⟩)
  | terminateListener listened handle rest freed pool phase kind despawn =>
      obtain ⟨_, handling, _⟩ := inv.handlers.terminate handle _ phase (by simp)
      exact absurd kind (ObjectHandle.notListener handling)
  | retry listened handle rest queue phase push =>
      refine .inl ⟨?_, fun _ => Iff.rfl⟩
      intro _ _ intent _ _ completing
      rw [phase] at completing
      cases completing
      simp
  | submit listened handle intent rest sqe phase submits =>
      refine .inl ⟨?_, fun _ => Iff.rfl⟩
      intro _ _ intent _ _ completing
      rw [phase] at completing
      cases completing
      cases submits <;> simp
  | missing _ _ _ phase => exact .inl ⟨keeps_of_phase phase (by simp), fun _ => Iff.rfl⟩
  | drained _ _ phase => exact .inl ⟨keeps_of_phase phase (by simp), fun _ => Iff.rfl⟩
  | finished _ _ phase => exact .inl ⟨keeps_of_phase phase (by simp), fun _ => Iff.rfl⟩
  | wait _ phase => exact .inl ⟨keeps_of_phase phase (by simp), fun _ => Iff.rfl⟩
  | reap _ _ _ _ phase => exact .inl ⟨keeps_of_phase phase (by simp), fun _ => Iff.rfl⟩
  | switch _ phase => exact .inl ⟨keeps_of_phase phase (by simp), fun _ => Iff.rfl⟩
  | take | complete => exact .inl ⟨by simp [Keeps], fun _ => Iff.rfl⟩

/-- The machine is there, or gone for good. -/
inductive Known (s : Running) (handle : ObjectHandle) : Prop where
  | resolves (resolves : s.Resolves handle)
  | gone (kind : handle.poolId = connHandler)
      (left : s.executor.connHandlerPool.alloc.LeftBehind handle.genId)

/-- A machine that is there has not been left behind. -/
theorem Resolves.not_left (resolves : s.Resolves handle) (kind : handle.poolId = connHandler) :
    ¬ s.executor.connHandlerPool.alloc.LeftBehind handle.genId := by
  intro left
  rcases resolves with ⟨listening, _⟩ | ⟨_, found⟩
  · exact absurd listening (ObjectHandle.notListener kind)
  · obtain ⟨_, found⟩ := Option.isSome_iff_exists.mp found
    exact absurd (ObjectPool.lookup_valid found) (by simp [left.invalid])

/-- What was known stays known, while no generation overflows. -/
theorem Known.move (known : s.Known handle) (inv : s.QueueInv) (move : RunMove s label s')
    (noWrap : noOverflow s label s') : s'.Known handle := by
  cases known with
  | gone kind left => exact .gone kind (left.mono noWrap (capacity_move inv.handlers move))
  | resolves resolves =>
      by_cases still : s'.Resolves handle
      · exact .resolves still
      · rcases resolves with ⟨listening, found⟩ | ⟨kind, found⟩
        · refine absurd (.inl ⟨listening, ?_⟩) still
          rcases (inv.progress move).listener_cases with
            listeners | ⟨id, listener, listener', _, _, _, found', _, listeners⟩
          · rwa [listeners]
          · rwa [listeners, isSome_update found']
        · obtain ⟨handler, found⟩ := Option.isSome_iff_exists.mp found
          refine .gone kind (inv.handlers.left move noWrap found ?_)
          cases found' : s'.handlerAt handle.genId with
          | none => rfl
          | some handler' => exact absurd (.inr ⟨kind, by simp [found']⟩) still

/-! ### The instances in the pools -/

/-- The occupants of the slots are the machines that are there. -/
def Occupied (resolves : ObjectHandle → Prop) (l : Ledger) : Prop :=
  ∀ slot who, l.occupants slot = some who ↔
    ∃ handle, l.handles[who]? = some handle ∧ handle.slot = slot ∧ resolves handle

theorem getElem?_snoc {α : Type} {xs : List α} {last value : α} {index : Nat} :
    (xs ++ [last])[index]? = some value ↔
      xs[index]? = some value ∨ (index = xs.length ∧ value = last) := by
  rcases lt_trichotomy index xs.length with before | rfl | after
  · rw [List.getElem?_append_left before]
    simp [before.ne]
  · simp [eq_comm]
  · rw [List.getElem?_eq_none (by simp; omega), List.getElem?_eq_none (by omega)]
    simp [after.ne']

/-- A machine that is spawned occupies its slot. -/
theorem Occupied.enroll {resolves resolves' : ObjectHandle → Prop} (occupied : Occupied resolves l)
    {fresh : ObjectHandle} (idx : Fin 2) (unused : fresh ∉ l.handles) (here : resolves' fresh)
    (alone : ∀ other, resolves' other → other.slot = fresh.slot → other = fresh)
    (others : ∀ other ∈ l.handles, resolves' other ↔ resolves other) :
    Occupied resolves' (l.enroll fresh idx) := by
  intro slot who
  simp only [Ledger.enroll]
  rcases eq_or_ne slot fresh.slot with rfl | different
  · rw [Function.update_self, Option.some.injEq]
    constructor
    · rintro rfl
      exact ⟨fresh, List.getElem?_concat_length, rfl, here⟩
    · rintro ⟨other, numbered, same, stays⟩
      obtain rfl := alone other stays same
      rcases getElem?_snoc.mp numbered with before | ⟨last, _⟩
      · exact absurd (List.mem_of_getElem? before) unused
      · exact last.symm
  · rw [Function.update_of_ne different, occupied slot who]
    apply exists_congr
    intro other
    rw [getElem?_snoc]
    constructor
    · rintro ⟨numbered, inSlot, before⟩
      exact ⟨.inl numbered, inSlot, (others other (List.mem_of_getElem? numbered)).mpr before⟩
    · rintro ⟨numbered | ⟨_, rfl⟩, inSlot, stays⟩
      · exact ⟨numbered, inSlot, (others other (List.mem_of_getElem? numbered)).mp stays⟩
      · exact absurd inSlot.symm different

/-- The ledger is right about the machines, and no handle was given out twice. -/
structure Roster (s : Running) (l : Ledger) : Prop where
  nodup : l.handles.Nodup
  known : ∀ handle ∈ l.handles, s.Known handle
  occupant : Occupied s.Resolves l

/-- A completed intent, in the ledger. -/
theorem trace_intent {listened : Result Fd} {intent : MachineIntent} {rest : List MachineIntent}
    (phase : s.phase = .completeIntent handle (intent :: rest)) :
    Ledger.trace s l (.tick listened) s' = l.completeIntent s.executor handle intent := by
  simp only [Ledger.trace, Ledger.tick, phase]

/-- A popped event, in the ledger. -/
theorem trace_popped {listened : Result Fd} {event : RunQueueEvent} {queue : RingBuffer RunQueueEvent}
    (phase : s.phase = .drain)
    (pop : (s.executor.runQueues s.executor.currentRunQueue).pop = .ok (some event, queue)) :
    Ledger.trace s l (.tick listened) s' =
      { l with
        processing := l.processor s.executor event.handle
        queues := Function.update l.queues s.executor.currentRunQueue
          (l.queues s.executor.currentRunQueue).tail } := by
  simp only [Ledger.trace, Ledger.tick, phase, pop]

/-- The ledger keeps its roster on a step that spawns and ends no machine. -/
theorem trace_roster (keeps : s.Keeps label) (l : Ledger) :
    (Ledger.trace s l label s').handles = l.handles ∧
      (Ledger.trace s l label s').occupants = l.occupants := by
  cases label with
  | take =>
      simp only [Ledger.trace]
      split <;> exact ⟨rfl, rfl⟩
  | complete index result flags data =>
      simp only [Ledger.trace]
      split <;> exact ⟨rfl, rfl⟩
  | tick listened =>
      simp only [Ledger.trace, Ledger.tick]
      split
      · split <;> exact ⟨rfl, rfl⟩
      · rename_i handle intent rest phase
        obtain ⟨notTerminate, notSpawn⟩ := keeps listened handle intent rest rfl phase
        cases intent with
        | terminate => exact absurd rfl notTerminate
        | spawnConnHandler fixed => exact absurd rfl (notSpawn fixed)
        | retry | closeFixed | submitMultishotAccept | submitRecv => exact ⟨rfl, rfl⟩
      · split <;> exact ⟨rfl, rfl⟩
      · exact ⟨rfl, rfl⟩

/-- Each step keeps the roster, while no generation overflows. -/
theorem Roster.move (roster : s.Roster l) (inv : s.QueueInv) (move : RunMove s label s')
    (noWrap : noOverflow s label s') : s'.Roster (Ledger.trace s l label s') := by
  have known : ∀ handle ∈ l.handles, s'.Known handle := fun handle member =>
    (roster.known handle member).move inv move noWrap
  rcases resolves_move inv move with
    ⟨keeps, resolves⟩ | ⟨listened, handle, fixed, rest, fresh, pool, rfl, phase, spawn, absent, resolves⟩ |
      ⟨listened, handle, rest, rfl, phase, ended, resolves⟩
  · obtain ⟨handles, occupants⟩ := trace_roster keeps l
    refine ⟨by rw [handles]; exact roster.nodup, by rwa [handles], fun slot who => ?_⟩
    simp only [handles, occupants, resolves]
    exact roster.occupant slot who
  · have enrolled : Ledger.trace s l (.tick listened) s' =
        l.enroll fresh s.executor.currentRunQueue := by
      rw [trace_intent phase, Ledger.completeIntent, spawn]
    have here : s'.Resolves fresh := (resolves fresh).mpr (.inl rfl)
    have unused : fresh ∉ l.handles := by
      intro member
      cases roster.known fresh member with
      | resolves before => exact absent before
      | gone kind left =>
          exact here.not_left kind (left.mono noWrap (capacity_move inv.handlers move))
    rw [enrolled]
    refine ⟨?_, ?_, roster.occupant.enroll _ unused here (fun other stays same => ?_) ?_⟩
    · exact List.nodup_append.mpr ⟨roster.nodup, List.nodup_singleton fresh, by
        rintro handle member other isFresh rfl
        exact unused (List.mem_singleton.mp isFresh ▸ member)⟩
    · intro handle member
      rcases List.mem_append.mp member with member | member
      · exact known handle member
      · obtain rfl := List.mem_singleton.mp member
        exact .resolves here
    · exact stays.unique here same
    · intro other member
      rw [resolves other]
      apply or_iff_right
      rintro rfl
      exact unused member
  · rw [trace_intent phase, Ledger.completeIntent]
    refine ⟨roster.nodup, known, fun slot who => ?_⟩
    simp only
    rcases eq_or_ne slot handle.slot with rfl | different
    · rw [Function.update_self]
      constructor
      · intro none
        cases none
      · rintro ⟨other, _, same, stays⟩
        obtain ⟨different, before⟩ := (resolves other).mp stays
        exact absurd (before.unique ended same) different
    · rw [Function.update_of_ne different, roster.occupant slot who]
      refine exists_congr fun other => and_congr_right fun _ => and_congr_right fun inSlot => ?_
      have otherHandle : other ≠ handle := by
        rintro rfl
        exact different inSlot.symm
      rw [resolves other]
      exact (and_iff_right otherHandle).symm

/-! ### The tags -/

/-- The tag is the number of the instance that was given the handle. -/
def Names (handles : List ObjectHandle) (handle : ObjectHandle) (who : Option Nat) : Prop :=
  ∃ n, who = some n ∧ handles[n]? = some handle

/-- Every operation, completion and event has its tag, and so has the event in progress. -/
structure Tags (handles : List ObjectHandle) (s : Running) (l : Ledger) : Prop where
  queues : ∀ idx, List.Forall₂ (fun event who => Names handles event.handle who)
    (s.executor.runQueues idx).contents (l.queues idx)
  sq : List.Forall₂ (fun sqe who => Names handles ⟨sqe.userData⟩ who) s.executor.io.sq l.sq
  inFlight : List.Forall₂ (fun sqe who => Names handles ⟨sqe.userData⟩ who) s.executor.io.inFlight
    l.inFlight
  cq : List.Forall₂ (fun cqe who => Names handles ⟨cqe.userData⟩ who) s.executor.io.cq l.cq
  processing : ∀ handle intents, s.phase = .completeIntent handle intents → intents ≠ [] →
    Names handles handle l.processing

/-- Tags stay when more handles are given out. -/
theorem Tags.mono {handles handles' : List ObjectHandle} (tags : Tags handles s l)
    (grows : handles <+: handles') : Tags handles' s l := by
  have kept : ∀ handle who, Names handles handle who → Names handles' handle who := by
    obtain ⟨more, rfl⟩ := grows
    rintro handle who ⟨n, same, numbered⟩
    obtain ⟨inside, _⟩ := List.getElem?_eq_some_iff.mp numbered
    exact ⟨n, same, (List.getElem?_append_left inside).trans numbered⟩
  exact
    { queues := fun idx => (tags.queues idx).imp fun _ _ => kept _ _
      sq := tags.sq.imp fun _ _ => kept _ _
      inFlight := tags.inFlight.imp fun _ _ => kept _ _
      cq := tags.cq.imp fun _ _ => kept _ _
      processing := fun handle intents phase some => kept _ _ (tags.processing handle intents phase some) }

/-- The tag of the first event is taken with it. -/
theorem Tags.popped {handles : List ObjectHandle} (tags : Tags handles s l)
    (wf : ∀ idx, (s.executor.runQueues idx).WF) {event : RunQueueEvent}
    {queue : RingBuffer RunQueueEvent}
    (pop : (s.executor.runQueues s.executor.currentRunQueue).pop = .ok (some event, queue)) :
    (∃ who rest, l.queues s.executor.currentRunQueue = who :: rest ∧
      Names handles event.handle who) ∧
      ∀ idx, List.Forall₂ (fun event who => Names handles event.handle who)
        ((s.executor.popped queue).runQueues idx).contents
        (Function.update l.queues s.executor.currentRunQueue
          (l.queues s.executor.currentRunQueue).tail idx) := by
  have first := tags.queues s.executor.currentRunQueue
  rcases RingBuffer.pop_inv (wf _) pop with ⟨none, _⟩ | ⟨data, same, contents, _⟩
  · cases none
  · cases same
    rw [contents] at first
    obtain ⟨who, rest, names, tagged, queued⟩ := List.forall₂_cons_left_iff.mp first
    refine ⟨⟨who, rest, queued, names⟩, fun idx => ?_⟩
    simp only [Executor.popped]
    rcases eq_or_ne idx s.executor.currentRunQueue with rfl | different
    · rw [Function.update_self, Function.update_self, queued]
      exact tagged
    · rw [Function.update_of_ne different, Function.update_of_ne different]
      exact tags.queues idx

/-- An event is queued with its tag. -/
theorem Tags.pushed {handles : List ObjectHandle} (tags : Tags handles s l)
    (wf : ∀ idx, (s.executor.runQueues idx).WF) {idx : Fin 2} {event : RunQueueEvent}
    {queue : RingBuffer RunQueueEvent}
    (push : (s.executor.runQueues idx).push event = (.ok (), queue)) {who : Option Nat}
    (names : Names handles event.handle who) (idx' : Fin 2) :
    List.Forall₂ (fun event who => Names handles event.handle who)
      ((s.executor.pushed idx queue).runQueues idx').contents
      ((l.enqueue idx who).queues idx') := by
  obtain ⟨_, _, _, contents⟩ := RingBuffer.push_inv (wf idx) push
  simp only [Executor.pushed, Ledger.enqueue]
  rcases eq_or_ne idx' idx with rfl | different
  · rw [Function.update_self, Function.update_self, contents]
    exact forall₂_snoc (tags.queues idx') names
  · rw [Function.update_of_ne different, Function.update_of_ne different]
    exact tags.queues idx'

/-- The ledger forgets no handle. -/
theorem trace_grows : l.handles <+: (Ledger.trace s l label s').handles := by
  cases label with
  | take =>
      simp only [Ledger.trace]
      split <;> exact List.prefix_refl _
  | complete index result flags data =>
      simp only [Ledger.trace]
      split <;> exact List.prefix_refl _
  | tick listened =>
      simp only [Ledger.trace, Ledger.tick]
      split
      · split <;> exact List.prefix_refl _
      · rename_i handle intent rest phase
        cases intent with
        | spawnConnHandler fixed =>
            rw [Ledger.completeIntent]
            split
            · exact List.prefix_append ..
            · exact List.prefix_refl _
        | terminate | retry | closeFixed | submitMultishotAccept | submitRecv =>
            exact List.prefix_refl _
      · split <;> exact List.prefix_refl _
      · exact List.prefix_refl _

/-- An instance that was given a handle processes the events for it while it is there. -/
theorem Roster.processor (roster : s.Roster l) (inv : s.QueueInv) {who : Option Nat}
    (names : Names l.handles handle who) :
    (s.Resolves handle → l.processor s.executor handle = who) ∧
      (¬ s.Resolves handle → l.processor s.executor handle = none) := by
  obtain ⟨n, rfl, numbered⟩ := names
  rw [Ledger.processor]
  constructor
  · intro resolves
    rw [if_pos ((resolves_iff inv).mpr resolves)]
    exact (roster.occupant handle.slot n).mpr ⟨handle, numbered, rfl, resolves⟩
  · intro absent
    rw [if_neg fun resolves => absent ((resolves_iff inv).mp resolves)]

/-- The tag of an event goes to the machine that the event is dispatched to. -/
theorem Tags.dispatched (tags : Tags l.handles s l) (roster : s.Roster l) (inv : s.QueueInv)
    {listened : Result Fd} {event : RunQueueEvent} {queue : RingBuffer RunQueueEvent}
    {intents : List MachineIntent} (phase : s.phase = .drain)
    (pop : (s.executor.runQueues s.executor.currentRunQueue).pop = .ok (some event, queue))
    (resolves : s.Resolves event.handle)
    (queues' : s'.executor.runQueues = (s.executor.popped queue).runQueues)
    (io' : s'.executor.io = s.executor.io)
    (phase' : s'.phase = .completeIntent event.handle intents) :
    Tags (Ledger.trace s l (.tick listened) s').handles s' (Ledger.trace s l (.tick listened) s') := by
  obtain ⟨⟨who, _, _, names⟩, queues⟩ := tags.popped inv.wf pop
  rw [trace_popped phase pop]
  refine ⟨queues' ▸ queues, io' ▸ tags.sq, io' ▸ tags.inFlight, io' ▸ tags.cq,
    fun handle rest processing _ => ?_⟩
  rw [phase'] at processing
  cases processing
  rwa [(roster.processor inv names).1 resolves]

/-- A machine that ends leaves the tags as they are. -/
theorem Tags.terminated (tags : Tags l.handles s l) {listened : Result Fd}
    {rest : List MachineIntent} (phase : s.phase = .completeIntent handle (.terminate :: rest))
    (queues' : s'.executor.runQueues = s.executor.runQueues)
    (io' : s'.executor.io = s.executor.io) (phase' : s'.phase = .completeIntent handle rest) :
    Tags (Ledger.trace s l (.tick listened) s').handles s' (Ledger.trace s l (.tick listened) s') := by
  have names := tags.processing handle _ phase (by simp)
  rw [trace_intent phase, Ledger.completeIntent]
  refine ⟨queues' ▸ tags.queues, io' ▸ tags.sq, io' ▸ tags.inFlight, io' ▸ tags.cq,
    fun other intents processing _ => ?_⟩
  rw [phase'] at processing
  cases processing
  exact names

/-- Each step keeps the tags. -/
theorem Tags.move (tags : Tags l.handles s l) (roster : s.Roster l) (inv : s.QueueInv)
    (move : RunMove s label s') :
    Tags (Ledger.trace s l label s').handles s' (Ledger.trace s l label s') := by
  have old : Tags (Ledger.trace s l label s').handles s l := tags.mono trace_grows
  cases move with
  | missing listened event queue phase pop absent =>
      rw [trace_popped phase pop]
      exact ⟨(tags.popped inv.wf pop).2, tags.sq, tags.inFlight, tags.cq, by simp⟩
  | listener listened event queue listener listener' intents phase pop kind found handling =>
      rw [inv.listeners.get_eq, Except.ok.injEq] at found
      have resolves : s.Resolves event.handle :=
        .inl ⟨kind, Option.isSome_iff_exists.mpr ⟨listener, found⟩⟩
      exact tags.dispatched roster inv phase pop resolves rfl rfl rfl
  | handler listened event queue handler handler' buffers intents phase pop kind found handling =>
      rw [inv.handlers.pool.get_eq, Except.ok.injEq] at found
      have resolves : s.Resolves event.handle :=
        .inr ⟨kind, Option.isSome_iff_exists.mpr ⟨handler, found⟩⟩
      exact tags.dispatched roster inv phase pop resolves rfl rfl rfl
  | drained listened queue phase pop =>
      have traced : ∀ s', Ledger.trace s l (.tick listened) s' = l := fun s' => by
        simp only [Ledger.trace, Ledger.tick, phase, pop]
      rcases RingBuffer.pop_inv (inv.wf _) pop with ⟨_, _, rfl⟩ | ⟨_, same, _⟩
      · rw [traced]
        refine ⟨?_, tags.sq, tags.inFlight, tags.cq, by simp⟩
        rw [Executor.popped, Function.update_eq_self]
        exact tags.queues
      · cases same
  | finished listened handle phase =>
      have traced : ∀ s', Ledger.trace s l (.tick listened) s' = l := fun s' => by
        simp only [Ledger.trace, Ledger.tick, phase]
      rw [traced]
      exact ⟨tags.queues, tags.sq, tags.inFlight, tags.cq, by simp⟩
  | retry listened handle rest queue phase push =>
      rw [trace_intent phase, Ledger.completeIntent]
      have names := tags.processing handle _ phase (by simp)
      refine ⟨tags.pushed inv.wf push names, tags.sq, tags.inFlight, tags.cq,
        fun handle intents phase' _ => ?_⟩
      cases phase'
      exact names
  | submit listened handle intent rest sqe phase submits =>
      have names := tags.processing handle _ phase (by simp)
      have submitted : Ledger.trace s l (.tick listened)
          ⟨s.executor.submitted sqe, .completeIntent handle rest⟩ = l.submit := by
        rw [trace_intent phase]
        cases submits <;> rfl
      rw [submitted]
      refine ⟨tags.queues, forall₂_snoc tags.sq ?_, tags.inFlight, tags.cq,
        fun handle intents phase' _ => ?_⟩
      · cases submits <;> exact names
      · cases phase'
        exact names
  | spawned listened handle fixed rest fresh pool queue phase spawn push =>
      have names := old.processing handle _ phase (by simp)
      rw [trace_intent phase, Ledger.completeIntent, spawn] at old names ⊢
      have enrolled : Names (l.handles ++ [fresh]) fresh (some l.handles.length) :=
        ⟨l.handles.length, rfl, List.getElem?_concat_length⟩
      refine ⟨old.pushed inv.wf push enrolled, old.sq, old.inFlight, old.cq,
        fun handle intents phase' _ => ?_⟩
      cases phase'
      exact names
  | terminateListener listened handle rest freed pool phase =>
      exact tags.terminated phase rfl rfl rfl
  | terminate listened handle rest freed pool phase =>
      exact tags.terminated phase rfl rfl rfl
  | wait listened phase available =>
      have traced : ∀ s', Ledger.trace s l (.tick listened) s' = l := fun s' => by
        simp only [Ledger.trace, Ledger.tick, phase]
      rw [traced]
      exact ⟨tags.queues, tags.sq, tags.inFlight, tags.cq, by simp⟩
  | reap listened cqe cq queue phase posted push =>
      have first := tags.cq
      rw [posted] at first
      obtain ⟨who, rest, names, tagged, queued⟩ := List.forall₂_cons_left_iff.mp first
      have traced : ∀ s', Ledger.trace s l (.tick listened) s' =
          { l.enqueue s.executor.nextRunQueueIdx who with cq := rest } := fun s' => by
        simp only [Ledger.trace, Ledger.tick, phase, queued]
      rw [traced]
      exact ⟨tags.pushed inv.wf push names, tags.sq, tags.inFlight, tagged, by simp⟩
  | switch listened phase reaped =>
      have first := tags.cq
      rw [reaped, List.forall₂_nil_left_iff] at first
      have traced : ∀ s', Ledger.trace s l (.tick listened) s' = l := fun s' => by
        simp only [Ledger.trace, Ledger.tick, phase, first]
      rw [traced]
      exact ⟨tags.queues, tags.sq, tags.inFlight, tags.cq, by simp⟩
  | take sqe sq submitted =>
      have first := tags.sq
      rw [submitted] at first
      obtain ⟨who, rest, names, tagged, queued⟩ := List.forall₂_cons_left_iff.mp first
      have traced : ∀ s', Ledger.trace s l .take s' =
          { l with sq := rest, inFlight := l.inFlight ++ [who] } := fun s' => by
        simp only [Ledger.trace, queued]
      rw [traced]
      exact ⟨tags.queues, tagged, forall₂_snoc tags.inFlight names, tags.cq, tags.processing⟩
  | complete index result flags data sqe ioBufs working written =>
      obtain ⟨who, numbered, names⟩ := forall₂_getElem? tags.inFlight working
      have traced : ∀ s', Ledger.trace s l (.complete index result flags data) s' =
          { l with
            inFlight :=
              if staysInFlight sqe.op flags then l.inFlight else l.inFlight.eraseIdx index
            cq := l.cq ++ [who] } := fun s' => by
        simp only [Ledger.trace, working, numbered]
      rw [traced]
      refine ⟨tags.queues, tags.sq, ?_, forall₂_snoc tags.cq names, tags.processing⟩
      simp only
      split
      · exact tags.inFlight
      · exact forall₂_eraseIdx tags.inFlight index

/-! ### Every run -/

/-- The ledger is right about the machines and about what is under way. -/
structure Consistent (s : Running) (l : Ledger) : Prop where
  past : s.PastInv
  roster : s.Roster l
  tags : Tags l.handles s l

/-- Each step keeps the ledger right, while no generation overflows. -/
theorem Consistent.move (inv : s.Consistent l) (move : RunMove s label s')
    (noWrap : noOverflow s label s') : s'.Consistent (Ledger.trace s l label s') :=
  ⟨inv.past.move move noWrap, inv.roster.move inv.past.queues move noWrap,
    inv.tags.move inv.roster inv.past.queues move⟩

/-- At the start of a run the ledger knows the listener. -/
theorem consistent_start {entries : Nat} {listeners connHandlers bufCount : UInt32}
    {raw : Option (Nat × (Nat → UInt8))}
    (started : start entries listeners connHandlers bufCount raw = .ok s) :
    s.Consistent (Ledger.start s) := by
  obtain ⟨phase, _, _, sq, inFlight, cq, _⟩ := start_fields started
  obtain ⟨queues, noneFound, _, handle, listener, kind, agenda, found, _⟩ := queueInv_start started
  obtain ⟨wf, next, seeded, current, _⟩ := start_queues started
  obtain ⟨queue, pop, _⟩ := RingBuffer.pop_spec (wf _).1 current
  have seed : seeded = handle := by
    have first := agenda_popped queues.wf phase pop
    rw [agenda] at first
    cases (List.cons.inj first).1
    rfl
  subst seed
  have ledger : Ledger.start s = Ledger.empty.enroll seeded s.executor.currentRunQueue := by
    rw [Ledger.start, pop]
  have here : s.Resolves seeded := .inl ⟨kind, Option.isSome_iff_exists.mpr ⟨listener, found⟩⟩
  rw [ledger]
  refine ⟨pastInv_start started, ⟨List.nodup_singleton seeded, ?_, ?_⟩, ⟨?_, ?_, ?_, ?_, ?_⟩⟩
  · intro other member
    obtain rfl := List.mem_singleton.mp member
    exact .resolves here
  · have nobody : Occupied s.Resolves Ledger.empty := by
      intro slot who
      simp [Ledger.empty]
    exact nobody.enroll _ (by simp [Ledger.empty]) here (fun other stays same => stays.unique here same)
      (by simp [Ledger.empty])
  · intro idx
    simp only [Ledger.enroll, Ledger.enqueue, Ledger.empty]
    rcases eq_or_ne idx s.executor.currentRunQueue with rfl | different
    · rw [current, Function.update_self]
      exact .cons ⟨0, rfl, rfl⟩ .nil
    · rw [Function.update_of_ne different, Executor.eq_nextRunQueueIdx different, next]
      exact .nil
  · rw [sq]; exact .nil
  · rw [inFlight]; exact .nil
  · rw [cq]; exact .nil
  · simp [phase]

theorem consistent_reach {listeners connHandlers bufCount : UInt32}
    (reached : (traced listeners connHandlers bufCount).Reach noOverflow.onState (s, l)) :
    s.Consistent l := by
  refine reached.ghost_invariant Consistent ?_ ?_
  · rintro s ⟨entries, raw, started⟩
    exact consistent_start started
  · intro s l label s' inv stepped met
    exact inv.move (step_move stepped) met

/-- Any number of machines, any completions in any order, no generation overflow: no turn of the
executor reaches an `unreachable!()`, and every run has a ledger.  Whatever the ledger, the event
that is taken from the run queue is expected, and goes back to the instance that its tag names (for
a completion, the one that submitted the operation) while that is in its pool; after that it is
processed by nobody. -/
theorem completions_return {listeners connHandlers bufCount : UInt32}
    (reached : (machine listeners connHandlers bufCount).Reach noOverflow s) :
    (∀ listened submitted, s.tick listened submitted ≠ .error .unreachable) ∧
      (∃ l, (traced listeners connHandlers bufCount).Reach noOverflow.onState (s, l)) ∧
      ∀ l, (traced listeners connHandlers bufCount).Reach noOverflow.onState (s, l) →
        ∀ event queue, s.phase = .drain →
          (s.executor.runQueues s.executor.currentRunQueue).pop = .ok (some event, queue) →
          s.Expected event ∧
            ∃ who rest, l.queues s.executor.currentRunQueue = some who :: rest ∧
              (l.Live who → l.processor s.executor event.handle = some who) ∧
              (¬ l.Live who → l.processor s.executor event.handle = none) := by
  obtain ⟨ledger, traced⟩ := reached.exists_ghost
  refine ⟨tick_ne_unreachable (consistent_reach traced).past, ⟨ledger, traced⟩, ?_⟩
  intro l traced event queue phase pop
  have inv := consistent_reach traced
  have queues := inv.past.queues
  obtain ⟨⟨_, rest, queued, n, rfl, numbered⟩, _⟩ := inv.tags.popped queues.wf pop
  obtain ⟨present, absent⟩ := inv.roster.processor queues ⟨n, rfl, numbered⟩
  have live : l.Live n ↔ s.Resolves event.handle := by
    constructor
    · rintro ⟨slot, occupies⟩
      obtain ⟨handle, numbered', _, resolves⟩ := (inv.roster.occupant slot n).mp occupies
      rw [numbered] at numbered'
      cases numbered'
      exact resolves
    · intro resolves
      exact ⟨_, (inv.roster.occupant _ n).mpr ⟨event.handle, numbered, rfl, resolves⟩⟩
  refine ⟨inv.past.expected (agenda_popped queues.wf phase pop), n, rest, queued, ?_, ?_⟩
  · exact fun isLive => present (live.mp isLive)
  · exact fun notLive => absent fun resolves => notLive (live.mpr resolves)

set_option maxRecDepth 100000 in
/-- Two reads are in flight after a transient error, and the connection ends with the first.  Its
handler is gone and its slot taken by the next connection when the second read completes: nobody
processes that. -/
theorem completions_return_late :
    ∃ (s : Running) (l : Ledger) (event : RunQueueEvent), event.reason = .ioCompleted 7 0 ∧
      l.queues s.executor.currentRunQueue = [some 1] ∧ l.occupants event.handle.slot = some 2 ∧
      l.processor s.executor event.handle = none ∧
      ∀ listened submitted, s.tick listened submitted ≠ .error .unreachable := by
  let late : RunQueueEvent := ⟨.ioCompleted 7 0, ⟨0x0200000000000000⟩⟩
  obtain ⟨⟨s, l⟩, reached, ends⟩ : ∃ p, (traced 1 1 1).Reach noOverflow.onState p ∧
      (p.1.phase == .drain && p.2.queues p.1.executor.currentRunQueue == [some 1] &&
        p.2.occupants late.handle.slot == some 2 &&
        match (p.1.executor.runQueues p.1.executor.currentRunQueue).pop with
        | .ok (event, _) => event == some late
        | .error _ => false) = true := by
    have initial : ∀ s, start 16 1 1 1 (some (0x1000, fun _ => 0)) = .ok s →
        (traced 1 1 1).initial (s, Ledger.start s) := fun _ started => ⟨⟨16, _, started⟩, rfl⟩
    exact Machine.exists_reach_of_start _ initial
      (fun p _ p' => p.1.executor.connHandlerPool.alloc.noWrap p'.1.executor.connHandlerPool.alloc)
      (fun _ _ _ passed => GenAlloc.noWrap_sound passed)
      (acceptOne ++ [.take, .complete 1 (-11) 0 []] ++ ticks 8 ++
        [.take, .take, .complete 1 0 0 []] ++ ticks 7 ++ [.take, .complete 2 0 0 []] ++ ticks 7 ++
        [.complete 0 0 2 []] ++ ticks 10 ++ [.complete 1 7 0 []] ++ ticks 3) _ (by decide +kernel)
  simp only [Bool.and_eq_true, beq_iff_eq] at ends
  obtain ⟨⟨⟨phase, queued⟩, occupied⟩, popped⟩ := ends
  obtain ⟨safe, _, returns⟩ := completions_return reached.forget
  split at popped
  · rename_i event queue pop
    obtain rfl := beq_iff_eq.mp popped
    obtain ⟨_, who, rest, queued', present, absent⟩ := returns l reached late queue phase pop
    rw [queued] at queued'
    cases queued'
    refine ⟨s, l, late, rfl, queued, occupied, ?_, safe⟩
    by_cases live : l.Live 1
    · have processes := present live
      rw [Ledger.processor, occupied] at processes
      split at processes <;> cases processes
    · exact absent live
  · cases popped

end Running

end Hoarder
