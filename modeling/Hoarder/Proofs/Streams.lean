/-
Module: Hoarder.Proofs.Streams
Purpose: What the kernel delivers to a connection is what its handler sees.  Beside the run, `received`
  keeps the bytes that reads have delivered to each connection.  Every handler has them at the
  beginning of its own buffer, in order, and its phase is that of the bytes up to its offset, whatever
  other connections do in between.
Trusted boundary: none
Main exports: Op.Delivers, Holds, Connected, Connected.event, Running.received, Running.streamed,
  Running.StreamInv, Running.StreamInv.step, Running.streams_intact
-/
import Hoarder.Foundation.Ghost
import Hoarder.Proofs.NeverPanics
import Hoarder.Proofs.ReadRanges

namespace Hoarder

open Foundation

/-- What the kernel posts for a read counts the bytes it wrote, and they are no more than the read
asked for. -/
def Op.Delivers (self : Op) (result : Int32) (flags : UInt32) (data : List UInt8) : Prop :=
  self.Posts result flags ∧
    match self with
    | .readFixed _ _ len _ _ => result.toNatClampNeg = data.length ∧ data.length ≤ len.toNat
    | _ => True

/-! ### One connection and its stream -/

/-- The stream is at the beginning of the buffer, and the handler has parsed it up to its offset. -/
structure Holds (base : Nat) (mem : Nat → UInt8) (bufferId : BufferHandle) (handler : ConnHandler)
    (stream : List UInt8) : Prop where
  room : stream.length ≤ Running.bufferSize
  content : Memory.read mem (Running.bufferExtent base bufferId).start stream.length = stream
  behind : handler.offset.toNat ≤ stream.length
  parsed : handler.state = .recv (Connection.phaseOf (stream.take handler.offset.toNat))

/-- A handler that is receiving holds its stream; one that was not started has none. -/
structure Connected (base : Nat) (mem : Nat → UInt8) (handler : ConnHandler)
    (stream : List UInt8) : Prop where
  holds : ∀ bufferId, handler.receiving? = some bufferId → Holds base mem bufferId handler stream
  fresh : handler.state = .init → stream = [] ∧ handler.offset = 0

/-- A receive continues the stream of its handler. -/
def MachineIntent.Agrees (handler : ConnHandler) (stream : List UInt8) : MachineIntent → Prop
  | .submitRecv _ bufferId offset =>
      handler.receiving? = some bufferId ∧ offset.toNat = handler.offset.toNat ∧
        stream.length = handler.offset.toNat
  | _ => True

/-- A completed read counts what the handler has not parsed of its stream. -/
def MachineEvent.Agrees (handler : ConnHandler) (stream : List UInt8) : MachineEvent → Prop
  | .ioCompleted res _ => ∀ phase, handler.state = .recv phase →
      handler.offset.toNat + res.toNatClampNeg = stream.length
  | .spawn => True

/-- An item of the agenda agrees with the stream of its handler. -/
def AgendaItem.Agrees (handler : ConnHandler) (stream : List UInt8) : AgendaItem → Prop
  | .intent _ submitted => submitted.Agrees handler stream
  | .event ⟨reason, _⟩ => reason.Agrees handler stream

/-- A read asks for the rest of the buffer behind the stream of its handler. -/
def Op.Agrees (base : Nat) (handler : ConnHandler) (stream : List UInt8) : Op → Prop
  | .readFixed _ buf len _ bufferId =>
      handler.receiving? = some bufferId ∧ stream.length = handler.offset.toNat ∧
        (⟨buf, len.toNat⟩ : Extent) =
          (Running.bufferExtent base bufferId).drop handler.offset.toNat
  | _ => True

/-- What is part of no errand agrees with any stream. -/
theorem AgendaItem.agrees_of_none {item : AgendaItem} (kind : item.handle.poolId = connHandler)
    (none : item.errand? = none) (handler : ConnHandler) (stream : List UInt8) :
    item.Agrees handler stream := by
  cases item with
  | intent handle intent =>
      cases intent with
      | spawnConnHandler fixed => trivial
      | retry | terminate | closeFixed | submitMultishotAccept | submitRecv => cases none
  | event event =>
      rw [Running.errand?_event kind] at none
      cases none

namespace ConnHandler

variable {self : ConnHandler} {bufferId : BufferHandle}

/-- A handler that is receiving is in `Recv` with its buffer. -/
theorem of_receiving? (receiving : self.receiving? = some bufferId) :
    ∃ phase, self.state = .recv phase ∧ self.bufHandle? = some bufferId := by
  unfold receiving? at receiving
  split at receiving
  · rename_i phase start
    exact ⟨phase, start, receiving⟩
  · cases receiving

end ConnHandler

variable {base : Nat} {mem : Nat → UInt8} {handler handler' : ConnHandler} {stream : List UInt8}
  {buffers buffers' : IoBufs} {bufferId : BufferHandle}

/-- The phase that a handler parses is that of the stream its buffer begins with. -/
theorem Parsed.eq_phaseOf {offset : UInt32} {phase : RecvPhase} {rest : List UInt8}
    (parsed : Parsed buffers bufferId offset phase)
    (resolved : buffers.get bufferId = .ok (some (stream ++ rest)))
    (all : offset.toNat = stream.length) : phase = Connection.phaseOf stream := by
  cases parsed with
  | short few => exact (Connection.phaseOf_short (all ▸ few)).symm
  | header bytes header enough resolved' decoded =>
      rw [resolved] at resolved'
      cases resolved'
      rw [all] at enough
      rw [List.take_append_of_le_length enough] at decoded
      rw [Connection.phaseOf, decoded]

/-- The buffer that a handle resolves to begins with the stream it holds. -/
theorem Holds.get_eq (holds : Holds base mem bufferId handler stream)
    (resolved : buffers.get bufferId =
      .ok (some (Memory.read mem (Running.bufferExtent base bufferId).start Running.bufferSize))) :
    ∃ rest, buffers.get bufferId = .ok (some (stream ++ rest)) := by
  refine ⟨Memory.read mem ((Running.bufferExtent base bufferId).start + stream.length)
    (Running.bufferSize - stream.length), ?_⟩
  have split := Memory.read_append mem (Running.bufferExtent base bufferId).start stream.length
    (Running.bufferSize - stream.length)
  rw [Nat.add_sub_cancel' holds.room, holds.content] at split
  rw [resolved, split]

/-- Bytes that are written behind the stream extend it. -/
theorem Holds.extend (holds : Holds base mem bufferId handler stream)
    (all : stream.length = handler.offset.toNat) {buf len : Nat} {data : List UInt8}
    (range : (⟨buf, len⟩ : Extent) =
      (Running.bufferExtent base bufferId).drop handler.offset.toNat) (fits : data.length ≤ len) :
    Holds base (Memory.write mem buf data) bufferId handler (stream ++ data) := by
  obtain ⟨room, content, behind, parsed⟩ := holds
  obtain ⟨rfl, rfl⟩ := Extent.mk.inj range
  have length : (stream ++ data).length = stream.length + data.length := List.length_append
  have rest : data.length ≤ Running.bufferSize - handler.offset.toNat := fits
  refine ⟨by omega, ?_, by omega, ?_⟩
  · rw [length, ← all, Memory.read_write_behind, content]
  · rwa [List.take_append_of_le_length behind]

/-- Bytes that are written elsewhere leave the stream. -/
theorem Holds.frame (holds : Holds base mem bufferId handler stream) {place : Nat} {data : List UInt8}
    (apart : (Running.bufferExtent base bufferId).Apart ⟨place, data.length⟩) :
    Holds base (Memory.write mem place data) bufferId handler stream := by
  obtain ⟨room, content, behind, parsed⟩ := holds
  refine ⟨room, ?_, behind, parsed⟩
  rw [Memory.read_write_apart, content]
  rcases apart with before | after
  · exact .inl ((Nat.add_le_add_left room _).trans before)
  · exact .inr after

/-- An event leaves a handler connected to its stream, with intents that agree with it. -/
theorem Connected.event {reason : MachineEvent} {intents : List MachineIntent}
    (connected : Connected base mem handler stream)
    (move : ConnMove handler buffers reason handler' buffers' intents)
    (agrees : reason.Agrees handler stream)
    (success : ∀ phase res flags, handler.state = .recv phase → reason = .ioCompleted res flags →
      0 ≤ res)
    (resolves : ∀ bufferId, handler.receiving? = some bufferId → buffers.get bufferId =
      .ok (some (Memory.read mem (Running.bufferExtent base bufferId).start Running.bufferSize))) :
    Connected base mem handler' stream ∧ ∀ intent ∈ intents, intent.Agrees handler' stream := by
  have idle : (∀ phase, handler'.state ≠ .recv phase) → handler'.state ≠ .init →
      Connected base mem handler' stream := by
    intro notRecv notInit
    refine ⟨fun bufferId receiving => ?_, fun init => absurd init notInit⟩
    obtain ⟨phase, start, _⟩ := ConnHandler.of_receiving? receiving
    exact absurd start (notRecv phase)
  have notNegative : ∀ {res flags phase}, handler.state = .recv phase →
      reason = .ioCompleted res flags → ¬ res < 0 := fun start same =>
    Int32.not_lt.mpr (success _ _ _ start same)
  cases move with
  | spawned bufferId buffers' start allocated =>
      obtain ⟨rfl, offset⟩ := connected.fresh start
      refine ⟨⟨fun bufferId' receiving => ?_, by simp⟩, ?_⟩
      · exact ⟨Nat.zero_le _, rfl, by simp [offset], by rw [List.take_nil]; rfl⟩
      · simp [MachineIntent.Agrees, ConnHandler.receiving?, offset]
  | retry buffers' start refused => exact ⟨connected, by simp [MachineIntent.Agrees]⟩
  | endOfStream flags phase buffers' start freed =>
      exact ⟨idle (by simp) (by simp), by simp [MachineIntent.Agrees]⟩
  | transient res flags phase bufferId negative kind start held =>
      exact absurd negative (notNegative start rfl)
  | disconnected res flags phase bufferId buffers' negative kind start held freed =>
      exact absurd negative (notNegative start rfl)
  | ignored res flags phase bufferId negative notTransient notUnexpected notDisconnect start held =>
      exact absurd negative (notNegative start rfl)
  | received res flags phase next bufferId positive start held parsed =>
      have receiving : handler.receiving? = some bufferId := by
        rw [ConnHandler.receiving?_recv start, held]
      have holds := connected.holds bufferId receiving
      have room := holds.room
      have counted : handler.offset.toNat + res.toNatClampNeg = stream.length := agrees phase start
      have small : handler.offset.toNat + res.toNatClampNeg < 2 ^ 16 := by
        unfold Running.bufferSize at room
        omega
      obtain ⟨advanced, cast⟩ := ConnMove.toNat_offset_add positive small
      obtain ⟨rest, resolved⟩ := holds.get_eq (resolves bufferId receiving)
      have all : (handler.offset + res.toUInt32).toNat = stream.length := advanced.trans counted
      refine ⟨⟨fun bufferId' receiving' => ?_, by simp⟩, ?_⟩
      · obtain ⟨_, _, held'⟩ := ConnHandler.of_receiving? receiving'
        cases held.symm.trans held'
        refine ⟨room, holds.content, all.le, ?_⟩
        rw [all, List.take_length, parsed.eq_phaseOf resolved all]
      · intro intent submitted
        obtain rfl := List.mem_singleton.mp submitted
        exact ⟨held, cast.trans advanced.symm, all.symm⟩
  | closed flags start => exact ⟨idle (by simp) (by simp), by simp [MachineIntent.Agrees]⟩
  | closeAgain res flags buffers' nonzero start freed =>
      exact ⟨idle (by simp [start]) (by simp [start]), by simp [MachineIntent.Agrees]⟩
  | late event start => exact ⟨idle (by simp [start]) (by simp [start]), by simp⟩

namespace Running

variable {s s' : Running} {label : RunLabel} {streams : GenId → List UInt8} {handle : ObjectHandle}
  {errand : Errand} {agenda : List AgendaItem} {ops : Multiset Sqe}

/-! ### All connections and their streams -/

/-- What a step of the kernel must meet. -/
def kernelDelivers : Machine.Guard Running RunLabel := fun s label _ =>
  ∀ index result flags data sqe, label = .complete index result flags data →
    s.executor.io.inFlight[index]? = some sqe → sqe.op.Delivers result flags data

/-- The streams after a step: a completed read extends that of its connection, and what is not there
any more has none. -/
def received (s : Running) (streams : GenId → List UInt8) (label : RunLabel) (s' : Running) :
    GenId → List UInt8 :=
  match label with
  | .complete index _ _ data =>
      match s.executor.io.inFlight[index]? with
      | some ⟨.readFixed _ _ _ _ _, userData⟩ =>
          let id := (ObjectHandle.mk userData).genId
          Function.update streams id (streams id ++ data)
      | _ => streams
  | _ => fun id => if (s'.handlerAt id).isSome then streams id else []

/-- The runs, with the stream of each connection beside them. -/
def streamed (listeners connHandlers bufCount : UInt32) :
    Machine (Running × (GenId → List UInt8)) RunLabel :=
  (machine listeners connHandlers bufCount).withGhost (fun _ _ => []) received

/-- Every connection holds its stream, and what is under way for it agrees with that. -/
structure Streaming (base : Nat) (s : Running) (streams : GenId → List UInt8) : Prop where
  connected : ∀ id handler, s.handlerAt id = some handler →
    Connected base s.executor.ioBufs.pool.mem handler (streams id)
  gone : ∀ id, s.handlerAt id = none → streams id = []
  items : ∀ item ∈ s.agenda, item.handle.poolId = connHandler → ∀ handler,
    s.handlerAt item.handle.genId = some handler →
    item.Agrees handler (streams item.handle.genId)
  ops : ∀ sqe ∈ s.ops, (ObjectHandle.mk sqe.userData).poolId = connHandler → ∀ handler,
    s.handlerAt (ObjectHandle.mk sqe.userData).genId = some handler →
    sqe.op.Agrees base handler (streams (ObjectHandle.mk sqe.userData).genId)

/-- The streams, with the invariants they rest on. -/
structure StreamInv (base : Nat) (bufCount : UInt32) (s : Running)
    (streams : GenId → List UInt8) : Prop extends Streaming base s streams where
  errands : s.ErrandInv
  tally : s.TallyInv bufCount.toNat
  registered : Registered base bufCount s
  held : ∀ id handler phase, s.handlerAt id = some handler → handler.state = .recv phase →
    ∃ bufferId, handler.bufHandle? = some bufferId

/-- The errand that an item is part of is one of its machine. -/
theorem errand_of_item (ops : Multiset Sqe) {item : AgendaItem} (member : item ∈ agenda)
    {pair : ObjectHandle × Errand} (has : item.errand? = some pair) :
    pair.1 = item.handle ∧ pair ∈ errandsOf agenda ops := by
  refine ⟨?_, Multiset.mem_add.mpr (.inl (Multiset.mem_coe.mpr
    (List.mem_filterMap.mpr ⟨item, member, has⟩)))⟩
  rcases AgendaItem.errand?_handle has with ⟨intent, rfl⟩ | ⟨reason, rfl⟩ <;> rfl

/-- A machine whose errand ends has no other: what is left for it is part of none. -/
theorem sole_errand (held : Tokens s.Fits ((handle, errand) ::ₘ errandsOf agenda ops)) :
    (∀ item ∈ agenda, item.handle = handle → item.errand? = none) ∧
      ∀ sqe ∈ ops, ObjectHandle.mk sqe.userData ≠ handle := by
  constructor
  · rintro item member rfl
    refine Option.eq_none_iff_forall_ne_some.mpr fun pair has => ?_
    obtain ⟨same, also⟩ := errand_of_item ops member has
    exact held.unique pair.2 (same ▸ also)
  · rintro sqe member rfl
    exact held.unique sqe.op.errand
      (Multiset.mem_add.mpr (.inr (Multiset.mem_map.mpr ⟨sqe, member, rfl⟩)))

/-- A handle that no machine was given is that of no errand. -/
theorem fresh_errand (held : Tokens s.Fits (errandsOf agenda ops)) {id : GenId}
    (unbound : s.handlerAt id = none) :
    (∀ item ∈ agenda, item.handle.poolId = connHandler → item.handle.genId = id →
      item.errand? = none) ∧
    ∀ sqe ∈ ops, (ObjectHandle.mk sqe.userData).poolId = connHandler →
      (ObjectHandle.mk sqe.userData).genId ≠ id := by
  constructor
  · rintro item member kind rfl
    refine Option.eq_none_iff_forall_ne_some.mpr fun pair has => ?_
    obtain ⟨same, also⟩ := errand_of_item ops member has
    rw [← same] at kind unbound
    exact (held.fits _ _ also).handler_ne_none kind unbound
  · rintro sqe member kind rfl
    refine (held.fits (ObjectHandle.mk sqe.userData) sqe.op.errand ?_).handler_ne_none kind unbound
    exact Multiset.mem_add.mpr (.inr (Multiset.mem_map.mpr ⟨sqe, member, rfl⟩))

/-- No step of the executor writes to a buffer. -/
theorem pool_tick (move : RunMove s label s')
    (executor : ∀ index result flags data, label ≠ .complete index result flags data) :
    s'.executor.ioBufs.pool = s.executor.ioBufs.pool := by
  cases move with
  | handler _ _ _ _ _ _ _ _ _ _ _ handling => exact handling.pool
  | complete index result flags data => exact absurd rfl (executor index result flags data)
  | missing | listener | drained | finished | retry | submit | spawned | terminateListener
  | terminate | wait | reap | switch | take => rfl

/-- What a completion does to the buffers. -/
theorem complete_ioBufs {index : Nat} {result : Int32} {flags : UInt32} {data : List UInt8}
    {sqe : Sqe} (stepped : s.step (.complete index result flags data) = some s')
    (working : s.executor.io.inFlight[index]? = some sqe) :
    s'.executor.ioBufs =
      (writes sqe.op data).elim s.executor.ioBufs (s.executor.ioBufs.writeAt · data) := by
  simp only [step, complete, working, Option.some.injEq] at stepped
  subst stepped
  cases writes sqe.op data <;> rfl

variable {base : Nat} {bufCount : UInt32}

/-- What an intent submits agrees with the stream that the intent agrees with. -/
theorem Submits.agrees {intent : MachineIntent} {sqe : Sqe} {handler : ConnHandler}
    {stream : List UInt8} (submits : Submits s.executor handle intent sqe)
    (registered : Registered base bufCount s) (agrees : intent.Agrees handler stream) :
    sqe.op.Agrees base handler stream := by
  cases submits with
  | recv fixed bufferId offset address inside resolved =>
      obtain ⟨receiving, same, all⟩ := agrees
      refine ⟨receiving, all, ?_⟩
      rcases BufferPool.getMut_inv resolved with ⟨_, none⟩ | ⟨_, _, located⟩
      · cases none
      · rw [registered.address, registered.size] at located
        cases located
        rw [registered.size, UInt32.toNat_ofNat_of_lt' ((Nat.sub_le _ _).trans_lt (by decide)), same]
        rfl
  | accept fd => trivial
  | close fixed => trivial

namespace StreamInv

/-- A handler that is receiving finds the bytes of its buffer. -/
theorem get_eq (inv : s.StreamInv base bufCount streams) {id : GenId} {handler : ConnHandler}
    {bufferId : BufferHandle} (found : s.handlerAt id = some handler)
    (receiving : handler.receiving? = some bufferId) :
    s.executor.ioBufs.get bufferId = .ok (some
      (Memory.read s.executor.ioBufs.pool.mem (bufferExtent base bufferId).start bufferSize)) := by
  have holds : s.bufOwner id = some bufferId := by
    rw [bufOwner, found]
    exact receiving
  have valid := inv.tally.owns.valid holds
  have inside : bufferId.id.index.toNat < s.executor.ioBufs.pool.count := by
    rw [inv.registered.count, ← inv.tally.count]
    exact GenAlloc.isValid.index_lt valid
  rw [BufferPool.get_eq (BufferPool.getMut_valid valid inside), inv.registered.address,
    inv.registered.size]
  rfl

/-- The buffers of two connections share no place. -/
theorem apart (inv : s.StreamInv base bufCount streams) {id id' : GenId}
    {handler handler' : ConnHandler} {bufferId bufferId' : BufferHandle}
    (found : s.handlerAt id = some handler) (receiving : handler.receiving? = some bufferId)
    (found' : s.handlerAt id' = some handler') (receiving' : handler'.receiving? = some bufferId')
    (different : id ≠ id') :
    (bufferExtent base bufferId).Apart (bufferExtent base bufferId') := by
  have holds : s.bufOwner id = some bufferId := by
    rw [bufOwner, found]
    exact receiving
  have holds' : s.bufOwner id' = some bufferId' := by
    rw [bufOwner, found']
    exact receiving'
  refine Extent.slots_apart fun same => different ?_
  obtain rfl : bufferId = bufferId' := BufferHandle.ext (GenAlloc.isValid.unique
    (inv.tally.owns.valid holds) (inv.tally.owns.valid holds') (UInt32.toNat_inj.mp same))
  exact inv.tally.owns.exclusive holds holds'

/-- An event that comes first agrees with the stream of its connection. -/
theorem event_agrees (inv : s.StreamInv base bufCount streams) {event : RunQueueEvent}
    {rest : List AgendaItem} {handler : ConnHandler} (kind : event.handle.poolId = connHandler)
    (found : s.handlerAt event.handle.genId = some handler)
    (agenda : s.agenda = .event event :: rest) :
    event.reason.Agrees handler (streams event.handle.genId) :=
  inv.items (.event event) (agenda ▸ List.mem_cons_self) kind handler found

/-- What an event does to the connection it is dispatched to. -/
theorem event (inv : s.StreamInv base bufCount streams) {event : RunQueueEvent}
    {rest : List AgendaItem} {handler handler' : ConnHandler} {intents : List MachineIntent}
    (kind : event.handle.poolId = connHandler)
    (found : s.handlerAt event.handle.genId = some handler)
    (move : ConnMove handler s.executor.ioBufs event.reason handler' s'.executor.ioBufs intents)
    (agenda : s.agenda = .event event :: rest) :
    Connected base s.executor.ioBufs.pool.mem handler' (streams event.handle.genId) ∧
      ∀ intent ∈ intents, intent.Agrees handler' (streams event.handle.genId) :=
  (inv.connected _ handler found).event move (inv.event_agrees kind found agenda)
    (fun _ _ _ receiving reason => inv.errands.success agenda kind found receiving reason)
    (fun _ receiving => inv.get_eq found receiving)

end StreamInv

section ExecutorStep

variable (executor : ∀ index result flags data, label ≠ .complete index result flags data)

include executor

/-- A step of the executor forgets the streams of the connections that are gone. -/
theorem received_executor :
    received s streams label s' = fun id => if (s'.handlerAt id).isSome then streams id else [] := by
  cases label with
  | tick listened => rfl
  | take => rfl
  | complete index result flags data => exact absurd rfl (executor index result flags data)

theorem received_found {id : GenId} {handler : ConnHandler} (found : s'.handlerAt id = some handler) :
    received s streams label s' id = streams id := by
  simp [received_executor executor, found]

/-- A step of the executor leaves every connection with its stream. -/
theorem StreamInv.connected_executor (inv : s.StreamInv base bufCount streams)
    (progress : s.Progress label s') (samePool : s'.executor.ioBufs.pool = s.executor.ioBufs.pool)
    (id : GenId) (handler : ConnHandler) (found : s'.handlerAt id = some handler) :
    Connected base s'.executor.ioBufs.pool.mem handler (received s streams label s' id) := by
  rw [received_found executor found, samePool]
  cases progress with
  | idle _ _ _ _ _ handlers | missing _ _ _ _ _ _ handlers | listener _ _ _ _ _ _ _ _ _ _ _ _ _ handlers
  | retry _ _ _ _ _ _ _ _ handlers | submit _ _ _ _ _ _ _ _ handlers =>
      exact inv.connected id handler (handlers ▸ found)
  | completed index result flags data => exact absurd rfl (executor index result flags data)
  | handler _ _ event other other' intents rest kind found' move agenda agenda' ops handlers =>
      rw [handlers] at found
      rcases eq_or_ne id event.handle.genId with rfl | different
      · rw [Function.update_self] at found
        cases found
        exact (inv.event kind found' move agenda).1
      · rw [Function.update_of_ne different] at found
        exact inv.connected id handler found
  | spawned _ _ handle fixed fresh front back small unbound agenda agenda' ops handlers =>
      rw [handlers] at found
      rcases eq_or_ne id fresh with rfl | different
      · rw [Function.update_self] at found
        cases found
        exact ⟨fun _ receiving => (nomatch receiving), fun _ => ⟨inv.gone id unbound, rfl⟩⟩
      · rw [Function.update_of_ne different] at found
        exact inv.connected id handler found
  | terminated _ _ handle kind agenda ops handlers =>
      rw [handlers] at found
      rcases eq_or_ne id handle.genId with rfl | different
      · rw [Function.update_self] at found
        cases found
      · rw [Function.update_of_ne different] at found
        exact inv.connected id handler found

/-- After a step of the executor the agenda agrees with the streams. -/
theorem StreamInv.items_executor (inv : s.StreamInv base bufCount streams)
    (progress : s.Progress label s') (item : AgendaItem) (member : item ∈ s'.agenda)
    (kind : item.handle.poolId = connHandler) (handler : ConnHandler)
    (found : s'.handlerAt item.handle.genId = some handler) :
    item.Agrees handler (received s streams label s' item.handle.genId) := by
  rw [received_found executor found]
  have held := inv.errands.tokens
  rw [Running.errands] at held
  have kept : item ∈ s.agenda → s'.handlerAt = s.handlerAt →
      item.Agrees handler (streams item.handle.genId) := fun before handlers =>
    inv.items item before kind handler (handlers ▸ found)
  cases progress with
  | idle _ _ _ agenda _ handlers => exact kept (agenda ▸ member) handlers
  | missing _ _ _ _ agenda _ handlers | submit _ _ _ _ _ _ agenda _ handlers =>
      exact kept (agenda ▸ List.mem_cons_of_mem _ member) handlers
  | completed index result flags data => exact absurd rfl (executor index result flags data)
  | listener _ _ event _ _ intents rest listening _ _ agenda agenda' _ handlers =>
      rw [agenda'] at member
      rcases List.mem_append.mp member with submitted | before
      · obtain ⟨intent, _, rfl⟩ := List.mem_map.mp submitted
        exact absurd listening (ObjectHandle.notListener kind)
      · exact kept (agenda ▸ List.mem_cons_of_mem _ before) handlers
  | retry _ _ other front back agenda agenda' _ handlers =>
      rw [agenda'] at member
      rcases List.mem_append.mp member with before | member
      · exact kept (agenda ▸ List.mem_cons_of_mem _ (List.mem_append_left _ before)) handlers
      · rcases List.mem_cons.mp member with rfl | before
        · trivial
        · exact kept (agenda ▸ List.mem_cons_of_mem _ (List.mem_append_right _ before)) handlers
  | handler _ _ event other other' intents rest kind' found' move agenda agenda' ops handlers =>
      rw [agenda, errandsOf_cons_some (errand?_event kind')] at held
      rw [agenda'] at member
      rcases List.mem_append.mp member with submitted | before
      · obtain ⟨intent, chosen, rfl⟩ := List.mem_map.mp submitted
        have same : s'.handlerAt event.handle.genId = some other' := by
          rw [handlers, Function.update_self]
        cases same.symm.trans found
        exact (inv.event kind' found' move agenda).2 intent chosen
      · rcases eq_or_ne item.handle.genId event.handle.genId with same | different
        · have sameHandle := ObjectHandle.eq_of_fields (kind.trans kind'.symm) same
          exact item.agrees_of_none kind ((sole_errand held).1 item before sameHandle) handler _
        · rw [handlers, Function.update_of_ne different] at found
          exact inv.items item (agenda ▸ List.mem_cons_of_mem _ before) kind handler found
  | spawned _ _ other fixed fresh front back small unbound agenda agenda' ops handlers =>
      rw [agenda'] at member
      have before : item = .event ⟨.spawn, .new connHandler fresh⟩ ∨ item ∈ s.agenda := by
        rw [agenda]
        simp only [List.mem_append, List.mem_cons] at member ⊢
        tauto
      rcases before with rfl | before
      · trivial
      · rcases eq_or_ne item.handle.genId fresh with same | different
        · have none := (fresh_errand held unbound).1 item before kind same
          exact item.agrees_of_none kind none handler _
        · rw [handlers, Function.update_of_ne different] at found
          exact inv.items item before kind handler found
  | terminated _ _ other kind' agenda ops handlers =>
      have before : item ∈ s.agenda := agenda ▸ List.mem_cons_of_mem _ member
      rw [handlers] at found
      rcases eq_or_ne item.handle.genId other.genId with same | different
      · rw [same, Function.update_self] at found
        cases found
      · rw [Function.update_of_ne different] at found
        exact inv.items item before kind handler found

/-- After a step of the executor the operations agree with the streams. -/
theorem StreamInv.ops_executor (inv : s.StreamInv base bufCount streams)
    (progress : s.Progress label s') (sqe : Sqe) (member : sqe ∈ s'.ops)
    (kind : (ObjectHandle.mk sqe.userData).poolId = connHandler) (handler : ConnHandler)
    (found : s'.handlerAt (ObjectHandle.mk sqe.userData).genId = some handler) :
    sqe.op.Agrees base handler (received s streams label s' (ObjectHandle.mk sqe.userData).genId) := by
  rw [received_found executor found]
  have held := inv.errands.tokens
  rw [Running.errands] at held
  cases progress with
  | idle _ _ _ _ ops handlers | missing _ _ _ _ _ ops handlers
  | listener _ _ _ _ _ _ _ _ _ _ _ _ ops handlers | retry _ _ _ _ _ _ _ ops handlers =>
      exact inv.ops sqe (ops ▸ member) kind handler (handlers ▸ found)
  | completed index result flags data => exact absurd rfl (executor index result flags data)
  | submit _ _ handle intent other submits agenda ops handlers =>
      rw [handlers] at found
      rw [ops] at member
      rcases Multiset.mem_cons.mp member with same | before
      · have submitted : AgendaItem.intent handle intent ∈ s.agenda := by
          rw [agenda]
          exact List.mem_cons_self
        have owner : ObjectHandle.mk sqe.userData = handle := by
          rw [same]
          cases submits <;> rfl
        rw [owner] at kind found ⊢
        rw [same]
        exact submits.agrees inv.registered (inv.items _ submitted kind handler found)
      · exact inv.ops sqe before kind handler found
  | handler _ _ event other other' intents rest kind' found' move agenda agenda' ops handlers =>
      rw [agenda, errandsOf_cons_some (errand?_event kind')] at held
      rw [ops] at member
      have different : (ObjectHandle.mk sqe.userData).genId ≠ event.handle.genId := fun same =>
        (sole_errand held).2 sqe member (ObjectHandle.eq_of_fields (kind.trans kind'.symm) same)
      rw [handlers, Function.update_of_ne different] at found
      exact inv.ops sqe member kind handler found
  | spawned _ _ other fixed fresh front back small unbound agenda agenda' ops handlers =>
      rw [ops] at member
      rw [handlers, Function.update_of_ne ((fresh_errand held unbound).2 sqe member kind)] at found
      exact inv.ops sqe member kind handler found
  | terminated _ _ other kind' agenda ops handlers =>
      rw [handlers] at found
      rcases eq_or_ne (ObjectHandle.mk sqe.userData).genId other.genId with same | different
      · rw [same, Function.update_self] at found
        cases found
      · rw [Function.update_of_ne different] at found
        exact inv.ops sqe (ops ▸ member) kind handler found

end ExecutorStep

/-! ### A step of the kernel -/

section KernelStep

variable {index : Nat} {result : Int32} {flags : UInt32} {data : List UInt8} {sqe : Sqe}

/-- What a completion does to the agenda, the operations and the machines. -/
theorem ErrandInv.completed (inv : s.ErrandInv)
    (stepped : s.step (.complete index result flags data) = some s')
    (working : s.executor.io.inFlight[index]? = some sqe) :
    ∃ others : Multiset Sqe, s.ops = sqe ::ₘ others ∧
      s'.ops = (if staysInFlight sqe.op flags then s.ops else others) ∧
      s'.agenda = s.agenda ++ [.event ⟨.ioCompleted result flags, ⟨sqe.userData⟩⟩] ∧
      s'.handlerAt = s.handlerAt := by
  cases inv.queues.progress (step_move stepped) with
  | idle _ _ kernel => exact absurd rfl (kernel index result flags data)
  | completed _ _ _ _ _ other others working' agenda ops ops' handlers =>
      cases working.symm.trans working'
      exact ⟨others, ops, by rw [ops', ops], agenda, handlers⟩

/-- A completion that delivers no bytes leaves the streams. -/
theorem StreamInv.streaming_other (inv : s.StreamInv base bufCount streams)
    (stepped : s.step (.complete index result flags data) = some s')
    (working : s.executor.io.inFlight[index]? = some sqe)
    (noRead : ∀ fixed buf len bufIndex bufferId,
      sqe.op ≠ .readFixed fixed buf len bufIndex bufferId) :
    Streaming base s' (received s streams (.complete index result flags data) s') := by
  obtain ⟨others, ops, ops', agenda, handlers⟩ := inv.errands.completed stepped working
  have held := inv.errands.tokens
  rw [Running.errands, ops, errandsOf_submitted] at held
  have fits := held.fits ⟨sqe.userData⟩ sqe.op.errand (Multiset.mem_cons_self ..)
  have bufs := complete_ioBufs stepped working
  obtain ⟨op, userData⟩ := sqe
  have same : received s streams (.complete index result flags data) s' = streams ∧
      s'.executor.ioBufs = s.executor.ioBufs := by
    cases op with
    | readFixed fixed buf len bufIndex bufferId => exact absurd rfl (noRead _ buf len bufIndex _)
    | acceptMulti | close => exact ⟨by simp only [received, working], bufs⟩
  rw [same.1]
  refine ⟨?_, ?_, ?_, ?_⟩
  · rw [handlers, same.2]
    exact inv.connected
  · rw [handlers]
    exact inv.gone
  · intro item member kind handler found
    rw [handlers] at found
    rw [agenda] at member
    rcases List.mem_append.mp member with before | posted
    · exact inv.items item before kind handler found
    · obtain rfl := List.mem_singleton.mp posted
      have waits := fits.handler_of kind found
      cases op with
      | acceptMulti fd => exact absurd waits id
      | readFixed fixed buf len bufIndex bufferId => exact absurd rfl (noRead _ buf len bufIndex _)
      | close fixed =>
          intro phase receiving
          rw [waits.1] at receiving
          cases receiving
  · intro other member kind handler found
    rw [handlers] at found
    refine inv.ops other ?_ kind handler found
    rw [ops'] at member
    split at member
    · exact member
    · exact ops ▸ Multiset.mem_cons_of_mem member

section Read

variable {fixed : Fixed} {buf : Nat} {len : UInt32} {bufIndex : UInt16} {bufferId : BufferHandle}
  {id other : GenId} {handler handler' : ConnHandler}

/-- A read writes inside the buffer of its connection. -/
theorem StreamInv.read_within (inv : s.StreamInv base bufCount streams)
    (found : s.handlerAt id = some handler)
    (agrees : (Op.readFixed fixed buf len bufIndex bufferId).Agrees base handler (streams id))
    (fits : data.length ≤ len.toNat) :
    Extent.Within ⟨buf, data.length⟩ (bufferExtent base bufferId) := by
  obtain ⟨receiving, all, range⟩ := agrees
  have room := ((inv.connected id handler found).holds bufferId receiving).room
  rw [all] at room
  have within : Extent.Within ⟨buf, len.toNat⟩ (bufferExtent base bufferId) :=
    range ▸ Extent.drop_within room
  exact ⟨within.1, (Nat.add_le_add_left fits buf).trans within.2⟩

/-- A read that is completed leaves every connection with its stream, one of them extended. -/
theorem StreamInv.connected_read (inv : s.StreamInv base bufCount streams)
    (found : s.handlerAt id = some handler)
    (agrees : (Op.readFixed fixed buf len bufIndex bufferId).Agrees base handler (streams id))
    (fits : data.length ≤ len.toNat) (found' : s.handlerAt other = some handler') :
    Connected base (Memory.write s.executor.ioBufs.pool.mem buf data) handler'
      (Function.update streams id (streams id ++ data) other) := by
  have within := inv.read_within found agrees fits
  obtain ⟨receiving, all, range⟩ := agrees
  rcases eq_or_ne other id with rfl | different
  · cases found.symm.trans found'
    rw [Function.update_self]
    refine ⟨fun bufferId' receiving' => ?_, fun init => ?_⟩
    · cases receiving.symm.trans receiving'
      exact ((inv.connected other handler found).holds bufferId receiving).extend all range fits
    · obtain ⟨phase, start, _⟩ := ConnHandler.of_receiving? receiving
      rw [start] at init
      cases init
  · rw [Function.update_of_ne different]
    have connected := inv.connected other handler' found'
    refine ⟨fun bufferId' receiving' => ?_, connected.fresh⟩
    have apart := inv.apart found' receiving' found receiving different
    exact (connected.holds bufferId' receiving').frame
      (apart.within ⟨Nat.le_refl _, Nat.le_refl _⟩ within)

end Read

/-- A read that is completed extends the stream of its connection, and leaves the others. -/
theorem StreamInv.streaming_read (inv : s.StreamInv base bufCount streams) {fixed : Fixed} {buf : Nat}
    {len : UInt32} {bufIndex : UInt16} {bufferId : BufferHandle} {userData : UInt64}
    (stepped : s.step (.complete index result flags data) = some s')
    (working : s.executor.io.inFlight[index]? =
      some ⟨.readFixed fixed buf len bufIndex bufferId, userData⟩)
    (counted : result.toNatClampNeg = data.length) (fitsLen : data.length ≤ len.toNat) :
    Streaming base s' (received s streams (.complete index result flags data) s') := by
  obtain ⟨others, ops, ops', agenda, handlers⟩ := inv.errands.completed stepped working
  have left : s'.ops = others := ops'.trans (if_neg Bool.false_ne_true)
  have held := inv.errands.tokens
  rw [Running.errands, ops, errandsOf_submitted] at held
  have streams' : received s streams (.complete index result flags data) s' =
      Function.update streams (ObjectHandle.mk userData).genId
        (streams (ObjectHandle.mk userData).genId ++ data) := by
    simp only [received, working]
  have mem : s'.executor.ioBufs.pool.mem = Memory.write s.executor.ioBufs.pool.mem buf data := by
    rw [complete_ioBufs stepped working]
    simp only [writes, if_pos fitsLen]
    rfl
  rw [streams']
  cases held.fits ⟨userData⟩ .read (Multiset.mem_cons_self ..) with
  | listener kind listener found waits => exact absurd waits id
  | handler kind handler found waits =>
      have agrees := inv.ops ⟨.readFixed fixed buf len bufIndex bufferId, userData⟩
        (ops ▸ Multiset.mem_cons_self _ _) kind handler found
      have sole := sole_errand held
      refine ⟨fun id other found' => ?_, fun id none => ?_, fun item member kind' other found' => ?_,
        fun sqe member kind' other found' => ?_⟩
      · rw [handlers] at found'
        rw [mem]
        exact inv.connected_read found agrees fitsLen found'
      · rw [handlers] at none
        rw [Function.update_of_ne, inv.gone id none]
        rintro rfl
        rw [found] at none
        cases none
      · rw [handlers] at found'
        rw [agenda] at member
        rcases List.mem_append.mp member with before | posted
        · rcases eq_or_ne item.handle.genId (ObjectHandle.mk userData).genId with same | different
          · have sameHandle := ObjectHandle.eq_of_fields (kind'.trans kind.symm) same
            exact item.agrees_of_none kind' (sole.1 item before sameHandle) other _
          · rw [Function.update_of_ne different]
            exact inv.items item before kind' other found'
        · -- The completion counts what it has just added to the stream.
          obtain rfl := List.mem_singleton.mp posted
          cases found.symm.trans found'
          intro phase start
          rw [show (AgendaItem.event ⟨.ioCompleted result flags, ⟨userData⟩⟩).handle =
            ⟨userData⟩ from rfl, Function.update_self, List.length_append, agrees.2.1, counted]
      · rw [handlers] at found'
        rw [left] at member
        have different : (ObjectHandle.mk sqe.userData).genId ≠ (ObjectHandle.mk userData).genId :=
          fun same => sole.2 sqe member (ObjectHandle.eq_of_fields (kind'.trans kind.symm) same)
        rw [Function.update_of_ne different]
        exact inv.ops sqe (ops ▸ Multiset.mem_cons_of_mem member) kind' other found'

end KernelStep

/-- The condition on one step: what the kernel delivers, and that no repeated close frees a reissued
buffer. -/
def streamGuard : Machine.Guard Running RunLabel := fun s label s' =>
  kernelDelivers s label s' ∧ noReissue s label s'

/-- What is delivered is posted. -/
theorem kernelDelivers.posts (delivers : kernelDelivers s label s') : kernelPosts s label s' :=
  fun index result flags data sqe completes working =>
    (delivers index result flags data sqe completes working).1

/-- Every step leaves every connection with its stream. -/
theorem StreamInv.step (inv : s.StreamInv base bufCount streams) (stepped : s.step label = some s')
    (met : streamGuard s label s') : s'.StreamInv base bufCount (received s streams label s') := by
  obtain ⟨delivers, reissue⟩ := met
  have move := step_move stepped
  have progress := inv.errands.queues.progress move
  suffices streaming : Streaming base s' (received s streams label s') from
    { streaming with
      errands := inv.errands.move move delivers.posts
      tally := inv.tally.move move reissue
      registered := inv.registered.move move
      held := held_step inv.held (inv.tally.handlers.step move).1 }
  by_cases kernel : ∃ index result flags data, label = .complete index result flags data
  · obtain ⟨index, result, flags, data, rfl⟩ := kernel
    obtain ⟨⟨op, userData⟩, working⟩ : ∃ sqe, s.executor.io.inFlight[index]? = some sqe := by
      cases move with
      | complete _ _ _ _ sqe _ working => exact ⟨sqe, working⟩
    cases op with
    | readFixed fixed buf len bufIndex bufferId =>
        obtain ⟨_, counted, fits⟩ := delivers index result flags data _ rfl working
        exact inv.streaming_read stepped working counted fits
    | acceptMulti | close => exact inv.streaming_other stepped working (by simp)
  · have executor : ∀ index result flags data, label ≠ .complete index result flags data :=
      fun index result flags data same => kernel ⟨index, result, flags, data, same⟩
    refine ⟨inv.connected_executor executor progress (pool_tick move executor), fun id none => ?_,
      inv.items_executor executor progress, inv.ops_executor executor progress⟩
    simp [received_executor executor, none]

/-- At the start of a run there is no connection. -/
theorem streamInv_start {entries : Nat} {listeners connHandlers : UInt32}
    {raw : Option (Nat × (Nat → UInt8))}
    (started : start entries listeners connHandlers bufCount raw = .ok s) :
    s.StreamInv s.executor.ioBufs.pool.ptr bufCount fun _ => [] := by
  obtain ⟨_, noneFound, noOps, _⟩ := queueInv_start started
  exact
    { connected := by simp [noneFound]
      gone := fun _ _ => rfl
      items := by simp [noneFound]
      ops := by simp [noOps]
      errands := (errandInv_start started).1
      tally := tallyInv_start started
      registered := registered_start started
      held := by simp [noneFound] }

/-- A handler that is receiving waits for a read or for its completion. -/
theorem waits_receiving {handler : ConnHandler} {phase : RecvPhase}
    (receiving : handler.state = .recv phase) (waits : errand.FitsHandler handler) :
    errand = .read ∨ ∃ res, errand = .completed res := by
  cases errand with
  | read => exact .inl rfl
  | completed res => exact .inr ⟨res, rfl⟩
  | start | terminate => cases receiving.symm.trans waits
  | close fixed => cases receiving.symm.trans waits.1
  | accept => exact absurd waits id

/-- A handler that is receiving has seen its whole stream, or the completion that counts the rest is
under way. -/
theorem StreamInv.rest (inv : s.StreamInv base bufCount streams) (busy : s.Busy handle)
    (kind : handle.poolId = connHandler) {handler : ConnHandler} {phase : RecvPhase}
    (found : s.handlerAt handle.genId = some handler) (receiving : handler.state = .recv phase) :
    handler.offset.toNat = (streams handle.genId).length ∨
      ∃ res flags, .event ⟨.ioCompleted res flags, handle⟩ ∈ s.agenda ∧
        handler.offset.toNat + res.toNatClampNeg = (streams handle.genId).length := by
  have waits : ∀ errand, (handle, errand) ∈ s.errands →
      errand = .read ∨ ∃ res, errand = .completed res := fun errand member =>
    waits_receiving receiving ((inv.errands.tokens.fits handle errand member).handler_of kind found)
  cases busy with
  | item item member errand has =>
      have expected := waits errand (errand_of_item _ member has).2
      rcases AgendaItem.errand?_handle has with ⟨intent, rfl⟩ | ⟨reason, rfl⟩
      · have agrees := inv.items _ member kind handler found
        cases intent with
        | submitRecv fixed bufferId offset => exact .inl agrees.2.2.symm
        | spawnConnHandler fixed => cases has
        | retry | terminate | closeFixed | submitMultishotAccept =>
            cases has
            simp at expected
      · cases reason with
        | spawn =>
            cases has
            simp at expected
        | ioCompleted res flags =>
            exact .inr ⟨res, flags, member, inv.items _ member kind handler found phase receiving⟩
  | op sqe member owner =>
      subst owner
      have expected := waits sqe.op.errand
        (Multiset.mem_add.mpr (.inr (Multiset.mem_map.mpr ⟨sqe, member, rfl⟩)))
      have agrees := inv.ops sqe member kind handler found
      cases isOp : sqe.op with
      | readFixed fixed buf len bufIndex bufferId =>
          rw [isOp] at agrees
          exact .inl agrees.2.1.symm
      | acceptMulti | close => simp [isOp, Op.errand] at expected

/-- Any number of connections, on a kernel that fails no read and counts the bytes it writes, any
split of the bytes of the peers and any order of steps, unless a repeated close frees a reissued
buffer.  The buffer of a handler in `Recv` begins with exactly the bytes that were delivered to its
connection, in their order; its phase is that of the bytes up to its offset; and what is behind the
offset is what the one completion under way for it counts, if there is one. -/
theorem streams_intact {listeners connHandlers : UInt32} {p : Running × (GenId → List UInt8)}
    (reached : (streamed listeners connHandlers bufCount).Reach streamGuard.onState p)
    {id : GenId} {handler : ConnHandler} {phase : RecvPhase}
    (found : p.1.handlerAt id = some handler) (receiving : handler.state = .recv phase) :
    ∃ bufferId bytes, handler.bufHandle? = some bufferId ∧
      p.1.executor.ioBufs.get bufferId = .ok (some bytes) ∧ p.2 id <+: bytes ∧
      handler.offset.toNat ≤ (p.2 id).length ∧
      phase = Connection.phaseOf ((p.2 id).take handler.offset.toNat) ∧
      (handler.offset.toNat = (p.2 id).length ∨
        ∃ res flags, .event ⟨.ioCompleted res flags, .new connHandler id⟩ ∈ p.1.agenda ∧
          handler.offset.toNat + res.toNatClampNeg = (p.2 id).length) := by
  obtain ⟨base, inv⟩ : ∃ base, p.1.StreamInv base bufCount p.2 := by
    refine reached.ghost_invariant (fun s streams => ∃ base, s.StreamInv base bufCount streams) ?_ ?_
    · rintro s ⟨_, _, started⟩
      exact ⟨_, streamInv_start started⟩
    · rintro s streams label s' ⟨base, inv⟩ stepped met
      exact ⟨base, inv.step stepped met⟩
  have underWay := underWay_reach reached.forget.reachable
  have small : id.index.toNat < 2 ^ 24 :=
    inv.tally.handlers.pool.index_small (ObjectPool.lookup_valid found)
  have kind := ObjectHandle.poolId_new connHandler small
  have sameId := ObjectHandle.genId_new connHandler small
  rw [← sameId] at found
  have rest := inv.rest (underWay.busy _ (.handler kind handler found)) kind found receiving
  rw [sameId] at found rest
  obtain ⟨bufferId, held⟩ := inv.held id handler phase found receiving
  have owned : handler.receiving? = some bufferId := (ConnHandler.receiving?_recv receiving).trans held
  have holds := (inv.connected id handler found).holds bufferId owned
  obtain ⟨bytes, resolved⟩ := holds.get_eq (inv.get_eq found owned)
  exact ⟨bufferId, _, held, resolved, List.prefix_append _ bytes, holds.behind,
    ConnHandlerState.recv.inj (receiving.symm.trans holds.parsed), rest⟩

/-- At the start of a run nothing was received. -/
theorem streamed_initial {entries : Nat} {listeners connHandlers bufCount : UInt32}
    {raw : Option (Nat × (Nat → UInt8))} (s : Running)
    (started : start entries listeners connHandlers bufCount raw = .ok s) :
    (streamed listeners connHandlers bufCount).initial (s, fun _ => []) :=
  ⟨⟨entries, raw, started⟩, rfl⟩

/-- `streamGuard`, as a test. -/
def isStreamed (s : Running) (label : RunLabel) : Bool :=
  s.isPosted label && s.isNotReissued label &&
    match label with
    | .complete index result _ data =>
        s.executor.io.inFlight[index]?.all fun sqe =>
          match sqe.op with
          | .readFixed _ _ len _ _ => result.toNatClampNeg == data.length && data.length ≤ len.toNat
          | _ => true
    | _ => true

theorem isStreamed_sound (passed : s.isStreamed label = true) : streamGuard s label s' := by
  simp only [isStreamed, Bool.and_eq_true] at passed
  obtain ⟨⟨posted, notReissued⟩, counts⟩ := passed
  refine ⟨fun index result flags data sqe completes working => ⟨?_, ?_⟩,
    isNotReissued_sound notReissued⟩
  · have posts : kernelPosts s label s := isPosted_sound posted
    exact posts index result flags data sqe completes working
  · subst completes
    obtain ⟨op, userData⟩ := sqe
    cases op with
    | readFixed fixed buf len bufIndex bufferId => simpa [working] using counts
    | acceptMulti | close => trivial

set_option maxRecDepth 100000 in
/-- Two connections receive at the same time: the header of one, and two bytes of the other. -/
theorem streams_intact_two :
    ∃ (s : Running) (streams : GenId → List UInt8), streams ⟨1, 0⟩ = [1, 2] ∧
      ∃ bufferId bytes, s.executor.ioBufs.get bufferId = .ok (some bytes) ∧
        [9, 0, 0, 0, 7] <+: bytes := by
  obtain ⟨⟨s, streams⟩, reached, ends⟩ : ∃ p : Running × (GenId → List UInt8),
      (streamed 1 2 2).Reach streamGuard.onState p ∧
      (p.2 ⟨1, 0⟩ == [1, 2] && p.2 ⟨0, 0⟩ == [9, 0, 0, 0, 7] &&
        (p.1.handlerAt ⟨0, 0⟩).any fun handler =>
          handler.state == .recv (.receivingBody ⟨9, 7⟩)) = true := by
    exact Machine.exists_reach_of_start _
      (@streamed_initial 16 1 2 2 (some (0x1000, fun _ => 0))) (fun p label _ => p.1.isStreamed label)
      (fun _ _ _ passed => isStreamed_sound passed)
      (ticks 4 ++ [.take, .complete 0 0 2 [], .complete 0 1 2 []] ++ ticks 17 ++
        [.take, .take, .complete 1 2 0 [1, 2], .complete 1 5 0 [9, 0, 0, 0, 7]] ++ ticks 11) _
      (by decide +kernel)
  simp only [Bool.and_eq_true, beq_iff_eq, Option.any_eq_true] at ends
  obtain ⟨⟨second, first⟩, handler, found, receiving⟩ := ends
  obtain ⟨bufferId, bytes, _, resolved, isPrefix, _⟩ := streams_intact reached found receiving
  change streams ⟨0, 0⟩ <+: bytes at isPrefix
  rw [first] at isPrefix
  exact ⟨s, streams, second, bufferId, bytes, resolved, isPrefix⟩

end Running

end Hoarder
