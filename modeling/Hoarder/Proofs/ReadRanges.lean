/-
Module: Hoarder.Proofs.ReadRanges
Purpose: The memory that the reads of `complete_intent` give to the kernel.  `setup` registers one
  iovec for each buffer; the index, the address and the length of a read name the part of one of them
  that the connection has not filled yet.
Trusted boundary: none
Main exports: Running.Registered, Running.kernelCounts, Running.CountInv, Running.CountInv.move,
  Running.BuildsRead, Running.read_ranges
-/
import Hoarder.Foundation.Extent
import Hoarder.Proofs.ExecutorOffsets
import Hoarder.Proofs.Agenda

namespace Hoarder

open Foundation

/-- The memory an iovec names. -/
def Iovec.extent (self : Iovec) : Extent :=
  ⟨self.iovBase, self.iovLen⟩

/-- What the kernel promises of the result of an operation: a read counts no more bytes than it asked
for, and a close answers zero or an error. -/
def Op.Counts (self : Op) (result : Int32) : Prop :=
  match self with
  | .acceptMulti _ => True
  | .readFixed _ _ len _ _ => result.toNatClampNeg ≤ len.toNat
  | .close _ => result ≤ 0

instance : (op : Op) → (result : Int32) → Decidable (op.Counts result)
  | .acceptMulti _, _ => .isTrue trivial
  | .readFixed _ _ len _ _, result => inferInstanceAs (Decidable (result.toNatClampNeg ≤ len.toNat))
  | .close _, result => inferInstanceAs (Decidable (result ≤ 0))

namespace ConnMove

/-- A handler receives at its offset, which it keeps, resets, or advances by the bytes it got. -/
theorem recv_offset {self self' : ConnHandler} {buffers buffers' : IoBufs} {event : MachineEvent}
    {intents : List MachineIntent} (move : ConnMove self buffers event self' buffers' intents) :
    (∀ fixed bufferId offset, .submitRecv fixed bufferId offset ∈ intents →
      offset = self'.offset.toUInt16) ∧
    (self'.offset = self.offset ∨ self'.offset = 0 ∨
      ∃ res flags fixed bufferId, event = .ioCompleted res flags ∧ 0 < res ∧
        self'.offset = self.offset + res.toUInt32 ∧
        .submitRecv fixed bufferId self'.offset.toUInt16 ∈ intents) := by
  cases move with
  | spawned | transient | ignored => exact ⟨by simp, .inl rfl⟩
  | disconnected => exact ⟨by simp, .inr (.inl rfl)⟩
  | endOfStream | closeAgain => exact ⟨by simp, .inr (.inl rfl)⟩
  | retry | closed | late => exact ⟨by simp, .inl rfl⟩
  | received res flags phase next handle positive =>
      exact ⟨by simp, .inr (.inr ⟨res, flags, self.socket, handle, rfl, positive, rfl, by simp⟩)⟩

end ConnMove

namespace Running

variable {s s' : Running} {label : RunLabel} {listeners connHandlers bufCount : UInt32} {base : Nat}

/-- The buffers as `setup` registered them, one iovec for each, at the place of its index. -/
structure Registered (base : Nat) (bufCount : UInt32) (s : Running) : Prop where
  address : s.executor.ioBufs.pool.ptr = base
  size : s.executor.ioBufs.pool.bufSize = bufferSize
  count : s.executor.ioBufs.pool.count = bufCount.toNat
  buffers : s.executor.io.buffers =
    (List.range bufCount.toNat).map fun idx => ⟨base + idx * bufferSize, bufferSize⟩

/-- No step moves the buffers or registers others. -/
theorem Registered.move (registered : Registered base bufCount s) (move : RunMove s label s') :
    Registered base bufCount s' := by
  obtain ⟨address, size, count, buffers⟩ := registered
  cases move with
  | handler _ _ _ _ _ _ _ _ _ _ _ handling =>
      have samePool := handling.pool
      exact ⟨(congrArg AlignedBuffers.ptr samePool).trans address,
        (congrArg AlignedBuffers.bufSize samePool).trans size,
        (congrArg AlignedBuffers.count samePool).trans count, buffers⟩
  | complete index result flags data sqe ioBufs working written =>
      rcases written with rfl | ⟨_, _, rfl⟩ <;> exact ⟨address, size, count, buffers⟩
  | missing | listener | drained | finished | retry | submit | spawned | terminateListener
  | terminate | wait | reap | switch | take => exact ⟨address, size, count, buffers⟩

/-- An iovec for each buffer, when none of the addresses fails. -/
theorem mapM_iovecs {pool : AlignedBuffers} {indices : List Nat} {iovecs : List Iovec}
    (ran : (indices.mapM fun idx => do
      let address ← pool.bufPtr idx
      return ({ iovBase := address, iovLen := 0x1000 } : Iovec)) = (.ok iovecs : Except Fault _)) :
    iovecs = indices.map fun idx => ⟨pool.ptr + idx * pool.bufSize, 0x1000⟩ := by
  induction indices generalizing iovecs with
  | nil =>
      cases ran
      rfl
  | cons idx indices inductionHypothesis =>
      rw [List.mapM_cons] at ran
      obtain ⟨iovec, built, ran⟩ := Outcome.bind_eq_ok.mp ran
      obtain ⟨others, ranOthers, ran⟩ := Outcome.bind_eq_ok.mp ran
      obtain ⟨address, located, built⟩ := Outcome.bind_eq_ok.mp built
      unfold AlignedBuffers.bufPtr at located
      split at located <;> cases located
      cases built
      cases ran
      rw [inductionHypothesis ranOthers]
      rfl

/-- What `setup` registers. -/
theorem registered_start {entries : Nat} {raw : Option (Nat × (Nat → UInt8))}
    (started : start entries listeners connHandlers bufCount raw = .ok s) :
    Registered s.executor.ioBufs.pool.ptr bufCount s := by
  obtain ⟨made, newRan, started⟩ := Outcome.bind_eq_ok.mp started
  obtain ⟨ready, setupRan, started⟩ := Outcome.bind_eq_ok.mp started
  obtain ⟨seeded, seedRan, started⟩ := Outcome.bind_eq_ok.mp started
  cases started
  obtain ⟨_, _, ioBufs, _, _, _, bufsMade, _, rfl⟩ := Executor.new_eq_ok newRan
  obtain ⟨iovecs, located, rfl⟩ := Executor.setup_eq_ok setupRan
  obtain ⟨_, _, _, _, _, rfl⟩ := Executor.seedRunQueue_eq_ok seedRan
  obtain ⟨_, size, count, _⟩ := BufferPool.new_inv bufsMade
  have buffers := mapM_iovecs located
  refine ⟨rfl, size, count, ?_⟩
  rw [← count]
  apply buffers.trans
  rw [size]
  rfl

/-! ### Offsets fit sixteen bits -/

/-- An operation whose completion can reach a handler is a read of at most one buffer, or a close. -/
def Bounded (sqe : Sqe) : Prop :=
  match sqe.op with
  | .acceptMulti _ => (⟨sqe.userData⟩ : ObjectHandle).poolId = tcpServer
  | .readFixed _ _ len _ _ => len.toNat ≤ bufferSize
  | .close _ => True

/-- The counts under way for handlers are those of reads.  A handler is inside its buffer, or goes
less than a buffer beyond it while the receive that will fail is in progress; receives in progress
start at the offset of their handler. -/
structure CountInv (s : Running) : Prop where
  queues : s.QueueInv
  size : s.executor.ioBufs.pool.bufSize = bufferSize
  ops : ∀ sqe ∈ s.ops, Bounded sqe
  accepts : ∀ handle fd, .intent handle (.submitMultishotAccept fd) ∈ s.agenda →
    handle.poolId = tcpServer
  events : ∀ handle res flags, .event ⟨.ioCompleted res flags, handle⟩ ∈ s.agenda →
    handle.poolId = connHandler → res.toNatClampNeg ≤ bufferSize
  recvs : ∀ handle fixed bufferId offset,
    .intent handle (.submitRecv fixed bufferId offset) ∈ s.agenda →
    ∃ handler, s.handlerAt handle.genId = some handler ∧ offset = handler.offset.toUInt16
  offsets : ∀ id handler, s.handlerAt id = some handler → handler.offset.toNat < bufferSize ∨
    (handler.offset.toNat < 2 * bufferSize ∧ ∃ handle fixed bufferId, handle.genId = id ∧
      .intent handle (.submitRecv fixed bufferId handler.offset.toUInt16) ∈ s.agenda)

/-- What the kernel promises on one step. -/
def kernelCounts : Machine.Guard Running RunLabel := fun s label _ =>
  ∀ index result flags data sqe, label = .complete index result flags data →
    s.executor.io.inFlight[index]? = some sqe → sqe.op.Counts result

/-- What the kernel counts of a bounded operation fits a buffer. -/
theorem Bounded.count_le {sqe : Sqe} {result : Int32} (bounded : Bounded sqe)
    (counts : sqe.op.Counts result) (kind : (⟨sqe.userData⟩ : ObjectHandle).poolId = connHandler) :
    result.toNatClampNeg ≤ bufferSize := by
  unfold Bounded at bounded
  cases isOp : sqe.op with
  | acceptMulti fd =>
      rw [isOp] at bounded
      exact absurd bounded (ObjectHandle.notListener kind)
  | readFixed fixed buf len bufIndex bufferId =>
      rw [isOp] at bounded counts
      exact Nat.le_trans counts bounded
  | close fixed =>
      rw [isOp] at counts
      have none : result.toNatClampNeg = 0 := Int32.toNatClampNeg_eq_zero_iff.mpr counts
      rw [none]
      exact Nat.zero_le _

namespace CountInv

/-- While an event is next, every handler is inside its buffer. -/
theorem offset_lt (inv : s.CountInv) {event : RunQueueEvent} {rest : List AgendaItem}
    (agenda : s.agenda = .event event :: rest) {id : GenId} {handler : ConnHandler}
    (found : s.handlerAt id = some handler) : handler.offset.toNat < bufferSize := by
  rcases inv.offsets id handler found with inside | ⟨_, handle, fixed, bufferId, _, pending⟩
  · exact inside
  · exact absurd pending (intent_not_mem agenda _ _)

/-- The offset of a handler that receives fits the cast. -/
theorem offset_cast (inv : s.CountInv) {handle : ObjectHandle} {fixed : Fixed}
    {bufferId : BufferHandle} {offset : UInt16}
    (pending : .intent handle (.submitRecv fixed bufferId offset) ∈ s.agenda) :
    ∃ handler, s.handlerAt handle.genId = some handler ∧
      offset.toNat = handler.offset.toNat := by
  obtain ⟨handler, found, rfl⟩ := inv.recvs handle fixed bufferId offset pending
  refine ⟨handler, found, ?_⟩
  have below : handler.offset.toNat < 2 * bufferSize := by
    rcases inv.offsets _ _ found with inside | ⟨below, _⟩
    · omega
    · exact below
  rw [UInt32.toNat_toUInt16]
  exact Nat.mod_eq_of_lt (below.trans (by decide))

/-- Operations stay bounded: a read asks for no more than a buffer, and only listeners accept. -/
theorem ops_progress (inv : s.CountInv) (progress : s.Progress label s') :
    ∀ sqe ∈ s'.ops, Bounded sqe := by
  intro sqe member
  rcases progress.op_cases member with before | ⟨handle, intent, pending, submits⟩
  · exact inv.ops sqe before
  · cases submits with
    | accept fd => exact inv.accepts handle fd pending
    | recv fixed bufferId offset address inside resolved =>
        change (UInt32.ofNat (s.executor.ioBufs.pool.bufSize - offset.toNat)).toNat ≤ bufferSize
        rw [inv.size, UInt32.toNat_ofNat']
        exact (Nat.mod_le _ _).trans (Nat.sub_le _ _)
    | close fixed => trivial

/-- Only listeners submit accepts. -/
theorem accepts_progress (inv : s.CountInv) (progress : s.Progress label s') (handle : ObjectHandle)
    (fd : Fd) (member : .intent handle (.submitMultishotAccept fd) ∈ s'.agenda) :
    handle.poolId = tcpServer := by
  rcases progress.intent_cases member with
    before | ⟨_, _, _, _, _, _, _, move, submitted⟩ | ⟨_, _, _, _, _, kind, _⟩
  · exact inv.accepts handle fd before
  · exact absurd submitted (move.notListener 0 fd).2
  · exact kind

/-- Completions count what the kernel promises. -/
theorem events_progress (inv : s.CountInv) (progress : s.Progress label s')
    (met : kernelCounts s label s') (handle : ObjectHandle) (res : Int32) (flags : UInt32)
    (member : .event ⟨.ioCompleted res flags, handle⟩ ∈ s'.agenda)
    (kind : handle.poolId = connHandler) : res.toNatClampNeg ≤ bufferSize := by
  rcases progress.event_cases member with
    before | start | ⟨index, result, flags', data, sqe, completes, working, pending, same⟩
  · exact inv.events handle res flags before kind
  · cases start
  · cases same
    exact (inv.ops sqe pending).count_le (met index _ _ data sqe completes working) kind

/-- The receives of an event start at the offset of its handler, which stays until they are
submitted. -/
theorem recvs_progress (inv : s.CountInv) (progress : s.Progress label s') (handle : ObjectHandle)
    (fixed : Fixed) (bufferId : BufferHandle) (offset : UInt16)
    (member : .intent handle (.submitRecv fixed bufferId offset) ∈ s'.agenda) :
    ∃ handler, s'.handlerAt handle.genId = some handler ∧ offset = handler.offset.toUInt16 := by
  rcases progress.intent_cases member with
    before | ⟨_, handler', _, _, _, _, handlers, move, submitted⟩ |
      ⟨_, _, _, _, _, _, _, move, submitted⟩
  · obtain ⟨handler, found, same⟩ := inv.recvs handle fixed bufferId offset before
    refine ⟨handler, ?_, same⟩
    cases progress with
    | idle _ _ _ _ _ handlers | missing _ _ _ _ _ _ handlers | retry _ _ _ _ _ _ _ _ handlers
    | submit _ _ _ _ _ _ _ _ handlers | completed _ _ _ _ _ _ _ _ _ _ _ handlers =>
        exact handlers ▸ found
    | handler _ _ _ _ _ _ _ _ _ _ agenda => exact absurd before (intent_not_mem agenda _ _)
    | listener _ _ _ _ _ _ _ _ _ _ agenda => exact absurd before (intent_not_mem agenda _ _)
    | spawned _ _ _ _ id _ _ _ unbound _ _ _ handlers =>
        rw [handlers, Function.update_of_ne, found]
        rintro rfl
        rw [found] at unbound
        cases unbound
    | terminated _ _ other kind agenda =>
        obtain ⟨intents, phase, rest⟩ := phase_of_agenda agenda
        obtain ⟨alone, _⟩ := inv.queues.handlers.terminate other _ phase (by simp)
        obtain rfl := (List.cons.inj alone).2
        rw [agenda, rest] at before
        simp at before
  · exact ⟨handler', by rw [handlers, Function.update_self], move.recv_offset.1 _ _ _ submitted⟩
  · exact absurd submitted (move.notHandler.2.2 _ _ _)

/-- A handler that stays as it is, and whose receives stay in progress, is where it was. -/
theorem offsets_kept (inv : s.CountInv)
    (kept : ∀ handle fixed bufferId offset,
      .intent handle (.submitRecv fixed bufferId offset) ∈ s.agenda →
      .intent handle (.submitRecv fixed bufferId offset) ∈ s'.agenda)
    {id : GenId} {handler : ConnHandler} (found : s.handlerAt id = some handler) :
    handler.offset.toNat < bufferSize ∨
      (handler.offset.toNat < 2 * bufferSize ∧ ∃ handle fixed bufferId, handle.genId = id ∧
        .intent handle (.submitRecv fixed bufferId handler.offset.toUInt16) ∈ s'.agenda) := by
  rcases inv.offsets id handler found with inside | ⟨below, handle, fixed, bufferId, same, pending⟩
  · exact .inl inside
  · exact .inr ⟨below, handle, fixed, bufferId, same, kept _ _ _ _ pending⟩

/-- A receive that is submitted starts inside the buffer, and so does its handler. -/
theorem submit_offset (inv : s.CountInv) {handle : ObjectHandle} {intent : MachineIntent} {sqe : Sqe}
    {rest : List AgendaItem} (agenda : s.agenda = .intent handle intent :: rest)
    (submits : Submits s.executor handle intent sqe) {id : GenId} {handler : ConnHandler}
    (found : s.handlerAt id = some handler) :
    handler.offset.toNat < bufferSize ∨
      (handler.offset.toNat < 2 * bufferSize ∧ ∃ handle fixed bufferId, handle.genId = id ∧
        .intent handle (.submitRecv fixed bufferId handler.offset.toUInt16) ∈ rest) := by
  rcases inv.offsets id handler found with inside | ⟨below, other, fixed, bufferId, same, pending⟩
  · exact .inl inside
  · have member := pending
    rw [agenda] at member
    rcases List.mem_cons.mp member with first | later
    · cases first
      obtain ⟨handler', found', cast⟩ := inv.offset_cast pending
      rw [same, found] at found'
      cases found'
      cases submits with
      | recv _ _ _ address inside resolved =>
          rw [inv.size, cast] at inside
          exact .inl inside
    · exact .inr ⟨below, other, fixed, bufferId, same, later⟩

/-- A handler goes beyond its buffer only by the count of one read, with the receive that fails next
in progress. -/
theorem offsets_progress (inv : s.CountInv) (progress : s.Progress label s') (id : GenId)
    (handler : ConnHandler) (found : s'.handlerAt id = some handler) :
    handler.offset.toNat < bufferSize ∨
      (handler.offset.toNat < 2 * bufferSize ∧ ∃ handle fixed bufferId, handle.genId = id ∧
        .intent handle (.submitRecv fixed bufferId handler.offset.toUInt16) ∈ s'.agenda) := by
  cases progress with
  | idle _ _ _ agenda _ handlers =>
      rw [handlers] at found
      exact inv.offsets_kept (fun _ _ _ _ pending => agenda ▸ pending) found
  | missing _ _ event absent agenda _ handlers =>
      rw [handlers] at found
      exact .inl (inv.offset_lt agenda found)
  | listener _ _ event listener listener' intents rest kind _ move agenda agenda' _ handlers =>
      rw [handlers] at found
      exact .inl (inv.offset_lt agenda found)
  | handler _ _ event before handler' intents rest kind foundBefore move agenda agenda' _ handlers =>
      rw [handlers] at found
      rcases eq_or_ne id event.handle.genId with rfl | different
      · rw [Function.update_self] at found
        cases found
        have inside := inv.offset_lt agenda foundBefore
        rcases move.recv_offset.2 with
          same | reset | ⟨res, flags, fixed, bufferId, reason, positive, advanced, submitted⟩
        · rw [same]
          exact .inl inside
        · rw [reset]
          exact .inl (by decide)
        · have counted : res.toNatClampNeg ≤ bufferSize := by
            apply inv.events event.handle res flags _ kind
            rw [agenda, ← reason]
            exact List.mem_cons_self
          have small : before.offset.toNat + res.toNatClampNeg < 2 * bufferSize := by omega
          have sum := (ConnMove.toNat_offset_add positive (small.trans (by decide))).1
          refine .inr ⟨by rwa [advanced, sum], event.handle, fixed, bufferId, rfl, ?_⟩
          rw [agenda']
          exact List.mem_append_left _ (List.mem_map_of_mem submitted)
      · rw [Function.update_of_ne different] at found
        exact .inl (inv.offset_lt agenda found)
  | retry _ _ handle front back agenda agenda' _ handlers =>
      rw [handlers] at found
      apply inv.offsets_kept _ found
      intro other fixed bufferId offset pending
      rw [agenda] at pending
      rw [agenda']
      simpa using pending
  | submit _ _ handle intent sqe submits agenda _ handlers =>
      rw [handlers] at found
      exact inv.submit_offset agenda submits found
  | spawned _ _ handle fixed fresh front back small unbound agenda agenda' _ handlers =>
      rw [handlers] at found
      rcases eq_or_ne id fresh with rfl | different
      · rw [Function.update_self] at found
        cases found
        exact .inl (show 0 < bufferSize by decide)
      · rw [Function.update_of_ne different] at found
        apply inv.offsets_kept _ found
        intro other fixed bufferId offset pending
        rw [agenda] at pending
        rw [agenda']
        simpa using pending
  | terminated _ _ handle kind agenda _ handlers =>
      rw [handlers] at found
      rcases eq_or_ne id handle.genId with rfl | different
      · rw [Function.update_self] at found
        cases found
      · rw [Function.update_of_ne different] at found
        apply inv.offsets_kept _ found
        intro other fixed bufferId offset pending
        rw [agenda] at pending
        simpa using pending
  | completed index result flags data _ sqe others working agenda _ _ handlers =>
      rw [handlers] at found
      apply inv.offsets_kept _ found
      intro other fixed bufferId offset pending
      rw [agenda]
      exact List.mem_append_left _ pending

/-- Every step on which the kernel keeps its promise keeps the invariant. -/
theorem move (inv : s.CountInv) (move : RunMove s label s') (met : kernelCounts s label s') :
    s'.CountInv := by
  have progress := inv.queues.progress move
  exact ⟨inv.queues.move move, (bufSize_move move).trans inv.size, inv.ops_progress progress,
    inv.accepts_progress progress, inv.events_progress progress met, inv.recvs_progress progress,
    inv.offsets_progress progress⟩

end CountInv

/-- The invariant at the start of a run. -/
theorem countInv_start {entries : Nat} {raw : Option (Nat × (Nat → UInt8))}
    (started : start entries listeners connHandlers bufCount raw = .ok s) : s.CountInv := by
  obtain ⟨queues, noneFound, noOps, handle, listener, kind, agenda, _⟩ := queueInv_start started
  exact ⟨queues, (registered_start started).size, by simp [noOps], by simp [agenda],
    by simp [agenda], by simp [agenda], by simp [noneFound]⟩

theorem countInv_reach
    (reached : (machine listeners connHandlers bufCount).Reach kernelCounts s) : s.CountInv := by
  apply reached.invariant CountInv
  · rintro s ⟨entries, raw, started⟩
    exact countInv_start started
  · intro s label s' inv stepped met
    exact inv.move (step_move stepped) met

/-! ### The ranges of reads -/

/-- Completing a receive of the handle at the offset builds this read, and does not panic. -/
inductive BuildsRead (s : Running) (handle : ObjectHandle) (bufferId : BufferHandle)
    (offset : UInt16) (buf : Nat) (len : UInt32) (bufIndex : UInt16) : Prop where
  | intro (fixed : Fixed) (rest : List MachineIntent) (executor : Executor)
      (phase : s.phase = .completeIntent handle (.submitRecv fixed bufferId offset :: rest))
      (ran : s.executor.completeIntent handle (.submitRecv fixed bufferId offset) = .ok executor)
      (entry : executor.io.sq = s.executor.io.sq ++
        [{ op := .readFixed fixed buf len bufIndex bufferId, userData := handle.val }])

section Ranges

variable {handle : ObjectHandle} {bufferId : BufferHandle} {offset : UInt16} {buf : Nat}
  {len : UInt32} {bufIndex : UInt16}

/-- The slot of the block of buffers that the handle names. -/
def bufferExtent (base : Nat) (bufferId : BufferHandle) : Extent :=
  Extent.slot base bufferSize bufferId.id.index.toNat

/-- A read is what is left of its buffer behind the offset. -/
theorem BuildsRead.range (builds : s.BuildsRead handle bufferId offset buf len bufIndex)
    (registered : Registered base bufCount s) :
    offset.toNat < bufferSize ∧ bufferId.id.index.toNat < bufCount.toNat ∧
      s.executor.ioBufs.getMut bufferId = .ok (some (bufferExtent base bufferId).start) ∧
      bufIndex = bufferId.id.index.toUInt16 ∧
      (⟨buf, len.toNat⟩ : Extent) = (bufferExtent base bufferId).drop offset.toNat := by
  obtain ⟨fixed, rest, executor, phase, ran, entry⟩ := builds
  obtain ⟨address, inside, resolved, rfl⟩ := Executor.submitRecv_eq_ok ran
  have same := List.append_cancel_left entry
  simp only [List.cons.injEq, Sqe.mk.injEq, Op.readFixed.injEq, true_and, and_true] at same
  obtain ⟨rfl, rfl, rfl⟩ := same
  rcases BufferPool.getMut_inv resolved with ⟨_, none⟩ | ⟨_, indexed, some⟩
  · cases none
  · rw [registered.count] at indexed
    rw [registered.address, registered.size] at some
    cases some
    rw [registered.size] at inside ⊢
    have length : (UInt32.ofNat (bufferSize - offset.toNat)).toNat = bufferSize - offset.toNat := by
      rw [UInt32.toNat_ofNat']
      exact Nat.mod_eq_of_lt ((Nat.sub_le _ _).trans_lt (by decide))
    refine ⟨inside, indexed, resolved, rfl, ?_⟩
    rw [length]
    rfl

/-- The iovec registered for a buffer. -/
theorem Registered.iovec (registered : Registered base bufCount s)
    (indexed : bufferId.id.index.toNat < bufCount.toNat) :
    s.executor.io.buffers[bufferId.id.index.toNat]? =
      some ⟨(bufferExtent base bufferId).start, bufferSize⟩ := by
  rw [registered.buffers, List.getElem?_map, List.getElem?_range indexed]
  rfl

/-- In every run the buffers are those that `setup` registered. -/
theorem registered_reach (reached : (machine listeners connHandlers bufCount).Reachable s) :
    ∃ base, Registered base bufCount s := by
  induction reached with
  | initial begun =>
      obtain ⟨entries, raw, started⟩ := begun
      exact ⟨_, registered_start started⟩
  | step label _ stepped _ inductionHypothesis =>
      obtain ⟨base, registered⟩ := inductionHypothesis
      exact ⟨base, registered.move (step_move stepped)⟩

theorem Registered.leads (registered : Registered base bufCount s)
    (leads : (machine listeners connHandlers bufCount).Leads s s') :
    Registered base bufCount s' := by
  induction leads with
  | refl => exact registered
  | tail _ stepped inductionHypothesis =>
      obtain ⟨label, stepped⟩ := stepped
      exact inductionHypothesis.move (step_move stepped)

/-- In every run with at most 65536 buffers, a read that is built names the iovec of the buffer of
its handle by its index, and the rest of that buffer behind the offset, at least one byte; the casts
of index and length keep the values, and so does that of the offset on a kernel that counts no more
bytes than a read asked for.  The reads built in one run for two handles that are valid at one time
are apart. -/
theorem read_ranges (few : bufCount.toNat ≤ 65536)
    (reached : (machine listeners connHandlers bufCount).Reachable s)
    (builds : s.BuildsRead handle bufferId offset buf len bufIndex) :
    bufIndex.toNat = bufferId.id.index.toNat ∧
    (∃ iovec, s.executor.io.buffers[bufIndex.toNat]? = some iovec ∧
      s.executor.ioBufs.getMut bufferId = .ok (some iovec.iovBase) ∧
      iovec.iovLen = s.executor.ioBufs.pool.bufSize ∧ buf = iovec.iovBase + offset.toNat ∧
      len.toNat = iovec.iovLen - offset.toNat ∧ 0 < len.toNat ∧
      (⟨buf, len.toNat⟩ : Extent).Within iovec.extent) ∧
    ((machine listeners connHandlers bufCount).Reach kernelCounts s →
      ∃ handler, s.handlerAt handle.genId = some handler ∧
        offset.toNat = handler.offset.toNat) ∧
    ∀ s' handle' bufferId' offset' buf' len' bufIndex',
      (machine listeners connHandlers bufCount).Leads s s' →
      s'.BuildsRead handle' bufferId' offset' buf' len' bufIndex' → bufferId ≠ bufferId' →
      (∃ t : Running, t.executor.ioBufs.isValid bufferId = true ∧
        t.executor.ioBufs.isValid bufferId' = true) →
      (⟨buf, len.toNat⟩ : Extent).Apart ⟨buf', len'.toNat⟩ := by
  obtain ⟨base, registered⟩ := registered_reach reached
  obtain ⟨inside, indexed, resolved, rfl, range⟩ := builds.range registered
  have index : bufferId.id.index.toUInt16.toNat = bufferId.id.index.toNat := by
    rw [UInt32.toNat_toUInt16]
    exact Nat.mod_eq_of_lt (indexed.trans_le few)
  have within : ((bufferExtent base bufferId).drop offset.toNat).Within (bufferExtent base bufferId) :=
    Extent.drop_within inside.le
  refine ⟨index, ⟨_, index ▸ registered.iovec indexed, resolved, registered.size.symm, ?_, ?_, ?_, ?_⟩,
    ?_, ?_⟩
  · exact congrArg Extent.start range
  · exact congrArg Extent.len range
  · have length : len.toNat = bufferSize - offset.toNat := congrArg Extent.len range
    omega
  · rw [range]
    exact within
  · intro counted
    obtain ⟨fixed, rest, executor, phase, _, _⟩ := builds
    apply (countInv_reach counted).offset_cast
    rw [agenda_intent phase]
    exact List.mem_cons_self
  · rintro s' handle' bufferId' offset' buf' len' bufIndex' leads builds' different ⟨t, valid, valid'⟩
    obtain ⟨inside', _, _, _, range'⟩ := builds'.range (registered.leads leads)
    have indices : bufferId.id.index.toNat ≠ bufferId'.id.index.toNat := fun same =>
      different (BufferHandle.ext (GenAlloc.isValid.unique valid valid' (UInt32.toNat_inj.mp same)))
    rw [range, range']
    exact (Extent.slots_apart indices).within within (Extent.drop_within inside'.le)

end Ranges

/-- Whether completing the only intent left builds this read. -/
def isBuilt (s : Running) (handle : ObjectHandle) (fixed : Fixed) (bufferId : BufferHandle)
    (offset : UInt16) (buf : Nat) (len : UInt32) (bufIndex : UInt16) : Bool :=
  let read : Sqe := { op := .readFixed fixed buf len bufIndex bufferId, userData := handle.val }
  s.phase == .completeIntent handle [.submitRecv fixed bufferId offset] &&
    match s.executor.completeIntent handle (.submitRecv fixed bufferId offset) with
    | .ok executor => executor.io.sq == s.executor.io.sq ++ [read]
    | .error _ => false

theorem buildsRead_of_isBuilt {handle : ObjectHandle} {fixed : Fixed} {bufferId : BufferHandle}
    {offset : UInt16} {buf : Nat} {len : UInt32} {bufIndex : UInt16}
    (built : s.isBuilt handle fixed bufferId offset buf len bufIndex = true) :
    s.BuildsRead handle bufferId offset buf len bufIndex := by
  obtain ⟨phase, built⟩ := Bool.and_eq_true_iff.mp built
  split at built
  · rename_i executor ran
    exact .intro fixed [] executor (beq_iff_eq.mp phase) ran (beq_iff_eq.mp built)
  · cases built

/-- `kernelCounts`, as a test. -/
def isCounted (s : Running) : RunLabel → Bool
  | .complete index result _ _ =>
      s.executor.io.inFlight[index]?.all fun sqe => decide (sqe.op.Counts result)
  | .tick _ | .take => true

theorem isCounted_sound (passed : s.isCounted label = true) : kernelCounts s label s' := by
  rintro index result flags data sqe rfl working
  simpa [isCounted, working] using passed

set_option maxRecDepth 100000 in
/-- The second read of the first connection asks for the rest of the second buffer behind three bytes,
and the first read of the second connection for the whole first buffer. -/
theorem read_ranges_first :
    ∃ s s' : Running, (machine 1 2 2).Reach kernelCounts s ∧ (machine 1 2 2).Leads s s' ∧
      s.BuildsRead ⟨0x0200000100000000⟩ ⟨⟨1, 0⟩⟩ 3 0x2003 4093 1 ∧
      s'.BuildsRead ⟨0x0200000000000000⟩ ⟨⟨0, 0⟩⟩ 0 0x1000 0x1000 0 ∧
      (∃ iovec, s.executor.io.buffers[1]? = some iovec ∧
        Extent.Within ⟨0x2003, 4093⟩ iovec.extent) ∧
      (∃ handler, s.handlerAt ⟨1, 0⟩ = some handler ∧ handler.offset.toNat = 3) ∧
      Extent.Apart ⟨0x2003, 4093⟩ ⟨0x1000, 0x1000⟩ := by
  let accepts : List RunLabel := ticks 3 ++ [.complete 0 1 2 []] ++ ticks 7
  let later (s : Running) : Option Running := (machine 1 2 2).run (fun _ _ _ => true) s accepts
  let ends (s' : Running) : Bool :=
    s'.isBuilt ⟨0x0200000000000000⟩ 1 ⟨⟨0, 0⟩⟩ 0 0x1000 0x1000 0 &&
      s'.executor.ioBufs.isValid ⟨⟨1, 0⟩⟩ && s'.executor.ioBufs.isValid ⟨⟨0, 0⟩⟩
  obtain ⟨s, reached, tested⟩ : ∃ s, (machine 1 2 2).Reach kernelCounts s ∧
      (s.isBuilt ⟨0x0200000100000000⟩ 0 ⟨⟨1, 0⟩⟩ 3 0x2003 4093 1 && (later s).any ends) = true :=
    @exists_reach_of_start 16 1 2 2 (some (0x1000, fun _ => 0)) _ (fun s label _ => s.isCounted label)
      (fun _ _ _ passed => isCounted_sound passed)
      (acceptOne ++ [.take, .complete 1 3 0 [1, 2, 3]] ++ ticks 4) _ (by decide +kernel)
  obtain ⟨built, tested⟩ := Bool.and_eq_true_iff.mp tested
  obtain ⟨s', ran, tested⟩ := (Option.any_eq_true _ _).mp tested
  simp only [ends, Bool.and_eq_true] at tested
  obtain ⟨⟨built', valid⟩, valid'⟩ := tested
  have builds := buildsRead_of_isBuilt built
  have builds' := buildsRead_of_isBuilt built'
  have leads : (machine 1 2 2).Leads s s' := Machine.run_leads ran
  obtain ⟨_, ⟨iovec, listed, _, _, _, _, _, within⟩, casts, apart⟩ :=
    read_ranges (by decide) reached.reachable builds
  obtain ⟨handler, found, same⟩ := casts reached
  exact ⟨s, s', reached, leads, builds, builds', ⟨iovec, listed, within⟩,
    ⟨handler, found, same.symm⟩,
    apart s' _ _ _ _ _ _ leads builds' (by decide) ⟨s', valid, valid'⟩⟩

end Running

end Hoarder
