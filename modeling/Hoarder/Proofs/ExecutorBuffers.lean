/-
Module: Hoarder.Proofs.ExecutorBuffers
Purpose: Buffers under the running executor.  `BufferInv` ties the buffer pool to the connection
  handlers and to the intents in progress.  It survives every step in which no repeated close finds
  its old handle valid again; with a further condition on the dispatched results, receives name
  valid buffers, and reads in flight keep theirs.
Trusted boundary: none
Main exports: Running.bufOwner, Running.BufferInv, Running.noReissue, Running.BufferInv.move,
  Running.noDisconnect, Running.recv_buffer_valid, Running.quietClose,
  Running.read_buffer_outstanding
-/
import Hoarder.Proofs.ExecutorHandlers

namespace Hoarder

open Foundation

namespace Running

variable {s s' : Running} {label : RunLabel}

/-- The buffer each connection handler is receiving into, by the id of the handler. -/
def bufOwner (s : Running) (id : GenId) : Option BufferHandle :=
  (s.handlerAt id).bind ConnHandler.receiving?

/-- The handlers that are receiving own their buffers, and all other buffers are free.  A receive in
progress names the buffer of the handler that submitted it, or one that is no longer valid. -/
structure BufferInv (s : Running) : Prop where
  handlers : s.HandlerInv
  owns : s.executor.ioBufs.Owns s.bufOwner
  recv : ∀ handle intents, s.phase = .completeIntent handle intents →
    ∀ fixed bufferId offset, .submitRecv fixed bufferId offset ∈ intents →
      s.executor.ioBufs.isValid bufferId = true →
      handle.poolId = connHandler ∧ s.bufOwner handle.genId = some bufferId

/-- The condition on one step that a repeated close does not find its old handle valid again, which
takes `2^32` uses of the buffer in the meantime. -/
def noReissue : Machine.Guard Running RunLabel := fun s label _ =>
  ∀ event handler, s.Dispatches label event handler → handler.state = .closing →
    ∀ res flags bufferId, event.reason = .ioCompleted res flags → res ≠ 0 →
      handler.bufHandle? = some bufferId → s.executor.ioBufs.isValid bufferId = false

/-- What resolving one id differently means for the owners. -/
theorem bufOwner_update {id : GenId} {handler : Option ConnHandler}
    (handlers : s'.handlerAt = Function.update s.handlerAt id handler) :
    s'.bufOwner = Function.update s.bufOwner id (handler.bind ConnHandler.receiving?) := by
  funext other
  rw [bufOwner, handlers]
  rcases eq_or_ne other id with rfl | different
  · rw [Function.update_self, Function.update_self]
  · rw [Function.update_of_ne different, Function.update_of_ne different, bufOwner]

/-- What a handler that is dispatched to owns. -/
theorem BufferInv.owner (inv : s.BufferInv) {event : RunQueueEvent} {handler : ConnHandler}
    (dispatches : s.Dispatches label event handler) :
    s.bufOwner event.handle.genId = handler.receiving? := by
  rw [bufOwner, inv.handlers.found dispatches]
  rfl

/-- The owners change only when a handler processes an event. -/
theorem bufOwner_step (step : s.HandlerStep label s') :
    (s'.bufOwner = s.bufOwner ∧
      s'.executor.ioBufs.genAlloc = s.executor.ioBufs.genAlloc ∧
      ∀ event handler, ¬ s.Dispatches label event handler) ∨
    ∃ event handler handler' intents, s.Dispatches label event handler ∧
      ConnMove handler s.executor.ioBufs event.reason handler' s'.executor.ioBufs intents ∧
      s'.phase = .completeIntent event.handle intents ∧
      s'.bufOwner = Function.update s.bufOwner event.handle.genId handler'.receiving? := by
  cases step with
  | same handlers genAlloc notDispatched =>
      refine .inl ⟨?_, genAlloc, notDispatched⟩
      funext id
      rw [bufOwner, handlers, bufOwner]
  | event event handler handler' intents dispatches found move handlers phase io =>
      exact .inr ⟨event, handler, handler', intents, dispatches, move, phase,
        bufOwner_update handlers⟩
  | spawned handle fixed rest id phase phase' small unbound handlers genAlloc =>
      refine .inl ⟨?_, genAlloc, not_dispatches phase (by simp)⟩
      rw [bufOwner_update handlers]
      apply Function.update_eq_self_iff.mpr
      rw [bufOwner, unbound]
      rfl
  | terminated handle handler phase phase' found closed handlers genAlloc =>
      refine .inl ⟨?_, genAlloc, not_dispatches phase (by simp)⟩
      rw [bufOwner_update handlers]
      apply Function.update_eq_self_iff.mpr
      rw [bufOwner, found]
      exact (ConnHandler.receiving?_none (by simp [closed])).symm

/-- Every step keeps the invariant, unless a repeated close frees a reissued buffer. -/
theorem BufferInv.move (inv : s.BufferInv) (move : RunMove s label s')
    (met : noReissue s label s') : s'.BufferInv := by
  have handlers' := inv.handlers.move move
  rcases bufOwner_step (inv.handlers.step move).1 with
    ⟨owner', genAlloc, notDispatched⟩ | ⟨event, handler, _, _, dispatches, handling, phase, owner'⟩
  · refine ⟨handlers', ?_, fun handle intents phase' fixed bufferId offset submitted valid => ?_⟩
    · rw [owner']
      simpa only [BufferPool.Owns, genAlloc] using inv.owns
    · rw [BufferPool.isValid, genAlloc] at valid
      rw [owner']
      rcases intent_cases move phase' (List.ne_nil_of_mem submitted) with
        ⟨before | ⟨_, before⟩, _⟩ | ⟨_, _, _, _, listening⟩ | ⟨_, _, _, _, dispatches, _⟩
      · exact inv.recv handle intents before fixed bufferId offset submitted valid
      · exact inv.recv handle _ before fixed bufferId offset (List.mem_cons_of_mem _ submitted)
          valid
      · exact absurd submitted (listening.notHandler.2.2 fixed bufferId offset)
      · exact absurd dispatches (notDispatched _ _)
  · have owner := inv.owner dispatches
    refine ⟨handlers', ?_, fun handle intents phase' fixed bufferId offset submitted valid => ?_⟩
    · rw [owner']
      exact handling.owns inv.owns event.handle.genId owner
        fun res flags bufferId start reason nonzero held =>
          met event handler dispatches start res flags bufferId reason nonzero held
    · rw [phase] at phase'
      cases phase'
      refine ⟨dispatches.kind, ?_⟩
      rcases handling.submitRecv inv.owns event.handle.genId owner submitted with
        holds | ⟨_, invalid⟩
      · rw [owner', Function.update_self, holds]
      · rw [invalid] at valid
        cases valid

/-- The invariant at the start of a run. -/
theorem bufferInv_start {entries : Nat} {listeners connHandlers bufCount : UInt32}
    {raw : Option (Nat × (Nat → UInt8))}
    (started : start entries listeners connHandlers bufCount raw = .ok s) : s.BufferInv := by
  obtain ⟨phase, _, bufsMade, _⟩ := start_fields started
  obtain ⟨inv, noneFound⟩ := handlerInv_start started
  refine ⟨inv, (BufferPool.new_owns bufsMade).1.congr fun id => ?_, by simp [phase]⟩
  rw [bufOwner, noneFound]
  rfl

/-! ### Receives name valid buffers -/

/-- The condition on one step that no error of the kind that closes a connection is dispatched to a
handler in `Recv`. -/
def noDisconnect : Machine.Guard Running RunLabel := fun s label _ =>
  ∀ event handler, s.Dispatches label event handler →
    ∀ phase res flags, handler.state = .recv phase → event.reason = .ioCompleted res flags →
      Errno.fromRawSyscallError res ∉ ConnHandler.disconnectErrnos

/-- The receives in progress name valid buffers. -/
def RecvsValid (s : Running) : Prop :=
  ∀ handle intents, s.phase = .completeIntent handle intents →
    ∀ fixed bufferId offset, .submitRecv fixed bufferId offset ∈ intents →
      s.executor.ioBufs.isValid bufferId = true

theorem RecvsValid.move (valid : s.RecvsValid) (inv : s.BufferInv) (move : RunMove s label s')
    (noReissued : noReissue s label s') (met : noDisconnect s label s') : s'.RecvsValid := by
  intro handle intents phase' fixed bufferId offset submitted
  rcases intent_cases move phase' (List.ne_nil_of_mem submitted) with
    ⟨before, genAlloc⟩ | ⟨_, _, _, _, listening⟩ | ⟨event, handler, handler', _, dispatches, handling⟩
  · rw [BufferPool.isValid, genAlloc]
    rcases before with before | ⟨intent, before⟩
    · exact valid handle _ before fixed bufferId offset submitted
    · exact valid handle _ before fixed bufferId offset (List.mem_cons_of_mem _ submitted)
  · exact absurd submitted (listening.notHandler.2.2 fixed bufferId offset)
  · have owner := inv.owner dispatches
    have owns' := handling.owns inv.owns event.handle.genId owner
      fun res flags bufferId start reason nonzero held =>
        noReissued event handler dispatches start res flags bufferId reason nonzero held
    rcases handling.submitRecv inv.owns event.handle.genId owner submitted with
      holds | ⟨⟨phase, res, flags, start, reason, kind⟩, _⟩
    · exact owns'.valid (by rw [Function.update_self, holds])
    · exact absurd kind (met event handler dispatches phase res flags start reason)

/-- The condition on one step of `recv_buffer_valid`. -/
def recvGuard : Machine.Guard Running RunLabel := fun s label s' =>
  noDisconnect s label s' ∧ noReissue s label s'

theorem bufferInv_recvsValid {listeners connHandlers bufCount : UInt32}
    (reached : (machine listeners connHandlers bufCount).Reach recvGuard s) :
    s.BufferInv ∧ s.RecvsValid := by
  refine reached.invariant (fun s => s.BufferInv ∧ s.RecvsValid) ?_ ?_
  · rintro s ⟨entries, raw, started⟩
    refine ⟨bufferInv_start started, ?_⟩
    intro handle intents phase
    rw [(start_fields started).1] at phase
    cases phase
  · rintro s label s' ⟨inv, valid⟩ stepped ⟨disconnect, reissue⟩
    have move := step_move stepped
    exact ⟨inv.move move reissue, valid.move inv move reissue disconnect⟩

/-- After an error that closes a connection the receive in progress names the freed buffer. -/
theorem noDisconnect_of_valid (inv : s.BufferInv) (move : RunMove s label s')
    (valid : s'.RecvsValid) : noDisconnect s label s' := by
  intro event handler dispatches phase res flags start reason disconnect
  obtain ⟨handler', intents, handling, phase', _⟩ := dispatches.move move
  rw [reason] at handling
  obtain ⟨freed, submitted⟩ := handling.ends start (.inr disconnect)
  obtain ⟨bufferId, held, member⟩ := submitted disconnect
  have owner := inv.owner dispatches
  rw [ConnHandler.receiving?_recv start] at owner
  have invalid := (ConnHandler.freeBuffer_owns inv.owns owner freed).2 bufferId held
  rw [valid event.handle intents phase' _ bufferId 0 member] at invalid
  cases invalid

/-- Any number of connections, any completions: along every run in which no error that closes a
connection is dispatched to a handler in `Recv`, and no repeated close frees a reissued buffer,
every receive in progress names a valid buffer, and completing it does not panic on the buffer.
From a state of such a run, a step keeps this exactly if it dispatches no such error. -/
theorem recv_buffer_valid {listeners connHandlers bufCount : UInt32}
    (reached : (machine listeners connHandlers bufCount).Reach recvGuard s) :
    s.RecvsValid ∧
      (∀ handle fixed bufferId offset rest,
        s.phase = .completeIntent handle (.submitRecv fixed bufferId offset :: rest) →
        s.executor.completeIntent handle (.submitRecv fixed bufferId offset) ≠
          .error .recvBuffer) ∧
      ∀ label s', s.step label = some s' → noReissue s label s' →
        (s'.RecvsValid ↔ noDisconnect s label s') := by
  obtain ⟨inv, valid⟩ := bufferInv_recvsValid reached
  refine ⟨valid, fun handle fixed bufferId offset rest phase => ?_,
    fun label s' stepped reissue => ?_⟩
  · intro failed
    rcases Executor.submitRecv_error failed with ⟨other, _⟩ | ⟨_, invalid⟩ | other | other
    · cases other
    · rw [valid handle _ phase fixed bufferId offset (by simp)] at invalid
      cases invalid
    · cases other
    · cases other
  · have move := step_move stepped
    exact ⟨noDisconnect_of_valid inv move, valid.move inv move reissue⟩

/-- `recvGuard`, as a test. -/
def isRecvGuarded (s : Running) (label : RunLabel) : Bool :=
  (s.dispatched? label).all fun (event, handler) =>
    match handler.state, event.reason with
    | .recv _, .ioCompleted res _ =>
        Errno.fromRawSyscallError res ∉ ConnHandler.disconnectErrnos
    | .closing, .ioCompleted _ _ =>
        handler.bufHandle?.all fun bufferId => !s.executor.ioBufs.isValid bufferId
    | _, _ => true

theorem isRecvGuarded_sound (passed : s.isRecvGuarded label = true) : recvGuard s label s' := by
  constructor
  · intro event handler dispatches phase res flags start reason
    simpa [isRecvGuarded, dispatches.dispatched, start, reason] using passed
  · intro event handler dispatches start res flags bufferId reason _ held
    simpa [isRecvGuarded, dispatches.dispatched, start, reason, held] using passed

set_option maxRecDepth 100000 in
/-- After `EAGAIN` two receives are in progress, and both name the handler's buffer. -/
theorem recv_buffer_valid_twice :
    ∃ s : Running, s.phase = .completeIntent ⟨0x0200000000000000⟩
        [.submitRecv 0 ⟨⟨0, 0⟩⟩ 0, .submitRecv 0 ⟨⟨0, 0⟩⟩ 0] ∧ s.RecvsValid := by
  obtain ⟨s, reached, ends⟩ := @exists_reach_of_start 16 1 1 1 (some (0x1000, fun _ => 0)) _
    (fun s label _ => s.isRecvGuarded label) (fun _ _ _ passed => isRecvGuarded_sound passed)
    (acceptOne ++ [.take, .complete 1 (-11) 0 []] ++ ticks 4)
    (fun s => s.phase == .completeIntent ⟨0x0200000000000000⟩
      [.submitRecv 0 ⟨⟨0, 0⟩⟩ 0, .submitRecv 0 ⟨⟨0, 0⟩⟩ 0]) rfl
  exact ⟨s, beq_iff_eq.mp ends, (recv_buffer_valid reached).1⟩

set_option maxRecDepth 100000 in
/-- After `ECONNRESET` the receive in progress names the freed buffer, and completing it panics. -/
theorem recv_buffer_invalid_after_reset :
    ∃ s : Running, (machine 1 1 1).Reachable s ∧
      s.phase = .completeIntent ⟨0x0200000000000000⟩ [.submitRecv 0 ⟨⟨0, 0⟩⟩ 0] ∧
      s.executor.ioBufs.isValid ⟨⟨0, 0⟩⟩ = false ∧
      s.executor.completeIntent ⟨0x0200000000000000⟩ (.submitRecv 0 ⟨⟨0, 0⟩⟩ 0) =
        .error .recvBuffer := by
  obtain ⟨s, reached, ends⟩ := @exists_reach_of_start 16 1 1 1 (some (0x1000, fun _ => 0)) _
    (fun _ _ _ => true) (fun _ _ _ _ => trivial)
    (acceptOne ++ [.take, .complete 1 (-104) 0 []] ++ ticks 5)
    (fun s =>
      (s.phase == .completeIntent ⟨0x0200000000000000⟩ [.submitRecv 0 ⟨⟨0, 0⟩⟩ 0]) &&
        !s.executor.ioBufs.isValid ⟨⟨0, 0⟩⟩ && s.executor.ioBufs.pool.bufSize == 0x1000) rfl
  simp only [Bool.and_eq_true, beq_iff_eq, Bool.not_eq_true'] at ends
  obtain ⟨⟨phase, invalid⟩, size⟩ := ends
  refine ⟨s, reached, phase, invalid, ?_⟩
  have resolved : s.executor.ioBufs.getMut ⟨⟨0, 0⟩⟩ = .ok none :=
    BufferPool.getMut_invalid invalid
  simp [Executor.completeIntent, resolved, size]

/-! ### Reads in flight keep their buffers -/

/-- The condition on one step that a completion that ends a connection in `Recv` is dispatched only
while no other read of the connection is submitted and not completed. -/
def quietClose : Machine.Guard Running RunLabel := fun s label _ =>
  ∀ event handler, s.Dispatches label event handler →
    ∀ phase res flags, handler.state = .recv phase → event.reason = .ioCompleted res flags →
      res = 0 ∨ Errno.fromRawSyscallError res ∈ ConnHandler.disconnectErrnos →
      ∀ sqe ∈ s.executor.io.sq ++ s.executor.io.inFlight,
        ∀ fixed buf len bufIndex bufferId, sqe.op = .readFixed fixed buf len bufIndex bufferId →
          sqe.userData ≠ event.handle.val

/-- Every read in flight belongs to a handler that is receiving into the buffer of the read. -/
def ReadsOwned (s : Running) : Prop :=
  ∀ sqe ∈ s.executor.io.sq ++ s.executor.io.inFlight,
    ∀ fixed buf len bufIndex bufferId, sqe.op = .readFixed fixed buf len bufIndex bufferId →
      (ObjectHandle.mk sqe.userData).poolId = connHandler ∧
        s.bufOwner (ObjectHandle.mk sqe.userData).genId = some bufferId

theorem ReadsOwned.move (reads : s.ReadsOwned) (inv : s.BufferInv) (move : RunMove s label s')
    (met : quietClose s label s') : s'.ReadsOwned := by
  intro sqe member fixed buf len bufIndex bufferId isRead
  rcases submitted_cases move member with before | ⟨handle, intent, rest, phase, submits⟩
  · obtain ⟨kind, owner⟩ := reads sqe before fixed buf len bufIndex bufferId isRead
    refine ⟨kind, ?_⟩
    rcases bufOwner_step (inv.handlers.step move).1 with
      ⟨same, _⟩ | ⟨event, handler, handler', intents, dispatches, handling, _, owner'⟩
    · rw [same]
      exact owner
    · rw [owner']
      by_cases sameId : (ObjectHandle.mk sqe.userData).genId = event.handle.genId
      · -- The read belongs to the handler of the event, so the event does not end the connection.
        have sameHandle : ObjectHandle.mk sqe.userData = event.handle :=
          ObjectHandle.eq_of_fields (kind.trans dispatches.kind.symm) sameId
        rw [sameId, inv.owner dispatches] at owner
        rw [sameId, Function.update_self]
        rcases handling.keeps owner with kept | ⟨phase, res, flags, start, reason, ends⟩
        · exact kept
        · exact absurd (congrArg ObjectHandle.val sameHandle)
            (met event handler dispatches phase res flags start reason ends sqe before fixed buf
              len bufIndex bufferId isRead)
      · rw [Function.update_of_ne sameId]
        exact owner
  · cases submits with
    | recv _ _ offset address inside resolved =>
        cases isRead
        obtain ⟨kind, owner⟩ :=
          inv.recv handle _ phase fixed bufferId offset (by simp) (BufferPool.valid_of_getMut resolved)
        refine ⟨kind, ?_⟩
        rcases bufOwner_step (inv.handlers.step move).1 with
          ⟨same, _⟩ | ⟨_, _, _, _, dispatches, _⟩
        · rw [same]
          exact owner
        · exact absurd dispatches (not_dispatches phase (by simp) _ _)
    | accept fd => cases isRead
    | close _ => cases isRead

/-- The condition on one step of `read_buffer_outstanding`. -/
def readGuard : Machine.Guard Running RunLabel := fun s label s' =>
  quietClose s label s' ∧ noReissue s label s'

theorem bufferInv_readsOwned {listeners connHandlers bufCount : UInt32}
    (reached : (machine listeners connHandlers bufCount).Reach readGuard s) :
    s.BufferInv ∧ s.ReadsOwned := by
  refine reached.invariant (fun s => s.BufferInv ∧ s.ReadsOwned) ?_ ?_
  · rintro s ⟨entries, raw, started⟩
    obtain ⟨_, _, _, sq, inFlight, _⟩ := start_fields started
    exact ⟨bufferInv_start started, by simp [ReadsOwned, sq, inFlight]⟩
  · rintro s label s' ⟨inv, reads⟩ stepped ⟨quiet, reissue⟩
    have move := step_move stepped
    exact ⟨inv.move move reissue, reads.move inv move quiet⟩

/-- The buffer of every read that is submitted and not completed is outstanding. -/
def ReadsOutstanding (s : Running) : Prop :=
  ∀ sqe ∈ s.executor.io.sq ++ s.executor.io.inFlight,
    ∀ fixed buf len bufIndex bufferId, sqe.op = .readFixed fixed buf len bufIndex bufferId →
      s.executor.ioBufs.Outstanding bufferId

theorem ReadsOwned.outstanding (reads : s.ReadsOwned) (inv : s.BufferInv) :
    s.ReadsOutstanding := by
  intro sqe member fixed buf len bufIndex bufferId isRead
  obtain ⟨_, owner⟩ := reads sqe member fixed buf len bufIndex bufferId isRead
  exact inv.owns.outstanding_iff.mpr ⟨_, owner⟩

/-- A connection that ends while a read of it is submitted takes the buffer from the read. -/
theorem quietClose_of_outstanding (inv : s.BufferInv) (reads : s.ReadsOwned)
    (move : RunMove s label s') (outstanding : s'.ReadsOutstanding) : quietClose s label s' := by
  intro event handler dispatches phase res flags start reason ended sqe member fixed buf len
    bufIndex bufferId isRead sameHandle
  obtain ⟨handler', intents, handling, _, io⟩ := dispatches.move move
  rw [reason] at handling
  have owner := inv.owner dispatches
  obtain ⟨_, readOwner⟩ := reads sqe member fixed buf len bufIndex bufferId isRead
  rw [show ObjectHandle.mk sqe.userData = event.handle by rw [sameHandle], owner,
    ConnHandler.receiving?_recv start] at readOwner
  rw [ConnHandler.receiving?_recv start] at owner
  have invalid := (ConnHandler.freeBuffer_owns inv.owns owner (handling.ends start ended).1).2
    bufferId readOwner
  have valid := (outstanding sqe (by rwa [io]) fixed buf len bufIndex bufferId isRead).1
  rw [invalid] at valid
  cases valid

/-- Any number of connections, any order and results of completions: along every run in which a
completion that ends a connection in `Recv` finds no other read of the connection submitted and not
completed, and no repeated close frees a reissued buffer, the buffer of every read that is
submitted and not completed is outstanding.  From a state of such a run, a step keeps this exactly
if it meets the condition. -/
theorem read_buffer_outstanding {listeners connHandlers bufCount : UInt32}
    (reached : (machine listeners connHandlers bufCount).Reach readGuard s) :
    s.ReadsOutstanding ∧ ∀ label s', s.step label = some s' → noReissue s label s' →
      (s'.ReadsOutstanding ↔ quietClose s label s') := by
  obtain ⟨inv, reads⟩ := bufferInv_readsOwned reached
  refine ⟨reads.outstanding inv, fun label s' stepped reissue => ?_⟩
  have move := step_move stepped
  exact ⟨quietClose_of_outstanding inv reads move,
    fun quiet => (reads.move inv move quiet).outstanding (inv.move move reissue)⟩

/-- `readGuard`, as a test. -/
def isReadGuarded (s : Running) (label : RunLabel) : Bool :=
  (s.dispatched? label).all fun (event, handler) =>
    match handler.state, event.reason with
    | .recv _, .ioCompleted _ _ =>
        (s.executor.io.sq ++ s.executor.io.inFlight).all fun sqe =>
          sqe.userData != event.handle.val
    | .closing, .ioCompleted _ _ =>
        handler.bufHandle?.all fun bufferId => !s.executor.ioBufs.isValid bufferId
    | _, _ => true

theorem isReadGuarded_sound (passed : s.isReadGuarded label = true) : readGuard s label s' := by
  constructor
  · intro event handler dispatches phase res flags start reason _ sqe member _ _ _ _ _ _
    simp only [isReadGuarded, dispatches.dispatched, start, reason, Option.all_some,
      List.all_eq_true] at passed
    simpa using passed sqe member
  · intro event handler dispatches start res flags bufferId reason _ held
    simpa [isReadGuarded, dispatches.dispatched, start, reason, held] using passed

set_option maxRecDepth 100000 in
/-- After three bytes the next read is in flight, into the rest of the buffer. -/
theorem read_buffer_outstanding_next :
    ∃ s : Running, s.executor.io.inFlight.map Sqe.op =
        [.acceptMulti 3, .readFixed 0 0x1003 4093 0 ⟨⟨0, 0⟩⟩] ∧ s.ReadsOutstanding := by
  obtain ⟨s, reached, ends⟩ := @exists_reach_of_start 16 1 1 1 (some (0x1000, fun _ => 0)) _
    (fun s label _ => s.isReadGuarded label) (fun _ _ _ passed => isReadGuarded_sound passed)
    (acceptOne ++ [.take, .complete 1 3 0 [1, 2, 3]] ++ ticks 5 ++ [.take])
    (fun s => s.executor.io.inFlight.map Sqe.op ==
      [.acceptMulti 3, .readFixed 0 0x1003 4093 0 ⟨⟨0, 0⟩⟩]) rfl
  exact ⟨s, beq_iff_eq.mp ends, (read_buffer_outstanding reached).1⟩

set_option maxRecDepth 100000 in
/-- After `EAGAIN` two reads are in flight into one buffer.  The end of the stream, delivered by
the first, frees the buffer; the second is still in flight. -/
theorem read_buffer_freed_in_flight :
    ∃ s : Running, (machine 1 1 1).Reachable s ∧
      s.executor.io.inFlight.map Sqe.op =
        [.acceptMulti 3, .readFixed 0 0x1000 0x1000 0 ⟨⟨0, 0⟩⟩] ∧
      ¬ s.ReadsOutstanding := by
  obtain ⟨s, reached, ends⟩ := @exists_reach_of_start 16 1 1 1 (some (0x1000, fun _ => 0)) _
    (fun _ _ _ => true) (fun _ _ _ _ => trivial)
    (acceptOne ++ [.take, .complete 1 (-11) 0 []] ++ ticks 8 ++
      [.take, .take, .complete 1 0 0 []] ++ ticks 4)
    (fun s => s.executor.io.inFlight.map Sqe.op ==
      [.acceptMulti 3, .readFixed 0 0x1000 0x1000 0 ⟨⟨0, 0⟩⟩] &&
        !s.executor.ioBufs.isValid ⟨⟨0, 0⟩⟩) rfl
  simp only [Bool.and_eq_true, beq_iff_eq, Bool.not_eq_true'] at ends
  refine ⟨s, reached, ends.1, fun outstanding => ?_⟩
  obtain ⟨sqe, member, isRead⟩ : ∃ sqe ∈ s.executor.io.inFlight,
      sqe.op = .readFixed 0 0x1000 0x1000 0 ⟨⟨0, 0⟩⟩ := by
    apply List.mem_map.mp
    rw [ends.1]
    simp
  have valid := (outstanding sqe (List.mem_append_right _ member) _ _ _ _ _ isRead).1
  rw [ends.2] at valid
  cases valid

end Running

end Hoarder
