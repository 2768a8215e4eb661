/-
Module: Hoarder.Proofs.ConnHandler
Purpose: What one event does to a connection handler.  `ConnMove` lists the outcomes of
  `process_event`, branch by branch; the ownership of buffers is derived from it once, for handlers
  named by any type.
Trusted boundary: none
Main exports: ConnMove, ConnHandler.processEvent_move, ConnHandler.receiving?, ConnMove.owns,
  ConnMove.offset_lt, ConnHandler.Expects, ConnHandler.processEvent_ne_error
-/
import Hoarder.Core.ConnHandler
import Hoarder.Proofs.BufferPool

namespace Hoarder

open Foundation

/-- A result is the negated errno it stands for. -/
theorem Errno.eq_neg_of_eq {res code : Int32} (same : Errno.fromRawSyscallError res = ⟨code⟩) :
    res = -code := by
  rw [← Errno.mk.inj same, Int32.neg_neg]

/-- The phase a handler is in after its offset has advanced. -/
inductive Parsed (buffers : IoBufs) (handle : BufferHandle) (offset : UInt32) : RecvPhase → Prop where
  | short (few : offset.toNat < MsgHeader.size) : Parsed buffers handle offset .receivingHeader
  | header (bytes : List UInt8) (header : MsgHeader) (enough : MsgHeader.size ≤ offset.toNat)
      (resolved : buffers.get handle = .ok (some bytes))
      (decoded : MsgHeader.readFromBytes (bytes.take MsgHeader.size) = some header) :
      Parsed buffers handle offset (.receivingBody header)

/-- What `process_event` does when it returns: the event, the handler and the buffers after it, and
the intents it submitted. -/
inductive ConnMove (self : ConnHandler) (buffers : IoBufs) :
    MachineEvent → ConnHandler → IoBufs → List MachineIntent → Prop where
  | spawned (handle : BufferHandle) (buffers' : IoBufs) (start : self.state = .init)
      (allocated : buffers.alloc = .ok (some handle, buffers')) :
      ConnMove self buffers .spawn
        { self with state := .recv .receivingHeader, bufHandle? := some handle } buffers'
        [.submitRecv self.socket handle self.offset.toUInt16]
  | retry (buffers' : IoBufs) (start : self.state = .init)
      (refused : buffers.alloc = .ok (none, buffers')) :
      ConnMove self buffers .spawn self buffers' [.retry]
  | endOfStream (flags : UInt32) (phase : RecvPhase) (buffers' : IoBufs)
      (start : self.state = .recv phase) (freed : self.freeBuffer buffers = .ok buffers') :
      ConnMove self buffers (.ioCompleted 0 flags) { self with state := .closing, offset := 0 }
        buffers' [.closeFixed self.socket]
  | transient (res : Int32) (flags : UInt32) (phase : RecvPhase) (handle : BufferHandle)
      (negative : res < 0) (kind : Errno.fromRawSyscallError res ∈ ConnHandler.transientErrnos)
      (start : self.state = .recv phase) (held : self.bufHandle? = some handle) :
      ConnMove self buffers (.ioCompleted res flags) self buffers
        [.submitRecv self.socket handle self.offset.toUInt16,
          .submitRecv self.socket handle self.offset.toUInt16]
  | disconnected (res : Int32) (flags : UInt32) (phase : RecvPhase) (handle : BufferHandle)
      (buffers' : IoBufs) (negative : res < 0)
      (kind : Errno.fromRawSyscallError res ∈ ConnHandler.disconnectErrnos)
      (start : self.state = .recv phase) (held : self.bufHandle? = some handle)
      (freed : self.freeBuffer buffers = .ok buffers') :
      ConnMove self buffers (.ioCompleted res flags) { self with state := .closing, offset := 0 }
        buffers' [.closeFixed self.socket, .submitRecv self.socket handle 0]
  | ignored (res : Int32) (flags : UInt32) (phase : RecvPhase) (handle : BufferHandle)
      (negative : res < 0) (notTransient : Errno.fromRawSyscallError res ∉ ConnHandler.transientErrnos)
      (notUnexpected : Errno.fromRawSyscallError res ∉ ConnHandler.unexpectedErrnos)
      (notDisconnect : Errno.fromRawSyscallError res ∉ ConnHandler.disconnectErrnos)
      (start : self.state = .recv phase) (held : self.bufHandle? = some handle) :
      ConnMove self buffers (.ioCompleted res flags) self buffers
        [.submitRecv self.socket handle self.offset.toUInt16]
  | received (res : Int32) (flags : UInt32) (phase next : RecvPhase) (handle : BufferHandle)
      (positive : 0 < res) (start : self.state = .recv phase)
      (held : self.bufHandle? = some handle)
      (parsed : Parsed buffers handle (self.offset + res.toUInt32) next) :
      ConnMove self buffers (.ioCompleted res flags)
        { self with state := .recv next, offset := self.offset + res.toUInt32 } buffers
        [.submitRecv self.socket handle (self.offset + res.toUInt32).toUInt16]
  | closed (flags : UInt32) (start : self.state = .closing) :
      ConnMove self buffers (.ioCompleted 0 flags) { self with state := .closed } buffers
        [.terminate]
  | closeAgain (res : Int32) (flags : UInt32) (buffers' : IoBufs) (nonzero : res ≠ 0)
      (start : self.state = .closing) (freed : self.freeBuffer buffers = .ok buffers') :
      ConnMove self buffers (.ioCompleted res flags) { self with offset := 0 } buffers'
        [.closeFixed self.socket]
  | late (event : MachineEvent) (start : self.state = .closed) :
      ConnMove self buffers event self buffers []

namespace ExecutorContext

theorem submitIntent_eq_ok {ctx ctx' : ExecutorContext} {intent : MachineIntent}
    (ran : ctx.submitIntent intent = .ok ctx') :
    ctx' = { ctx with intents := ctx.intents ++ [intent] } := by
  unfold submitIntent at ran
  split at ran <;> cases ran
  rfl

end ExecutorContext

namespace ConnHandler

variable {self self' : ConnHandler} {ctx ctx' : ExecutorContext} {buffers : IoBufs}
  {handle : BufferHandle} {state : ConnHandlerState} {event : MachineEvent}

theorem bufHandle_eq_ok (ran : self.bufHandle = .ok handle) : self.bufHandle? = some handle := by
  unfold bufHandle at ran
  split at ran
  · rename_i held
    cases ran
    exact held
  · cases ran

theorem recv_eq_ok (ran : self.recv ctx = .ok ctx') :
    ∃ handle, self.bufHandle? = some handle ∧
      ctx' =
        { ctx with
          intents := ctx.intents ++ [.submitRecv self.socket handle self.offset.toUInt16] } := by
  obtain ⟨handle, held, submitted⟩ := Outcome.bind_eq_ok.mp ran
  exact ⟨handle, bufHandle_eq_ok held, ExecutorContext.submitIntent_eq_ok submitted⟩

theorem close_eq_ok (ran : self.close ctx = .ok (self', ctx')) :
    ∃ buffers, self.freeBuffer ctx.buffers = .ok buffers ∧ self' = { self with offset := 0 } ∧
      ctx' = { intents := ctx.intents ++ [.closeFixed self.socket], buffers := buffers } := by
  obtain ⟨buffers, freed, ran⟩ := Outcome.bind_eq_ok.mp ran
  obtain ⟨submitted, submittedRan, ran⟩ := Outcome.bind_eq_ok.mp ran
  cases ran
  exact ⟨buffers, freed, rfl, ExecutorContext.submitIntent_eq_ok submittedRan⟩

theorem positive_of_not_negative {res : Int32} (nonzero : res ≠ 0) (notNegative : ¬ res < 0) :
    0 < res := by
  rw [Int32.lt_iff_toInt_lt] at notNegative ⊢
  have : res.toInt ≠ 0 := fun same => nonzero (Int32.toInt_inj.mp same)
  rw [Int32.toInt_zero] at *
  omega

theorem onInit_move (ran : self.onInit ⟨[], buffers⟩ = .ok (state, self', ctx'))
    (start : self.state = .init) :
    ConnMove self buffers .spawn { self' with state } ctx'.buffers ctx'.intents := by
  unfold onInit at ran
  obtain ⟨⟨answer, buffers'⟩, allocated, ran⟩ := Outcome.bind_eq_ok.mp ran
  cases answer with
  | some handle =>
      obtain ⟨submitted, ranRecv, ran⟩ := Outcome.bind_eq_ok.mp ran
      obtain ⟨held, isHeld, rfl⟩ := recv_eq_ok ranRecv
      cases isHeld
      cases ran
      exact .spawned handle buffers' start allocated
  | none =>
      obtain ⟨submitted, ranRetry, ran⟩ := Outcome.bind_eq_ok.mp ran
      obtain rfl := ExecutorContext.submitIntent_eq_ok ranRetry
      cases ran
      have unchanged : { self with state := .init } = self := by rw [← start]
      rw [unchanged]
      exact .retry buffers' start allocated

theorem handleIoError_move {res : Int32} {flags : UInt32} {phase : RecvPhase}
    {ctx'' : ExecutorContext} (start : self.state = .recv phase) (negative : res < 0)
    (ran : self.handleIoError res ⟨[], buffers⟩ = .ok (state, self', ctx'))
    (received : self'.recv ctx' = .ok ctx'') :
    ConnMove self buffers (.ioCompleted res flags) { self' with state } ctx''.buffers
      ctx''.intents := by
  have unchanged : { self with state := self.state } = self := rfl
  simp only [handleIoError] at ran
  split at ran
  · rename_i transient
    obtain ⟨submitted, ranRecv, ran⟩ := Outcome.bind_eq_ok.mp ran
    cases ran
    obtain ⟨handle, held, rfl⟩ := recv_eq_ok ranRecv
    obtain ⟨again, heldAgain, rfl⟩ := recv_eq_ok received
    rw [held] at heldAgain
    cases heldAgain
    exact .transient res flags phase handle negative transient start held
  rename_i notTransient
  split at ran
  · cases ran
  rename_i notUnexpected
  split at ran
  · rename_i disconnect
    obtain ⟨⟨closedSelf, closedCtx⟩, ranClose, ran⟩ := Outcome.bind_eq_ok.mp ran
    cases ran
    obtain ⟨buffers', freed, rfl, rfl⟩ := close_eq_ok ranClose
    obtain ⟨handle, held, rfl⟩ := recv_eq_ok received
    exact .disconnected res flags phase handle buffers' negative disconnect start held freed
  · rename_i notDisconnect
    cases ran
    obtain ⟨handle, held, rfl⟩ := recv_eq_ok received
    exact .ignored res flags phase handle negative notTransient notUnexpected notDisconnect start
      held

theorem onBytes_move {res : Int32} {flags : UInt32} {phase : RecvPhase} {ctx'' : ExecutorContext}
    (start : self.state = .recv phase) (positive : 0 < res)
    (ran : self.onBytes ⟨[], buffers⟩ res = .ok (state, self', ctx'))
    (received : self'.recv ctx' = .ok ctx'') :
    ConnMove self buffers (.ioCompleted res flags) { self' with state } ctx''.buffers
      ctx''.intents := by
  simp only [onBytes] at ran
  split at ran
  · rename_i enough
    obtain ⟨handle, isHeld, ran⟩ := Outcome.bind_eq_ok.mp ran
    obtain ⟨answer, resolved, ran⟩ := Outcome.bind_eq_ok.mp ran
    split at ran
    · rename_i header decoded
      cases ran
      obtain ⟨bytes, rfl, decoded⟩ := Option.bind_eq_some_iff.mp decoded
      obtain ⟨held, heldEq, rfl⟩ := recv_eq_ok received
      have same := bufHandle_eq_ok isHeld
      rw [heldEq] at same
      cases same
      exact .received res flags phase _ handle positive start heldEq
        (.header bytes header enough resolved decoded)
    · cases ran
  · rename_i few
    cases ran
    obtain ⟨handle, held, rfl⟩ := recv_eq_ok received
    exact .received res flags phase _ handle positive start held (.short (Nat.lt_of_not_le few))

theorem onRecv_move {res : Int32} {flags : UInt32} {phase : RecvPhase}
    (start : self.state = .recv phase)
    (ran : self.onRecv ⟨[], buffers⟩ res = .ok (state, self', ctx')) :
    ConnMove self buffers (.ioCompleted res flags) { self' with state } ctx'.buffers
      ctx'.intents := by
  unfold onRecv at ran
  split at ran
  · rename_i ended
    subst ended
    obtain ⟨⟨closedSelf, closedCtx⟩, ranClose, ran⟩ := Outcome.bind_eq_ok.mp ran
    cases ran
    obtain ⟨buffers', freed, rfl, rfl⟩ := close_eq_ok ranClose
    exact .endOfStream flags phase buffers' start freed
  rename_i nonzero
  obtain ⟨⟨next, self'', ctx''⟩, handled, ran⟩ := Outcome.bind_eq_ok.mp ran
  obtain ⟨received, ranRecv, ran⟩ := Outcome.bind_eq_ok.mp ran
  cases ran
  unfold onResult at handled
  split at handled
  · rename_i negative
    exact handleIoError_move start negative handled ranRecv
  · rename_i notNegative
    exact onBytes_move start (positive_of_not_negative nonzero notNegative) handled ranRecv

theorem onClosing_move {res : Int32} {flags : UInt32} (start : self.state = .closing)
    (ran : self.onClosing ⟨[], buffers⟩ res = .ok (state, self', ctx')) :
    ConnMove self buffers (.ioCompleted res flags) { self' with state } ctx'.buffers
      ctx'.intents := by
  unfold onClosing at ran
  split at ran
  · rename_i succeeded
    subst succeeded
    obtain ⟨submitted, ranTerminate, ran⟩ := Outcome.bind_eq_ok.mp ran
    obtain rfl := ExecutorContext.submitIntent_eq_ok ranTerminate
    cases ran
    exact .closed flags start
  · rename_i nonzero
    obtain ⟨⟨closedSelf, closedCtx⟩, ranClose, ran⟩ := Outcome.bind_eq_ok.mp ran
    cases ran
    obtain ⟨buffers', freed, rfl, rfl⟩ := close_eq_ok ranClose
    rw [← start]
    exact .closeAgain res flags buffers' nonzero start freed

/-- Every return of `process_event` from an empty list of intents is one of the moves. -/
theorem processEvent_move (ran : self.processEvent ⟨[], buffers⟩ event = .ok (self', ctx')) :
    ConnMove self buffers event self' ctx'.buffers ctx'.intents := by
  unfold processEvent at ran
  obtain ⟨⟨state, self'', ctx''⟩, handled, ran⟩ := Outcome.bind_eq_ok.mp ran
  cases ran
  unfold onEvent at handled
  split at handled
  · rename_i start
    exact onInit_move handled start
  · rename_i start
    exact onRecv_move start handled
  · rename_i start
    exact onClosing_move start handled
  · rename_i start
    cases handled
    rw [← start]
    exact .late _ start
  · cases handled

/-! ### Moves that are taken -/

theorem recv_ok (held : self.bufHandle? = some handle) (buffers : IoBufs) :
    self.recv ⟨[], buffers⟩ =
      .ok ⟨[.submitRecv self.socket handle self.offset.toUInt16], buffers⟩ := by
  simp only [recv, bufHandle, held, Outcome.ok_bind]
  rfl

/-- A handler with a buffer available processes its first event. -/
theorem processEvent_spawned {buffers' : IoBufs} (start : self.state = .init)
    (allocated : buffers.alloc = .ok (some handle, buffers')) :
    self.processEvent ⟨[], buffers⟩ .spawn =
      .ok ({ self with state := .recv .receivingHeader, bufHandle? := some handle },
        ⟨[.submitRecv self.socket handle self.offset.toUInt16], buffers'⟩) := by
  simp only [processEvent, onEvent, start, onInit, allocated, Outcome.ok_bind]
  rw [recv_ok rfl]
  rfl

/-- What a positive count makes of the offset and the phase. -/
theorem onBytes_ok {res : Int32} {next : RecvPhase} (held : self.bufHandle? = some handle)
    (parsed : Parsed buffers handle (self.offset + res.toUInt32) next) :
    self.onBytes ⟨[], buffers⟩ res =
      .ok (.recv next, { self with offset := self.offset + res.toUInt32 }, ⟨[], buffers⟩) := by
  cases parsed with
  | short few => exact if_neg (Nat.not_le.mpr few)
  | header bytes header enough resolved decoded =>
      simp only [onBytes, if_pos enough, bufHandle, held, resolved, Outcome.ok_bind,
        Option.bind_some, decoded]
      rfl

/-- A handler in `Recv` processes a positive count. -/
theorem processEvent_received {res : Int32} {flags : UInt32} {phase next : RecvPhase}
    (start : self.state = .recv phase) (held : self.bufHandle? = some handle) (positive : 0 < res)
    (parsed : Parsed buffers handle (self.offset + res.toUInt32) next) :
    self.processEvent ⟨[], buffers⟩ (.ioCompleted res flags) =
      .ok ({ self with state := .recv next, offset := self.offset + res.toUInt32 },
        ⟨[.submitRecv self.socket handle (self.offset + res.toUInt32).toUInt16], buffers⟩) := by
  have nonzero : res ≠ 0 := by
    rintro rfl
    exact absurd positive (by decide)
  have notNegative : ¬ res < 0 := Int32.not_lt.mpr (Int32.le_of_lt positive)
  let advanced : ConnHandler := { self with offset := self.offset + res.toUInt32 }
  have ran : self.onResult ⟨[], buffers⟩ res = .ok (.recv next, advanced, ⟨[], buffers⟩) :=
    (if_neg notNegative).trans (onBytes_ok held parsed)
  have received := recv_ok (show advanced.bufHandle? = some handle from held) buffers
  have handled : self.onRecv ⟨[], buffers⟩ res =
      .ok (.recv next, advanced,
        ⟨[.submitRecv self.socket handle (self.offset + res.toUInt32).toUInt16], buffers⟩) := by
    simp only [onRecv, if_neg nonzero, ran, Outcome.ok_bind, received]
    rfl
  simp only [processEvent, onEvent, start]
  rw [handled]
  rfl

/-! ### Faults that do not happen -/

/-- The faults an event can end in whatever the state of the handler. -/
def faults : List Fault :=
  [.uninitRead, .arrayIndex, .freeListPush, .bufPtrIndex, .intentsFull, .headerBuffer,
    .unexpectedIoError]

variable {bad : Fault}

theorem error_ne {α : Type} {usual : Fault} (unusual : bad ∉ faults) (known : usual ∈ faults) :
    (Except.error usual : Except Fault α) ≠ .error bad := by
  intro same
  cases same
  exact unusual known

/-- The allocator has the usual faults only. -/
theorem buffers_ne_error (unusual : bad ∉ faults) (buffers : IoBufs) (handle : BufferHandle) :
    buffers.alloc ≠ .error bad ∧ buffers.free handle ≠ .error bad ∧
      buffers.get handle ≠ .error bad := by
  have indexSafe : ∀ {T : Type} (xs : Array T) (index : Nat), indexArray xs index ≠ .error bad := by
    intro T xs index
    unfold indexArray
    split
    · simp
    · exact error_ne unusual (by decide)
  refine ⟨?_, ?_, ?_⟩
  · refine Outcome.bind_ne_error (Outcome.bind_ne_error ?_ ?_) (by simp)
    · unfold RingBuffer.pop
      split
      · split
        · simp
        · exact error_ne unusual (by decide)
      · simp
    · rintro ⟨popped, freeList⟩ _
      cases popped with
      | none => simp
      | some index => exact Outcome.bind_ne_error (indexSafe _ _) (by simp)
  · refine Outcome.bind_ne_error ?_ (by simp)
    unfold GenAlloc.free
    split
    · apply Outcome.bind_ne_error (indexSafe _ _)
      intro generation _
      split
      · simp
      · exact error_ne unusual (by decide)
    · simp
  · apply Outcome.bind_ne_error _ (by simp)
    intro failed
    rw [BufferPool.getMut_error failed] at unusual
    exact unusual (by decide)

theorem submitIntent_ne_error (unusual : bad ∉ faults) (ctx : ExecutorContext)
    (intent : MachineIntent) : ctx.submitIntent intent ≠ .error bad := by
  unfold ExecutorContext.submitIntent
  split
  · simp
  · exact error_ne unusual (by decide)

theorem bufHandle_ne_error (held : bad = .bufHandleNone → self.bufHandle?.isSome) :
    self.bufHandle ≠ .error bad := by
  unfold bufHandle
  split
  · simp
  · rename_i none
    intro same
    cases same
    rw [none] at held
    cases held rfl

theorem recv_ne_error (unusual : bad ∉ faults)
    (held : bad = .bufHandleNone → self.bufHandle?.isSome) : self.recv ctx ≠ .error bad :=
  Outcome.bind_ne_error (bufHandle_ne_error held) fun _ _ => submitIntent_ne_error unusual _ _

theorem close_ne_error (unusual : bad ∉ faults) : self.close ctx ≠ .error bad := by
  refine Outcome.bind_ne_error ?_ fun _ _ =>
    Outcome.bind_ne_error (submitIntent_ne_error unusual _ _) (by simp)
  unfold freeBuffer
  split
  · exact Outcome.bind_ne_error (buffers_ne_error unusual _ _).2.1 (by simp)
  · simp

theorem onInit_ne_error (unusual : bad ∉ faults) : self.onInit ctx ≠ .error bad := by
  refine Outcome.bind_ne_error (buffers_ne_error unusual _ ⟨0, 0⟩).1 ?_
  rintro ⟨answer, buffers⟩ _
  cases answer with
  | some handle => exact Outcome.bind_ne_error (recv_ne_error unusual fun _ => rfl) (by simp)
  | none => exact Outcome.bind_ne_error (submitIntent_ne_error unusual _ _) (by simp)

theorem onClosing_ne_error (unusual : bad ∉ faults) (res : Int32) :
    self.onClosing ctx res ≠ .error bad := by
  unfold onClosing
  split
  · exact Outcome.bind_ne_error (submitIntent_ne_error unusual _ _) (by simp)
  · exact Outcome.bind_ne_error (close_ne_error unusual) (by simp)

/-- The part of `on_recv` before its last `recv` leaves the handle where it is. -/
theorem onResult_ne_error (unusual : bad ∉ faults)
    (held : bad = .bufHandleNone → self.bufHandle?.isSome) (res : Int32) :
    self.onResult ctx res ≠ .error bad ∧
      ∀ state self' ctx', self.onResult ctx res = .ok (state, self', ctx') →
        self'.bufHandle? = self.bufHandle? := by
  unfold onResult
  split
  · simp only [handleIoError]
    split
    · refine ⟨Outcome.bind_ne_error (recv_ne_error unusual held) (by simp),
        fun state self' ctx' ran => ?_⟩
      obtain ⟨_, _, ran⟩ := Outcome.bind_eq_ok.mp ran
      cases ran
      rfl
    · split
      · exact ⟨error_ne unusual (by decide), by simp⟩
      · split
        · refine ⟨Outcome.bind_ne_error (close_ne_error unusual) (by simp),
            fun state self' ctx' ran => ?_⟩
          obtain ⟨⟨closedSelf, closedCtx⟩, ranClose, ran⟩ := Outcome.bind_eq_ok.mp ran
          cases ran
          obtain ⟨_, _, rfl, _⟩ := close_eq_ok ranClose
          rfl
        · simp
  · simp only [onBytes]
    split
    · refine ⟨Outcome.bind_ne_error (bufHandle_ne_error held) fun handle _ =>
        Outcome.bind_ne_error (buffers_ne_error unusual _ handle).2.2 fun answer _ => ?_, ?_⟩
      · split
        · simp
        · exact error_ne unusual (by decide)
      · intro state self' ctx' ran
        obtain ⟨_, _, ran⟩ := Outcome.bind_eq_ok.mp ran
        obtain ⟨_, _, ran⟩ := Outcome.bind_eq_ok.mp ran
        split at ran <;> cases ran
        rfl
    · simp

theorem onRecv_ne_error (unusual : bad ∉ faults)
    (held : bad = .bufHandleNone → self.bufHandle?.isSome) (res : Int32) :
    self.onRecv ctx res ≠ .error bad := by
  unfold onRecv
  split
  · exact Outcome.bind_ne_error (close_ne_error unusual) (by simp)
  · obtain ⟨resultSafe, kept⟩ := onResult_ne_error unusual held res
    apply Outcome.bind_ne_error resultSafe
    rintro ⟨state, self', ctx'⟩ ran
    exact Outcome.bind_ne_error
      (recv_ne_error unusual fun missing => by rw [kept _ _ _ ran]; exact held missing) (by simp)

/-- The handler takes the event: `Spawn` in `Init`, and only there. -/
def Expects (self : ConnHandler) (event : MachineEvent) : Prop :=
  event = .spawn ↔ self.state = .init

/-- A handler that has a handle whenever it is in `Recv` never reads it while it is `None`, and one
that takes the event has an arm for it. -/
theorem processEvent_ne_error (unusual : bad ∉ faults)
    (held : bad = .bufHandleNone → ∀ phase, self.state = .recv phase → self.bufHandle?.isSome)
    (taken : bad = .unreachable → self.Expects event) : self.processEvent ctx event ≠ .error bad := by
  refine Outcome.bind_ne_error ?_ (by simp)
  unfold onEvent
  split
  · exact onInit_ne_error unusual
  · rename_i start
    exact onRecv_ne_error unusual (fun missing => held missing _ start) _
  · exact onClosing_ne_error unusual _
  · simp
  · rename_i event _ _ notClosed notInit notRecv notClosing
    intro same
    cases same
    have expects := taken rfl
    cases event with
    | spawn => exact notInit rfl (expects.mp rfl)
    | ioCompleted res flags =>
        cases start : self.state with
        | init => exact absurd (expects.mpr start) (by simp)
        | recv phase => exact notRecv res flags phase rfl start
        | closing => exact notClosing res flags rfl start
        | closed => exact notClosed start

/-! ### Ownership of buffers -/

/-- The buffer of a handler that is receiving. -/
def receiving? (self : ConnHandler) : Option BufferHandle :=
  match self.state with
  | .recv _ => self.bufHandle?
  | _ => none

theorem receiving?_recv {phase : RecvPhase} (start : self.state = .recv phase) :
    self.receiving? = self.bufHandle? := by
  simp only [receiving?, start]

/-- A handler outside `Recv` owns no buffer. -/
theorem receiving?_none (notRecv : ∀ phase, self.state ≠ .recv phase) :
    self.receiving? = none := by
  unfold receiving?
  split
  · rename_i phase start
    exact absurd start (notRecv phase)
  · rfl

/-- Freeing through a handler is freeing its handle, if it has one. -/
theorem freeBuffer_eq_ok {buffers' : IoBufs} (ran : self.freeBuffer buffers = .ok buffers') :
    (self.bufHandle? = none ∧ buffers' = buffers) ∨
      ∃ handle freed, self.bufHandle? = some handle ∧ buffers.free handle = .ok (freed, buffers') := by
  unfold freeBuffer at ran
  split at ran
  · rename_i handle held
    obtain ⟨⟨freed, next⟩, ranFree, ran⟩ := Outcome.bind_eq_ok.mp ran
    cases ran
    exact .inr ⟨handle, freed, held, ranFree⟩
  · rename_i none
    cases ran
    exact .inl ⟨none, rfl⟩

variable {κ : Type*} [DecidableEq κ] {owned : κ → Option BufferHandle} {who : κ}
  {buffers' : IoBufs}

/-- The owner that frees its buffer owns none afterwards, and its handle is no longer valid. -/
theorem freeBuffer_owns (owns : buffers.Owns owned) (holds : owned who = self.bufHandle?)
    (ran : self.freeBuffer buffers = .ok buffers') :
    buffers'.Owns (Function.update owned who none) ∧
      ∀ handle, self.bufHandle? = some handle → buffers'.isValid handle = false := by
  rcases freeBuffer_eq_ok ran with ⟨none, rfl⟩ | ⟨handle, freed, held, ranFree⟩
  · refine ⟨owns.congr fun other => ?_, fun handle held => ?_⟩
    · rcases eq_or_ne other who with rfl | different
      · rw [Function.update_self, holds, none]
      · rw [Function.update_of_ne different]
    · rw [none] at held
      cases held
  · obtain ⟨next, nextRan, owns', invalid, _⟩ := owns.free_owned (holds.trans held)
    rw [nextRan] at ranFree
    cases ranFree
    refine ⟨owns', fun other otherHeld => ?_⟩
    rw [held] at otherHeld
    cases otherHeld
    exact invalid

/-- Freeing a handle that is not valid leaves the buffers as they are. -/
theorem freeBuffer_stale (ran : self.freeBuffer buffers = .ok buffers')
    (stale : ∀ handle, self.bufHandle? = some handle → buffers.isValid handle = false) :
    buffers' = buffers := by
  rcases freeBuffer_eq_ok ran with ⟨_, same⟩ | ⟨handle, freed, held, ranFree⟩
  · exact same
  · rw [BufferPool.free_invalid (stale handle held)] at ranFree
    cases ranFree
    rfl

end ConnHandler

namespace ConnMove

variable {self self' : ConnHandler} {buffers buffers' : IoBufs} {event : MachineEvent}
  {intents : List MachineIntent} {κ : Type*} [DecidableEq κ] {owned : κ → Option BufferHandle}

/-- Writing an owner map where it already has the value changes nothing. -/
theorem owns_same {who : κ} {value : Option BufferHandle} (owns : buffers.Owns owned)
    (same : owned who = value) : buffers.Owns (Function.update owned who value) := by
  rw [← same, Function.update_eq_self]
  exact owns

/-- Every move keeps the ownership of the buffers: the handler owns its buffer exactly while it is
receiving.  The one exception is a repeated close whose old handle has become valid again. -/
theorem owns (owns : buffers.Owns owned) (who : κ) (holds : owned who = self.receiving?)
    (move : ConnMove self buffers event self' buffers' intents)
    (notReissued : ∀ res flags handle, self.state = .closing →
      event = .ioCompleted res flags → res ≠ 0 → self.bufHandle? = some handle →
      buffers.isValid handle = false) :
    buffers'.Owns (Function.update owned who self'.receiving?) := by
  cases move with
  | spawned handle buffers' start allocated =>
      have idle : owned who = none := by
        rw [holds, ConnHandler.receiving?_none (by simp [start])]
      exact (owns.alloc_some allocated).2.2 who idle
  | retry buffers' start refused =>
      rw [owns.alloc_none refused]
      exact owns_same owns holds
  | endOfStream flags phase buffers' start freed =>
      rw [ConnHandler.receiving?_recv start] at holds
      exact (ConnHandler.freeBuffer_owns owns holds freed).1
  | transient res flags phase handle negative kind start held => exact owns_same owns holds
  | disconnected res flags phase handle buffers' negative kind start held freed =>
      rw [ConnHandler.receiving?_recv start] at holds
      exact (ConnHandler.freeBuffer_owns owns holds freed).1
  | ignored res flags phase handle negative notTransient notUnexpected notDisconnect start held =>
      exact owns_same owns holds
  | received res flags phase next handle positive start held parsed =>
      apply owns_same owns
      rw [holds, ConnHandler.receiving?_recv start]
      rfl
  | closed flags start =>
      apply owns_same owns
      rw [holds, ConnHandler.receiving?_none (by simp [start])]
      rfl
  | closeAgain res flags buffers' nonzero start freed =>
      rw [ConnHandler.freeBuffer_stale freed
        fun handle held => notReissued res flags handle start rfl nonzero held]
      apply owns_same owns
      rw [holds, ConnHandler.receiving?_none (by simp [start]),
        ConnHandler.receiving?_none (by simp [start])]
  | late event start => exact owns_same owns holds

/-- What a move does to the buffers: it allocates one, frees its own, or leaves them. -/
theorem buffers_cases (move : ConnMove self buffers event self' buffers' intents) :
    (∃ answer, buffers.alloc = .ok (answer, buffers')) ∨ self.freeBuffer buffers = .ok buffers' ∨
      buffers' = buffers := by
  cases move with
  | spawned handle buffers' start ran => exact .inl ⟨_, ran⟩
  | retry buffers' start refused => exact .inl ⟨_, refused⟩
  | endOfStream flags phase buffers' start ran => exact .inr (.inl ran)
  | disconnected res flags phase handle buffers' negative kind start held ran =>
      exact .inr (.inl ran)
  | closeAgain res flags buffers' nonzero start ran => exact .inr (.inl ran)
  | transient | ignored | received | closed | late => exact .inr (.inr rfl)

/-- A move leaves the number of buffers alone. -/
theorem capacity (move : ConnMove self buffers event self' buffers' intents) :
    buffers'.genAlloc.capacity = buffers.genAlloc.capacity := by
  rcases move.buffers_cases with ⟨answer, allocated⟩ | freed | same
  · obtain ⟨genAlloc, ranAlloc, rfl⟩ := BufferPool.alloc_eq_ok allocated
    exact congrArg Array.size (GenAlloc.alloc_generation ranAlloc)
  · rcases ConnHandler.freeBuffer_eq_ok freed with ⟨_, rfl⟩ | ⟨handle, freed, _, ranFree⟩
    · rfl
    · obtain ⟨genAlloc, ranAlloc, rfl⟩ := BufferPool.free_eq_ok ranFree
      exact GenAlloc.free_capacity ranAlloc
  · rw [same]

/-- A move leaves the memory of the buffers alone. -/
theorem pool (move : ConnMove self buffers event self' buffers' intents) :
    buffers'.pool = buffers.pool := by
  rcases move.buffers_cases with ⟨answer, allocated⟩ | freed | same
  · obtain ⟨_, _, rfl⟩ := BufferPool.alloc_eq_ok allocated
    rfl
  · rcases ConnHandler.freeBuffer_eq_ok freed with ⟨_, rfl⟩ | ⟨_, _, _, ranFree⟩
    · rfl
    · obtain ⟨_, _, rfl⟩ := BufferPool.free_eq_ok ranFree
      rfl
  · rw [same]

/-- A handler in `Recv` has a handle, if it had one when it was in `Recv` before. -/
theorem held (move : ConnMove self buffers event self' buffers' intents)
    (held : ∀ phase, self.state = .recv phase → self.bufHandle?.isSome) :
    ∀ phase, self'.state = .recv phase → self'.bufHandle?.isSome := by
  intro next start'
  cases move with
  | spawned handle buffers' start ran => rfl
  | received res flags phase next handle positive start isHeld parsed => exact held phase start
  | retry | transient | ignored | late => exact held next start'
  | closeAgain res flags buffers' nonzero start ran => exact held next start'
  | endOfStream | disconnected | closed => cases start'

/-- A handler that is not receiving after a move still has its handle of before.  If it was
receiving, it has just freed the handle. -/
theorem left (owns : buffers.Owns owned) (who : κ) (holds : owned who = self.receiving?)
    (move : ConnMove self buffers event self' buffers' intents)
    (notRecv : ∀ phase, self'.state ≠ .recv phase) :
    self'.bufHandle? = self.bufHandle? ∧
      ((∀ phase, self.state ≠ .recv phase) ∨
        ∀ handle, self.bufHandle? = some handle →
          buffers.isValid handle = true ∧ buffers'.isValid handle = false) := by
  have ended : ∀ {phase next}, self.state = .recv phase → self.freeBuffer buffers = .ok next →
      ∀ handle, self.bufHandle? = some handle →
        buffers.isValid handle = true ∧ next.isValid handle = false := by
    intro phase next start freed handle isHeld
    rw [ConnHandler.receiving?_recv start] at holds
    exact ⟨owns.valid (holds.trans isHeld),
      (ConnHandler.freeBuffer_owns owns holds freed).2 handle isHeld⟩
  cases move with
  | spawned handle buffers' start ran => exact absurd rfl (notRecv _)
  | received res flags phase next handle positive start isHeld parsed =>
      exact absurd rfl (notRecv _)
  | transient res flags phase handle negative kind start isHeld =>
      exact absurd start (notRecv _)
  | ignored res flags phase handle negative notTransient notUnexpected notDisconnect start =>
      exact absurd start (notRecv _)
  | retry buffers' start refused => exact ⟨rfl, .inl (by simp [start])⟩
  | endOfStream flags phase buffers' start freed => exact ⟨rfl, .inr (ended start freed)⟩
  | disconnected res flags phase handle buffers' negative kind start isHeld freed =>
      exact ⟨rfl, .inr (ended start freed)⟩
  | closed flags start => exact ⟨rfl, .inl (by simp [start])⟩
  | closeAgain res flags buffers' nonzero start freed => exact ⟨rfl, .inl (by simp [start])⟩
  | late event start => exact ⟨rfl, .inl (by simp [start])⟩

/-- A handler that is receiving keeps its buffer, unless the event ends the connection. -/
theorem keeps {handle : BufferHandle}
    (move : ConnMove self buffers event self' buffers' intents)
    (holds : self.receiving? = some handle) :
    self'.receiving? = some handle ∨
      ∃ phase res flags, self.state = .recv phase ∧ event = .ioCompleted res flags ∧
        (res = 0 ∨ Errno.fromRawSyscallError res ∈ ConnHandler.disconnectErrnos) := by
  have absurdly : ∀ {P : Prop}, (∀ phase, self.state ≠ .recv phase) → P := by
    intro P notRecv
    rw [ConnHandler.receiving?_none notRecv] at holds
    cases holds
  cases move with
  | spawned handle buffers' start ran => exact absurdly (by simp [start])
  | closed flags start => exact absurdly (by simp [start])
  | closeAgain res flags buffers' nonzero start freed => exact absurdly (by simp [start])
  | retry | transient | ignored | late => exact .inl holds
  | received res flags phase next handle positive start held parsed =>
      rw [ConnHandler.receiving?_recv start] at holds
      exact .inl holds
  | endOfStream flags phase buffers' start freed =>
      exact .inr ⟨phase, 0, flags, start, rfl, .inl rfl⟩
  | disconnected res flags phase handle buffers' negative kind start held freed =>
      exact .inr ⟨phase, res, flags, start, rfl, .inr kind⟩

/-- A submitted receive names the buffer the handler is receiving into, unless the event was an
error that closed the connection: then it names the buffer just freed. -/
theorem submitRecv {fixed : Fixed} {handle : BufferHandle} {offset : UInt16}
    (owns : buffers.Owns owned) (who : κ) (holds : owned who = self.receiving?)
    (move : ConnMove self buffers event self' buffers' intents)
    (submitted : .submitRecv fixed handle offset ∈ intents) :
    self'.receiving? = some handle ∨
      ((∃ phase res flags, self.state = .recv phase ∧ event = .ioCompleted res flags ∧
        Errno.fromRawSyscallError res ∈ ConnHandler.disconnectErrnos) ∧
        buffers'.isValid handle = false) := by
  cases move with
  | spawned held buffers' start ran =>
      simp only [List.mem_singleton, MachineIntent.submitRecv.injEq] at submitted
      obtain ⟨_, rfl, _⟩ := submitted
      exact .inl rfl
  | transient res flags phase held negative kind start isHeld =>
      simp only [List.mem_cons, MachineIntent.submitRecv.injEq, List.not_mem_nil, or_false,
        or_self] at submitted
      obtain ⟨_, rfl, _⟩ := submitted
      exact .inl ((ConnHandler.receiving?_recv start).trans isHeld)
  | ignored res flags phase held negative notTransient notUnexpected notDisconnect start isHeld =>
      simp only [List.mem_singleton, MachineIntent.submitRecv.injEq] at submitted
      obtain ⟨_, rfl, _⟩ := submitted
      exact .inl ((ConnHandler.receiving?_recv start).trans isHeld)
  | received res flags phase next held positive start isHeld parsed =>
      simp only [List.mem_singleton, MachineIntent.submitRecv.injEq] at submitted
      obtain ⟨_, rfl, _⟩ := submitted
      exact .inl isHeld
  | disconnected res flags phase held buffers' negative kind start isHeld freed =>
      simp only [List.mem_cons, MachineIntent.submitRecv.injEq, List.not_mem_nil, or_false,
        reduceCtorEq, false_or] at submitted
      obtain ⟨_, rfl, _⟩ := submitted
      rw [ConnHandler.receiving?_recv start] at holds
      exact .inr ⟨⟨phase, res, flags, start, rfl, kind⟩,
        (ConnHandler.freeBuffer_owns owns holds freed).2 handle isHeld⟩
  | retry | endOfStream | closed | closeAgain | late => simp at submitted

/-- The errnos that close a connection are negative results. -/
theorem disconnect_negative {res : Int32}
    (kind : Errno.fromRawSyscallError res ∈ ConnHandler.disconnectErrnos) : res < 0 := by
  simp only [ConnHandler.disconnectErrnos, List.mem_cons, List.not_mem_nil, or_false] at kind
  rcases kind with same | same | same | same | same | same | same | same <;>
    rw [Errno.eq_neg_of_eq same] <;> decide

omit [DecidableEq κ] in
/-- A completion that ends the connection frees the buffer; if it is an error, the freed buffer is
submitted to a receive all the same. -/
theorem ends {phase : RecvPhase} {res : Int32} {flags : UInt32}
    (move : ConnMove self buffers (.ioCompleted res flags) self' buffers' intents)
    (start : self.state = .recv phase)
    (ended : res = 0 ∨ Errno.fromRawSyscallError res ∈ ConnHandler.disconnectErrnos) :
    self.freeBuffer buffers = .ok buffers' ∧
      (Errno.fromRawSyscallError res ∈ ConnHandler.disconnectErrnos →
        ∃ handle, self.bufHandle? = some handle ∧ .submitRecv self.socket handle 0 ∈ intents) := by
  have zeroKeeps : Errno.fromRawSyscallError 0 ∉ ConnHandler.disconnectErrnos := by decide
  have notZero : res < 0 → res ≠ 0 := by
    rintro negative rfl
    exact absurd negative (by decide)
  have disjoint : ∀ errno ∈ ConnHandler.disconnectErrnos, errno ∉ ConnHandler.transientErrnos := by
    decide
  cases move with
  | endOfStream _ _ _ _ freed => exact ⟨freed, fun kind => absurd kind zeroKeeps⟩
  | disconnected _ _ _ handle _ negative kind _ held freed =>
      exact ⟨freed, fun _ => ⟨handle, held, by simp⟩⟩
  | transient _ _ _ _ negative kind =>
      rcases ended with zero | disconnect
      · exact absurd zero (notZero negative)
      · exact absurd kind (disjoint _ disconnect)
  | ignored _ _ _ _ negative _ _ notDisconnect =>
      rcases ended with zero | disconnect
      · exact absurd zero (notZero negative)
      · exact absurd disconnect notDisconnect
  | received _ _ _ _ _ positive =>
      rcases ended with zero | disconnect
      · rw [zero] at positive
        exact absurd positive (by decide)
      · exact absurd (disconnect_negative disconnect) (Int32.not_lt.mpr (Int32.le_of_lt positive))
  | closed _ closing =>
      rw [closing] at start
      cases start
  | closeAgain _ _ _ _ closing =>
      rw [closing] at start
      cases start
  | late _ closed =>
      rw [closed] at start
      cases start

omit [DecidableEq κ] in
/-- `Terminate` is submitted alone, by a handler that has just become `Closed`. -/
theorem terminate (move : ConnMove self buffers event self' buffers' intents)
    (submitted : .terminate ∈ intents) : intents = [.terminate] ∧ self'.state = .closed := by
  cases move with
  | closed flags start => exact ⟨rfl, rfl⟩
  | spawned | retry | endOfStream | transient | disconnected | ignored | received | closeAgain
  | late => simp at submitted

omit [DecidableEq κ] in
/-- An offset that fits in 16 bits is submitted as it is. -/
theorem toNat_offset_add {offset : UInt32} {res : Int32} (positive : 0 < res)
    (fits : offset.toNat + res.toNatClampNeg < 2 ^ 16) :
    (offset + res.toUInt32).toNat = offset.toNat + res.toNatClampNeg ∧
      (offset + res.toUInt32).toUInt16.toNat = offset.toNat + res.toNatClampNeg := by
  have count : res.toUInt32.toNat = res.toNatClampNeg :=
    Int32.toNat_toUInt32_of_le (Int32.le_of_lt positive)
  have sum : (offset + res.toUInt32).toNat = offset.toNat + res.toNatClampNeg := by
    rw [UInt32.toNat_add, count]
    omega
  refine ⟨sum, ?_⟩
  rw [UInt32.toNat_toUInt16, sum]
  omega

omit [DecidableEq κ] in
/-- A positive completion of a receive submits the next one, at the advanced offset. -/
theorem advances {phase : RecvPhase} {res : Int32} {flags : UInt32}
    (move : ConnMove self buffers (.ioCompleted res flags) self' buffers' intents)
    (start : self.state = .recv phase) (positive : 0 < res) :
    ∃ handle, intents = [.submitRecv self.socket handle (self.offset + res.toUInt32).toUInt16] := by
  have notNegative : ¬ res < 0 := Int32.not_lt.mpr (Int32.le_of_lt positive)
  have wrongState : ∀ {P : Prop} {state : ConnHandlerState}, self.state = state →
      state ≠ .recv phase → P := by
    intro P state other different
    exact absurd (other.symm.trans start) different
  cases move with
  | received _ _ _ _ handle => exact ⟨handle, rfl⟩
  | endOfStream => exact absurd positive (by decide)
  | transient _ _ _ _ negative => exact absurd negative notNegative
  | disconnected _ _ _ _ _ negative => exact absurd negative notNegative
  | ignored _ _ _ _ negative => exact absurd negative notNegative
  | closed _ other => exact wrongState other (by simp)
  | closeAgain _ _ _ _ other => exact wrongState other (by simp)
  | late _ other => exact wrongState other (by simp)

omit [DecidableEq κ] in
/-- A bound on the offset is kept, and the submitted receives meet it, when the count of a positive
completion stays below the bound with the offset. -/
theorem offset_lt {bound : Nat} (sixteenBits : bound ≤ 2 ^ 16)
    (move : ConnMove self buffers event self' buffers' intents) (below : self.offset.toNat < bound)
    (met : ∀ phase res flags, self.state = .recv phase → event = .ioCompleted res flags →
      0 < res → self.offset.toNat + res.toNatClampNeg < bound) :
    self'.offset.toNat < bound ∧
      ∀ fixed handle offset, .submitRecv fixed handle offset ∈ intents → offset.toNat < bound := by
  have positive : 0 < bound := Nat.zero_lt_of_lt below
  have same : self.offset.toUInt16.toNat < bound := by
    rw [UInt32.toNat_toUInt16]
    omega
  cases move with
  | spawned | ignored | transient =>
      refine ⟨below, fun fixed handle offset submitted => ?_⟩
      obtain ⟨_, _, rfl⟩ : _ ∧ _ ∧ offset = self.offset.toUInt16 := by simpa using submitted
      exact same
  | disconnected =>
      refine ⟨positive, fun fixed handle offset submitted => ?_⟩
      obtain ⟨_, _, rfl⟩ : _ ∧ _ ∧ offset = 0 := by simpa using submitted
      exact positive
  | received res flags phase next held nonzero start isHeld parsed =>
      have small := met phase res flags start rfl nonzero
      obtain ⟨advanced, submits⟩ := toNat_offset_add nonzero (Nat.lt_of_lt_of_le small sixteenBits)
      refine ⟨by rwa [advanced], fun fixed handle offset submitted => ?_⟩
      simp only [List.mem_singleton, MachineIntent.submitRecv.injEq] at submitted
      obtain ⟨_, _, rfl⟩ := submitted
      rwa [submits]
  | endOfStream | closeAgain => exact ⟨positive, by simp⟩
  | retry | closed | late => exact ⟨below, by simp⟩

omit [DecidableEq κ] in
/-- A handler stays on its socket. -/
theorem socket (move : ConnMove self buffers event self' buffers' intents) :
    self'.socket = self.socket := by
  cases move <;> rfl

omit [DecidableEq κ] in
/-- A handler submits nothing a listener submits. -/
theorem notListener (move : ConnMove self buffers event self' buffers' intents) (fixed : Fixed)
    (fd : Fd) : .spawnConnHandler fixed ∉ intents ∧ .submitMultishotAccept fd ∉ intents := by
  cases move <;> simp

end ConnMove

end Hoarder
