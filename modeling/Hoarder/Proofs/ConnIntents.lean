/-
Module: Hoarder.Proofs.ConnIntents
Purpose: How many intents one event makes a connection handler submit.  Every branch submits one, but
  `on_recv` receives again after `handle_io_error` has already answered the error, so the errnos
  that function receives or closes on are answered twice.
Trusted boundary: none
Main exports: MachineIntent.submitsIo, OneIntent, ConnHandler.AnswersError,
  ConnHandler.one_intent_iff
-/
import Hoarder.Proofs.ConnHandler

namespace Hoarder

/-- The intents the executor turns into an operation of the kernel. -/
def MachineIntent.submitsIo : MachineIntent → Bool
  | .closeFixed _ | .submitMultishotAccept _ | .submitRecv _ _ _ => true
  | .retry | .terminate | .spawnConnHandler _ => false

/-- A connection handler submits one intent of its four kinds, hence at most one operation, and not
both a receive and a close. -/
structure OneIntent (intents : List MachineIntent) : Prop where
  single : intents = [.retry] ∨
    (∃ fixed handle offset, intents = [.submitRecv fixed handle offset]) ∨
    (∃ fixed, intents = [.closeFixed fixed]) ∨ intents = [.terminate]
  operations : intents.countP MachineIntent.submitsIo ≤ 1
  notBoth : ∀ fixed handle offset fixed', .submitRecv fixed handle offset ∈ intents →
    .closeFixed fixed' ∉ intents

namespace OneIntent

theorem retry : OneIntent [.retry] := ⟨.inl rfl, by simp [MachineIntent.submitsIo], by simp⟩

theorem submitRecv (fixed : Fixed) (handle : BufferHandle) (offset : UInt16) :
    OneIntent [.submitRecv fixed handle offset] :=
  ⟨.inr (.inl ⟨fixed, handle, offset, rfl⟩), by simp [MachineIntent.submitsIo], by simp⟩

theorem closeFixed (fixed : Fixed) : OneIntent [.closeFixed fixed] :=
  ⟨.inr (.inr (.inl ⟨fixed, rfl⟩)), by simp [MachineIntent.submitsIo], by simp⟩

theorem terminate : OneIntent [.terminate] :=
  ⟨.inr (.inr (.inr rfl)), by simp [MachineIntent.submitsIo], by simp⟩

end OneIntent

namespace ConnHandler

variable {self self' : ConnHandler} {buffers : IoBufs} {event : MachineEvent}
  {ctx' : ExecutorContext}

/-- The event is an error result of a receive that `handle_io_error` answers with an intent. -/
def AnswersError (self : ConnHandler) (event : MachineEvent) : Prop :=
  ∃ phase res flags, self.state = .recv phase ∧ event = .ioCompleted res flags ∧
    (Errno.fromRawSyscallError res ∈ transientErrnos ∨
      Errno.fromRawSyscallError res ∈ disconnectErrnos)

/-- The errnos that are answered are negative results. -/
theorem answered_negative {res : Int32}
    (kind : Errno.fromRawSyscallError res ∈ transientErrnos ∨
      Errno.fromRawSyscallError res ∈ disconnectErrnos) : res < 0 := by
  rcases kind with transient | disconnect
  · simp only [transientErrnos, List.mem_cons, List.not_mem_nil, or_false] at transient
    rcases transient with same | same | same | same | same <;>
      rw [Errno.eq_neg_of_eq same] <;> decide
  · exact ConnMove.disconnect_negative disconnect

theorem not_answersError_of_state (notRecv : ∀ phase, self.state ≠ .recv phase) :
    ¬ self.AnswersError event := by
  rintro ⟨phase, _, _, start, _⟩
  exact notRecv phase start

theorem not_answersError_of_result {res : Int32} {flags : UInt32} (notNegative : ¬ res < 0) :
    ¬ self.AnswersError (.ioCompleted res flags) := by
  rintro ⟨_, _, _, _, reason, kind⟩
  cases reason
  exact notNegative (answered_negative kind)

end ConnHandler

theorem ConnMove.oneIntent_iff {self self' : ConnHandler} {buffers buffers' : IoBufs}
    {event : MachineEvent} {intents : List MachineIntent}
    (move : ConnMove self buffers event self' buffers' intents) (notClosed : self.state ≠ .closed) :
    OneIntent intents ↔ ¬ self.AnswersError event := by
  cases move with
  | spawned handle buffers' start ran =>
      exact iff_of_true (.submitRecv ..)
        (ConnHandler.not_answersError_of_state (by simp [start]))
  | retry buffers' start refused =>
      exact iff_of_true .retry (ConnHandler.not_answersError_of_state (by simp [start]))
  | endOfStream flags phase buffers' start freed =>
      exact iff_of_true (.closeFixed _) (ConnHandler.not_answersError_of_result (by decide))
  | received res flags phase next handle positive start held parsed =>
      exact iff_of_true (.submitRecv ..)
        (ConnHandler.not_answersError_of_result (Int32.not_lt.mpr (Int32.le_of_lt positive)))
  | ignored res flags phase handle negative notTransient notUnexpected notDisconnect start held =>
      apply iff_of_true (.submitRecv ..)
      rintro ⟨_, _, _, _, reason, kind⟩
      cases reason
      exact kind.elim notTransient notDisconnect
  | closed flags start =>
      exact iff_of_true .terminate (ConnHandler.not_answersError_of_state (by simp [start]))
  | closeAgain res flags buffers' nonzero start freed =>
      exact iff_of_true (.closeFixed _)
        (ConnHandler.not_answersError_of_state (by simp [start]))
  | transient res flags phase handle negative kind start held =>
      apply iff_of_false
      · intro one
        simpa using one.single
      · exact not_not_intro ⟨phase, res, flags, start, rfl, .inl kind⟩
  | disconnected res flags phase handle buffers' negative kind start held freed =>
      apply iff_of_false
      · intro one
        simpa using one.single
      · exact not_not_intro ⟨phase, res, flags, start, rfl, .inr kind⟩
  | late event start => exact absurd start notClosed

namespace ConnHandler

/-- Every event that a handler in any state but `Closed` processes without a panic makes it submit
exactly one intent, hence at most one operation of the kernel, if and only if the event is not an
error result that `handle_io_error` answers itself. -/
theorem one_intent_iff {self self' : ConnHandler} {buffers : IoBufs} {event : MachineEvent}
    {ctx' : ExecutorContext} (notClosed : self.state ≠ .closed)
    (ran : self.processEvent ⟨[], buffers⟩ event = .ok (self', ctx')) :
    OneIntent ctx'.intents ↔ ¬ self.AnswersError event :=
  (processEvent_move ran).oneIntent_iff notClosed

/-- A handler that has just begun to receive gets three bytes. -/
theorem one_intent_iff_first_bytes :
    ∃ (buffers : IoBufs) (handler : ConnHandler) (ctx ctx' : ExecutorContext) (next : ConnHandler),
      BufferPool.new 1 (some (0x1000, fun _ => 0)) = .ok buffers ∧
      (ConnHandler.new 0).processEvent ⟨[], buffers⟩ .spawn = .ok (handler, ctx) ∧
      handler.processEvent ⟨[], ctx.buffers⟩ (.ioCompleted 3 0) = .ok (next, ctx') ∧
      (OneIntent ctx'.intents ↔ ¬ handler.AnswersError (.ioCompleted 3 0)) := by
  obtain ⟨genAlloc, made, buffersMade⟩ :=
    BufferPool.new_ok (show 0 < (1 : UInt32).toNat by decide) 0x1000 fun _ => 0
  cases made
  exact ⟨_, _, _, _, _, buffersMade, rfl, rfl, one_intent_iff (by simp) rfl⟩

/-- The first receive of a connection fails: with `EAGAIN` the handler submits two receives, with
`ECONNRESET` a close and a receive. -/
theorem two_intents :
    ∃ (handler : ConnHandler) (buffers : IoBufs) (ctx : ExecutorContext),
      BufferPool.new 1 (some (0x1000, fun _ => 0)) = .ok buffers ∧
      (ConnHandler.new 0).processEvent ⟨[], buffers⟩ .spawn = .ok (handler, ctx) ∧
      (∃ next ctx', handler.processEvent ⟨[], ctx.buffers⟩ (.ioCompleted (-11) 0) = .ok (next, ctx') ∧
        ctx'.intents = [.submitRecv 0 ⟨⟨0, 0⟩⟩ 0, .submitRecv 0 ⟨⟨0, 0⟩⟩ 0] ∧
        ¬ OneIntent ctx'.intents) ∧
      ∃ next ctx', handler.processEvent ⟨[], ctx.buffers⟩ (.ioCompleted (-104) 0) = .ok (next, ctx') ∧
        ctx'.intents = [.closeFixed 0, .submitRecv 0 ⟨⟨0, 0⟩⟩ 0] ∧ ¬ OneIntent ctx'.intents := by
  have twice : ∀ first second : MachineIntent, ¬ OneIntent [first, second] := by
    intro first second one
    simpa using one.single
  obtain ⟨genAlloc, made, buffersMade⟩ :=
    BufferPool.new_ok (show 0 < (1 : UInt32).toNat by decide) 0x1000 fun _ => 0
  cases made
  exact ⟨_, _, _, buffersMade, rfl, ⟨_, _, rfl, rfl, twice _ _⟩, _, _, rfl, rfl, twice _ _⟩

end ConnHandler

end Hoarder
