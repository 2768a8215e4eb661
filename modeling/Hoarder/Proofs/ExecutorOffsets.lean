/-
Module: Hoarder.Proofs.ExecutorOffsets
Purpose: Offsets of receives under the running executor.  While no completion makes a connection
  reach the end of its buffer, every receive in progress starts inside the buffer and every read
  submitted to the ring has room for a byte.
Trusted boundary: none
Main exports: Running.OffsetInv, Running.staysBelow, Running.OffsetInv.move,
  Running.recv_offset_inside
-/
import Hoarder.Proofs.ExecutorBuffers

namespace Hoarder

open Foundation

namespace Running

variable {s s' : Running} {label : RunLabel}

/-- The size of a buffer. -/
def bufferSize : Nat := 0x1000

/-- Every connection is inside its buffer, and so are its receives, in progress and submitted. -/
structure OffsetInv (s : Running) : Prop where
  handlers : s.HandlerInv
  size : s.executor.ioBufs.pool.bufSize = bufferSize
  offset : ∀ id handler, s.handlerAt id = some handler → handler.offset.toNat < bufferSize
  recv : ∀ handle intents, s.phase = .completeIntent handle intents →
    ∀ fixed bufferId offset, .submitRecv fixed bufferId offset ∈ intents →
      offset.toNat < bufferSize
  reads : ∀ sqe ∈ s.executor.io.sq ++ s.executor.io.inFlight,
    ∀ fixed buf len bufIndex bufferId, sqe.op = .readFixed fixed buf len bufIndex bufferId →
      len ≠ 0

/-- The condition on one step that the count of a positive completion, dispatched to a handler in
`Recv`, and the bytes the connection has received make less than a buffer. -/
def staysBelow : Machine.Guard Running RunLabel := fun s label _ =>
  ∀ event handler, s.Dispatches label event handler →
    ∀ phase res flags, handler.state = .recv phase → event.reason = .ioCompleted res flags →
      0 < res → handler.offset.toNat + res.toNatClampNeg < bufferSize

/-- No step changes the size of the buffers. -/
theorem bufSize_move (move : RunMove s label s') :
    s'.executor.ioBufs.pool.bufSize = s.executor.ioBufs.pool.bufSize := by
  cases move with
  | handler _ _ _ _ _ _ _ _ _ _ _ handling => exact congrArg AlignedBuffers.bufSize handling.pool
  | complete index result flags data sqe ioBufs working written =>
      rcases written with rfl | ⟨_, _, rfl⟩ <;> rfl
  | missing | listener | drained | finished | retry | submit | spawned | terminateListener
  | terminate | wait | reap | switch | take => rfl

/-- A read is submitted with room for a byte. -/
theorem readLen_ne_zero {offset : Nat} (inside : offset < bufferSize) :
    UInt32.ofNat (bufferSize - offset) ≠ 0 := by
  intro empty
  have length := congrArg UInt32.toNat empty
  rw [UInt32.toNat_ofNat', UInt32.toNat_zero] at length
  unfold bufferSize at *
  omega

/-- The handlers of the state after a step are inside their buffers. -/
theorem OffsetInv.offset_move (inv : s.OffsetInv) (step : s.HandlerStep label s')
    (met : staysBelow s label s') :
    ∀ id handler, s'.handlerAt id = some handler → handler.offset.toNat < bufferSize := by
  have updated : ∀ {owner : GenId} {changed : Option ConnHandler},
      s'.handlerAt = Function.update s.handlerAt owner changed →
      (∀ handler, changed = some handler → handler.offset.toNat < bufferSize) →
      ∀ id handler, s'.handlerAt id = some handler → handler.offset.toNat < bufferSize := by
    intro owner changed handlers small id handler found
    rw [handlers] at found
    by_cases same : id = owner
    · subst same
      rw [Function.update_self] at found
      exact small handler found
    · rw [Function.update_of_ne same] at found
      exact inv.offset id handler found
  cases step with
  | same handlers =>
      rw [handlers]
      exact inv.offset
  | event event handler handler' intents dispatches found handling handlers =>
      apply updated handlers
      intro other same
      cases same
      exact (handling.offset_lt (by decide) (inv.offset _ _ found) (met event handler dispatches)).1
  | spawned handle fixed rest id phase phase' small unbound handlers =>
      apply updated handlers
      intro other same
      cases same
      show 0 < bufferSize
      decide
  | terminated handle handler phase phase' found closed handlers =>
      apply updated handlers
      simp

/-- Every step that meets the condition keeps the invariant. -/
theorem OffsetInv.move (inv : s.OffsetInv) (move : RunMove s label s')
    (met : staysBelow s label s') : s'.OffsetInv := by
  refine ⟨inv.handlers.move move, (bufSize_move move).trans inv.size,
    inv.offset_move (inv.handlers.step move).1 met, ?_, ?_⟩
  · intro handle intents phase' fixed bufferId offset submitted
    rcases intent_cases move phase' (List.ne_nil_of_mem submitted) with
      ⟨before | ⟨_, before⟩, _⟩ | ⟨_, _, _, _, listening⟩ | ⟨event, handler, _, _, dispatches, handling⟩
    · exact inv.recv handle intents before fixed bufferId offset submitted
    · exact inv.recv handle _ before fixed bufferId offset (List.mem_cons_of_mem _ submitted)
    · exact absurd submitted (listening.notHandler.2.2 fixed bufferId offset)
    · have below := inv.offset _ _ (inv.handlers.found dispatches)
      exact (handling.offset_lt (by decide) below (met event handler dispatches)).2 fixed bufferId
        offset submitted
  · intro sqe member fixed buf len bufIndex bufferId isRead
    rcases submitted_cases move member with before | ⟨handle, intent, rest, phase, submits⟩
    · exact inv.reads sqe before fixed buf len bufIndex bufferId isRead
    · cases submits with
      | recv _ _ offset address inside resolved =>
          cases isRead
          rw [inv.size] at inside ⊢
          exact readLen_ne_zero inside
      | accept fd => cases isRead
      | close _ => cases isRead

/-- The invariant at the start of a run. -/
theorem offsetInv_start {entries : Nat} {listeners connHandlers bufCount : UInt32}
    {raw : Option (Nat × (Nat → UInt8))}
    (started : start entries listeners connHandlers bufCount raw = .ok s) : s.OffsetInv := by
  obtain ⟨phase, _, bufsMade, sq, inFlight, _⟩ := start_fields started
  obtain ⟨inv, noneFound⟩ := handlerInv_start started
  exact ⟨inv, (BufferPool.new_owns (κ := Unit) bufsMade).2.1, by simp [noneFound], by simp [phase],
    by simp [sq, inFlight]⟩

theorem offsetInv_reach {listeners connHandlers bufCount : UInt32}
    (reached : (machine listeners connHandlers bufCount).Reach staysBelow s) : s.OffsetInv := by
  refine reached.invariant OffsetInv ?_ ?_
  · rintro s ⟨entries, raw, started⟩
    exact offsetInv_start started
  · intro s label s' inv stepped met
    exact inv.move (step_move stepped) met

/-- The receives in progress start inside the buffer. -/
def RecvsInside (s : Running) : Prop :=
  ∀ handle intents, s.phase = .completeIntent handle intents →
    ∀ fixed bufferId offset, .submitRecv fixed bufferId offset ∈ intents →
      offset.toNat < s.executor.ioBufs.pool.bufSize

/-- Every read that is submitted and not completed has room for a byte. -/
def ReadsNonempty (s : Running) : Prop :=
  ∀ sqe ∈ s.executor.io.sq ++ s.executor.io.inFlight,
    ∀ fixed buf len bufIndex bufferId, sqe.op = .readFixed fixed buf len bufIndex bufferId →
      len ≠ 0

/-- What the kernel promises of a completion the step dispatches to a handler in `Recv`: it counts
no more bytes than a buffer has. -/
def withinBuffer : Machine.Guard Running RunLabel := fun s label _ =>
  ∀ event handler, s.Dispatches label event handler →
    ∀ phase res flags, handler.state = .recv phase → event.reason = .ioCompleted res flags →
      0 < res → res.toNatClampNeg ≤ bufferSize

theorem OffsetInv.recvsInside (inv : s.OffsetInv) : s.RecvsInside := by
  intro handle intents phase fixed bufferId offset submitted
  rw [inv.size]
  exact inv.recv handle intents phase fixed bufferId offset submitted

/-- The receive that follows a positive completion starts where the bytes received end. -/
theorem staysBelow_of_inside (inv : s.OffsetInv) (move : RunMove s label s')
    (kernel : withinBuffer s label s') (inside : s'.RecvsInside) : staysBelow s label s' := by
  intro event handler dispatches phase res flags start reason positive
  obtain ⟨handler', intents, handling, phase', _⟩ := dispatches.move move
  rw [reason] at handling
  obtain ⟨bufferId, rfl⟩ := handling.advances start positive
  have below := inside event.handle _ phase' handler.socket bufferId _
    (List.mem_singleton_self _)
  have received := inv.offset _ _ (inv.handlers.found dispatches)
  have counted := kernel event handler dispatches phase res flags start reason positive
  rw [bufSize_move move, inv.size] at below
  unfold bufferSize at received counted
  rwa [(ConnMove.toNat_offset_add positive (by omega)).2] at below

/-- Any number of connections, any split of the bytes of the peers: along every run in which no
positive completion makes a connection in `Recv` reach the end of its buffer, every receive in
progress starts inside the buffer, completing it does not fail the assertion, and every submitted
read has room for a byte.  From a state of such a run, a step on a count that the kernel can return
keeps this exactly if it meets the condition. -/
theorem recv_offset_inside {listeners connHandlers bufCount : UInt32}
    (reached : (machine listeners connHandlers bufCount).Reach staysBelow s) :
    s.RecvsInside ∧ s.ReadsNonempty ∧
      (∀ handle fixed bufferId offset rest,
        s.phase = .completeIntent handle (.submitRecv fixed bufferId offset :: rest) →
        s.executor.completeIntent handle (.submitRecv fixed bufferId offset) ≠
          .error .recvOffset) ∧
      ∀ label s', s.step label = some s' → withinBuffer s label s' →
        (s'.RecvsInside ↔ staysBelow s label s') := by
  have inv := offsetInv_reach reached
  refine ⟨inv.recvsInside, inv.reads, fun handle fixed bufferId offset rest phase => ?_,
    fun label s' stepped kernel => ?_⟩
  · intro failed
    rcases Executor.submitRecv_error failed with ⟨_, outside⟩ | ⟨other, _⟩ | other | other
    · exact outside (inv.recvsInside handle _ phase fixed bufferId offset (by simp))
    · cases other
    · cases other
    · cases other
  · have move := step_move stepped
    exact ⟨staysBelow_of_inside inv move kernel, fun met => (inv.move move met).recvsInside⟩

/-- `staysBelow`, as a test. -/
def isBelow (s : Running) (label : RunLabel) : Bool :=
  (s.dispatched? label).all fun (event, handler) =>
    match handler.state, event.reason with
    | .recv _, .ioCompleted res _ => handler.offset.toNat + res.toNatClampNeg < bufferSize
    | _, _ => true

theorem isBelow_sound (passed : s.isBelow label = true) : staysBelow s label s' := by
  intro event handler dispatches phase res flags start reason _
  simpa [isBelow, dispatches.dispatched, start, reason] using passed

set_option maxRecDepth 100000 in
/-- After 4095 bytes the receive in progress starts at the last byte. -/
theorem recv_offset_inside_last :
    ∃ s : Running, s.phase = .completeIntent ⟨0x0200000000000000⟩ [.submitRecv 0 ⟨⟨0, 0⟩⟩ 4095] ∧
      s.RecvsInside := by
  obtain ⟨s, reached, ends⟩ := @exists_reach_of_start 16 1 1 1 (some (0x1000, fun _ => 0)) _
    (fun s label _ => s.isBelow label) (fun _ _ _ passed => isBelow_sound passed)
    (acceptOne ++ [.take, .complete 1 4095 0 []] ++ ticks 4)
    (fun s => s.phase == .completeIntent ⟨0x0200000000000000⟩ [.submitRecv 0 ⟨⟨0, 0⟩⟩ 4095]) rfl
  exact ⟨s, beq_iff_eq.mp ends, (recv_offset_inside reached).1⟩

/-- The kernel's promise on one step: a read completes with at most the bytes it asked for. -/
def readsWithinLength : Machine.Guard Running RunLabel := fun s label _ =>
  ∀ index result flags data, label = .complete index result flags data →
    ∀ sqe fixed buf len bufIndex bufferId, s.executor.io.inFlight[index]? = some sqe →
      sqe.op = .readFixed fixed buf len bufIndex bufferId → result.toNatClampNeg ≤ len.toNat

/-- `readsWithinLength`, as a test. -/
def isWithinLength (s : Running) : RunLabel → Bool
  | .complete index result _ _ =>
      s.executor.io.inFlight[index]?.all fun sqe =>
        match sqe.op with
        | .readFixed _ _ len _ _ => result.toNatClampNeg ≤ len.toNat
        | _ => true
  | _ => true

theorem isWithinLength_sound (passed : s.isWithinLength label = true) :
    readsWithinLength s label s' := by
  rintro index result flags data rfl sqe fixed buf len bufIndex bufferId working isRead
  simpa [isWithinLength, working, isRead] using passed

set_option maxRecDepth 100000 in
/-- A peer that fills the buffer: the read of 4096 bytes completes with 4096, and the assertion on
the next receive fails. -/
theorem recv_offset_at_end :
    ∃ s : Running, (machine 1 1 1).Reach readsWithinLength s ∧
      s.phase = .completeIntent ⟨0x0200000000000000⟩ [.submitRecv 0 ⟨⟨0, 0⟩⟩ 4096] ∧
      s.executor.completeIntent ⟨0x0200000000000000⟩ (.submitRecv 0 ⟨⟨0, 0⟩⟩ 4096) =
        .error .recvOffset := by
  obtain ⟨s, reached, ends⟩ := @exists_reach_of_start 16 1 1 1 (some (0x1000, fun _ => 0)) _
    (fun s label _ => s.isWithinLength label) (fun _ _ _ passed => isWithinLength_sound passed)
    (acceptOne ++ [.take, .complete 1 4096 0 []] ++ ticks 4)
    (fun s =>
      (s.phase == .completeIntent ⟨0x0200000000000000⟩ [.submitRecv 0 ⟨⟨0, 0⟩⟩ 4096]) &&
        s.executor.ioBufs.pool.bufSize == 0x1000) rfl
  simp only [Bool.and_eq_true, beq_iff_eq] at ends
  obtain ⟨phase, size⟩ := ends
  refine ⟨s, reached, phase, ?_⟩
  simp [Executor.completeIntent, size]

end Running

end Hoarder
