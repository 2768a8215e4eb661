/-
Module: Hoarder.Proofs.BufferSharing
Purpose: Connection handlers that share one buffer pool.  The machine delivers any events to any of
  them; `Shared` is the invariant, and `ExactlyHeld` what it says about the pool: the outstanding
  buffers are those of the handlers in `Recv`.
Trusted boundary: none
Main exports: Sharing, Sharing.machine, Sharing.Shared, Sharing.Shared.step, Sharing.ExactlyHeld,
  Sharing.buffers_exactly_held
-/
import Hoarder.Foundation.Machine
import Hoarder.Proofs.ConnHandler

namespace Hoarder

open Foundation

/-- Handlers named by any type, and the pool they share. -/
structure Sharing (ι : Type) where
  handlers : ι → ConnHandler
  buffers : IoBufs

namespace Sharing

variable {ι : Type} [DecidableEq ι]

/-- One handler processes one event.  A run ends at a panic. -/
def step (s : Sharing ι) (label : ι × MachineEvent) : Option (Sharing ι) :=
  match (s.handlers label.1).processEvent { intents := [], buffers := s.buffers } label.2 with
  | .ok (handler, ctx) =>
      some { handlers := Function.update s.handlers label.1 handler, buffers := ctx.buffers }
  | .error _ => none

/-- All interleavings of events delivered to new handlers on any sockets, over a new pool. -/
def machine (ι : Type) [DecidableEq ι] (count : UInt32) :
    Machine (Sharing ι) (ι × MachineEvent) where
  initial s := ∃ raw, ∃ sockets : ι → Fixed, BufferPool.new count raw = .ok s.buffers ∧
    s.handlers = fun i => ConnHandler.new (sockets i)
  step := step

/-- The condition on one event that no slot's generation overflows. -/
def noOverflow : Machine.Guard (Sharing ι) (ι × MachineEvent) :=
  fun s _ s' => s.buffers.genAlloc.NoWrap s'.buffers.genAlloc

/-- The receiving handlers own their buffers and all others are free; a handler in `Recv` has a
handle; the handle a closing handler keeps belongs to the past of its slot. -/
structure Shared (s : Sharing ι) : Prop where
  owns : s.buffers.Owns fun i => (s.handlers i).receiving?
  held : ∀ i phase, (s.handlers i).state = .recv phase → (s.handlers i).bufHandle?.isSome
  left : ∀ i handle, (∀ phase, (s.handlers i).state ≠ .recv phase) →
    (s.handlers i).bufHandle? = some handle → s.buffers.genAlloc.LeftBehind handle.id

variable {s s' : Sharing ι} {label : ι × MachineEvent}

/-- A step is a move of one handler. -/
theorem step_move (stepped : step s label = some s') :
    ∃ handler intents,
      ConnMove (s.handlers label.1) s.buffers label.2 handler s'.buffers intents ∧
        s'.handlers = Function.update s.handlers label.1 handler := by
  unfold step at stepped
  split at stepped <;> cases stepped
  rename_i handler ctx ran
  exact ⟨handler, ctx.intents, ConnHandler.processEvent_move ran, rfl⟩

theorem Shared.step (shared : Shared s) (stepped : step s label = some s')
    (met : noOverflow s label s') : Shared s' := by
  obtain ⟨handler, intents, move, handlers'⟩ := step_move stepped
  have capacity := move.capacity
  constructor
  · have owns' := move.owns shared.owns label.1 rfl ?_
    · apply owns'.congr
      intro i
      rw [handlers']
      rcases eq_or_ne i label.1 with rfl | different
      · rw [Function.update_self, Function.update_self]
      · rw [Function.update_of_ne different, Function.update_of_ne different]
    · -- The handle of a repeated close is of an earlier generation than its slot.
      intro res flags handle start _ _ held
      exact (shared.left label.1 handle (by simp [start]) held).invalid
  · intro i phase start
    rw [handlers'] at start ⊢
    rcases eq_or_ne i label.1 with rfl | different
    · rw [Function.update_self] at start ⊢
      exact move.held (shared.held label.1) phase start
    · rw [Function.update_of_ne different] at start ⊢
      exact shared.held i phase start
  · intro i handle notRecv held
    rw [handlers'] at notRecv held
    rcases eq_or_ne i label.1 with rfl | different
    · rw [Function.update_self] at notRecv held
      obtain ⟨sameHandle, before⟩ := move.left shared.owns label.1 rfl notRecv
      rw [sameHandle] at held
      rcases before with notRecvBefore | freed
      · exact (shared.left _ handle notRecvBefore held).mono met capacity
      · obtain ⟨valid, invalid⟩ := freed handle held
        exact .of_invalidated valid invalid met capacity
    · rw [Function.update_of_ne different] at notRecv held
      exact (shared.left i handle notRecv held).mono met capacity

theorem shared_of_reach {count : UInt32} (reached : (machine ι count).Reach noOverflow s) :
    Shared s := by
  refine reached.invariant Shared ?_ (fun _ _ _ shared stepped met => shared.step stepped met)
  rintro s ⟨raw, sockets, made, handlers⟩
  obtain ⟨owns, _⟩ := BufferPool.new_owns (κ := ι) made
  refine ⟨owns.congr fun i => ?_, ?_, ?_⟩ <;> simp [handlers, ConnHandler.new, ConnHandler.receiving?]

/-- The outstanding handles of the pool are the handles of the handlers in `Recv`, each of one of
them; the free buffers are listed once; and no event makes a handler read a handle it does not
have. -/
structure ExactlyHeld (s : Sharing ι) : Prop where
  outstanding : ∀ handle, s.buffers.Outstanding handle ↔
    ∃ i phase, (s.handlers i).state = .recv phase ∧ (s.handlers i).bufHandle? = some handle
  distinct : ∀ i j phase phase' handle,
    (s.handlers i).state = .recv phase → (s.handlers i).bufHandle? = some handle →
    (s.handlers j).state = .recv phase' → (s.handlers j).bufHandle? = some handle → i = j
  held : ∀ i phase, (s.handlers i).state = .recv phase → (s.handlers i).bufHandle?.isSome
  freeOnce : s.buffers.genAlloc.freeIndices.Nodup
  handleRead : ∀ i ctx event, (s.handlers i).processEvent ctx event ≠ .error .bufHandleNone

/-- A handler owns a handle exactly if it is in `Recv` with it. -/
theorem receiving?_eq_some {self : ConnHandler} {handle : BufferHandle} :
    self.receiving? = some handle ↔
      ∃ phase, self.state = .recv phase ∧ self.bufHandle? = some handle := by
  unfold ConnHandler.receiving?
  split
  · rename_i phase start
    exact ⟨fun held => ⟨phase, start, held⟩, fun ⟨_, _, held⟩ => held⟩
  · rename_i notRecv
    constructor
    · intro held
      cases held
    · rintro ⟨phase, start, _⟩
      exact absurd start (notRecv phase)

/-- Any number of handlers over one pool, any events in any order, no generation overflow: the
pool's outstanding buffers are exactly those of the handlers in `Recv`. -/
theorem buffers_exactly_held {count : UInt32} (reached : (machine ι count).Reach noOverflow s) :
    ExactlyHeld s := by
  have shared := shared_of_reach reached
  refine
    { outstanding := fun handle => ?_
      distinct := ?_
      held := shared.held
      freeOnce := shared.owns.partition.freeNodup
      handleRead := fun i _ _ =>
        ConnHandler.processEvent_ne_error (by decide) (fun _ => shared.held i) (by simp) }
  · rw [shared.owns.outstanding_iff]
    simp only [receiving?_eq_some]
  · intro i j phase phase' handle start held start' held'
    exact shared.owns.exclusive (receiving?_eq_some.mpr ⟨phase, start, held⟩)
      (receiving?_eq_some.mpr ⟨phase', start', held'⟩)

/-- Two handlers and one buffer: the first closes, the second takes the buffer over, and a repeated
close of the first leaves it alone. -/
theorem buffers_exactly_held_reused :
    ∃ s : Sharing Bool, (s.handlers false).bufHandle? = some ⟨⟨0, 0⟩⟩ ∧
      (s.handlers true).bufHandle? = some ⟨⟨0, 1⟩⟩ ∧ ExactlyHeld s := by
  obtain ⟨genAlloc, made, buffersMade⟩ :=
    BufferPool.new_ok (show 0 < (1 : UInt32).toNat by decide) 0x1000 fun _ => 0
  have start : (machine Bool 1).initial ⟨fun _ => ConnHandler.new 0, _⟩ :=
    ⟨_, fun _ => 0, buffersMade, rfl⟩
  cases made
  obtain ⟨s, reached, ends⟩ := Machine.exists_reach_of_run
    (fun s _ s' => s.buffers.genAlloc.noWrap s'.buffers.genAlloc)
    (fun _ _ _ passed => GenAlloc.noWrap_sound passed) start
    [(false, .spawn), (false, .ioCompleted 0 0), (true, .spawn), (false, .ioCompleted (-5) 0)]
    (fun s : Sharing Bool => (s.handlers false).bufHandle? == some ⟨⟨0, 0⟩⟩ &&
      (s.handlers true).bufHandle? == some ⟨⟨0, 1⟩⟩) rfl
  simp only [Bool.and_eq_true, beq_iff_eq] at ends
  exact ⟨s, ends.1, ends.2, buffers_exactly_held reached⟩

end Sharing

end Hoarder
