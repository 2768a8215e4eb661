/-
Module: Hoarder.Proofs.Generations
Purpose: How soon a generation can overflow.  A step moves at most one slot of the handler pool and
  one of the buffer pool to its next generation, so a run of fewer than `2^32` steps overflows none.
  While none overflows, the buffer handle a closing handler keeps is never valid again.
Trusted boundary: none
Main exports: GenAlloc.UsedAtMost, GenAlloc.Next, Running.noBufferOverflow, Running.StaleInv,
  Running.StaleInv.move, Running.counted, Running.noGenerationOverflow, Running.short_run
-/
import Hoarder.Foundation.Ghost
import Hoarder.Proofs.Births
import Hoarder.Proofs.ExecutorBuffers

namespace Hoarder

open Foundation

namespace GenAlloc

variable {a a' : GenAlloc} {bound : Nat}

/-- No slot is past the generation `bound`. -/
def UsedAtMost (a : GenAlloc) (bound : Nat) : Prop :=
  ∀ (slot : Nat) (generation : UInt32), a.generation[slot]? = some generation →
    generation.toNat ≤ bound

/-- What one call leaves of the generations: all as they were, or one slot at its next one. -/
inductive Next (a a' : GenAlloc) : Prop where
  | same (generation : a'.generation = a.generation)
  | moved (id : GenId) (valid : a.isValid id = true)
      (generation : a'.generation =
        a.generation.setIfInBounds id.index.toNat (id.generation + 1))

theorem Next.alloc {answer : Option GenId} (ran : a.alloc = .ok (answer, a')) : a.Next a' :=
  .same (alloc_generation ran)

theorem Next.free {id : GenId} {freed : Bool} (ran : a.free id = .ok (freed, a')) : a.Next a' := by
  rcases free_inv ran with ⟨_, _, rfl⟩ | ⟨valid, _, generation, _⟩
  · exact .same rfl
  · exact .moved id valid generation

/-- A slot after the call: it has its old generation, or the one after it. -/
theorem Next.slot (next : a.Next a') {slot : Nat} {new : UInt32}
    (found : a'.generation[slot]? = some new) :
    a.generation[slot]? = some new ∨ ∃ old, a.generation[slot]? = some old ∧ new = old + 1 := by
  cases next with
  | same generation => exact .inl (generation ▸ found)
  | moved id valid generation =>
      have current := isValid_iff.mp valid
      rcases eq_or_ne id.index.toNat slot with rfl | different
      · obtain ⟨inside, _⟩ := Array.getElem?_eq_some_iff.mp current
        rw [generation, Array.getElem?_setIfInBounds_self_of_lt inside] at found
        cases found
        exact .inr ⟨id.generation, current, rfl⟩
      · rw [generation, Array.getElem?_setIfInBounds_ne different] at found
        exact .inl found

/-- One call uses a slot at most once more. -/
theorem Next.usedAtMost (next : a.Next a') (used : a.UsedAtMost bound) :
    a'.UsedAtMost (bound + 1) := by
  intro slot new found
  rcases next.slot found with same | ⟨old, before, rfl⟩
  · exact (used slot new same).trans (Nat.le_succ _)
  · have few := used slot old before
    rw [UInt32.toNat_add]
    exact (Nat.mod_le _ _).trans (Nat.add_le_add_right few 1)

/-- A slot that was used fewer than `2^32 - 1` times does not overflow in one call. -/
theorem Next.noWrap (next : a.Next a') (used : a.UsedAtMost bound) (small : bound + 1 < 2 ^ 32) :
    a.NoWrap a' := by
  intro slot old new oldEq newEq
  rcases next.slot newEq with same | ⟨other, before, rfl⟩
  · rw [oldEq] at same
    cases same
    exact UInt32.le_refl old
  · rw [oldEq] at before
    cases before
    have few := used slot old oldEq
    have sum : (old + 1).toNat = old.toNat + 1 := by
      rw [UInt32.toNat_add]
      exact Nat.mod_eq_of_lt (by change old.toNat + 1 < 2 ^ 32; omega)
    rw [UInt32.le_iff_toNat_le, sum]
    exact Nat.le_succ _

/-- A new allocator has used nothing. -/
theorem new_usedAtMost {capacity mask : UInt32} (made : GenAlloc.new capacity mask = .ok a) :
    a.UsedAtMost 0 := by
  obtain ⟨generation, allocated, made⟩ := Outcome.bind_eq_ok.mp made
  obtain ⟨freeList, _, made⟩ := Outcome.bind_eq_ok.mp made
  cases made
  unfold newArray at allocated
  split at allocated
  · split at allocated <;> cases allocated
    intro slot generation found
    rw [Array.getElem?_replicate] at found
    split at found <;> cases found
    exact Nat.le_refl 0
  · cases allocated

end GenAlloc

/-- An event moves at most one buffer to its next generation. -/
theorem ConnMove.next {self self' : ConnHandler} {buffers buffers' : IoBufs}
    {event : MachineEvent} {intents : List MachineIntent}
    (move : ConnMove self buffers event self' buffers' intents) :
    buffers.genAlloc.Next buffers'.genAlloc := by
  rcases move.buffers_cases with ⟨answer, allocated⟩ | freed | same
  · obtain ⟨genAlloc, ran, rfl⟩ := BufferPool.alloc_eq_ok allocated
    exact .alloc ran
  · rcases ConnHandler.freeBuffer_eq_ok freed with ⟨_, rfl⟩ | ⟨handle, freed, _, ranFree⟩
    · exact .same rfl
    · obtain ⟨genAlloc, ran, rfl⟩ := BufferPool.free_eq_ok ranFree
      exact .free ran
  · rw [same]
    exact .same rfl

namespace Running

variable {s s' : Running} {label : RunLabel}

/-- A step moves at most one slot of the handler pool to its next generation. -/
theorem HandlerInv.next (inv : s.HandlerInv) (move : RunMove s label s') :
    s.executor.connHandlerPool.alloc.Next s'.executor.connHandlerPool.alloc := by
  cases move with
  | spawned listened handle fixed rest fresh pool queue phase spawn push =>
      rcases inv.pool.spawn_spec (ConnHandler.new fixed) with
        ⟨refused, _⟩ | ⟨_, _, spawned, _, _, _, _, _, generation⟩
      · rw [refused] at spawn
        cases spawn
      · rw [spawned] at spawn
        cases spawn
        exact .same generation
  | terminate listened handle rest freed pool phase kind despawn =>
      obtain ⟨_, _, handler, found, _⟩ := inv.terminate handle _ phase (by simp)
      obtain ⟨_, despawned, freeRan, _⟩ := inv.pool.despawn_spec found
      rw [despawned] at despawn
      cases despawn
      exact .free freeRan
  | missing | listener | handler | drained | finished | retry | submit | terminateListener | wait
  | reap | switch | take | complete => exact .same rfl

/-- A step moves at most one buffer to its next generation. -/
theorem buffers_next (move : RunMove s label s') :
    s.executor.ioBufs.genAlloc.Next s'.executor.ioBufs.genAlloc := by
  cases move with
  | handler _ _ _ _ _ _ _ _ _ _ _ handling => exact handling.next
  | complete index result flags data sqe ioBufs working written =>
      rcases written with rfl | ⟨_, _, rfl⟩ <;> exact .same rfl
  | missing | listener | drained | finished | retry | submit | spawned | terminateListener
  | terminate | wait | reap | switch | take => exact .same rfl

/-! ### Handles of the past -/

/-- The condition on one step that no generation of a buffer overflows. -/
def noBufferOverflow : Machine.Guard Running RunLabel := fun s _ s' =>
  s.executor.ioBufs.genAlloc.NoWrap s'.executor.ioBufs.genAlloc

/-- The buffers are in order, and the handle that a handler keeps after `Recv` belongs to the past of
its slot. -/
structure StaleInv (s : Running) : Prop extends BufferInv s where
  left : ∀ id handler bufferId, s.handlerAt id = some handler →
    (∀ phase, handler.state ≠ .recv phase) → handler.bufHandle? = some bufferId →
    s.executor.ioBufs.genAlloc.LeftBehind bufferId.id

/-- A repeated close finds its old handle invalid. -/
theorem StaleInv.noReissue (inv : s.StaleInv) : noReissue s label s' := by
  intro event handler dispatches start res flags bufferId _ _ held
  exact (inv.left _ handler bufferId (inv.handlers.found dispatches) (by simp [start]) held).invalid

/-- Without overflow a step keeps the handles of the past there. -/
theorem StaleInv.left_move (inv : s.StaleInv) (move : RunMove s label s')
    (noWrap : noBufferOverflow s label s') {id : GenId} {handler : ConnHandler}
    {bufferId : BufferHandle} (found : s'.handlerAt id = some handler)
    (notRecv : ∀ phase, handler.state ≠ .recv phase) (held : handler.bufHandle? = some bufferId) :
    s'.executor.ioBufs.genAlloc.LeftBehind bufferId.id := by
  have kept : s'.executor.ioBufs.genAlloc.capacity = s.executor.ioBufs.genAlloc.capacity →
      s.handlerAt id = some handler → s'.executor.ioBufs.genAlloc.LeftBehind bufferId.id :=
    fun capacity before => (inv.left id handler bufferId before notRecv held).mono noWrap capacity
  cases (inv.handlers.step move).1 with
  | same handlers genAlloc _ => exact kept (by rw [genAlloc]) (handlers ▸ found)
  | event event other other' intents dispatches found' handling handlers phase io =>
      rw [handlers] at found
      rcases eq_or_ne id event.handle.genId with rfl | different
      · rw [Function.update_self] at found
        cases found
        obtain ⟨same, before⟩ := handling.left inv.owns event.handle.genId (inv.owner dispatches)
          notRecv
        rw [same] at held
        rcases before with notRecvBefore | freed
        · exact (inv.left _ other bufferId found' notRecvBefore held).mono noWrap handling.capacity
        · obtain ⟨valid, invalid⟩ := freed bufferId held
          exact .of_invalidated valid invalid noWrap handling.capacity
      · rw [Function.update_of_ne different] at found
        exact kept handling.capacity found
  | spawned handle fixed rest other phase phase' small unbound handlers genAlloc =>
      rw [handlers] at found
      rcases eq_or_ne id other with rfl | different
      · rw [Function.update_self] at found
        cases found
        cases held
      · rw [Function.update_of_ne different] at found
        exact kept (by rw [genAlloc]) found
  | terminated handle other phase phase' found' closed handlers genAlloc =>
      rw [handlers] at found
      rcases eq_or_ne id handle.genId with rfl | different
      · rw [Function.update_self] at found
        cases found
      · rw [Function.update_of_ne different] at found
        exact kept (by rw [genAlloc]) found

/-- Each step keeps the invariant, while no generation of a buffer overflows. -/
theorem StaleInv.move (inv : s.StaleInv) (move : RunMove s label s')
    (noWrap : noBufferOverflow s label s') : s'.StaleInv :=
  { inv.toBufferInv.move move inv.noReissue with
    left := fun _ _ _ => inv.left_move move noWrap }

theorem staleInv_start {entries : Nat} {listeners connHandlers bufCount : UInt32}
    {raw : Option (Nat × (Nat → UInt8))}
    (started : start entries listeners connHandlers bufCount raw = .ok s) : s.StaleInv :=
  { bufferInv_start started with
    left := by simp [(handlerInv_start started).2] }

/-! ### Short runs -/

/-- All runs of an executor, with the number of steps taken. -/
def counted (listeners connHandlers bufCount : UInt32) : Machine (Running × Nat) RunLabel :=
  (machine listeners connHandlers bufCount).withGhost (fun _ => 0) fun _ steps _ _ => steps + 1

/-- The condition on one step that no generation overflows, neither of a connection handler nor of a
buffer, and that a repeated close does not find its old handle valid again. -/
def noGenerationOverflow : Machine.Guard Running RunLabel := fun s label s' =>
  noOverflow s label s' ∧ noBufferOverflow s label s' ∧ noReissue s label s'

/-- The slots of both pools were used at most once for each step. -/
structure UseInv (s : Running) (steps : Nat) : Prop extends StaleInv s where
  handlerSlots : s.executor.connHandlerPool.alloc.UsedAtMost steps
  bufferSlots : s.executor.ioBufs.genAlloc.UsedAtMost steps

theorem UseInv.noGenerationOverflow {steps : Nat} (inv : s.UseInv steps)
    (move : RunMove s label s') (short : steps + 1 < 2 ^ 32) : noGenerationOverflow s label s' :=
  ⟨(inv.handlers.next move).noWrap inv.handlerSlots short,
    (buffers_next move).noWrap inv.bufferSlots short, inv.toStaleInv.noReissue⟩

theorem UseInv.move {steps : Nat} (inv : s.UseInv steps) (move : RunMove s label s')
    (short : steps + 1 < 2 ^ 32) : s'.UseInv (steps + 1) :=
  { inv.toStaleInv.move move (inv.noGenerationOverflow move short).2.1 with
    handlerSlots := (inv.handlers.next move).usedAtMost inv.handlerSlots
    bufferSlots := (buffers_next move).usedAtMost inv.bufferSlots }

theorem useInv_start {entries : Nat} {listeners connHandlers bufCount : UInt32}
    {raw : Option (Nat × (Nat → UInt8))}
    (started : start entries listeners connHandlers bufCount raw = .ok s) : s.UseInv 0 := by
  obtain ⟨_, poolMade, bufsMade, _⟩ := start_fields started
  obtain ⟨data, _, poolMade⟩ := Outcome.bind_eq_ok.mp poolMade
  obtain ⟨alloc, allocMade, poolMade⟩ := Outcome.bind_eq_ok.mp poolMade
  refine { staleInv_start started with
           handlerSlots := ?_, bufferSlots := GenAlloc.new_usedAtMost (BufferPool.new_inv bufsMade).1 }
  rw [← Except.ok.inj poolMade]
  exact GenAlloc.new_usedAtMost allocMade

/-- Any number of connections, any kernel, any order of steps: a run of fewer than `2^32` steps
overflows no generation, and no repeated close in it finds its old buffer handle valid again.  No
slot of either pool has then been used more often than there were steps, and the handle that a
handler keeps after `Recv` resolves to nothing. -/
theorem short_run {listeners connHandlers bufCount : UInt32} {steps : Nat}
    (reached : (counted listeners connHandlers bufCount).Reachable (s, steps))
    (short : steps < 2 ^ 32) :
    (machine listeners connHandlers bufCount).Reach noGenerationOverflow s ∧
      s.executor.connHandlerPool.alloc.UsedAtMost steps ∧
      s.executor.ioBufs.genAlloc.UsedAtMost steps ∧
      ∀ id handler bufferId, s.handlerAt id = some handler →
        (∀ phase, handler.state ≠ .recv phase) → handler.bufHandle? = some bufferId →
        s.executor.ioBufs.getMut bufferId = .ok none := by
  have both : (machine listeners connHandlers bufCount).Reach noGenerationOverflow s ∧
      s.UseInv steps := by
    -- The bound on the steps so far follows from the one on those of the whole run.
    refine Machine.Reachable.ghost_invariant reached
      (fun s steps => steps < 2 ^ 32 →
        (machine listeners connHandlers bufCount).Reach noGenerationOverflow s ∧ s.UseInv steps)
      ?_ ?_ short
    · rintro s ⟨entries, raw, started⟩ _
      exact ⟨.initial ⟨entries, raw, started⟩, useInv_start started⟩
    · intro s steps label s' inductionHypothesis stepped short
      obtain ⟨before, inv⟩ := inductionHypothesis (Nat.lt_of_succ_lt short)
      have move := step_move stepped
      exact ⟨.step label before stepped (inv.noGenerationOverflow move short), inv.move move short⟩
  obtain ⟨guarded, inv⟩ := both
  refine ⟨guarded, inv.handlerSlots, inv.bufferSlots, fun id handler bufferId found notRecv held => ?_⟩
  exact BufferPool.getMut_invalid (inv.left id handler bufferId found notRecv held).invalid

set_option maxRecDepth 100000 in
/-- A connection that ended after 23 steps keeps a handle that resolves to nothing. -/
theorem short_run_ended :
    ∃ (s : Running) (steps : Nat), steps < 2 ^ 32 ∧
      s.executor.ioBufs.genAlloc.UsedAtMost steps ∧
      s.executor.ioBufs.getMut ⟨⟨0, 0⟩⟩ = .ok none := by
  obtain ⟨⟨s, steps⟩, reached, ends⟩ : ∃ p, (counted 1 1 1).Reachable p ∧
      (p.2 < 2 ^ 32 && (p.1.handlerAt ⟨0, 0⟩).any fun handler =>
        handler.state == .closing && handler.bufHandle? == some ⟨⟨0, 0⟩⟩) = true := by
    have initial : ∀ s, start 16 1 1 1 (some (0x1000, fun _ => 0)) = .ok s →
        (counted 1 1 1).initial (s, 0) := fun _ started => ⟨⟨16, _, started⟩, rfl⟩
    exact Machine.exists_reach_of_start _ initial (fun _ _ _ => true) (fun _ _ _ _ => trivial)
      (acceptOne ++ [.take, .complete 1 0 0 []] ++ ticks 5) _ (by decide +kernel)
  simp only [Bool.and_eq_true, decide_eq_true_eq, Option.any_eq_true, beq_iff_eq] at ends
  obtain ⟨short, handler, found, closing, held⟩ := ends
  obtain ⟨_, _, used, stale⟩ := short_run reached short
  exact ⟨s, steps, short, used, stale ⟨0, 0⟩ handler _ found (by simp [closing]) held⟩

end Running

end Hoarder
