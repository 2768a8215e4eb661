/-
Module: Hoarder.Proofs.Admission
Purpose: The buffers of the running executor, counted.  The outstanding buffers are those of the
  handlers in `Recv`, and together with the free ones they are all; a connection is put off only
  while every buffer is held, so with as many buffers as handlers none is.
Trusted boundary: none
Main exports: Running.BufferInv.holder, Running.buffers_accounted, Running.AdmitInv,
  Running.never_retries
-/
import Hoarder.Proofs.Generations

namespace Hoarder

open Foundation

/-- Only a handler in `Init` that finds no free buffer retries. -/
theorem ConnMove.retry_cases {self self' : ConnHandler} {buffers buffers' : IoBufs}
    {event : MachineEvent} {intents : List MachineIntent}
    (move : ConnMove self buffers event self' buffers' intents) (submitted : .retry ∈ intents) :
    self.state = .init ∧ buffers.alloc = .ok (none, buffers') := by
  cases move with
  | retry buffers' start refused => exact ⟨start, refused⟩
  | spawned | endOfStream | transient | disconnected | ignored | received | closed | closeAgain
  | late => simp at submitted

namespace Running

variable {s s' : Running} {label : RunLabel}

/-- A handler that owns a buffer is in `Recv` with it. -/
theorem bufOwner_eq_some {id : GenId} {bufferId : BufferHandle} :
    s.bufOwner id = some bufferId ↔
      ∃ handler phase, s.handlerAt id = some handler ∧ handler.state = .recv phase ∧
        handler.bufHandle? = some bufferId := by
  rw [bufOwner, Option.bind_eq_some_iff]
  constructor
  · rintro ⟨handler, found, receiving⟩
    unfold ConnHandler.receiving? at receiving
    split at receiving
    · rename_i phase start
      exact ⟨handler, phase, found, start, receiving⟩
    · cases receiving
  · rintro ⟨handler, phase, found, start, held⟩
    exact ⟨handler, found, by rw [ConnHandler.receiving?_recv start, held]⟩

/-- The buffers as the allocator sees them. -/
theorem BufferInv.idOwns (inv : s.BufferInv) :
    s.executor.ioBufs.genAlloc.Owns fun id => (s.bufOwner id).map BufferHandle.id := inv.owns

/-- When no buffer is free, each is held. -/
theorem BufferInv.holder (inv : s.BufferInv) {buffers' : IoBufs}
    (refused : s.executor.ioBufs.alloc = .ok (none, buffers')) {slot : Nat}
    (inside : slot < s.executor.ioBufs.genAlloc.capacity) :
    ∃ id bufferId, s.bufOwner id = some bufferId ∧ bufferId.id.index.toNat = slot := by
  obtain ⟨genAlloc, ran, _⟩ := BufferPool.alloc_eq_ok refused
  have partition := inv.idOwns.partition
  rw [(inv.idOwns.alloc_none ran).2] at partition
  obtain ⟨id, holds⟩ := partition.all_owned inside
  simp only [Option.map_map, Option.map_eq_some_iff, Function.comp_apply] at holds
  obtain ⟨bufferId, holds, index⟩ := holds
  exact ⟨id, bufferId, holds, index⟩

/-- No step changes the number of buffers. -/
theorem bufferCount_move (move : RunMove s label s') :
    s'.executor.ioBufs.genAlloc.capacity = s.executor.ioBufs.genAlloc.capacity := by
  cases move with
  | handler _ _ _ _ _ _ _ _ _ _ _ handling => exact handling.capacity
  | complete index result flags data sqe ioBufs working written =>
      rcases written with rfl | ⟨_, _, rfl⟩ <;> rfl
  | missing | listener | drained | finished | retry | submit | spawned | terminateListener
  | terminate | wait | reap | switch | take => rfl

/-- The buffers are in order, and there are `count` of them. -/
structure TallyInv (count : Nat) (s : Running) : Prop extends BufferInv s where
  count : s.executor.ioBufs.genAlloc.capacity = count

/-- The free buffers and the handlers that own one are together as many as there are buffers. -/
theorem TallyInv.free_add_owners {count : Nat} (inv : s.TallyInv count) :
    s.executor.ioBufs.genAlloc.freeIndices.length + {id | (s.bufOwner id).isSome}.ncard = count := by
  have sum := inv.idOwns.partition.free_add_owners
  simp only [Option.isSome_map] at sum
  rw [sum, inv.count]

theorem TallyInv.move {count : Nat} (inv : s.TallyInv count) (move : RunMove s label s')
    (met : noReissue s label s') : s'.TallyInv count :=
  { inv.toBufferInv.move move met with count := (bufferCount_move move).trans inv.count }

theorem tallyInv_start {entries : Nat} {listeners connHandlers bufCount : UInt32}
    {raw : Option (Nat × (Nat → UInt8))}
    (started : start entries listeners connHandlers bufCount raw = .ok s) :
    s.TallyInv bufCount.toNat := by
  obtain ⟨_, _, bufsMade, _⟩ := start_fields started
  refine { bufferInv_start started with count := ?_ }
  rw [(GenAlloc.owns_of_new (κ := Unit) (BufferPool.new_inv bufsMade).1).2,
    GenAlloc.maskedCapacity_zero]

theorem tallyInv_reach {listeners connHandlers bufCount : UInt32}
    (reached : (machine listeners connHandlers bufCount).Reach noReissue s) :
    s.TallyInv bufCount.toNat :=
  reached.invariant (TallyInv bufCount.toNat) (fun _ ⟨_, _, started⟩ => tallyInv_start started)
    fun _ _ _ inv stepped met => inv.move (step_move stepped) met

/-- Any number of connections, any kernel, any order of steps, unless a repeated close frees a
reissued buffer: the outstanding buffers are those of the handlers in `Recv`, each of one of them,
and the free buffers and the handlers in `Recv` are together as many as the pool has buffers. -/
theorem buffers_accounted {listeners connHandlers bufCount : UInt32}
    (reached : (machine listeners connHandlers bufCount).Reach noReissue s) :
    (∀ bufferId, s.executor.ioBufs.Outstanding bufferId ↔
      ∃ id handler phase, s.handlerAt id = some handler ∧ handler.state = .recv phase ∧
        handler.bufHandle? = some bufferId) ∧
    (∀ id other bufferId, s.bufOwner id = some bufferId → s.bufOwner other = some bufferId →
      id = other) ∧
    s.executor.ioBufs.genAlloc.freeIndices.Nodup ∧
    s.executor.ioBufs.genAlloc.freeIndices.length + {id | (s.bufOwner id).isSome}.ncard =
      bufCount.toNat := by
  have inv := tallyInv_reach reached
  refine ⟨fun bufferId => ?_, fun id other bufferId holds otherHolds =>
    inv.owns.exclusive holds otherHolds, inv.idOwns.partition.freeNodup, inv.free_add_owners⟩
  rw [inv.owns.outstanding_iff]
  exact exists_congr fun id => bufOwner_eq_some

/-- `noReissue`, as a test. -/
def isNotReissued (s : Running) (label : RunLabel) : Bool :=
  (s.dispatched? label).all fun (event, handler) =>
    match handler.state, event.reason with
    | .closing, .ioCompleted _ _ =>
        handler.bufHandle?.all fun bufferId => !s.executor.ioBufs.isValid bufferId
    | _, _ => true

theorem isNotReissued_sound (passed : s.isNotReissued label = true) : noReissue s label s' := by
  intro event handler dispatches start res flags bufferId reason _ held
  simpa [isNotReissued, dispatches.dispatched, start, reason, held] using passed

set_option maxRecDepth 100000 in
/-- One of two buffers is held, and one is free. -/
theorem buffers_accounted_one :
    ∃ s : Running, s.executor.ioBufs.Outstanding ⟨⟨1, 0⟩⟩ ∧
      s.executor.ioBufs.genAlloc.freeIndices.length +
        {id | (s.bufOwner id).isSome}.ncard = 2 := by
  obtain ⟨s, reached, ends⟩ := @exists_reach_of_start 16 1 1 2 (some (0x1000, fun _ => 0)) _
    (fun s label _ => s.isNotReissued label) (fun _ _ _ passed => isNotReissued_sound passed)
    acceptOne
    (fun s => (s.handlerAt ⟨0, 0⟩).any fun handler =>
      handler.state == .recv .receivingHeader && handler.bufHandle? == some ⟨⟨1, 0⟩⟩)
    (by decide +kernel)
  simp only [Option.any_eq_true, Bool.and_eq_true, beq_iff_eq] at ends
  obtain ⟨handler, found, receiving, held⟩ := ends
  obtain ⟨outstanding, _, _, counted⟩ := buffers_accounted reached
  exact ⟨s, (outstanding _).mpr ⟨_, handler, _, found, receiving, held⟩, counted⟩

/-! ### Enough buffers -/

/-- There are as many buffers as there is room for handlers, and nothing is put off. -/
structure AdmitInv (s : Running) : Prop extends BufferInv s where
  enough : s.executor.connHandlerPool.alloc.capacity ≤ s.executor.ioBufs.genAlloc.capacity
  admitted : ∀ handle intents, s.phase = .completeIntent handle intents → .retry ∉ intents

/-- A handler that is to be started finds a buffer: those that hold one are other handlers. -/
theorem AdmitInv.not_refused (inv : s.AdmitInv) {id : GenId} {handler : ConnHandler}
    (found : s.handlerAt id = some handler) (start : handler.state = .init) (buffers' : IoBufs) :
    s.executor.ioBufs.alloc ≠ .ok (none, buffers') := by
  intro refused
  have held : ∀ slot : Fin s.executor.ioBufs.genAlloc.capacity, ∃ owner bufferId,
      s.bufOwner owner = some bufferId ∧ bufferId.id.index.toNat = slot.val := fun slot =>
    inv.holder refused slot.isLt
  choose owner bufferId holds index using held
  have injective : Function.Injective owner := by
    intro first second same
    have sameBuffer : some (bufferId first) = some (bufferId second) := by
      rw [← holds first, ← holds second, same]
    exact Fin.ext ((index first).symm.trans (by rw [Option.some.inj sameBuffer, index second]))
  have notOwner : id ∉ List.ofFn owner := by
    intro member
    obtain ⟨slot, rfl⟩ := List.mem_ofFn.mp member
    obtain ⟨other, phase, found', receiving, _⟩ := bufOwner_eq_some.mp (holds slot)
    rw [found] at found'
    cases found'
    rw [start] at receiving
    cases receiving
  have nodup : (id :: List.ofFn owner).Nodup :=
    List.nodup_cons.mpr ⟨notOwner, List.nodup_ofFn.mpr injective⟩
  have resolve : ∀ other ∈ id :: List.ofFn owner,
      (s.executor.connHandlerPool.lookup other).isSome := by
    intro other member
    rcases List.mem_cons.mp member with rfl | member
    · exact Option.isSome_iff_exists.mpr ⟨handler, found⟩
    · obtain ⟨slot, rfl⟩ := List.mem_ofFn.mp member
      obtain ⟨holder, _, found', _⟩ := bufOwner_eq_some.mp (holds slot)
      exact Option.isSome_iff_exists.mpr ⟨holder, found'⟩
  have few := ObjectPool.length_le_capacity nodup resolve
  rw [List.length_cons, List.length_ofFn] at few
  have enough := inv.enough
  omega

/-- Each step keeps the invariant, unless a repeated close frees a reissued buffer. -/
theorem AdmitInv.move (inv : s.AdmitInv) (move : RunMove s label s')
    (met : noReissue s label s') : s'.AdmitInv := by
  refine { inv.toBufferInv.move move met with
           enough := ?_, admitted := fun handle intents phase' submitted => ?_ }
  · rw [capacity_move inv.handlers move, bufferCount_move move]
    exact inv.enough
  · rcases intent_cases move phase' (List.ne_nil_of_mem submitted) with
      ⟨before | ⟨_, before⟩, _⟩ | ⟨_, _, _, _, listening⟩ | ⟨event, handler, _, _, dispatches, handling⟩
    · exact inv.admitted handle intents before submitted
    · exact inv.admitted handle _ before (List.mem_cons_of_mem _ submitted)
    · exact listening.notHandler.1.1 submitted
    · obtain ⟨start, refused⟩ := handling.retry_cases submitted
      exact inv.not_refused (inv.handlers.found dispatches) start _ refused

/-- With at least as many buffers as handlers, any number of connections, any kernel and any order of
steps, unless a repeated close frees a reissued buffer: no connection is ever put off.  Every event
finds its handler a buffer, and no retry is ever submitted. -/
theorem never_retries {listeners connHandlers bufCount : UInt32} (enough : connHandlers ≤ bufCount)
    (reached : (machine listeners connHandlers bufCount).Reach noReissue s) :
    (∀ handle intents, s.phase = .completeIntent handle intents → .retry ∉ intents) ∧
      ∀ id handler, s.handlerAt id = some handler → handler.state = .init →
        ∃ bufferId buffers', s.executor.ioBufs.alloc = .ok (some bufferId, buffers') := by
  have inv : s.AdmitInv := by
    refine reached.invariant AdmitInv ?_ fun _ _ _ inv stepped met => inv.move (step_move stepped) met
    rintro s ⟨entries, raw, started⟩
    obtain ⟨phase, poolMade, bufsMade, _⟩ := start_fields started
    refine { bufferInv_start started with enough := ?_, admitted := by simp [phase] }
    rw [(GenAlloc.owns_of_new (κ := Unit) (BufferPool.new_inv bufsMade).1).2,
      GenAlloc.maskedCapacity_zero]
    exact (ObjectPool.capacity_le poolMade).trans (UInt32.le_iff_toNat_le.mp enough)
  refine ⟨inv.admitted, fun id handler found start => ?_⟩
  have owns : s.executor.ioBufs.genAlloc.Owns fun id => (s.bufOwner id).map BufferHandle.id :=
    inv.owns
  rcases owns.alloc_ok with ⟨refused, _⟩ | ⟨bufferId, genAlloc, allocated, _⟩
  · refine absurd ?_ (inv.not_refused found start s.executor.ioBufs)
    rw [BufferPool.alloc, refused]
    rfl
  · refine ⟨⟨bufferId⟩, { s.executor.ioBufs with genAlloc }, ?_⟩
    rw [BufferPool.alloc, allocated]
    rfl

set_option maxRecDepth 100000 in
/-- A new connection, in a pool of one handler and one buffer. -/
theorem never_retries_spawned :
    ∃ s : Running, (s.handlerAt ⟨0, 0⟩).map ConnHandler.state = some .init ∧
      ∃ bufferId buffers', s.executor.ioBufs.alloc = .ok (some bufferId, buffers') := by
  obtain ⟨s, reached, ends⟩ := @exists_reach_of_start 16 1 1 1 (some (0x1000, fun _ => 0)) _
    (fun s label _ => s.isNotReissued label) (fun _ _ _ passed => isNotReissued_sound passed)
    (ticks 4 ++ [.take, .complete 0 0 2 []] ++ ticks 5)
    (fun s => (s.handlerAt ⟨0, 0⟩).map ConnHandler.state == some .init) (by decide +kernel)
  have spawned := beq_iff_eq.mp ends
  obtain ⟨handler, found, start⟩ := Option.map_eq_some_iff.mp spawned
  exact ⟨s, spawned, (never_retries (UInt32.le_refl 1) reached).2 ⟨0, 0⟩ handler found start⟩

end Running

end Hoarder
