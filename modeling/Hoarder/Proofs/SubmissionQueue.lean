/-
Module: Hoarder.Proofs.SubmissionQueue
Purpose: How many operations are submitted at a time.  There is one listener, and on a kernel that
  fails no read each machine has one operation at most; so a ring with more entries than there are
  handlers takes every submission.
Trusted boundary: none
Main exports: Executor.enqueue_ok, Running.Alone, Running.Alone.progress, Running.machines_le,
  Running.owners, Running.ErrandInv.submitting_le, Running.submissions_fit
-/
import Hoarder.Proofs.Births
import Hoarder.Proofs.UnderWay

namespace Hoarder

open Foundation

/-- Handles of one id, of one pool, are at most one. -/
theorem length_le_one_of_same {handles : List ObjectHandle} {poolId : UInt8} {id : GenId}
    (nodup : handles.Nodup) (kind : ∀ handle ∈ handles, handle.poolId = poolId)
    (same : ∀ handle ∈ handles, handle.genId = id) : handles.length ≤ 1 := by
  rw [← List.toFinset_card_of_nodup nodup, Finset.card_le_one]
  intro first member second otherMember
  rw [List.mem_toFinset] at member otherMember
  exact ObjectHandle.eq_of_fields ((kind first member).trans (kind second otherMember).symm)
    ((same first member).trans (same second otherMember).symm)

/-- A submission needs an entry of the ring. -/
theorem Executor.enqueue_ok {e : Executor} {sqe : Sqe} (room : e.io.sq.length < e.io.entries) :
    e.enqueue sqe = .ok (e.submitted sqe) := by
  rw [enqueue, Uring.enqueue, if_pos room]
  rfl

/-- A push onto a run queue has a fault of its own. -/
theorem Executor.pushRunQueue_ne_enqueue (e : Executor) (idx : Fin 2) (event : RunQueueEvent) :
    e.pushRunQueue idx event ≠ .error .enqueue := by
  unfold pushRunQueue
  split <;> simp

namespace Running

variable {s s' : Running} {label : RunLabel} {handle : ObjectHandle}

/-- There is one listener at most. -/
def Alone (s : Running) : Prop :=
  ∃ only, ∀ id, s.listenerAt id ≠ none → id = only

/-- No step makes a listener. -/
theorem Alone.progress (alone : s.Alone) (progress : s.Progress label s') : s'.Alone := by
  obtain ⟨only, alone⟩ := alone
  refine ⟨only, fun id present => alone id ?_⟩
  rcases progress.listener_cases with listeners | ⟨other, listener, _, _, _, _, found, _, listeners⟩
  · rwa [← listeners]
  · rcases eq_or_ne id other with rfl | different
    · simp [found]
    · rwa [listeners, Function.update_of_ne different] at present

theorem alone_start {entries : Nat} {listeners connHandlers bufCount : UInt32}
    {raw : Option (Nat × (Nat → UInt8))}
    (started : start entries listeners connHandlers bufCount raw = .ok s) : s.Alone := by
  obtain ⟨handle, _, _, alone⟩ := start_waits started
  exact ⟨handle.genId, alone⟩

/-- There are no more machines than handlers, and the listener. -/
theorem machines_le (alone : s.Alone) {handles : List ObjectHandle} (nodup : handles.Nodup)
    (there : ∀ handle ∈ handles, ∃ errand, s.Fits handle errand) :
    handles.length ≤ s.executor.connHandlerPool.alloc.capacity + 1 := by
  obtain ⟨only, alone⟩ := alone
  have split := List.length_eq_length_filter_add (l := handles) fun handle =>
    decide (handle.poolId = connHandler)
  have handlers : (handles.filter fun handle => decide (handle.poolId = connHandler)).length ≤
      s.executor.connHandlerPool.alloc.capacity := by
    have kind : ∀ handle ∈ handles.filter fun handle => decide (handle.poolId = connHandler),
        handle.poolId = connHandler := fun handle member =>
      of_decide_eq_true (List.mem_filter.mp member).2
    have apart := (nodup.filter fun handle => decide (handle.poolId = connHandler)).map_on
      fun first member second otherMember same => ObjectHandle.eq_of_fields
        ((kind first member).trans (kind second otherMember).symm) (show first.genId = second.genId from same)
    rw [← List.length_map (f := ObjectHandle.genId)]
    refine ObjectPool.length_le_capacity apart fun id resolves => ?_
    obtain ⟨handle, member, rfl⟩ := List.mem_map.mp resolves
    obtain ⟨errand, fits⟩ := there handle (List.mem_filter.mp member).1
    exact Option.isSome_iff_ne_none.mpr (fits.handler_ne_none (kind handle member))
  have listeners : (handles.filter fun handle => !decide (handle.poolId = connHandler)).length ≤ 1 := by
    have fits : ∀ handle ∈ handles.filter fun handle => !decide (handle.poolId = connHandler),
        handle.poolId = tcpServer ∧ s.listenerAt handle.genId ≠ none := by
      intro handle member
      obtain ⟨member, other⟩ := List.mem_filter.mp member
      obtain ⟨errand, fits⟩ := there handle member
      have kind : handle.poolId = tcpServer := by
        cases fits with
        | listener kind => exact kind
        | handler kind => simp [kind] at other
      exact ⟨kind, fits.listener_ne_none kind⟩
    exact length_le_one_of_same (nodup.filter _) (fun handle member => (fits handle member).1)
      fun handle member => alone _ (fits handle member).2
  omega

/-- The machines that the operations at the kernel are for, in order. -/
def owners (s : Running) : List ObjectHandle :=
  (s.executor.io.sq ++ s.executor.io.inFlight).map fun sqe => ⟨sqe.userData⟩

/-- The operations at the kernel are for different machines that wait for them. -/
theorem ErrandInv.owners (inv : s.ErrandInv) :
    s.owners.Nodup ∧ ∀ handle ∈ s.owners, ∃ errand, s.Fits handle errand := by
  have part : s.ops.map Sqe.errand ≤ s.errands := Multiset.le_add_left _ _
  have handles : (s.ops.map Sqe.errand).map Prod.fst = (s.owners : Multiset ObjectHandle) := by
    rw [Multiset.map_map]
    rfl
  constructor
  · rw [← Multiset.coe_nodup, ← handles]
    exact Multiset.nodup_of_le (Multiset.map_le_map part) inv.tokens.nodup
  · intro handle member
    rw [← Multiset.mem_coe, ← handles] at member
    obtain ⟨⟨_, errand⟩, held, rfl⟩ := Multiset.mem_map.mp member
    exact ⟨errand, inv.tokens.fits _ errand (Multiset.mem_of_le part held)⟩

/-- The machine that is to submit an operation has none at the kernel. -/
theorem ErrandInv.submitting (inv : s.ErrandInv) {intent : MachineIntent}
    {rest : List MachineIntent} {errand : Errand}
    (phase : s.phase = .completeIntent handle (intent :: rest)) (has : intent.errand? = some errand) :
    handle ∉ s.owners ∧ s.Fits handle errand := by
  have held := inv.tokens
  have isErrand : (AgendaItem.intent handle intent).errand? = some (handle, errand) := by
    rw [AgendaItem.errand?, has]
    rfl
  rw [errands, agenda_intent phase, errandsOf_cons_some isErrand] at held
  refine ⟨fun member => ?_, held.fits _ _ (Multiset.mem_cons_self ..)⟩
  obtain ⟨sqe, atKernel, same⟩ := List.mem_map.mp member
  refine held.unique sqe.op.errand (Multiset.mem_add.mpr (.inr (Multiset.mem_map.mpr ⟨sqe, ?_, ?_⟩)))
  · exact Multiset.mem_coe.mpr atKernel
  · exact Prod.ext same rfl

/-- There are fewer operations than machines while one is to submit one. -/
theorem ErrandInv.submitting_le (inv : s.ErrandInv) (alone : s.Alone) {intent : MachineIntent}
    {rest : List MachineIntent} {errand : Errand}
    (phase : s.phase = .completeIntent handle (intent :: rest)) (has : intent.errand? = some errand) :
    s.executor.io.sq.length + s.executor.io.inFlight.length ≤
      s.executor.connHandlerPool.alloc.capacity := by
  obtain ⟨fresh, fits⟩ := inv.submitting phase has
  obtain ⟨nodup, there⟩ := inv.owners
  have few := machines_le alone (List.nodup_cons.mpr ⟨fresh, nodup⟩) fun other member => by
    rcases List.mem_cons.mp member with rfl | member
    · exact ⟨errand, fits⟩
    · exact there other member
  rw [List.length_cons, Running.owners, List.length_map, List.length_append] at few
  omega

/-- Completing an intent does not fail for want of an entry, if one that submits finds one. -/
theorem completeIntent_ne_enqueue (inv : s.QueueInv) {intent : MachineIntent}
    {rest : List MachineIntent} (phase : s.phase = .completeIntent handle (intent :: rest))
    (room : ∀ errand, intent.errand? = some errand →
      s.executor.io.sq.length < s.executor.io.entries) :
    s.executor.completeIntent handle intent ≠ .error .enqueue := by
  intro failed
  have submits : ∀ {errand}, intent.errand? = some errand → ∀ sqe,
      s.executor.enqueue sqe ≠ .error .enqueue := by
    intro errand has sqe failed
    rw [Executor.enqueue_ok (room errand has)] at failed
    cases failed
  cases intent with
  | submitMultishotAccept fd => exact submits rfl _ failed
  | closeFixed fixed => exact submits rfl _ failed
  | retry => exact Executor.pushRunQueue_ne_enqueue _ _ _ failed
  | spawnConnHandler fixed =>
      rcases inv.handlers.pool.spawn_spec (ConnHandler.new fixed) with
        ⟨refused, _⟩ | ⟨id, pool, spawned, _⟩
      · simp [Executor.completeIntent, refused] at failed
      · simp only [Executor.completeIntent, spawned, Outcome.ok_bind] at failed
        exact Executor.pushRunQueue_ne_enqueue _ _ _ failed
  | submitRecv fixed bufferId offset =>
      simp only [Executor.completeIntent] at failed
      split at failed
      · rcases Outcome.bind_eq_error.mp failed with failed | ⟨answer, _, failed⟩
        · cases BufferPool.getMut_error failed
        · cases answer with
          | none => cases failed
          | some address => exact submits rfl _ failed
      · cases failed
  | terminate =>
      obtain ⟨_, kind, handler, found, _⟩ := inv.handlers.terminate handle _ phase (by simp)
      obtain ⟨_, despawned, _⟩ := inv.handlers.pool.despawn_spec found
      have notListener := ObjectHandle.notListener kind
      simp only [Executor.completeIntent, if_neg notListener, if_pos kind, despawned,
        Outcome.ok_bind] at failed
      cases failed

/-- No submission fails, if each intent that submits finds an entry. -/
theorem tick_ne_enqueue (inv : s.QueueInv) (listened : Result Fd) (submitted : Result Nat)
    (room : ∀ handle intent rest errand, s.phase = .completeIntent handle (intent :: rest) →
      intent.errand? = some errand → s.executor.io.sq.length < s.executor.io.entries) :
    s.tick listened submitted ≠ .error .enqueue := by
  intro failed
  simp only [tick] at failed
  split at failed
  · obtain ⟨popped, queue, pop⟩ := RingBuffer.pop_ok (inv.wf s.executor.currentRunQueue)
    rw [pop, Outcome.ok_bind] at failed
    cases popped with
    | none => cases failed
    | some event =>
        rcases Outcome.bind_eq_error.mp failed with dispatched | ⟨_, _, failed⟩
        · exact dispatch_ne_error inv (by decide) (by simp) (by simp) queue listened dispatched
        · cases failed
  · cases failed
  · rename_i handle intent rest phase
    rcases Outcome.bind_eq_error.mp failed with failed | ⟨_, _, failed⟩
    · exact completeIntent_ne_enqueue inv phase (fun errand => room handle intent rest errand phase)
        failed
    · cases failed
  · split at failed <;> cases failed
  · split at failed
    · rcases Outcome.bind_eq_error.mp failed with failed | ⟨_, _, failed⟩
      · exact Executor.pushRunQueue_ne_enqueue _ _ _ failed
      · cases failed
    · cases failed

/-- No step changes the number of slots for handlers, and there are as many as asked for at most. -/
theorem slots_le {listeners connHandlers bufCount : UInt32}
    (reached : (machine listeners connHandlers bufCount).Reachable s) :
    s.HandlerInv ∧ s.executor.connHandlerPool.alloc.capacity ≤ connHandlers.toNat := by
  refine reached.invariant
    (fun s => s.HandlerInv ∧ s.executor.connHandlerPool.alloc.capacity ≤ connHandlers.toNat) ?_ ?_
  · rintro s ⟨entries, raw, started⟩
    obtain ⟨_, poolMade, _⟩ := start_fields started
    exact ⟨(handlerInv_start started).1, ObjectPool.capacity_le poolMade⟩
  · rintro s label s' ⟨inv, few⟩ stepped _
    have move := step_move stepped
    exact ⟨inv.move move, (capacity_move inv move).trans_le few⟩

/-- On a kernel that fails no read and ends a multishot that it fails, any number of connections, in
any order of steps: the operations submitted and not completed are for different machines, so they
are no more than the handlers and the listener; and with more entries than handlers no submission
fails. -/
theorem submissions_fit {listeners connHandlers bufCount : UInt32}
    (reached : (machine listeners connHandlers bufCount).Reach kernelPosts s) :
    s.owners.Nodup ∧
      s.executor.io.sq.length + s.executor.io.inFlight.length ≤ connHandlers.toNat + 1 ∧
      (connHandlers.toNat < s.executor.io.entries →
        ∀ listened submitted, s.tick listened submitted ≠ .error .enqueue) := by
  have both : s.ErrandInv ∧ s.Alone := reached.invariant (fun s => s.ErrandInv ∧ s.Alone)
    (fun _ ⟨_, _, started⟩ => ⟨(errandInv_start started).1, alone_start started⟩)
    fun _ _ _ ⟨inv, alone⟩ stepped posts =>
      have move := step_move stepped
      ⟨inv.move move posts, alone.progress (inv.queues.progress move)⟩
  obtain ⟨inv, alone⟩ := both
  have slots := (slots_le reached.reachable).2
  obtain ⟨nodup, there⟩ := inv.owners
  refine ⟨nodup, ?_, fun larger listened submitted => ?_⟩
  · have few := machines_le alone nodup there
    rw [owners, List.length_map, List.length_append] at few
    omega
  · refine tick_ne_enqueue inv.queues listened submitted fun handle intent rest errand phase has => ?_
    have few := inv.submitting_le alone phase has
    omega

set_option maxRecDepth 100000 in
/-- The accept of the listener is at the kernel, the first read of the connection is submitted. -/
theorem submissions_fit_two :
    ∃ s : Running, s.owners = [⟨0x0200000000000000⟩, ⟨0x0100000000000000⟩] ∧ s.owners.Nodup ∧
      ∀ listened submitted, s.tick listened submitted ≠ .error .enqueue := by
  obtain ⟨s, reached, ends⟩ := @exists_reach_of_start 16 1 1 1 (some (0x1000, fun _ => 0)) _
    (fun s label _ => s.isPosted label) (fun _ _ _ passed => isPosted_sound passed) acceptOne
    (fun s => s.owners == [⟨0x0200000000000000⟩, ⟨0x0100000000000000⟩] &&
      decide (1 < s.executor.io.entries)) (by decide +kernel)
  simp only [Bool.and_eq_true, beq_iff_eq, decide_eq_true_eq] at ends
  obtain ⟨both, larger⟩ := ends
  obtain ⟨nodup, _, fits⟩ := submissions_fit reached
  exact ⟨s, both, nodup, fits larger⟩

end Running

end Hoarder
