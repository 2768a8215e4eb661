/-
Module: Hoarder.Proofs.DrainLoop
Purpose: The loop of `Executor::run` that drains the current run queue while the intents it completes
  push onto that queue.  A completion weighs more than the event it can spawn, so the turns are
  bounded and the queue keeps room; what was pushed for the next tick is what the next loop dispatches.
Trusted boundary: none
Main exports: Running.Drains, Running.Waits, Running.drainLoop, Running.DrainInv, Running.Drains.inv,
  Running.WaitInv, Running.drain_loop
-/
import Hoarder.Proofs.DrainTick

namespace Hoarder

open Foundation

/-- What an event can cost the loop: its own dispatch and intents, and the event it spawns. -/
def MachineEvent.cost (event : MachineEvent) : Nat :=
  4 + 4 * event.accepts

/-- What the event in progress still costs the loop. -/
def RunPhase.cost : RunPhase → Nat
  | .drain => 1
  | .completeIntent _ intents => 2 + intents.length + 4 * intents.countP MachineIntent.spawns
  | .submitAndWait | .completion => 0

namespace Executor

/-- What the events of the queue cost the loop. -/
def currentCost (e : Executor) : Nat :=
  (e.currentEvents.map fun event => event.reason.cost).sum

end Executor

namespace Running

variable {s t t' u u' v : Running} {turns : Nat} {dispatched pushed : List RunQueueEvent}

/-- The states of the drain loop that was entered at `s`: after so many turns, with the events it
has dispatched and those it has pushed for the next tick.  An event is dispatched when the machine that
its handle names has processed it, and the intents of that machine are to be completed; a turn that
dispatches nothing pops nothing.  The kernel steps at any time. -/
inductive Drains (s : Running) : Nat → List RunQueueEvent → List RunQueueEvent → Running → Prop where
  | start : Drains s 0 [] [] s
  | dispatch {turns : Nat} {dispatched pushed : List RunQueueEvent} {t t' : Running}
      (event : RunQueueEvent) (drains : Drains s turns dispatched pushed t)
      (hands : t.Hands event t') : Drains s (turns + 1) (dispatched ++ [event]) pushed t'
  | turn {turns : Nat} {dispatched pushed : List RunQueueEvent} {t t' : Running}
      (listened : Result Fd) (submitted : Result Nat) (drains : Drains s turns dispatched pushed t)
      (busy : t.phase ≠ .submitAndWait) (nonePopped : t.taken = [])
      (ran : t.tick listened submitted = .ok t') :
      Drains s (turns + 1) dispatched (pushed ++ t.pushedNext) t'
  | kernel {turns : Nat} {dispatched pushed : List RunQueueEvent} {t t' : Running}
      (label : RunLabel) (drains : Drains s turns dispatched pushed t)
      (other : ∀ listened, label ≠ .tick listened) (stepped : t.step label = some t') :
      Drains s turns dispatched pushed t'

/-- The states from `submit_and_wait` to the switch of the queues, with the events pushed for the
next tick. -/
inductive Waits (t : Running) : List RunQueueEvent → Running → Prop where
  | start : Waits t [] t
  | tick {pushed : List RunQueueEvent} {u u' : Running} (listened : Result Fd)
      (waits : Waits t pushed u) (stepped : u.step (.tick listened) = some u')
      (waiting : u'.phase ≠ .drain) : Waits t (pushed ++ u.pushedNext) u'
  | kernel {pushed : List RunQueueEvent} {u u' : Running} (label : RunLabel)
      (waits : Waits t pushed u) (other : ∀ listened, label ≠ .tick listened)
      (stepped : u.step label = some u') : Waits t pushed u'

/-- The drain loop, for so many turns, when the kernel leaves the executor alone: the events it
dispatches, and where it ends. -/
def drainLoop (answers : Nat → Result Fd) (submitted : Result Nat) :
    Nat → Running → Except Fault (List RunQueueEvent × Running)
  | 0, t => .ok ([], t)
  | fuel + 1, t =>
      if t.phase = .submitAndWait then .ok ([], t)
      else do
        let next ← t.tick (answers fuel) submitted
        let (rest, last) ← next.drainLoop answers submitted fuel
        return (t.handed (answers fuel) ++ rest, last)

/-- A dispatched machine or an intent panics. -/
inductive Panics (t : Running) (fault : Fault) : Prop where
  | machine (listened : Result Fd) (event : RunQueueEvent) (queue : RingBuffer RunQueueEvent)
      (phase : t.phase = .drain)
      (pop : (t.executor.runQueues t.executor.currentRunQueue).pop = .ok (some event, queue))
      (failed : (t.executor.popped queue).dispatch listened event = .error fault)
  | intent (handle : ObjectHandle) (intent : MachineIntent) (rest : List MachineIntent)
      (phase : t.phase = .completeIntent handle (intent :: rest))
      (failed : t.executor.completeIntent handle intent = .error fault)

/-- A turn of the loop fails only where a machine or an intent does. -/
theorem panics_of_tick {listened : Result Fd} {submitted : Result Nat} {fault : Fault}
    (wf : ∀ idx, (t.executor.runQueues idx).WF)
    (looping : t.phase ≠ .submitAndWait ∧ t.phase ≠ .completion)
    (failed : t.tick listened submitted = .error fault) : t.Panics fault := by
  simp only [tick] at failed
  split at failed
  · rename_i phase
    obtain ⟨event, queue, pop⟩ := RingBuffer.pop_ok (wf t.executor.currentRunQueue)
    rw [pop, Outcome.ok_bind] at failed
    cases event with
    | none => cases failed
    | some event =>
        rcases Outcome.bind_eq_error.mp failed with failed | ⟨_, _, failed⟩
        · exact .machine listened event queue phase pop failed
        · cases failed
  · cases failed
  · rename_i handle intent rest phase
    rcases Outcome.bind_eq_error.mp failed with failed | ⟨_, _, failed⟩
    · exact .intent handle intent rest phase failed
    · cases failed
  · rename_i phase
    exact absurd phase looping.1
  · rename_i phase
    exact absurd phase looping.2

/-- What a turn can still cost: the event in progress and the events of the queue. -/
def drainCost (t : Running) : Nat :=
  t.phase.cost + t.executor.currentCost

theorem phase_of_drainCost (looping : t.phase ≠ .completion) (free : t.drainCost = 0) :
    t.phase = .submitAndWait := by
  rw [drainCost] at free
  cases phase : t.phase with
  | submitAndWait => rfl
  | completion => exact absurd phase looping
  | drain | completeIntent handle intents =>
      rw [phase, RunPhase.cost] at free
      omega

/-- What the whole loop can cost. -/
theorem drainCost_le (phase : s.phase = .drain) :
    s.drainCost ≤ 8 * s.executor.currentEvents.length + 1 := by
  have each : ∀ cost ∈ s.executor.currentEvents.map fun event => event.reason.cost, cost ≤ 8 := by
    intro cost found
    obtain ⟨event, _, rfl⟩ := List.mem_map.mp found
    have atMostOne := event.reason.accepts_le
    rw [MachineEvent.cost]
    omega
  have total := List.sum_le_card_nsmul _ 8 each
  rw [List.length_map, smul_eq_mul] at total
  rw [drainCost, phase, RunPhase.cost, Executor.currentCost]
  omega

/-- A state of the loop that was entered at `s`.  What was dispatched and what is still in the queue
is what was there at the start and the handlers spawned since, of which there are no more than
completions were dispatched; the queue has room for those the event in progress still spawns. -/
structure DrainInv (s : Running) (turns : Nat) (dispatched pushed : List RunQueueEvent)
    (t : Running) : Prop where
  looping : t.phase ≠ .completion
  wf : ∀ idx, (t.executor.runQueues idx).WF
  room : t.executor.currentEvents.length + t.phase.spawns ≤ t.executor.currentSize
  order : ∃ spawned : List RunQueueEvent, (∀ event ∈ spawned, event.reason = .spawn) ∧
    dispatched ++ t.executor.currentEvents = s.executor.currentEvents ++ spawned ∧
    spawned.length + t.phase.spawns ≤ (dispatched.map fun event => event.reason.accepts).sum
  next : t.executor.nextEvents = s.executor.nextEvents ++ pushed
  drained : t.phase = .submitAndWait → t.executor.currentEvents = []
  cost : turns + t.drainCost ≤ s.drainCost

namespace DrainInv

/-- The loop as it is entered. -/
theorem start (phase : s.phase = .drain) (wf : ∀ idx, (s.executor.runQueues idx).WF) :
    s.DrainInv 0 [] [] s where
  looping := by simp [phase]
  wf := wf
  room := by
    rw [phase]
    exact (wf _).length_le
  order := ⟨[], by simp, by simp, by simp [phase, RunPhase.spawns]⟩
  next := by simp
  drained := by simp [phase]
  cost := by simp

/-- Events leave the queue in its order, and only completions bring new ones. -/
theorem order_turn (inv : s.DrainInv turns dispatched pushed t) (tick : t.DrainTick t') :
    ∃ spawned : List RunQueueEvent, (∀ event ∈ spawned, event.reason = .spawn) ∧
      dispatched ++ t.taken ++ t'.executor.currentEvents = s.executor.currentEvents ++ spawned ∧
      spawned.length + t'.phase.spawns ≤
        ((dispatched ++ t.taken).map fun event => event.reason.accepts).sum := by
  obtain ⟨spawned, spawns, order, accepted⟩ := inv.order
  cases tick with
  | dispatched event intents phase phase' few spawning taken current =>
      rw [phase, RunPhase.spawns] at accepted
      refine ⟨spawned, spawns, ?_, ?_⟩
      · rw [taken, ← order, current]
        simp
      · rw [taken, phase', RunPhase.spawns, List.map_append, List.sum_append, List.map_singleton,
          List.sum_singleton]
        omega
  | drained phase phase' taken current current' =>
      refine ⟨spawned, spawns, ?_, ?_⟩
      · rw [taken, ← order, current, current']
        simp
      · rw [taken, List.append_nil, phase', RunPhase.spawns]
        exact (Nat.le_add_right _ _).trans accepted
  | finished handle phase phase' taken current =>
      refine ⟨spawned, spawns, ?_, ?_⟩
      · rw [taken, List.append_nil, current, order]
      · rw [taken, List.append_nil, phase', RunPhase.spawns]
        exact (Nat.le_add_right _ _).trans accepted
  | completed handle intent rest phase phase' spawning taken current =>
      rw [phase, RunPhase.spawns, List.countP_cons_of_neg (by simp [spawning])] at accepted
      refine ⟨spawned, spawns, ?_, ?_⟩
      · rw [taken, List.append_nil, current, order]
      · rwa [taken, List.append_nil, phase', RunPhase.spawns]
  | spawned handle intent rest fresh phase phase' spawning taken current =>
      rw [phase, RunPhase.spawns, List.countP_cons_of_pos spawning] at accepted
      refine ⟨spawned ++ [⟨.spawn, fresh⟩], ?_, ?_, ?_⟩
      · intro event added
        rcases List.mem_append.mp added with before | same
        · exact spawns event before
        · rw [List.mem_singleton.mp same]
      · rw [taken, List.append_nil, current, ← List.append_assoc, order, List.append_assoc]
      · rw [taken, List.append_nil, phase', RunPhase.spawns, List.length_append,
          List.length_singleton]
        omega

/-- Every turn lowers what the loop can still cost: a completion costs more than the dispatch of the
handler it spawns. -/
theorem drainCost_turn (tick : t.DrainTick t') : t'.drainCost + 1 ≤ t.drainCost := by
  cases tick with
  | dispatched event intents phase phase' few spawning taken current =>
      have popped : t.executor.currentCost = event.reason.cost + t'.executor.currentCost := by
        rw [Executor.currentCost, current, List.map_cons, List.sum_cons, Executor.currentCost]
      rw [drainCost, drainCost, phase, phase', RunPhase.cost, RunPhase.cost, popped,
        MachineEvent.cost]
      omega
  | drained phase phase' taken current current' =>
      rw [drainCost, drainCost, phase, phase', RunPhase.cost, RunPhase.cost, Executor.currentCost,
        Executor.currentCost, current, current']
      exact Nat.le_refl 1
  | finished handle phase phase' taken current =>
      have same : t'.executor.currentCost = t.executor.currentCost := by
        rw [Executor.currentCost, current, Executor.currentCost]
      rw [drainCost, drainCost, phase, phase', RunPhase.cost, RunPhase.cost, same]
      omega
  | completed handle intent rest phase phase' spawning taken current =>
      have same : t'.executor.currentCost = t.executor.currentCost := by
        rw [Executor.currentCost, current, Executor.currentCost]
      rw [drainCost, drainCost, phase, phase', RunPhase.cost, RunPhase.cost, same,
        List.length_cons, List.countP_cons_of_neg (by simp [spawning])]
      omega
  | spawned handle intent rest fresh phase phase' spawning taken current =>
      have added : t'.executor.currentCost = t.executor.currentCost + 4 := by
        rw [Executor.currentCost, current]
        simp [Executor.currentCost, MachineEvent.cost, MachineEvent.accepts]
      rw [drainCost, drainCost, phase, phase', RunPhase.cost, RunPhase.cost, added,
        List.length_cons, List.countP_cons_of_pos spawning]
      omega

/-- A turn keeps the invariant. -/
theorem turn {listened : Result Fd} {submitted : Result Nat} (inv : s.DrainInv turns dispatched pushed t)
    (busy : t.phase ≠ .submitAndWait) (ran : t.tick listened submitted = .ok t') :
    s.DrainInv (turns + 1) (dispatched ++ t.taken) (pushed ++ t.pushedNext) t' := by
  have move : RunMove t (.tick listened) t' := tick_move listened (fun idle => busy idle.1) ran
  have tick := drainTick inv.wf ⟨busy, inv.looping⟩ move
  have size : t'.executor.currentSize = t.executor.currentSize :=
    currentSize_tick inv.wf inv.looping move
  refine ⟨?_, wf_move inv.wf move, size ▸ tick.room inv.room, inv.order_turn tick, ?_, ?_, ?_⟩
  · cases tick with
    | dispatched _ _ _ phase' | drained _ phase' | finished _ _ phase' | completed _ _ _ _ phase'
    | spawned _ _ _ _ _ phase' => simp [phase']
  · rw [nextEvents_tick inv.wf move fun completion => absurd completion inv.looping, inv.next,
      List.append_assoc]
  · intro waiting
    cases tick with
    | drained phase phase' taken current current' => exact current'
    | dispatched _ _ _ phase' | finished _ _ phase' | completed _ _ _ _ phase'
    | spawned _ _ _ _ _ phase' => simp [phase'] at waiting
  · have less := drainCost_turn tick
    have cost := inv.cost
    omega

/-- The kernel changes nothing of it. -/
theorem kernel {label : RunLabel} (inv : s.DrainInv turns dispatched pushed t)
    (other : ∀ listened, label ≠ .tick listened) (stepped : t.step label = some t') :
    s.DrainInv turns dispatched pushed t' := by
  have move := step_move stepped
  obtain ⟨phase, current, next, size⟩ := kernel_events other move
  have cost : t'.drainCost = t.drainCost := by
    rw [drainCost, phase, Executor.currentCost, current]
    rfl
  refine ⟨phase ▸ inv.looping, wf_move inv.wf move, ?_, ?_, next.trans inv.next, ?_, cost ▸ inv.cost⟩
  · rw [current, phase, size]
    exact inv.room
  · rw [current, phase]
    exact inv.order
  · rw [current, phase]
    exact inv.drained

end DrainInv

/-- Every state of the loop has the invariant. -/
theorem Drains.inv (phase : s.phase = .drain) (wf : ∀ idx, (s.executor.runQueues idx).WF)
    (drains : s.Drains turns dispatched pushed t) : s.DrainInv turns dispatched pushed t := by
  induction drains with
  | start => exact .start phase wf
  | dispatch event drains hands inv =>
      obtain ⟨draining, taken, pushedNone, listened, ran⟩ := hands.tick
      have inv' := inv.turn (by simp [draining]) (ran (.ok 0))
      rwa [taken, pushedNone, List.append_nil] at inv'
  | turn listened submitted drains busy nonePopped ran inv =>
      have inv' := inv.turn busy ran
      rwa [nonePopped, List.append_nil] at inv'
  | kernel label drains other stepped inv => exact inv.kernel other stepped

/-- Every turn of the loop that returns is one of these: what it popped was dispatched. -/
theorem Drains.tick {listened : Result Fd} {submitted : Result Nat}
    (drains : s.Drains turns dispatched pushed t) (busy : t.phase ≠ .submitAndWait)
    (ran : t.tick listened submitted = .ok t') :
    s.Drains (turns + 1) (dispatched ++ t.handed listened) (pushed ++ t.pushedNext) t' := by
  rcases hands_of_tick ran with ⟨event, hands, _, handed⟩ | ⟨taken, handed⟩
  · obtain ⟨_, _, pushedNone, _⟩ := hands.tick
    rw [handed, pushedNone, List.append_nil]
    exact .dispatch event drains hands
  · rw [handed, List.append_nil]
    exact .turn listened submitted drains busy taken ran

namespace DrainInv

/-- The completions dispatched were in the queue at the start. -/
theorem accepts_le (inv : s.DrainInv turns dispatched pushed t) :
    (dispatched.map fun event => event.reason.accepts).sum ≤ s.executor.currentEvents.length := by
  obtain ⟨spawned, spawns, order, _⟩ := inv.order
  have counted := congrArg (fun events => (events.map fun event => event.reason.accepts).sum) order
  simp only [List.map_append, List.sum_append] at counted
  have noneSpawned : (spawned.map fun event : RunQueueEvent => event.reason.accepts).sum = 0 := by
    apply List.sum_eq_zero
    intro accepts found
    obtain ⟨event, member, rfl⟩ := List.mem_map.mp found
    rw [spawns event member]
    rfl
  have atMostOne : (s.executor.currentEvents.map fun event => event.reason.accepts).sum ≤
      s.executor.currentEvents.length := by
    have each : ∀ accepts ∈ s.executor.currentEvents.map fun event => event.reason.accepts,
        accepts ≤ 1 := by
      intro accepts found
      obtain ⟨event, _, rfl⟩ := List.mem_map.mp found
      exact event.reason.accepts_le
    simpa using List.sum_le_card_nsmul _ 1 each
  omega

/-- No more than twice as many events are dispatched as there were. -/
theorem dispatched_le (inv : s.DrainInv turns dispatched pushed t) :
    dispatched.length ≤ 2 * s.executor.currentEvents.length := by
  have few := inv.accepts_le
  obtain ⟨spawned, _, order, accepted⟩ := inv.order
  have counted := congrArg List.length order
  rw [List.length_append, List.length_append] at counted
  omega

/-- The turns are bounded by the number of events. -/
theorem turns_le (inv : s.DrainInv turns dispatched pushed t) (phase : s.phase = .drain) :
    turns ≤ 8 * s.executor.currentEvents.length + 1 := by
  have cost := inv.cost
  have entry := drainCost_le phase
  omega

/-- The push of a spawned handler finds room. -/
theorem push_ok (inv : s.DrainInv turns dispatched pushed t) {handle : ObjectHandle} {fixed : Fixed}
    {rest : List MachineIntent}
    (phase : t.phase = .completeIntent handle (.spawnConnHandler fixed :: rest))
    (event : RunQueueEvent) :
    ∃ executor, t.executor.pushRunQueue t.executor.currentRunQueue event = .ok executor := by
  have room := inv.room
  rw [phase, RunPhase.spawns, List.countP_cons_of_pos rfl] at room
  have notFull : t.executor.currentEvents.length < t.executor.currentSize := by omega
  obtain ⟨queue, push, _⟩ := RingBuffer.push_spec (inv.wf _) notFull event
  exact ⟨t.executor.pushed _ queue, by simp only [Executor.pushRunQueue, push]; rfl⟩

/-- Enough turns end the loop, unless a machine or an intent panics. -/
theorem drainLoop_ends (answers : Nat → Result Fd) (submitted : Result Nat) {fuel : Nat}
    (inv : s.DrainInv turns dispatched pushed t) (drains : s.Drains turns dispatched pushed t)
    (enough : t.drainCost ≤ fuel) :
    (∃ turns' dispatched' pushed' t', t.drainLoop answers submitted fuel = .ok (dispatched', t') ∧
      s.Drains turns' (dispatched ++ dispatched') (pushed ++ pushed') t' ∧
      t'.phase = .submitAndWait) ∨
    ∃ turns' dispatched' pushed' t' fault, t.drainLoop answers submitted fuel = .error fault ∧
      s.Drains turns' (dispatched ++ dispatched') (pushed ++ pushed') t' ∧ t'.Panics fault := by
  induction fuel generalizing turns dispatched pushed t with
  | zero =>
      refine .inl ⟨turns, [], [], t, rfl, ?_,
        phase_of_drainCost inv.looping (Nat.le_zero.mp enough)⟩
      simpa using drains
  | succ fuel inductionHypothesis =>
      rw [drainLoop]
      split
      · rename_i done
        exact .inl ⟨turns, [], [], t, rfl, by simpa using drains, done⟩
      · rename_i busy
        cases ticked : t.tick (answers fuel) submitted with
        | error fault =>
            exact .inr ⟨turns, [], [], t, fault, rfl, by simpa using drains,
              panics_of_tick inv.wf ⟨busy, inv.looping⟩ ticked⟩
        | ok next =>
            have move : RunMove t (.tick (answers fuel)) next :=
              tick_move _ (fun idle => busy idle.1) ticked
            have less := drainCost_turn (drainTick inv.wf ⟨busy, inv.looping⟩ move)
            have inv' := inv.turn busy ticked
            rw [← handed_eq_taken ticked] at inv'
            rcases inductionHypothesis inv' (drains.tick busy ticked) (by omega) with
              ⟨turns', dispatched', pushed', t', ran, drains', done⟩ |
                ⟨turns', dispatched', pushed', t', fault, ran, drains', panics⟩
            · rw [List.append_assoc, List.append_assoc] at drains'
              refine .inl ⟨turns', _, _, t', ?_, drains', done⟩
              simp only [Outcome.ok_bind, ran]
              rfl
            · rw [List.append_assoc, List.append_assoc] at drains'
              refine .inr ⟨turns', _, _, t', fault, ?_, drains', panics⟩
              simp only [Outcome.ok_bind, ran]
              rfl

end DrainInv

/-- Between the drain loop and the switch the current queue stays empty. -/
structure WaitInv (t : Running) (pushed : List RunQueueEvent) (u : Running) : Prop where
  waiting : u.phase = .submitAndWait ∨ u.phase = .completion
  wf : ∀ idx, (u.executor.runQueues idx).WF
  current : u.executor.currentEvents = []
  next : u.executor.nextEvents = t.executor.nextEvents ++ pushed

namespace WaitInv

theorem start (inv : s.DrainInv turns dispatched pushed t) (done : t.phase = .submitAndWait) :
    t.WaitInv [] t where
  waiting := .inl done
  wf := inv.wf
  current := inv.drained done
  next := by simp

theorem tick {listened : Result Fd} (inv : t.WaitInv pushed u)
    (stepped : u.step (.tick listened) = some u') (staying : u'.phase ≠ .drain) :
    t.WaitInv (pushed ++ u.pushedNext) u' := by
  have move := step_move stepped
  have next : u'.executor.nextEvents = t.executor.nextEvents ++ (pushed ++ u.pushedNext) := by
    rw [nextEvents_tick inv.wf move fun _ => staying, inv.next, List.append_assoc]
  rcases waiting_tick inv.wf inv.waiting move with ⟨phase', current⟩ | ⟨phase', _⟩
  · exact ⟨.inr phase', wf_move inv.wf move, current.trans inv.current, next⟩
  · exact absurd phase' staying

theorem kernel {label : RunLabel} (inv : t.WaitInv pushed u)
    (other : ∀ listened, label ≠ .tick listened) (stepped : u.step label = some u') :
    t.WaitInv pushed u' := by
  have move := step_move stepped
  obtain ⟨phase, current, next, _⟩ := kernel_events other move
  exact ⟨phase ▸ inv.waiting, wf_move inv.wf move, current.trans inv.current, next.trans inv.next⟩

/-- A turn fails only when `submit_and_wait` does, or at a completion for which the next queue has no
room. -/
theorem fails {listened : Result Fd} {submitted : Result Nat} {fault : Fault}
    (inv : t.WaitInv pushed u) (failed : u.tick listened submitted = .error fault) :
    (u.phase = .submitAndWait ∧ (∃ error, submitted = .error error) ∧ fault = .submitAndWait) ∨
      (u.phase = .completion ∧ u.executor.io.cq ≠ [] ∧
        u.executor.nextEvents.length =
          (u.executor.runQueues u.executor.nextRunQueueIdx).size ∧ fault = .runQueuePush) := by
  rcases inv.waiting with phase | phase <;> simp only [Running.tick, phase] at failed
  · split at failed <;> cases failed
    exact .inl ⟨phase, ⟨_, rfl⟩, rfl⟩
  · split at failed
    · rename_i cqe cq posted
      rcases Outcome.bind_eq_error.mp failed with failed | ⟨_, _, failed⟩
      · have wf : ∀ idx,
            ({ u.executor with io := { u.executor.io with cq } }.runQueues idx).WF := inv.wf
        obtain ⟨same, full⟩ := Executor.pushRunQueue_error (wf _) failed
        exact .inr ⟨phase, by simp [posted], full, same⟩
      · cases failed
    · cases failed

/-- The switch hands the queue that was filled to the next drain loop. -/
theorem switched {listened : Result Fd} (inv : t.WaitInv pushed u)
    (stepped : u.step (.tick listened) = some v) (switched : v.phase = .drain) :
    v.executor.currentEvents = u.executor.nextEvents ∧ v.executor.nextEvents = [] ∧
      ∀ idx, (v.executor.runQueues idx).WF := by
  have move := step_move stepped
  rcases waiting_tick inv.wf inv.waiting move with ⟨phase', _⟩ | ⟨_, current, next⟩
  · rw [phase'] at switched
    cases switched
  · exact ⟨current, next.trans inv.current, wf_move inv.wf move⟩

end WaitInv

/-- Every state between the loop and the switch has the invariant. -/
theorem Waits.inv (inv : s.DrainInv turns dispatched pushed t) (done : t.phase = .submitAndWait)
    {waited : List RunQueueEvent} (waits : t.Waits waited u) : t.WaitInv waited u := by
  induction waits with
  | start => exact .start inv done
  | tick listened waits stepped waiting inv => exact inv.tick stepped waiting
  | kernel label waits other stepped inv => exact inv.kernel other stepped

/-- Once the loop is done, the events of the queue and those of the handlers spawned since were all
dispatched, in order. -/
theorem Drains.dispatched_eq (phase : s.phase = .drain)
    (wf : ∀ idx, (s.executor.runQueues idx).WF) (drains : s.Drains turns dispatched pushed t)
    (done : t.phase = .submitAndWait) :
    ∃ spawned : List RunQueueEvent, (∀ event ∈ spawned, event.reason = .spawn) ∧
      dispatched = s.executor.currentEvents ++ spawned := by
  have inv := drains.inv phase wf
  obtain ⟨spawned, spawns, order, _⟩ := inv.order
  rw [inv.drained done, List.append_nil] at order
  exact ⟨spawned, spawns, order⟩

/-- The queues of a running executor are well formed. -/
theorem wf_of_reachable {listeners connHandlers bufCount : UInt32}
    (reached : (machine listeners connHandlers bufCount).Reachable s) :
    ∀ idx, (s.executor.runQueues idx).WF := by
  induction reached with
  | initial begun =>
      obtain ⟨entries, raw, started⟩ := begun
      exact fun idx => ((start_queues started).1 idx).1
  | step label _ stepped _ inductionHypothesis =>
      exact wf_move inductionHypothesis (step_move stepped)

/-- The drain loop of `run`, entered with any events in well-formed queues and with machines and
pools in any state.  At any time of it: the turns and the dispatched events are bounded; the events
are dispatched in the order of the queue, each once, those of the handlers spawned since behind
them; the push of a spawned handler finds room; a turn that returns dispatched what it popped; and
unless a machine or an intent panics, the loop ends, with an empty queue.  That queue is empty until
the queues are switched, which only a failing `submit_and_wait` or a full next queue can prevent, and
the next drain loop dispatches what was pushed for it until then, in that order, each once. -/
theorem drain_loop (phase : s.phase = .drain) (wf : ∀ idx, (s.executor.runQueues idx).WF) :
    (∀ turns dispatched pushed t, s.Drains turns dispatched pushed t →
      turns ≤ 8 * s.executor.currentEvents.length + 1 ∧
      dispatched.length ≤ 2 * s.executor.currentEvents.length ∧
      (∃ spawned : List RunQueueEvent, (∀ event ∈ spawned, event.reason = .spawn) ∧
        dispatched ++ t.executor.currentEvents = s.executor.currentEvents ++ spawned) ∧
      (∀ handle fixed rest event,
        t.phase = .completeIntent handle (.spawnConnHandler fixed :: rest) →
        ∃ executor, t.executor.pushRunQueue t.executor.currentRunQueue event = .ok executor) ∧
      (t.phase = .submitAndWait → t.executor.currentEvents = []) ∧
      (∀ listened submitted t', t.phase ≠ .submitAndWait → t.tick listened submitted = .ok t' →
        s.Drains (turns + 1) (dispatched ++ t.taken) (pushed ++ t.pushedNext) t') ∧
      ∀ answers submitted,
        (∃ turns' dispatched' pushed' t',
          t.drainLoop answers submitted (8 * s.executor.currentEvents.length + 1) =
            .ok (dispatched', t') ∧
          s.Drains turns' (dispatched ++ dispatched') (pushed ++ pushed') t' ∧
          t'.phase = .submitAndWait) ∨
        ∃ turns' dispatched' pushed' t' fault,
          t.drainLoop answers submitted (8 * s.executor.currentEvents.length + 1) = .error fault ∧
          s.Drains turns' (dispatched ++ dispatched') (pushed ++ pushed') t' ∧ t'.Panics fault) ∧
    ∀ turns dispatched pushed t waited u, s.Drains turns dispatched pushed t →
      t.phase = .submitAndWait → t.Waits waited u →
      u.executor.currentEvents = [] ∧
      (∀ listened submitted fault, u.tick listened submitted = .error fault →
        (u.phase = .submitAndWait ∧ (∃ error, submitted = .error error) ∧ fault = .submitAndWait) ∨
          (u.phase = .completion ∧ u.executor.io.cq ≠ [] ∧
            u.executor.nextEvents.length =
              (u.executor.runQueues u.executor.nextRunQueueIdx).size ∧ fault = .runQueuePush)) ∧
      ∀ listened v, u.step (.tick listened) = some v → v.phase = .drain →
        (∀ idx, (v.executor.runQueues idx).WF) ∧ v.executor.nextEvents = [] ∧
        v.executor.currentEvents = s.executor.nextEvents ++ pushed ++ waited ∧
        ∀ turns' dispatched' pushed' w, v.Drains turns' dispatched' pushed' w →
          w.phase = .submitAndWait →
          ∃ spawned : List RunQueueEvent, (∀ event ∈ spawned, event.reason = .spawn) ∧
            dispatched' = s.executor.nextEvents ++ pushed ++ waited ++ spawned := by
  refine ⟨fun turns dispatched pushed t drains => ?_,
    fun turns dispatched pushed t waited u drains done waits => ?_⟩
  · have inv := drains.inv phase wf
    obtain ⟨spawned, spawns, order, _⟩ := inv.order
    refine ⟨inv.turns_le phase, inv.dispatched_le, ⟨spawned, spawns, order⟩,
      fun handle fixed rest event spawning => inv.push_ok spawning event, inv.drained,
      fun listened submitted t' busy ran => ?_, fun answers submitted => ?_⟩
    · rw [← handed_eq_taken ran]
      exact drains.tick busy ran
    · have cost := inv.cost
      have entry := drainCost_le phase
      exact inv.drainLoop_ends answers submitted drains (by omega)
  · have inv := drains.inv phase wf
    have waitInv := waits.inv inv done
    refine ⟨waitInv.current, fun listened submitted fault failed => waitInv.fails failed,
      fun listened v stepped switched => ?_⟩
    obtain ⟨current, next, wf'⟩ := waitInv.switched stepped switched
    rw [waitInv.next, inv.next] at current
    refine ⟨wf', next, current, fun turns' dispatched' pushed' w drains' done' => ?_⟩
    rw [← current]
    exact drains'.dispatched_eq switched wf' done'

set_option maxRecDepth 100000 in
/-- The loop that begins with one accepted connection dispatches that completion and the spawn of the
handler, which then receives into a buffer. -/
theorem drain_loop_accept :
    ∃ s t turns pushed, (machine 1 1 1).Reachable s ∧
      s.executor.currentEvents = [⟨.ioCompleted 0 2, ⟨0x0100000000000000⟩⟩] ∧
      s.Drains turns
        [⟨.ioCompleted 0 2, ⟨0x0100000000000000⟩⟩, ⟨.spawn, ⟨0x0200000000000000⟩⟩] pushed t ∧
      t.phase = .submitAndWait ∧ t.executor.currentEvents = [] ∧
      t.handlerAt ⟨0, 0⟩ = some ⟨.recv .receivingHeader, 0, some ⟨⟨0, 0⟩⟩, 0⟩ := by
  let ends (answer : List RunQueueEvent × Running) : Bool :=
    answer.1 == [⟨.ioCompleted 0 2, ⟨0x0100000000000000⟩⟩, ⟨.spawn, ⟨0x0200000000000000⟩⟩] &&
      answer.2.handlerAt ⟨0, 0⟩ == some ⟨.recv .receivingHeader, 0, some ⟨⟨0, 0⟩⟩, 0⟩
  obtain ⟨s, reached, tested⟩ : ∃ s, (machine 1 1 1).Reachable s ∧
      (s.phase == .drain &&
        s.executor.currentEvents == [⟨.ioCompleted 0 2, ⟨0x0100000000000000⟩⟩] &&
        (s.drainLoop (fun _ => .ok 3) (.ok 0) 9).toOption.any ends) = true :=
    @exists_reach_of_start 8 1 1 1 (some (0x1000, fun _ => 0)) _ (fun _ _ _ => true)
      (fun _ _ _ _ => trivial) (ticks 4 ++ [.take, .complete 0 0 2 []] ++ ticks 3) _
      (by decide +kernel)
  simp only [Bool.and_eq_true, beq_iff_eq] at tested
  obtain ⟨⟨phase, accepted⟩, ran⟩ := tested
  have during := (drain_loop phase (wf_of_reachable reached)).1
  obtain ⟨_, _, _, _, _, _, loop⟩ := during 0 [] [] s .start
  have nine : 8 * s.executor.currentEvents.length + 1 = 9 := by rw [accepted]; rfl
  rw [nine] at loop
  rcases loop (fun _ => .ok 3) (.ok 0) with
    ⟨turns, dispatched, pushed, t, ended, drains, done⟩ | ⟨_, _, _, _, fault, failed, _⟩
  · rw [ended] at ran
    simp only [Except.toOption, Option.any_some, ends, Bool.and_eq_true, beq_iff_eq] at ran
    obtain ⟨rfl, receives⟩ := ran
    obtain ⟨_, _, _, _, empty, _⟩ := during _ _ _ _ drains
    exact ⟨s, t, turns, _, reached, accepted, drains, done, empty done, receives⟩
  · rw [failed] at ran
    cases ran

end Running

end Hoarder
