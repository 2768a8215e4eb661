/-
Module: Hoarder.Proofs.Delivery
Purpose: The way of an operation through the executor and the kernel and back.  A journal beside the
  run records what was submitted, taken, answered and dispatched.  Submissions reach the kernel in
  order; each is in flight or was answered for the last time, once; each completion posted is
  dispatched or waits to be, in order and once.
Trusted boundary: none
Main exports: RunQueueEvent.completion?, Running.completions, Journal, Journal.trace,
  Running.journaled, Running.Delivered, Running.operations_delivered
-/
import Hoarder.Foundation.Channel
import Hoarder.Foundation.Ghost
import Hoarder.Proofs.DrainTick

namespace Hoarder

open Foundation

/-- The completion that an event was, if it was one. -/
def RunQueueEvent.completion? : RunQueueEvent → Option Cqe
  | ⟨.ioCompleted result flags, handle⟩ => some ⟨handle.val, result, flags⟩
  | ⟨.spawn, _⟩ => none

/-- Whether an answer of the kernel is the last to its operation. -/
def lastAnswer (answer : Sqe × Cqe) : Bool :=
  !Running.staysInFlight answer.1.op answer.2.flags

/-- What happened in a run: the operations submitted and those the kernel took, the completions it
posted, each with the operation it answers, and the completions that the drain loop dispatched. -/
structure Journal where
  submitted : List Sqe
  taken : List Sqe
  answers : List (Sqe × Cqe)
  dispatched : List Cqe

namespace Journal

/-- Nothing happened. -/
def empty : Journal := { submitted := [], taken := [], answers := [], dispatched := [] }

/-- One step of executor or kernel. -/
def trace (s : Running) (self : Journal) (label : RunLabel) (s' : Running) : Journal :=
  match label with
  | .tick listened =>
      { self with
        submitted := self.submitted ++ s'.executor.io.sq.drop s.executor.io.sq.length
        dispatched :=
          self.dispatched ++ (s.handed listened).filterMap RunQueueEvent.completion? }
  | .take => { self with taken := self.taken ++ s.executor.io.sq.take 1 }
  | .complete index result flags _ =>
      match s.executor.io.inFlight[index]? with
      | some sqe => { self with answers := self.answers ++ [(sqe, ⟨sqe.userData, result, flags⟩)] }
      | none => self

end Journal

namespace Running

variable {s s' : Running} {label : RunLabel} {j : Journal} {event : RunQueueEvent}
  {queue : RingBuffer RunQueueEvent}

/-- All runs of an executor, with the journal. -/
def journaled (listeners connHandlers bufCount : UInt32) : Machine (Running × Journal) RunLabel :=
  (machine listeners connHandlers bufCount).withGhost (fun _ => .empty) Journal.trace

/-- The completions before the executor: in the run queues, and not reaped. -/
def completions (s : Running) : List Cqe :=
  s.executor.events.filterMap RunQueueEvent.completion?

/-- A pop takes the completion that comes first, if the first event is one. -/
theorem completions_popped (wf : ∀ idx, (s.executor.runQueues idx).WF) (phase : s.phase = .drain)
    (pop : (s.executor.runQueues s.executor.currentRunQueue).pop = .ok (some event, queue)) :
    s.completions = s.taken.filterMap RunQueueEvent.completion? ++
      (s.executor.popped queue).events.filterMap RunQueueEvent.completion? := by
  rw [(taken_popped wf phase pop).1, completions, (Executor.events_popped wf pop).1,
    ← List.filterMap_append, List.singleton_append]

/-- A pushed start changes nothing of the completions. -/
theorem completions_pushed (wf : ∀ idx, (s.executor.runQueues idx).WF) {idx : Fin 2}
    {handle : ObjectHandle}
    (push : (s.executor.runQueues idx).push ⟨.spawn, handle⟩ = (.ok (), queue)) :
    (s.executor.pushed idx queue).events.filterMap RunQueueEvent.completion? = s.completions := by
  obtain ⟨⟨front, back, before, after⟩, _⟩ := Executor.events_pushed wf push
  rw [completions, before, after, List.filterMap_append, List.filterMap_append,
    List.filterMap_cons_none rfl]

/-- The executor dispatches completions from the front, and leaves the others as they are. -/
theorem completions_tick (inv : s.QueueInv) {listened : Result Fd}
    (move : RunMove s (.tick listened) s') :
    s.completions = s.taken.filterMap RunQueueEvent.completion? ++ s'.completions := by
  have wf := inv.wf
  -- Outside the drain loop nothing is taken.
  have quiet : s.phase ≠ .drain → s'.completions = s.completions →
      s.completions = s.taken.filterMap RunQueueEvent.completion? ++ s'.completions := by
    intro notDraining same
    rw [taken_nil notDraining, same]
    rfl
  cases move with
  | missing _ event queue phase pop absent => exact completions_popped wf phase pop
  | listener _ event queue listener listener' intents phase pop =>
      exact completions_popped wf phase pop
  | handler _ event queue handler handler' buffers intents phase pop =>
      exact completions_popped wf phase pop
  | drained _ queue phase pop =>
      have nothing : s.taken = [] := by simp [taken, phase, pop]
      rcases RingBuffer.pop_inv (wf _) pop with ⟨_, _, rfl⟩ | ⟨_, same, _⟩
      · rw [nothing]
        simp [completions, Executor.popped]
      · cases same
  | retry _ handle rest queue phase push =>
      exact quiet (by simp [phase]) (completions_pushed wf push)
  | spawned _ handle fixed rest fresh pool queue phase spawn push =>
      exact quiet (by simp [phase]) (completions_pushed wf push)
  | reap _ cqe cq queue phase posted push =>
      apply quiet (by simp [phase])
      obtain ⟨next, current⟩ := Executor.pushed_nextEvents wf push
      change ((s.executor.pushed s.executor.nextRunQueueIdx queue).currentEvents ++
        (s.executor.pushed s.executor.nextRunQueueIdx queue).nextEvents ++
        cq.map Cqe.event).filterMap _ = _
      rw [current, next, completions, Executor.events_eq, posted]
      simp [Cqe.event]
  | switch _ phase reaped =>
      apply quiet (by simp [phase])
      change ((s.executor.runQueues s.executor.nextRunQueueIdx).contents ++
        (s.executor.runQueues s.executor.switchRunQueue.nextRunQueueIdx).contents ++
        s.executor.io.cq.map Cqe.event).filterMap _ = _
      rw [Executor.switchRunQueue_next, completions, Executor.events, inv.drained (.inr phase)]
      simp
  | finished _ _ phase | submit _ _ _ _ _ phase | terminateListener _ _ _ _ _ phase
  | terminate _ _ _ _ _ phase | wait _ phase => exact quiet (by simp [phase]) rfl

/-- The executor submits behind what was submitted before, and takes nothing back. -/
theorem sq_tick {listened : Result Fd} (move : RunMove s (.tick listened) s') :
    s'.executor.io.sq = s.executor.io.sq ++ s'.executor.io.sq.drop s.executor.io.sq.length ∧
      s'.executor.io.inFlight = s.executor.io.inFlight := by
  cases move with
  | submit _ handle intent rest sqe phase submits => simp [Executor.submitted]
  | missing | listener | handler | drained | finished | retry | spawned | terminateListener
  | terminate | wait | reap | switch =>
      refine ⟨?_, rfl⟩
      change s.executor.io.sq = s.executor.io.sq ++ s.executor.io.sq.drop s.executor.io.sq.length
      rw [List.drop_length, List.append_nil]

/-- What the journal says of the state: submissions reach the kernel in order; what it took is in
flight, or was answered for the last time once; and what it posted was dispatched, or waits to be,
in order. -/
structure Delivered (s : Running) (j : Journal) : Prop where
  submissions : Channel j.submitted s.executor.io.sq j.taken
  operations : Account lastAnswer j.taken s.executor.io.inFlight j.answers
  addressed : ∀ answer ∈ j.answers, answer.2.userData = answer.1.userData
  completions : Channel (j.answers.map Prod.snd) s.completions j.dispatched

/-- Each step keeps the journal. -/
theorem Delivered.step (delivered : s.Delivered j) (inv : s.QueueInv)
    (stepped : s.step label = some s') : s'.Delivered (j.trace s label s') := by
  have move := step_move stepped
  obtain ⟨submissions, operations, addressed, completions⟩ := delivered
  cases label with
  | tick listened =>
      obtain ⟨appended, inFlight⟩ := sq_tick move
      refine ⟨?_, by rw [inFlight]; exact operations, addressed, ?_⟩
      · rw [appended]
        simpa [Journal.trace] using
          submissions.send (s'.executor.io.sq.drop s.executor.io.sq.length)
      · rw [completions_tick inv move, ← handed_step stepped] at completions
        exact completions.receive
  | take =>
      cases move with
      | take sqe sq submitted =>
          refine ⟨?_, ?_, addressed, completions⟩
          · rw [submitted] at submissions
            have received : Channel _ _ (_ ++ [sqe]) := .receive submissions
            simpa [Journal.trace, submitted] using received
          · simpa [Journal.trace, submitted] using operations.accept sqe
  | complete index result flags data =>
      cases move with
      | complete _ _ _ _ sqe ioBufs working written =>
          have member := List.mem_of_getElem? working
          have taken : s.executor.io.inFlight.Perm
              (sqe :: s.executor.io.inFlight.eraseIdx index) := by
            obtain ⟨inside, rfl⟩ := List.getElem?_eq_some_iff.mp working
            exact (List.getElem_cons_eraseIdx_perm inside).symm
          simp only [Journal.trace, working]
          refine ⟨submissions, ?_, ?_, ?_⟩
          · by_cases stays : staysInFlight sqe.op flags = true
            · rw [if_pos stays]
              exact operations.reply member (by simp [lastAnswer, stays])
            · rw [if_neg stays]
              exact operations.settle taken (by simpa [lastAnswer] using stays)
          · intro answer isAnswer
            rcases List.mem_append.mp isAnswer with before | same
            · exact addressed answer before
            · obtain rfl := List.mem_singleton.mp same
              rfl
          · have posted := completions.send [⟨sqe.userData, result, flags⟩]
            simpa [Running.completions, Executor.events, Executor.nextRunQueueIdx, Cqe.event,
              RunQueueEvent.completion?] using posted

/-- Nothing was delivered before the first turn. -/
theorem delivered_start {entries : Nat} {listeners connHandlers bufCount : UInt32}
    {raw : Option (Nat × (Nat → UInt8))}
    (started : start entries listeners connHandlers bufCount raw = .ok s) :
    s.Delivered .empty := by
  obtain ⟨_, _, _, sq, inFlight, cq, _⟩ := start_fields started
  obtain ⟨_, next, handle, current, _⟩ := start_queues started
  have none : s.completions = [] := by
    rw [completions, Executor.events, current, next, cq]
    rfl
  refine ⟨by rw [sq]; exact .empty, by rw [inFlight]; exact .empty _, by simp [Journal.empty], ?_⟩
  rw [none]
  exact .empty

/-- Any number of connections, any kernel, any order of steps: every run has a journal, and whatever
the journal, the operations the executor submitted are those the kernel took, in order, followed by
those it has not; each operation taken is in flight, or was answered for the last time exactly once,
under its own user data; and the completions posted are those dispatched, in order, followed by
those that wait in the run queues and in the completion queue. -/
theorem operations_delivered {listeners connHandlers bufCount : UInt32}
    (reached : (machine listeners connHandlers bufCount).Reachable s) :
    (∃ j, (journaled listeners connHandlers bufCount).Reachable (s, j)) ∧
      ∀ j, (journaled listeners connHandlers bufCount).Reachable (s, j) → s.Delivered j := by
  obtain ⟨journal, journaled⟩ := reached.exists_ghost
  refine ⟨⟨journal, journaled⟩, fun j reached => ?_⟩
  have both : s.QueueInv ∧ s.Delivered j := by
    refine Machine.Reachable.ghost_invariant reached (fun s j => s.QueueInv ∧ s.Delivered j) ?_ ?_
    · rintro s ⟨entries, raw, started⟩
      exact ⟨(queueInv_start started).1, delivered_start started⟩
    · rintro s j label s' ⟨inv, delivered⟩ stepped
      exact ⟨inv.move (step_move stepped), delivered.step inv stepped⟩
  exact both.2

set_option maxRecDepth 100000 in
/-- Three bytes were read: the accept is in flight with one answer, the first read was answered, and
the second is submitted and not taken. -/
theorem operations_delivered_read :
    ∃ (s : Running) (j : Journal),
      (j.submitted.map Sqe.op, j.taken.map Sqe.op, j.dispatched.map Cqe.result) =
        ([.acceptMulti 3, .readFixed 0 0x1000 0x1000 0 ⟨⟨0, 0⟩⟩,
            .readFixed 0 0x1003 4093 0 ⟨⟨0, 0⟩⟩],
          [.acceptMulti 3, .readFixed 0 0x1000 0x1000 0 ⟨⟨0, 0⟩⟩], [0, 3]) ∧
      s.Delivered j := by
  obtain ⟨⟨s, j⟩, reached, ends⟩ : ∃ p, (journaled 1 1 1).Reachable p ∧
      ((p.2.submitted.map Sqe.op, p.2.taken.map Sqe.op, p.2.dispatched.map Cqe.result) ==
        ([.acceptMulti 3, .readFixed 0 0x1000 0x1000 0 ⟨⟨0, 0⟩⟩,
            .readFixed 0 0x1003 4093 0 ⟨⟨0, 0⟩⟩],
          [.acceptMulti 3, .readFixed 0 0x1000 0x1000 0 ⟨⟨0, 0⟩⟩], [0, 3])) = true := by
    have initial : ∀ s, start 16 1 1 1 (some (0x1000, fun _ => 0)) = .ok s →
        (journaled 1 1 1).initial (s, .empty) := fun _ started => ⟨⟨16, _, started⟩, rfl⟩
    exact Machine.exists_reach_of_start _ initial (fun _ _ _ => true) (fun _ _ _ _ => trivial)
      (acceptOne ++ [.take, .complete 1 3 0 [1, 2, 3]] ++ ticks 7) _ (by decide +kernel)
  have run : (machine 1 1 1).Reachable s := Machine.Reachable.forget reached
  exact ⟨s, j, beq_iff_eq.mp ends, (operations_delivered run).2 j reached⟩

end Running

end Hoarder
