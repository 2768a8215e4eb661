/-
Module: Hoarder.Proofs.ExecutorFaults
Purpose: Why a turn of the executor panics.  A fault of `tick` is one of the machine that processes
  the event, one of a few of `complete_intent`, an event that its machine has no arm for, or a push
  onto a run queue that is full.
Trusted boundary: none
Main exports: Running.Expected, Running.PushFull, Running.intentFaults,
  Running.completeIntent_error, Running.tick_error
-/
import Hoarder.Proofs.Agenda

namespace Hoarder

open Foundation

namespace Running

variable {s : Running} {handle : ObjectHandle} {fault : Fault}

/-- The event is for a kind of machine there is, and the machine, if it is there, takes it. -/
inductive Expected (s : Running) (event : RunQueueEvent) : Prop where
  | listener (kind : event.handle.poolId = tcpServer)
      (takes : ∀ listener, s.listenerAt event.handle.genId = some listener →
        listener.Expects event.reason)
  | handler (kind : event.handle.poolId = connHandler)
      (takes : ∀ handler, s.handlerAt event.handle.genId = some handler →
        handler.Expects event.reason)

/-- One of the run queues is full. -/
def Full (s : Running) (idx : Fin 2) : Prop :=
  (s.executor.runQueues idx).contents.length = (s.executor.runQueues idx).size

/-- The next turn pushes onto a full run queue: a retry, a spawned handler, or a completion. -/
inductive PushFull (s : Running) : Prop where
  | retry (handle : ObjectHandle) (rest : List MachineIntent)
      (phase : s.phase = .completeIntent handle (.retry :: rest))
      (full : s.Full s.executor.nextRunQueueIdx)
  | spawn (handle : ObjectHandle) (fixed : Fixed) (rest : List MachineIntent)
      (phase : s.phase = .completeIntent handle (.spawnConnHandler fixed :: rest))
      (full : s.Full s.executor.currentRunQueue)
  | reap (phase : s.phase = .completion) (posted : s.executor.io.cq ≠ [])
      (full : s.Full s.executor.nextRunQueueIdx)

/-- The faults of `complete_intent` other than a full run queue. -/
def intentFaults : List Fault := [.enqueue, .connHandlerSpawn, .bufPtrIndex, .recvBuffer, .recvOffset]

/-- Why completing an intent fails. -/
theorem completeIntent_error (inv : s.QueueInv) {intent : MachineIntent} {rest : List MachineIntent}
    (phase : s.phase = .completeIntent handle (intent :: rest))
    (failed : s.executor.completeIntent handle intent = .error fault) :
    fault ∈ intentFaults ∨ (fault = .runQueuePush ∧ s.PushFull) := by
  have usual : fault = .enqueue → fault ∈ intentFaults := by
    rintro rfl
    decide
  cases intent with
  | retry =>
      obtain ⟨same, full⟩ := Executor.pushRunQueue_error (inv.wf _) failed
      exact .inr ⟨same, .retry handle rest phase full⟩
  | submitMultishotAccept fd => exact .inl (usual (Executor.enqueue_error failed))
  | closeFixed fixed => exact .inl (usual (Executor.enqueue_error failed))
  | spawnConnHandler fixed =>
      rcases inv.handlers.pool.spawn_spec (ConnHandler.new fixed) with
        ⟨refused, _⟩ | ⟨id, pool, spawned, _⟩
      · simp only [Executor.completeIntent, refused, Outcome.ok_bind] at failed
        cases failed
        exact .inl (by decide)
      · simp only [Executor.completeIntent, spawned, Outcome.ok_bind] at failed
        have wf : ∀ idx, ({ s.executor with connHandlerPool := pool }.runQueues idx).WF := inv.wf
        obtain ⟨same, full⟩ := Executor.pushRunQueue_error (wf _) failed
        exact .inr ⟨same, .spawn handle fixed rest phase full⟩
  | submitRecv fixed bufferId offset =>
      rcases Executor.submitRecv_error failed with ⟨rfl, _⟩ | ⟨rfl, _⟩ | rfl | rfl <;>
        exact .inl (by decide)
  | terminate =>
      obtain ⟨_, kind, handler, found, _⟩ := inv.handlers.terminate handle _ phase (by simp)
      obtain ⟨_, despawned, _⟩ := inv.handlers.pool.despawn_spec found
      have notListener := ObjectHandle.notListener kind
      simp only [Executor.completeIntent, if_neg notListener, if_pos kind, despawned,
        Outcome.ok_bind] at failed
      cases failed

/-- A dispatched event has the faults of a handler, or finds no arm. -/
theorem dispatch_ne_error (inv : s.QueueInv) (unusual : fault ∉ ConnHandler.faults)
    (notHandle : fault ≠ .bufHandleNone) {event : RunQueueEvent}
    (expected : fault = .unreachable → s.Expected event) (queue : RingBuffer RunQueueEvent)
    (listened : Result Fd) : (s.executor.popped queue).dispatch listened event ≠ .error fault := by
  simp only [Executor.dispatch]
  split
  · rename_i kind
    have resolved : (s.executor.popped queue).tcpListenerPool.get event.handle =
        .ok (s.listenerAt event.handle.genId) := inv.listeners.get_eq event.handle
    rw [resolved, Outcome.ok_bind]
    cases found : s.listenerAt event.handle.genId with
    | none => simp
    | some listener =>
        refine Outcome.bind_ne_error (TcpServer.processEvent_ne_error unusual fun same => ?_) (by simp)
        cases expected same with
        | listener _ takes => exact takes listener found
        | handler handling => exact absurd kind (ObjectHandle.notListener handling)
  · split
    · rename_i kind
      have resolved : (s.executor.popped queue).connHandlerPool.get event.handle =
          .ok (s.handlerAt event.handle.genId) := inv.handlers.pool.get_eq event.handle
      rw [resolved, Outcome.ok_bind]
      cases found : s.handlerAt event.handle.genId with
      | none => simp
      | some handler =>
          refine Outcome.bind_ne_error (ConnHandler.processEvent_ne_error unusual
            (fun missing => absurd missing notHandle) fun same => ?_) (by simp)
          cases expected same with
          | listener listening => exact absurd listening (ObjectHandle.notListener kind)
          | handler _ takes => exact takes handler found
    · rename_i notListener notHandler
      intro same
      cases same
      cases expected rfl with
      | listener kind => exact notListener kind
      | handler kind => exact notHandler kind

/-- Why a turn of the executor fails. -/
theorem tick_error (inv : s.QueueInv) {listened : Result Fd} {submitted : Result Nat}
    (failed : s.tick listened submitted = .error fault) :
    fault ∈ .submitAndWait :: .bufHandleNone :: ConnHandler.faults ++ intentFaults ∨
      (fault = .unreachable ∧ ∃ event rest, s.agenda = .event event :: rest ∧ ¬ s.Expected event) ∨
      (fault = .runQueuePush ∧ s.PushFull) := by
  simp only [tick] at failed
  split at failed
  · rename_i phase
    obtain ⟨popped, queue, pop⟩ := RingBuffer.pop_ok (inv.wf s.executor.currentRunQueue)
    rw [pop, Outcome.ok_bind] at failed
    cases popped with
    | none => cases failed
    | some event =>
        have dispatched : (s.executor.popped queue).dispatch listened event = .error fault := by
          rcases Outcome.bind_eq_error.mp failed with dispatched | ⟨_, _, failed⟩
          · exact dispatched
          · cases failed
        by_contra other
        obtain ⟨unusual, other⟩ := not_or.mp other
        refine dispatch_ne_error inv ?_ ?_ ?_ queue listened dispatched
        · exact fun known => unusual (by simp [known])
        · rintro rfl
          exact unusual (by simp)
        · intro same
          by_contra unexpected
          exact other (.inl ⟨same, event, _, agenda_popped inv.wf phase pop, unexpected⟩)
  · cases failed
  · rename_i handle intent rest phase
    rcases Outcome.bind_eq_error.mp failed with failed | ⟨_, _, failed⟩
    · rcases completeIntent_error inv phase failed with known | full
      · exact .inl (List.mem_append_right _ known)
      · exact .inr (.inr full)
    · cases failed
  · split at failed <;> cases failed
    exact .inl (by simp)
  · rename_i phase
    split at failed
    · rename_i cqe cq posted
      rcases Outcome.bind_eq_error.mp failed with failed | ⟨_, _, failed⟩
      · have wf : ∀ idx,
            ({ s.executor with io := { s.executor.io with cq } }.runQueues idx).WF := inv.wf
        obtain ⟨same, full⟩ := Executor.pushRunQueue_error (wf _) failed
        exact .inr (.inr ⟨same, .reap phase (by simp [posted]) full⟩)
      · cases failed
    · cases failed

end Running

end Hoarder
