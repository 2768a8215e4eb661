/-
Module: Hoarder.Proofs.DeafListener
Purpose: The end of accepting.  A listener that has met an error stays in `Error`, and it was the only
  source of connections: from then on no connection is added to those there are, whatever completions
  its accept still has.
Trusted boundary: none
Main exports: Running.SpawnInv, Running.SpawnInv.step, Running.SpawnInv.deaf,
  Running.connections_only_end
-/
import Hoarder.Foundation.Simulation
import Hoarder.Proofs.SubmissionQueue

namespace Hoarder

open Foundation

/-- A listener in `Error` stays as it is, and submits nothing. -/
theorem ListenerMove.of_error {self self' : TcpServer} {listened : Result Fd} {event : MachineEvent}
    {intents : List MachineIntent} (move : ListenerMove self listened event self' intents)
    {error : HoarderError} (failed : self.state = .error error) : self' = self ∧ intents = [] := by
  cases move with
  | ignored => exact ⟨rfl, rfl⟩
  | listening fd start | refused error start | failed res flags start | accepted res flags start
  | rearmed res flags start => cases start.symm.trans failed

/-- A listener that ends in `Error` submits nothing. -/
theorem ListenerMove.to_error {self self' : TcpServer} {listened : Result Fd} {event : MachineEvent}
    {intents : List MachineIntent} (move : ListenerMove self listened event self' intents)
    {error : HoarderError} (failed : self'.state = .error error) : intents = [] := by
  cases move with
  | refused | failed | ignored => rfl
  | listening => cases failed
  | accepted res flags start | rearmed res flags start => cases start.symm.trans failed

namespace Running

variable {s s' : Running} {label : RunLabel} {id : GenId} {listener : TcpServer}
  {error : HoarderError}

/-- There is one listener, and no connection is to be spawned once it is in `Error`. -/
structure SpawnInv (s : Running) : Prop where
  queues : s.QueueInv
  alone : s.Alone
  quiet : ∀ id listener error, s.listenerAt id = some listener → listener.state = .error error →
    ∀ handle fixed, .intent handle (.spawnConnHandler fixed) ∉ s.agenda

/-- Only a listener makes the executor spawn, and one in `Error` has not. -/
theorem SpawnInv.quiet_progress (inv : s.SpawnInv) (progress : s.Progress label s')
    (found : s'.listenerAt id = some listener) (failed : listener.state = .error error)
    (handle : ObjectHandle) (fixed : Fixed) :
    .intent handle (.spawnConnHandler fixed) ∉ s'.agenda := by
  intro member
  have before : s'.listenerAt = s.listenerAt →
      .intent handle (.spawnConnHandler fixed) ∉ s.agenda := fun listeners =>
    inv.quiet id listener error (by rw [← listeners, found]) failed handle fixed
  rcases progress.intent_cases member with
    pending | ⟨_, _, _, _, _, _, _, handling, submitted⟩ |
      ⟨_, _, _, _, _, _, listeners, move, submitted⟩
  · cases progress with
    | listener _ _ event _ _ _ rest kind _ move agenda =>
        exact intent_not_mem agenda handle _ pending
    | idle _ _ _ _ _ _ listeners | missing _ _ _ _ _ _ _ listeners
    | handler _ _ _ _ _ _ _ _ _ _ _ _ _ _ listeners | retry _ _ _ _ _ _ _ _ _ listeners
    | submit _ _ _ _ _ _ _ _ _ listeners | spawned _ _ _ _ _ _ _ _ _ _ _ _ _ listeners
    | terminated _ _ _ _ _ _ _ listeners | completed _ _ _ _ _ _ _ _ _ _ _ _ listeners =>
        exact before listeners pending
  · exact (handling.notListener fixed 0).1 submitted
  · -- There is no other listener, so it is the one in `Error`.
    obtain ⟨only, alone⟩ := inv.alone.progress progress
    have mine : id = handle.genId :=
      (alone id (by simp [found])).trans (alone _ (by simp [listeners])).symm
    rw [listeners, mine, Function.update_self] at found
    cases found
    rw [move.to_error failed] at submitted
    cases submitted

/-- Every step keeps the invariant. -/
theorem SpawnInv.step (inv : s.SpawnInv) (move : RunMove s label s') : s'.SpawnInv :=
  have progress := inv.queues.progress move
  { queues := inv.queues.move move
    alone := inv.alone.progress progress
    quiet := fun _ _ _ found failed => inv.quiet_progress progress found failed }

theorem spawnInv_start {entries : Nat} {listeners connHandlers bufCount : UInt32}
    {raw : Option (Nat × (Nat → UInt8))}
    (started : start entries listeners connHandlers bufCount raw = .ok s) : s.SpawnInv := by
  obtain ⟨queues, _, _, handle, _, _, agenda, _⟩ := queueInv_start started
  exact
    { queues := queues
      alone := alone_start started
      quiet := by simp [agenda] }

/-- A step leaves a listener that is in `Error`, and adds no connection. -/
theorem SpawnInv.deaf (inv : s.SpawnInv) (progress : s.Progress label s')
    (found : s.listenerAt id = some listener) (failed : listener.state = .error error) :
    s'.listenerAt id = some listener ∧
      ∀ other, s'.handlerAt other ≠ none → s.handlerAt other ≠ none := by
  constructor
  · rcases progress.listener_cases with
      listeners | ⟨other, before, after, _, _, _, found', move, listeners⟩
    · rw [listeners, found]
    · rcases eq_or_ne id other with rfl | different
      · rw [found] at found'
        cases found'
        rw [listeners, Function.update_self, (move.of_error failed).1]
      · rw [listeners, Function.update_of_ne different, found]
  · intro other there
    cases progress with
    | idle _ _ _ _ _ handlers | missing _ _ _ _ _ _ handlers
    | listener _ _ _ _ _ _ _ _ _ _ _ _ _ handlers | retry _ _ _ _ _ _ _ _ handlers
    | submit _ _ _ _ _ _ _ _ handlers | completed _ _ _ _ _ _ _ _ _ _ _ handlers =>
        rwa [← handlers]
    | handler _ _ event handler _ _ _ _ found' _ _ _ _ handlers =>
        rcases eq_or_ne other event.handle.genId with rfl | different
        · simp [found']
        · rwa [handlers, Function.update_of_ne different] at there
    | spawned _ _ handle fixed _ _ _ _ _ agenda =>
        exact absurd (agenda ▸ List.mem_cons_self)
          (inv.quiet id listener error found failed handle fixed)
    | terminated _ _ handle _ _ _ handlers =>
        rcases eq_or_ne other handle.genId with rfl | different
        · simp [handlers] at there
        · rwa [handlers, Function.update_of_ne different] at there

/-- Any number of connections, any kernel, any order of steps: once the listener is in `Error` it
stays as it is, and whatever happens, the connections later on are among those there are. -/
theorem connections_only_end {listeners connHandlers bufCount : UInt32}
    (reached : (machine listeners connHandlers bufCount).Reachable s)
    (found : s.listenerAt id = some listener) (failed : listener.state = .error error)
    (leads : (machine listeners connHandlers bufCount).Leads s s') :
    s'.listenerAt id = some listener ∧
      ∀ other, s'.handlerAt other ≠ none → s.handlerAt other ≠ none := by
  induction leads with
  | refl => exact ⟨found, fun _ there => there⟩
  | tail leads stepped inductionHypothesis =>
      obtain ⟨label, stepped⟩ := stepped
      obtain ⟨still, ended⟩ := inductionHypothesis
      have inv := (Machine.Leads.reachable leads reached).invariant SpawnInv
        (fun _ ⟨_, _, started⟩ => spawnInv_start started)
        fun _ _ _ inv stepped _ => inv.step (step_move stepped)
      obtain ⟨still', ended'⟩ := inv.deaf (inv.queues.progress (step_move stepped)) still failed
      exact ⟨still', fun other there => ended other (ended' other there)⟩

set_option maxRecDepth 100000 in
/-- The accept fails while there is a connection; the connection ends later. -/
theorem connections_only_end_failed :
    ∃ (s s' : Running) (listener : TcpServer), listener.state = .error (.ioError (-24)) ∧
      s.handlerAt ⟨0, 0⟩ ≠ none ∧ s'.handlerAt ⟨0, 0⟩ = none ∧
        s'.listenerAt ⟨0, 0⟩ = some listener := by
  obtain ⟨s, s', reached, leads, ends⟩ : ∃ s s' : Running,
      (machine 1 1 1).Reachable s ∧ (machine 1 1 1).LeadsBy (fun _ _ _ => True) s s' ∧
      (((s.listenerAt ⟨0, 0⟩).any fun listener => listener.state == .error (.ioError (-24))) &&
        (s.handlerAt ⟨0, 0⟩).isSome && (s'.handlerAt ⟨0, 0⟩).isNone) = true := by
    have initial : ∀ s, start 16 1 1 1 (some (0x1000, fun _ => 0)) = .ok s →
        (machine 1 1 1).initial s := fun _ started => ⟨16, _, started⟩
    exact Machine.exists_leadsBy_of_start _ initial (fun _ _ _ => true) (fun _ _ _ _ => trivial)
      (acceptOne ++ [.take, .complete 0 (-24) 0 []] ++ ticks 6)
      ([.complete 0 0 0 []] ++ ticks 7 ++ [.take, .complete 0 0 0 []] ++ ticks 6) _
      (by decide +kernel)
  simp only [Bool.and_eq_true, Option.any_eq_true, beq_iff_eq] at ends
  obtain ⟨⟨⟨listener, found, failed⟩, there⟩, gone⟩ := ends
  exact ⟨s, s', listener, failed, Option.isSome_iff_ne_none.mp there,
    Option.isNone_iff_eq_none.mp gone, (connections_only_end reached found failed leads.leads).1⟩

end Running

end Hoarder
