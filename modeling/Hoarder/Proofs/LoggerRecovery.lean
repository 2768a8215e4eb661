/-
Module: Hoarder.Proofs.LoggerRecovery
Purpose: When a push fails, and how the logger recovers.  A trace beside the run keeps the offset a
  push found at its exchange and what its operations did; `Traced` reads result and effect of the push
  off it.  A whole consume leaves both offsets at zero, from where every push that fits succeeds; a
  measure on the operations it has to go shows that it returns.
Trusted boundary: none
Main exports: LogState.PushTrace, LogState.pushResult, LogState.Traced, LogState.Traced.step,
  LogState.Emptying, LogState.Succeeding, LogState.Pushing, LogState.toGo, LogState.push_succeeds,
  LogState.push_recovery
-/
import Hoarder.Foundation.Ghost
import Hoarder.Proofs.LoggerHistory
import Hoarder.Proofs.LoggerOffsets

namespace Hoarder

open Foundation

/-- A consumer leaves the offset of a buffer it does not work on alone. -/
theorem ConsumeMove.offsets_apart {self logger : Logger} {spurious : Bool} {pc pc' : ConsumePc}
    {active : Fin 2} (move : ConsumeMove self spurious pc logger pc')
    (apart : ∀ idx, pc.section? = some idx → idx ≠ active) :
    logger.offsets active = self.offsets active := by
  cases move with
  | reset other => exact Function.update_of_ne (apart other rfl).symm _ _
  | spin | load | exchange | retry | found | empty | callback => rfl

/-- A consumer writes no buffer. -/
theorem ConsumeMove.bufs {self logger : Logger} {spurious : Bool} {pc pc' : ConsumePc}
    (move : ConsumeMove self spurious pc logger pc') : logger.bufs = self.bufs := by
  cases move <;> rfl

/-- A consumer leaves an offset at zero. -/
theorem ConsumeMove.offsets_zero {self logger : Logger} {spurious : Bool} {pc pc' : ConsumePc}
    {idx : Fin 2} (move : ConsumeMove self spurious pc logger pc') (zero : self.offsets idx = 0) :
    logger.offsets idx = 0 := by
  cases move with
  | reset active =>
      rcases eq_or_ne idx active with rfl | different
      · exact Function.update_self ..
      · exact (Function.update_of_ne different _ _).trans zero
  | spin | load | exchange | retry | found | empty | callback => exact zero

namespace LogState

/-- What a push has done so far: the offset of the active buffer at its successful exchange, and the
logger before and after each of its operations. -/
structure PushTrace where
  exchanged : Option Nat
  operations : List (Logger × Logger)

namespace PushTrace

def start (_ : LogState Unit) : PushTrace := { exchanged := none, operations := [] }

/-- A call starts a new trace; an operation of the push is added to it. -/
def record (s : LogState Unit) (trace : PushTrace) (label : LogLabel Unit) (s' : LogState Unit) :
    PushTrace :=
  match label with
  | .invokePush _ _ => { exchanged := none, operations := [] }
  | .push _ _ =>
      { exchanged :=
          match s.producers (), s'.producers () with
          | .compareExchange _ _, .loadOffset _ _ => some (s.logger.offsets s.logger.activeIdx)
          | _, _ => trace.exchanged
        operations := trace.operations ++ [(s.logger, s'.logger)] }
  | _ => trace

/-- No operation has changed a buffer or an offset. -/
def Quiet (trace : PushTrace) : Prop :=
  ∀ operation ∈ trace.operations,
    operation.2.bufs = operation.1.bufs ∧ operation.2.offsets = operation.1.offsets

end PushTrace

/-- What a push answers that finds an offset at its exchange. -/
def pushResult (bufSize offset len : Nat) : Result Unit :=
  if usizeRange ≤ offset + len ∨ bufSize < offset + len then .error .pushError else .ok ()

variable {s s' : LogState Unit} {bufSize : Nat} {trace : PushTrace}

/-- What the trace says, by where the push is. -/
def Traced (s : LogState Unit) (trace : PushTrace) : PushPc → Prop
  | .idle => True
  | .load _ | .compareExchange _ _ => trace.Quiet
  | .loadOffset _ active => trace.exchanged = some (s.logger.offsets active) ∧ trace.Quiet
  | .copy data _ _ | .fetchAdd data _ _ =>
      ∃ offset, trace.exchanged = some offset ∧ pushResult s.bufSize offset data.length = .ok ()
  | .fetchAnd data _ result =>
      ∃ offset, trace.exchanged = some offset ∧ result = pushResult s.bufSize offset data.length ∧
        (result = .error .pushError → trace.Quiet)

/-- A trace only depends on the size of the buffers and the offset of the active one. -/
theorem Traced.congr {pc : PushPc} (traced : s.Traced trace pc) (bufSize : s'.bufSize = s.bufSize)
    (offsets : ∀ active, pc.section? = some active →
      s'.logger.offsets active = s.logger.offsets active) : s'.Traced trace pc := by
  cases pc with
  | idle => trivial
  | load | compareExchange => exact traced
  | loadOffset data active => exact ⟨by rw [offsets active rfl]; exact traced.1, traced.2⟩
  | copy | fetchAdd | fetchAnd =>
      simp only [Traced, bufSize]
      exact traced

/-- The next operation of a push, with its trace. -/
theorem Traced.push {spurious : Bool} {logger : Logger} {pc : PushPc}
    (traced : s.Traced trace (s.producers ()))
    (move : PushMove s.logger s.bufSize spurious (s.producers ()) logger pc)
    (loggerEq : s'.logger = logger) (pcEq : s'.producers () = pc) (sizeEq : s'.bufSize = s.bufSize) :
    s'.Traced (PushTrace.record s trace (.push () spurious) s') (s'.producers ()) := by
  generalize start : s.producers () = before at move traced
  have quietly : trace.Quiet → logger.bufs = s.logger.bufs → logger.offsets = s.logger.offsets →
      (PushTrace.record s trace (.push () spurious) s').Quiet := by
    intro quiet bufs offsets operation member
    rcases List.mem_append.mp member with member | isLast
    · exact quiet operation member
    · rw [List.mem_singleton.mp isLast, loggerEq]
      exact ⟨bufs, offsets⟩
  have exchangedKept : (∀ data word, before ≠ .compareExchange data word) →
      (PushTrace.record s trace (.push () spurious) s').exchanged = trace.exchanged := by
    intro notExchange
    simp only [PushTrace.record, start]
    split
    · exact absurd rfl (notExchange _ _)
    · rfl
  rw [pcEq]
  cases move with
  | load data => exact quietly traced rfl rfl
  | retry data currState failed => exact quietly traced rfl rfl
  | exchange data agrees =>
      refine ⟨?_, quietly traced rfl rfl⟩
      simp only [PushTrace.record, start, pcEq, loggerEq]
      rfl
  | refuse data active full =>
      obtain ⟨exchanged, quiet⟩ := traced
      refine ⟨_, (exchangedKept (by simp)).trans exchanged, ?_, fun _ => quietly quiet rfl rfl⟩
      rw [sizeEq, pushResult, if_pos full]
  | accept data active representable fits =>
      refine ⟨_, (exchangedKept (by simp)).trans traced.1, ?_⟩
      rw [sizeEq, pushResult, if_neg (by omega)]
  | copy data active offset =>
      obtain ⟨found, exchanged, fits⟩ := traced
      exact ⟨found, (exchangedKept (by simp)).trans exchanged, by rwa [sizeEq]⟩
  | fetchAdd data active offset =>
      obtain ⟨found, exchanged, fits⟩ := traced
      exact ⟨found, (exchangedKept (by simp)).trans exchanged, by rw [sizeEq, fits], by simp⟩
  | fetchAnd data active result => trivial

/-- Every step keeps the trace true: the consumer works on the other buffer. -/
theorem Traced.step {label : LogLabel Unit} (traced : s.Traced trace (s.producers ()))
    (exclusive : s.Exclusive) (stepped : s.step label = some s') :
    s'.Traced (PushTrace.record s trace label s') (s'.producers ()) := by
  rcases step_cases stepped with
    ⟨tid, data, rfl, _, rfl⟩ | ⟨tid, spurious, logger, pc, rfl, move, rfl⟩ |
      ⟨rfl, _, rfl⟩ | ⟨spurious, logger, pc, rfl, move, rfl⟩
  · simp [Traced, PushTrace.record, PushTrace.Quiet]
  · cases tid
    exact traced.push move rfl (Function.update_self () pc s.producers)
      (recordPush_fields s ()).1
  · exact traced.congr rfl fun _ _ => rfl
  · simp only [PushTrace.record, recordConsume_producers]
    apply traced.congr
    · unfold recordConsume
      split <;> rfl
    · intro active working
      apply move.offsets_apart
      intro idx consuming
      rw [exclusive.active () active working]
      exact exclusive.consumed idx consuming

/-- The size of the buffers does not change. -/
theorem bufSize_step {label : LogLabel Unit} (stepped : s.step label = some s') :
    s'.bufSize = s.bufSize := by
  rcases step_cases stepped with
    ⟨_, _, _, _, rfl⟩ | ⟨tid, _, _, _, _, _, rfl⟩ | ⟨_, _, rfl⟩ | ⟨_, _, _, _, _, rfl⟩
  · rfl
  · exact (recordPush_fields s tid).1
  · rfl
  · unfold recordConsume
    split <;> rfl

theorem bufSize_of_reach (reached : (machine Unit bufSize).Reachable s) : s.bufSize = bufSize := by
  apply reached.invariant (fun s => s.bufSize = bufSize)
  · rintro s ⟨_, _, _, rfl⟩
    rfl
  · intro s label s' size stepped _
    exact (bufSize_step stepped).trans size

/-- The machine of one producer and one consumer, with the trace of the current push. -/
abbrev traced (bufSize : Nat) : Machine (LogState Unit × PushTrace) (LogLabel Unit) :=
  (machine Unit bufSize).withGhost PushTrace.start PushTrace.record

theorem traced_of_reach (reached : (traced bufSize).Reachable (s, trace)) :
    (machine Unit bufSize).Reachable s ∧ s.Traced trace (s.producers ()) := by
  have guarded : (traced bufSize).Reach (Machine.Guard.onState fun _ _ _ => True) (s, trace) :=
    reached
  refine ⟨guarded.forget, ?_⟩
  suffices both : s.LoadedQuiet ∧ s.Traced trace (s.producers ()) from both.2
  apply guarded.ghost_invariant fun s trace => s.LoadedQuiet ∧ s.Traced trace (s.producers ())
  · intro s start
    refine ⟨loadedQuiet_initial start, ?_⟩
    obtain ⟨_, _, _, rfl⟩ := start
    trivial
  · rintro s trace label s' ⟨quiet, traced⟩ stepped _
    exact ⟨quiet.step stepped, traced.step quiet.exclusive stepped⟩

/-! ### Recovery -/

/-- What is known of the offsets while one call of `consume` runs and nothing is pushed, by where the
consumer is. -/
def Emptying (s : LogState Unit) : ConsumePc → Prop
  | .idle => ∀ idx, s.logger.offsets idx = 0
  | .load | .compareExchange _ => ∀ idx, idx ≠ s.logger.activeIdx → s.logger.offsets idx = 0
  | .loadOffset active | .callback active _ | .reset active =>
      ∀ idx, idx ≠ active → s.logger.offsets idx = 0

theorem Emptying.consume {spurious : Bool} (emptying : s.Emptying s.consumer)
    (stepped : s.step (.consume spurious) = some s') : s'.Emptying s'.consumer := by
  obtain ⟨logger, pc, move, rfl⟩ := step_consume stepped
  generalize s.consumer = before at move emptying
  cases move with
  | reset active =>
      intro idx
      rcases eq_or_ne idx active with rfl | different
      · exact Function.update_self ..
      · exact (Function.update_of_ne different _ _).trans (emptying idx different)
  | spin | load | exchange | retry | found | empty | callback => exact emptying

/-- What is known of a push of `data` that was called at `before`, with both offsets at zero, by where
it is.  It finds the offset zero, so when it is about to return the active buffer holds its data and
nothing else. -/
def Succeeding (before s : LogState Unit) (data : List UInt8) : PushPc → Prop
  | .idle =>
      s.returned = before.returned ++ [((), data, .ok ())] ∧
        s.accepted = before.accepted ++ [((), data)]
  | .load pushed | .compareExchange pushed _ | .loadOffset pushed _ =>
      (s.returned = before.returned ∧ s.accepted = before.accepted) ∧ pushed = data ∧
        ∀ idx, s.logger.offsets idx = 0
  | .copy pushed active offset =>
      (s.returned = before.returned ∧ s.accepted = before.accepted) ∧ pushed = data ∧
        offset = 0 ∧ s.logger.offsets active = 0
  | .fetchAdd pushed active _ =>
      (s.returned = before.returned ∧ s.accepted = before.accepted) ∧ pushed = data ∧
        s.logger.offsets active = 0 ∧ s.logger.slice active data.length = data
  | .fetchAnd pushed active result =>
      (s.returned = before.returned ∧ s.accepted = before.accepted ++ [((), data)]) ∧
        pushed = data ∧ result = .ok () ∧ s.logger.offsets active = data.length ∧
        s.logger.slice active data.length = data

variable {before : LogState Unit} {data : List UInt8}

/-- What is known only depends on the history, the buffers, the offset of the one in use, and whether
an offset is zero. -/
theorem Succeeding.congr {pc : PushPc} (succeeding : Succeeding before s data pc)
    (returned : s'.returned = s.returned) (accepted : s'.accepted = s.accepted)
    (bufs : s'.logger.bufs = s.logger.bufs)
    (zero : ∀ idx, s.logger.offsets idx = 0 → s'.logger.offsets idx = 0)
    (inUse : ∀ active, pc.section? = some active →
      s'.logger.offsets active = s.logger.offsets active) : Succeeding before s' data pc := by
  have slices : ∀ idx len, s'.logger.slice idx len = s.logger.slice idx len := by
    intro idx len
    simp only [Logger.slice, bufs]
  cases pc with
  | idle => simpa only [Succeeding, returned, accepted] using succeeding
  | load pushed | compareExchange pushed word | loadOffset pushed active =>
      obtain ⟨history, same, empty⟩ := succeeding
      exact ⟨by rwa [returned, accepted], same, fun idx => zero idx (empty idx)⟩
  | copy pushed active offset | fetchAdd pushed active offset | fetchAnd pushed active result =>
      simpa only [Succeeding, returned, accepted, slices, inUse active rfl] using succeeding

/-- The next operation of the push. -/
theorem Succeeding.push {spurious : Bool} {logger : Logger} {pc : PushPc}
    (succeeding : Succeeding before s data (s.producers ())) (fits : data.length ≤ s.bufSize)
    (small : s.bufSize < usizeRange)
    (move : PushMove s.logger s.bufSize spurious (s.producers ()) logger pc)
    (s'Eq : s' =
      { s.recordPush () with
        logger := logger, producers := Function.update s.producers () pc }) :
    Succeeding before s' data (s'.producers ()) := by
  have pcEq : s'.producers () = pc := by
    subst s'
    exact Function.update_self () pc s.producers
  have loggerEq : s'.logger = logger := by
    subst s'
    rfl
  have returnedEq : s'.returned = (s.recordPush ()).returned := by
    subst s'
    rfl
  have acceptedEq : s'.accepted = (s.recordPush ()).accepted := by
    subst s'
    rfl
  clear s'Eq
  rw [pcEq]
  generalize start : s.producers () = beforePc at move succeeding
  rw [recordPush, start] at returnedEq acceptedEq
  cases move with
  | load pushed | retry pushed currState failed | exchange pushed agrees =>
      obtain ⟨⟨returned, accepted⟩, same, empty⟩ := succeeding
      refine ⟨⟨returnedEq.trans returned, acceptedEq.trans accepted⟩, same, ?_⟩
      rw [loggerEq]
      exact empty
  | refuse pushed active full =>
      obtain ⟨_, rfl, empty⟩ := succeeding
      rw [empty active] at full
      omega
  | accept pushed active representable room =>
      obtain ⟨⟨returned, accepted⟩, same, empty⟩ := succeeding
      refine ⟨⟨returnedEq.trans returned, acceptedEq.trans accepted⟩, same, empty active, ?_⟩
      rw [loggerEq]
      exact empty active
  | copy pushed active offset =>
      obtain ⟨⟨returned, accepted⟩, rfl, rfl, empty⟩ := succeeding
      refine ⟨⟨returnedEq.trans returned, acceptedEq.trans accepted⟩, rfl, ?_, ?_⟩
      · rw [loggerEq]
        exact empty
      · have written := slice_copy_extend s.logger active 0 pushed
        rw [Nat.zero_add] at written
        rw [loggerEq, written]
        rfl
  | fetchAdd pushed active offset =>
      obtain ⟨⟨returned, accepted⟩, rfl, empty, stored⟩ := succeeding
      refine ⟨⟨returnedEq.trans returned, ?_⟩, rfl, rfl, ?_, ?_⟩
      · rw [acceptedEq, ← accepted]
      · rw [loggerEq]
        change Function.update s.logger.offsets active _ active = _
        rw [Function.update_self, empty, Nat.zero_add, Nat.mod_eq_of_lt (by omega)]
      · rw [loggerEq]
        exact stored
  | fetchAnd pushed active result =>
      obtain ⟨⟨returned, accepted⟩, rfl, rfl, _⟩ := succeeding
      exact ⟨by rw [returnedEq, ← returned], by rw [acceptedEq, ← accepted]⟩

/-- A step of the consumer, which works on the other buffer. -/
theorem Succeeding.consumer {label : LogLabel Unit}
    (succeeding : Succeeding before s data (s.producers ())) (exclusive : s.Exclusive)
    (notPushed : ∀ spurious, label ≠ .push () spurious)
    (notInvoked : ∀ other, label ≠ .invokePush () other) (stepped : s.step label = some s') :
    Succeeding before s' data (s'.producers ()) ∧ s'.producers = s.producers := by
  rcases step_cases stepped with
    ⟨tid, other, rfl, _, _⟩ | ⟨tid, spurious, logger, pc, rfl, _, _⟩ |
      ⟨rfl, _, rfl⟩ | ⟨spurious, logger, pc, rfl, move, rfl⟩
  · exact absurd rfl (notInvoked other)
  · exact absurd rfl (notPushed spurious)
  · exact ⟨succeeding.congr rfl rfl rfl (fun _ zero => zero) fun _ _ => rfl, rfl⟩
  · have producers := recordConsume_producers s
    refine ⟨?_, producers⟩
    have returned : s.recordConsume.returned = s.returned := by
      unfold recordConsume
      split <;> rfl
    simp only [producers]
    refine succeeding.congr returned (recordConsume_accepted s) move.bufs
      (fun _ => move.offsets_zero) fun active working => ?_
    apply move.offsets_apart
    intro idx consuming
    rw [exclusive.active () active working]
    exact exclusive.consumed idx consuming

/-- Some steps with labels of a kind. -/
abbrev Steps (kind : LogLabel Unit → Prop) : LogState Unit → LogState Unit → Prop :=
  Relation.ReflTransGen fun s s' => ∃ label, kind label ∧ s.step label = some s'

/-- The operations of the consumer inside a call. -/
def isConsume : LogLabel Unit → Prop
  | .consume _ => True
  | _ => False

/-- Everything the consumer does. -/
def notPush : LogLabel Unit → Prop
  | .consume _ | .invokeConsume => True
  | _ => False

theorem notPush_of_isConsume (consumed : Steps isConsume s s') : Steps notPush s s' := by
  induction consumed with
  | refl => exact .refl
  | tail _ stepped inductionHypothesis =>
      obtain ⟨label, kind, stepped⟩ := stepped
      cases label with
      | consume spurious =>
          exact inductionHypothesis.tail ⟨.consume spurious, trivial, stepped⟩
      | invokePush | push | invokeConsume => cases kind

theorem Emptying.steps (emptying : s.Emptying s.consumer) (consumed : Steps isConsume s s') :
    s'.Emptying s'.consumer := by
  induction consumed with
  | refl => exact emptying
  | tail _ stepped inductionHypothesis =>
      obtain ⟨label, kind, stepped⟩ := stepped
      cases label with
      | consume spurious => exact inductionHypothesis.consume stepped
      | invokePush | push | invokeConsume => cases kind

/-- Any steps keep exclusion. -/
theorem LoadedQuiet.steps {kind : LogLabel Unit → Prop} (quiet : s.LoadedQuiet)
    (ran : Steps kind s s') : s'.LoadedQuiet := by
  induction ran with
  | refl => exact quiet
  | tail _ stepped inductionHypothesis =>
      obtain ⟨label, _, stepped⟩ := stepped
      exact inductionHypothesis.step stepped

theorem loadedQuiet_of_reach (reached : (machine Unit bufSize).Reachable s) : s.LoadedQuiet :=
  reached.invariant LoadedQuiet (fun _ => loadedQuiet_initial)
    fun _ _ _ quiet stepped _ => quiet.step stepped

/-- A whole call of `consume`, with no push in between, leaves both offsets at zero. -/
theorem consumed_empty (inactive : ∀ idx, idx ≠ s.logger.activeIdx → s.logger.offsets idx = 0)
    {called last : LogState Unit} (invoked : s.step .invokeConsume = some called)
    (consumed : Steps isConsume called last) (returned : last.consumer = .idle) :
    ∀ idx, last.logger.offsets idx = 0 := by
  have emptying : called.Emptying called.consumer := by
    obtain ⟨_, rfl⟩ := step_invokeConsume invoked
    exact inactive
  have emptied := emptying.steps consumed
  rw [returned] at emptied
  exact emptied

/-- Offsets at zero stay there while nothing is pushed. -/
theorem quiet_steps (quiet : Steps notPush s s') :
    s'.bufSize = s.bufSize ∧ ∀ idx, s.logger.offsets idx = 0 → s'.logger.offsets idx = 0 := by
  induction quiet with
  | refl => exact ⟨rfl, fun _ zero => zero⟩
  | tail _ stepped inductionHypothesis =>
      obtain ⟨size, empty⟩ := inductionHypothesis
      obtain ⟨label, kind, stepped⟩ := stepped
      refine ⟨(bufSize_step stepped).trans size, ?_⟩
      rcases step_cases stepped with
        ⟨_, _, rfl, _⟩ | ⟨_, _, _, _, rfl, _⟩ | ⟨_, _, rfl⟩ | ⟨_, logger, _, _, move, rfl⟩
      · cases kind
      · cases kind
      · exact empty
      · exact fun idx zero => move.offsets_zero (empty idx zero)

/-! ### The operations of a push are few -/

/-- The states inside or after one call of `push`, from the state `s` at its start, with the number of
operations the producer has taken since, and of those events that can make an exchange of it fail:
its own spurious failures, and the exchanges of the consumer. -/
inductive Pushing (s : LogState Unit) : Nat → Nat → LogState Unit → Prop where
  | start : Pushing s 0 0 s
  | push {taken failed : Nat} {t t' : LogState Unit} (spurious : Bool)
      (pushing : Pushing s taken failed t) (stepped : t.step (.push () spurious) = some t') :
      Pushing s (taken + 1) (failed + spurious.toNat) t'
  | consumer {taken failed : Nat} {t t' : LogState Unit} (label : LogLabel Unit)
      (pushing : Pushing s taken failed t) (other : notPush label)
      (stepped : t.step label = some t') :
      Pushing s taken (failed + if t'.logger.state = t.logger.state then 0 else 1) t'

/-- The producer alone, with no spurious failure, for so many operations. -/
def pushAlone : Nat → LogState Unit → Option (LogState Unit)
  | 0, s => some s
  | more + 1, s => (s.step (.push () false)).bind (pushAlone more)

/-- The operations a push still takes if nothing makes its exchange fail any more. -/
def toGo (s : LogState Unit) : PushPc → Nat
  | .idle => 0
  | .load _ => 6
  | .compareExchange _ currState => if s.logger.state = currState then 5 else 7
  | .loadOffset _ _ => 4
  | .copy _ _ _ => 3
  | .fetchAdd _ _ _ => 2
  | .fetchAnd _ _ _ => 1

/-- Each operation of the push brings it nearer to its end, but for a spurious failure. -/
theorem toGo_push {spurious : Bool} (stepped : s.step (.push () spurious) = some s') :
    s'.toGo (s'.producers ()) + 1 ≤ s.toGo (s.producers ()) + 2 * spurious.toNat := by
  obtain ⟨logger, pc, move, rfl⟩ := step_push stepped
  simp only [Function.update_self]
  generalize s.producers () = beforePc at move
  cases move with
  | load data => simp [toGo]
  | exchange data agrees => simp [toGo]
  | retry data currState failed =>
      by_cases agrees : s.logger.state = currState
      · have isSpurious : spurious = true := by simpa [agrees] using failed
        simp [toGo, isSpurious, agrees]
      · simp [toGo, agrees]
  | refuse | accept | copy | fetchAdd | fetchAnd =>
      simp only [toGo]
      omega

/-- A step of the consumer takes the push back by one exchange at most, and only if it swaps. -/
theorem toGo_consumer (producers : s'.producers = s.producers) :
    s'.toGo (s'.producers ()) ≤
      s.toGo (s.producers ()) + 2 * if s'.logger.state = s.logger.state then 0 else 1 := by
  rw [producers]
  by_cases same : s'.logger.state = s.logger.state
  · rw [if_pos same]
    cases s.producers () <;> simp [toGo, same]
  · rw [if_neg same]
    cases s.producers () with
    | compareExchange data currState =>
        simp only [toGo]
        split <;> split <;> omega
    | idle | load | loadOffset | copy | fetchAdd | fetchAnd => exact Nat.le_add_right _ _

/-- Inside a call there is always an operation to take. -/
theorem push_enabled (spurious : Bool) (busy : s.producers () ≠ .idle) :
    ∃ next, s.step (.push () spurious) = some next := by
  have operates : ∃ answer,
      s.logger.pushStep s.bufSize spurious (s.producers ()) = some answer := by
    cases pc : s.producers () with
    | idle => exact absurd pc busy
    | load | copy | fetchAdd | fetchAnd => exact ⟨_, rfl⟩
    | compareExchange data currState =>
        simp only [Logger.pushStep]
        split <;> exact ⟨_, rfl⟩
    | loadOffset data active =>
        simp only [Logger.pushStep]
        split <;> exact ⟨_, rfl⟩
  obtain ⟨answer, operates⟩ := operates
  simp only [step, operates]
  exact ⟨_, rfl⟩

/-- A run of the push, continued by the producer alone. -/
theorem Pushing.alone {start final : LogState Unit} {taken failed more : Nat}
    (pushing : Pushing start taken failed s) (ran : s.pushAlone more = some final) :
    Pushing start (taken + more) failed final := by
  induction more generalizing s taken with
  | zero =>
      cases ran
      exact pushing
  | succ more inductionHypothesis =>
      obtain ⟨next, stepped, rest⟩ := Option.bind_eq_some_iff.mp ran
      have extended := inductionHypothesis (pushing.push false stepped) rest
      rwa [Nat.add_assoc, Nat.add_comm 1 more] at extended

/-- Inside a call there is something to do. -/
theorem toGo_pos (busy : s.producers () ≠ .idle) : 0 < s.toGo (s.producers ()) := by
  cases pc : s.producers () with
  | idle => exact absurd pc busy
  | compareExchange data currState =>
      simp only [toGo]
      split <;> omega
  | load | loadOffset | copy | fetchAdd | fetchAnd => simp [toGo]

/-- The producer alone returns. -/
theorem pushAlone_returns {bound : Nat} (enough : s.toGo (s.producers ()) ≤ bound) :
    ∃ more final, more ≤ bound ∧ s.pushAlone more = some final ∧ final.producers () = .idle := by
  induction bound generalizing s with
  | zero =>
      refine ⟨0, s, Nat.le_refl _, rfl, ?_⟩
      by_contra busy
      exact Nat.not_lt.mpr enough (toGo_pos busy)
  | succ bound inductionHypothesis =>
      by_cases returned : s.producers () = .idle
      · exact ⟨0, s, Nat.zero_le _, rfl, returned⟩
      · obtain ⟨next, stepped⟩ := push_enabled false returned
        have nearer := toGo_push stepped
        simp only [Bool.toNat_false, Nat.mul_zero, Nat.add_zero] at nearer
        obtain ⟨more, final, few, ran, idle⟩ := inductionHypothesis (s := next) (by omega)
        exact ⟨more + 1, final, Nat.succ_le_succ few, by rw [pushAlone, stepped]; exact ran, idle⟩

theorem toGo_le (pc : PushPc) : s.toGo pc ≤ 7 := by
  cases pc with
  | compareExchange data currState =>
      simp only [toGo]
      split <;> omega
  | idle | load | loadOffset | copy | fetchAdd | fetchAnd => simp [toGo]

/-- A push that fits, called at `later` with both offsets at zero, whatever the consumer does
meanwhile: it succeeds, and has taken few operations unless its exchange was made to fail. -/
theorem push_succeeds {later called last : LogState Unit} {taken failed : Nat}
    (quiet : later.LoadedQuiet) (empty : ∀ idx, later.logger.offsets idx = 0)
    (fits : data.length ≤ later.bufSize) (small : later.bufSize < usizeRange)
    (invoked : later.step (.invokePush () data) = some called)
    (pushing : Pushing called taken failed last) :
    Succeeding later last data (last.producers ()) ∧
      taken + last.toGo (last.producers ()) ≤ 6 + 2 * failed := by
  suffices all : (Succeeding later last data (last.producers ()) ∧
      taken + last.toGo (last.producers ()) ≤ 6 + 2 * failed) ∧ last.LoadedQuiet ∧
        last.bufSize = later.bufSize from all.1
  induction pushing with
  | start =>
      refine ⟨?_, quiet.step invoked, bufSize_step invoked⟩
      obtain ⟨_, rfl⟩ := step_invokePush invoked
      simp only [Function.update_self]
      exact ⟨⟨⟨rfl, rfl⟩, rfl, empty⟩, by simp [toGo]⟩
  | push spurious _ stepped inductionHypothesis =>
      obtain ⟨⟨succeeding, few⟩, quiet, size⟩ := inductionHypothesis
      refine ⟨⟨?_, ?_⟩, quiet.step stepped, (bufSize_step stepped).trans size⟩
      · obtain ⟨logger, pc, move, after⟩ := step_push stepped
        exact succeeding.push (size ▸ fits) (size ▸ small) move after
      · have nearer := toGo_push stepped
        omega
  | consumer label _ other stepped inductionHypothesis =>
      obtain ⟨⟨succeeding, few⟩, quiet, size⟩ := inductionHypothesis
      obtain ⟨succeeding', producers⟩ := succeeding.consumer quiet.exclusive
        (fun _ same => by rw [same] at other; exact other)
        (fun _ same => by rw [same] at other; exact other) stepped
      refine ⟨⟨succeeding', ?_⟩, quiet.step stepped, (bufSize_step stepped).trans size⟩
      have back := toGo_consumer (s := _) producers
      rw [Nat.mul_add]
      omega

/-- Outside a call of `consume` that has swapped, the inactive buffer is empty. -/
theorem Accounts.inactive_empty {groups : List (List (Message Unit))}
    {old cur : List (Message Unit)} (accounts : s.Accounts groups old cur)
    (outside : s.consumer.section? = none) :
    ∀ idx, idx ≠ s.logger.activeIdx → s.logger.offsets idx = 0 := by
  have swapped := accounts.swapped
  cases pc : s.consumer with
  | idle | load | compareExchange =>
      rw [pc] at swapped
      exact swapped.2
  | loadOffset | callback | reset =>
      rw [pc] at outside
      cases outside

/-- The last operation of a push: it returns its result and clears the writer bit. -/
theorem step_return {spurious : Bool} {data : List UInt8} {active : Fin 2} {result : Result Unit}
    (start : s.producers () = .fetchAnd data active result)
    (stepped : s.step (.push () spurious) = some s') :
    s'.returned = s.returned ++ [((), data, result)] ∧ s'.logger.bufs = s.logger.bufs ∧
      s'.logger.offsets = s.logger.offsets ∧
      s'.logger.state = s.logger.state &&& ~~~writerBit := by
  simp only [step, start, Logger.pushStep, recordPush, Option.some.injEq] at stepped
  subst stepped
  exact ⟨rfl, rfl, rfl, rfl⟩

/-- One producer and one consumer, any interleaving.  A push that returns answers `PushError` exactly
if its data does not fit behind the offset it found at its exchange; then none of its operations has
changed a buffer or an offset, and the writer bit is clear.  Outside a call of `consume` that has
swapped, the inactive offset is zero.  After a whole call of `consume` with no push in between, the
next push succeeds if its data is no longer than a buffer: it returns within six operations and two
more for each time its exchange was made to fail, and from everywhere within seven if left alone;
when it is about to return, the buffer it used holds the data and nothing else; and it returns
`Ok`. -/
theorem push_recovery (reached : (traced bufSize).Reachable (s, trace)) :
    (∀ spurious s' data active result, s.producers () = .fetchAnd data active result →
      s.step (.push () spurious) = some s' →
        s'.returned = s.returned ++ [((), data, result)] ∧
        (∃ offset, trace.exchanged = some offset ∧
          result = pushResult bufSize offset data.length) ∧
        (result = .error .pushError →
          s'.logger.state &&& writerBit = 0 ∧
            (PushTrace.record s trace (.push () spurious) s').Quiet)) ∧
    (s.consumer.section? = none →
      ∀ idx, idx ≠ s.logger.activeIdx → s.logger.offsets idx = 0) ∧
    ∀ called consumed, s.step .invokeConsume = some called → Steps isConsume called consumed →
      consumed.consumer = .idle →
        ∀ data later pushing, data.length ≤ bufSize → Steps notPush consumed later →
          later.step (.invokePush () data) = some pushing →
          ∀ taken failed last, Pushing pushing taken failed last →
            (last.producers () ≠ .idle → taken < 6 + 2 * failed) ∧
            (∃ more final, more ≤ 7 ∧ last.pushAlone more = some final ∧
              final.producers () = .idle ∧
              final.returned = later.returned ++ [((), data, .ok ())] ∧
              final.accepted = later.accepted ++ [((), data)]) ∧
            (∀ pushed active result, last.producers () = .fetchAnd pushed active result →
              pushed = data ∧ result = .ok () ∧ last.logger.offsets active = data.length ∧
                last.logger.slice active data.length = data) ∧
            (last.producers () = .idle →
              last.returned = later.returned ++ [((), data, .ok ())] ∧
                last.accepted = later.accepted ++ [((), data)]) := by
  obtain ⟨reachable, told⟩ := traced_of_reach reached
  have size := bufSize_of_reach reachable
  have quiet := loadedQuiet_of_reach reachable
  have exclusive := quiet.exclusive
  obtain ⟨groups, old, cur, accounts⟩ := accounts_of_reach (single_thread_fresh reachable)
  have inactive := accounts.inactive_empty
  refine ⟨?_, inactive, ?_⟩
  · intro spurious s' data active result start stepped
    obtain ⟨returned, bufs, offsets, word⟩ := step_return start stepped
    rw [start] at told
    obtain ⟨offset, exchanged, resultEq, quiet⟩ := told
    refine ⟨returned, ⟨offset, exchanged, size ▸ resultEq⟩, fun failed => ⟨?_, ?_⟩⟩
    · rw [word]
      exact exclusive.word.release.2.1
    · intro operation member
      rcases List.mem_append.mp member with member | isLast
      · exact quiet failed operation member
      · rw [List.mem_singleton.mp isLast]
        exact ⟨bufs, offsets⟩
  · intro called consumed invoked ran returned data later pushing fits waited pushed taken failed
      last pushRan
    have idle := (step_invokeConsume invoked).1
    have emptied := consumed_empty (inactive (by rw [idle]; rfl)) invoked ran returned
    have unpushed : Steps notPush s later :=
      .trans (.head ⟨.invokeConsume, trivial, invoked⟩ (notPush_of_isConsume ran)) waited
    have sameSize := (quiet_steps unpushed).1.trans size
    have empty : ∀ idx, later.logger.offsets idx = 0 := fun idx =>
      (quiet_steps waited).2 idx (emptied idx)
    have succeeds := fun {taken failed : Nat} {last : LogState Unit}
        (pushRan : Pushing pushing taken failed last) =>
      push_succeeds (quiet.steps unpushed) empty (by rwa [sameSize])
        (by rw [sameSize, ← size]; exact accounts.small) pushed pushRan
    obtain ⟨succeeding, few⟩ := succeeds pushRan
    refine ⟨fun busy => ?_, ?_, fun other active result atReturn => ?_, fun idle => ?_⟩
    · have some := toGo_pos busy
      omega
    · obtain ⟨more, final, bounded, alone, idle⟩ := pushAlone_returns (toGo_le (last.producers ()))
      have history := (succeeds (pushRan.alone alone)).1
      rw [idle] at history
      exact ⟨more, final, bounded, alone, idle, history.1, history.2⟩
    · rw [atReturn] at succeeding
      exact succeeding.2
    · rw [idle] at succeeding
      exact succeeding

/-- A schedule of the consumer. -/
theorem consume_of_run {labels : List (LogLabel Unit)} (kinds : ∀ label ∈ labels, isConsume label)
    (ran : (machine Unit bufSize).run (fun _ _ _ => true) s labels = some s') :
    Steps isConsume s s' := by
  induction labels generalizing s with
  | nil =>
      cases ran
      exact .refl
  | cons label labels inductionHypothesis =>
      obtain ⟨next, stepped, rest⟩ := Option.bind_eq_some_iff.mp ran
      exact .head ⟨label, kinds label (List.mem_cons_self ..), stepped⟩
        (inductionHypothesis (fun other member => kinds other (List.mem_cons_of_mem _ member)) rest)

/-- A push of 4097 bytes into 4096: it is refused and changes nothing.  A full buffer: one byte more
is refused, and after a call of `consume` 4096 bytes are accepted. -/
theorem push_recovery_refused :
    (∃ (s : LogState Unit) (data : List UInt8), data.length = 4097 ∧
      s.returned = [((), data, .error .pushError)] ∧ s.logger.state &&& writerBit = 0) ∧
    ∃ (later final : LogState Unit) (refill : List UInt8), refill.length = 4096 ∧
      later.returned.map (fun push => (push.2.1.length, push.2.2)) =
        [(4096, .ok ()), (1, .error .pushError)] ∧
      final.returned = later.returned ++ [((), refill, .ok ())] := by
  have start : (traced 4096).initial (zeroed Unit, PushTrace.start (zeroed Unit)) :=
    ⟨zeroed_initial Unit, rfl⟩
  constructor
  · obtain ⟨⟨s, trace⟩, reached, ends⟩ := Machine.exists_reachable_of_run start
      (.invokePush () (List.replicate 4097 0) :: List.replicate 3 (.push () false))
      (fun p => match p.1.producers () with
        | .fetchAnd data _ (.error .pushError) => data.length == 4097 && p.1.returned.isEmpty
        | _ => false) (by decide +kernel)
    dsimp only at ends
    split at ends
    · rename_i data active atReturn
      simp only [Bool.and_eq_true, beq_iff_eq, List.isEmpty_iff] at ends
      obtain ⟨s', stepped⟩ : ∃ s', s.step (.push () false) = some s' :=
        push_enabled false (by simp [atReturn])
      obtain ⟨returned, _, quiet⟩ :=
        (push_recovery reached).1 false s' data active _ atReturn stepped
      rw [ends.2] at returned
      exact ⟨s', data, ends.1, returned, (quiet rfl).1⟩
    · cases ends
  · let refill : List UInt8 := List.replicate 4096 1
    have length : refill.length = 4096 := List.length_replicate
    let consumes : List (LogLabel Unit) := List.replicate 5 (.consume false)
    let ends (consumed : LogState Unit) : Bool :=
      (consumed.step .invokeConsume).isSome && (consumed.step (.invokePush () refill)).isSome &&
        consumed.returned.map (fun push => (push.2.1.length, push.2.2)) ==
          [(4096, .ok ()), (1, .error .pushError)]
    obtain ⟨⟨s, trace⟩, reached, tested⟩ := Machine.exists_reachable_of_run start
      (.invokePush () (List.replicate 4096 0) :: List.replicate 6 (.push () false) ++
        .invokePush () [7] :: List.replicate 4 (.push () false))
      (fun p => (p.1.step .invokeConsume).any fun called =>
        ((machine Unit 4096).run (fun _ _ _ => true) called consumes).any ends)
      (by decide +kernel)
    obtain ⟨called, invoked, tested⟩ := (Option.any_eq_true _ _).mp tested
    obtain ⟨consumed, ran, tested⟩ := (Option.any_eq_true _ _).mp tested
    simp only [ends, Bool.and_eq_true, beq_iff_eq, Option.isSome_iff_exists] at tested
    obtain ⟨⟨⟨again, idle⟩, pushing, pushed⟩, history⟩ := tested
    have returned := (step_invokeConsume idle).1
    have consumer := consume_of_run (by simp [consumes, isConsume]) ran
    obtain ⟨_, ⟨_, final, _, _, _, succeeded, _⟩, _⟩ :=
      (push_recovery reached).2.2 called consumed invoked consumer returned refill consumed pushing
        length.le .refl pushed 0 0 pushing .start
    exact ⟨consumed, final, refill, length, history, succeeded⟩

end LogState

end Hoarder
