/-
Module: Hoarder.Proofs.LoggerFlush
Purpose: What a panic dump shows.  Two counts beside the run say how many accepted pushes the consumer
  has swapped out and how many it has reset; `Flushable` ties the two buffers to the pushes between.
  The dump visits the buffers by index, so it is in order except while the buffer with the larger
  index is the older one.
Trusted boundary: none
Main exports: LogState.FlushCount, LogState.unreset, LogState.Flushable, LogState.Flushable.step,
  LogState.panicFlush_iff
-/
import Hoarder.Proofs.LoggerRecovery

namespace Hoarder

open Foundation

namespace LogState

/-- How many accepted pushes lie before the last swap of the consumer, and before its last reset. -/
structure FlushCount where
  swapped : Nat
  reset : Nat
deriving DecidableEq

namespace FlushCount

def start (_ : LogState Unit) : FlushCount := { swapped := 0, reset := 0 }

/-- A successful exchange of the consumer counts what was accepted; its final store counts that as
reset. -/
def record (s : LogState Unit) (count : FlushCount) (_ : LogLabel Unit) (s' : LogState Unit) :
    FlushCount :=
  match s.consumer, s'.consumer with
  | .compareExchange _, .loadOffset _ => { count with swapped := s.accepted.length }
  | .reset _, .idle => { count with reset := count.swapped }
  | _, _ => count

end FlushCount

variable {s s' : LogState Unit} {bufSize : Nat} {count : FlushCount}

/-- The bytes of the accepted pushes that `consume` has not yet reset, in order. -/
def unreset (s : LogState Unit) (count : FlushCount) : List UInt8 :=
  bytes (s.accepted.drop count.reset)

/-- The active buffer holds what was accepted since the last swap, and the swapped-out one what was
accepted before it and not reset. -/
structure Flushable (s : LogState Unit) (count : FlushCount) : Prop where
  ordered : count.reset ≤ count.swapped
  counted : count.swapped ≤ s.accepted.length
  active : s.activePending = bytes (s.accepted.drop count.swapped)
  consuming : ∀ idx, s.consumer.section? = some idx →
    s.logger.slice idx (s.logger.offsets idx) =
      bytes ((s.accepted.take count.swapped).drop count.reset)
  between : s.consumer.section? = none → count.swapped = count.reset

/-- A push works on the active buffer, and leaves it active. -/
theorem Exclusive.push_inactive {spurious : Bool} {logger : Logger} {pc : PushPc}
    (exclusive : s.Exclusive)
    (move : PushMove s.logger s.bufSize spurious (s.producers ()) logger pc) :
    logger.activeIdx = s.logger.activeIdx ∧
      ∀ idx, idx ≠ s.logger.activeIdx → ∀ len,
        logger.offsets idx = s.logger.offsets idx ∧ logger.slice idx len = s.logger.slice idx len := by
  have working := exclusive.active ()
  rw [sections] at working
  generalize s.producers () = before at move working
  cases move with
  | load | retry | refuse | accept => exact ⟨rfl, fun _ _ _ => ⟨rfl, rfl⟩⟩
  | exchange => exact ⟨exclusive.word.claim.2.2, fun _ _ _ => ⟨rfl, rfl⟩⟩
  | copy data active offset =>
      obtain rfl := working active rfl
      exact ⟨rfl, fun idx other len => ⟨rfl, slice_copy_other _ _ _ _ other⟩⟩
  | fetchAdd data active offset =>
      obtain rfl := working active rfl
      exact ⟨rfl, fun idx other len => ⟨Function.update_of_ne other _ _, rfl⟩⟩
  | fetchAnd => exact ⟨exclusive.word.release.2.2, fun _ _ _ => ⟨rfl, rfl⟩⟩

/-- An operation of a push adds to the history, and to the active buffer, the same bytes. -/
theorem Accounts.push_appends {groups : List (List (Message Unit))} {old cur : List (Message Unit)}
    {spurious : Bool} {logger : Logger} {pc : PushPc} (accounts : s.Accounts groups old cur)
    (exclusive : s.Exclusive)
    (move : PushMove s.logger s.bufSize spurious (s.producers ()) logger pc)
    (s'Eq : s' =
      { s.recordPush () with
        logger := logger, producers := Function.update s.producers () pc }) :
    ∃ new, s'.accepted = s.accepted ++ new ∧ s'.activePending = s.activePending ++ bytes new := by
  obtain ⟨cur', accounts'⟩ := accounts.push exclusive move s'Eq
  have grown : ∃ new, s'.accepted = s.accepted ++ new := by
    rcases recordPush_accepted s () with same | ⟨data, _, added⟩
    · exact ⟨[], by rw [s'Eq, List.append_nil]; exact same⟩
    · exact ⟨[((), data)], by rw [s'Eq]; exact added⟩
  obtain ⟨new, added⟩ := grown
  refine ⟨new, added, ?_⟩
  rw [accounts'.accepted, accounts.accepted, List.append_assoc _ cur] at added
  rw [accounts'.active, accounts.active, List.append_cancel_left added, bytes_append]

/-- An operation of a push keeps the counts right. -/
theorem Flushable.push {groups : List (List (Message Unit))} {old cur : List (Message Unit)}
    {spurious : Bool} {logger : Logger} {pc : PushPc} (flushable : s.Flushable count)
    (accounts : s.Accounts groups old cur) (exclusive : s.Exclusive)
    (move : PushMove s.logger s.bufSize spurious (s.producers ()) logger pc)
    (s'Eq : s' =
      { s.recordPush () with
        logger := logger, producers := Function.update s.producers () pc }) :
    s'.Flushable count := by
  obtain ⟨new, added, appended⟩ := accounts.push_appends exclusive move s'Eq
  obtain ⟨_, others⟩ := exclusive.push_inactive move
  have logger' : s'.logger = logger := by rw [s'Eq]
  have consumer' : s'.consumer = s.consumer := by
    rw [s'Eq]
    exact recordPush_consumer s ()
  constructor
  · exact flushable.ordered
  · rw [added, List.length_append]
    exact Nat.le_add_right_of_le flushable.counted
  · rw [appended, added, List.drop_append_of_le_length flushable.counted, bytes_append,
      flushable.active]
  · intro idx working
    rw [consumer'] at working
    have other := exclusive.consumed idx working
    rw [logger', (others idx other 0).1, (others idx other _).2, added,
      List.take_append_of_le_length flushable.counted]
    exact flushable.consuming idx working
  · rw [consumer']
    exact flushable.between

/-- An operation of the consumer keeps them right: a swap makes the active pushes the swapped-out
ones, a reset ends these. -/
theorem Flushable.consume {groups : List (List (Message Unit))} {old cur : List (Message Unit)}
    {spurious : Bool} {logger : Logger} {pc : ConsumePc} (flushable : s.Flushable count)
    (accounts : s.Accounts groups old cur) (exclusive : s.Exclusive)
    (move : ConsumeMove s.logger spurious s.consumer logger pc)
    (s'Eq : s' = { s.recordConsume with logger := logger, consumer := pc }) :
    s'.Flushable (FlushCount.record s count (.consume spurious) s') := by
  obtain ⟨ordered, counted, active, consuming, between⟩ := flushable
  have logger' : s'.logger = logger := by rw [s'Eq]
  have consumer' : s'.consumer = pc := by rw [s'Eq]
  have accepted' : s'.accepted = s.accepted := by
    rw [s'Eq]
    exact recordConsume_accepted s
  have consumed := exclusive.consumed
  have swapped := accounts.swapped
  generalize start : s.consumer = before at move consuming between consumed swapped
  -- Between the exchange and the store only the program counter moves.
  have inside : logger = s.logger → (∀ idx, pc.section? = some idx ↔ before.section? = some idx) →
      s'.Flushable count := by
    intro sameLogger sameSection
    refine ⟨ordered, by rwa [accepted'], ?_, ?_, ?_⟩
    · rw [activePending, logger', sameLogger, accepted']
      exact active
    · intro idx working
      rw [consumer', sameSection] at working
      rw [logger', sameLogger, accepted']
      exact consuming idx working
    · intro outside
      rw [consumer'] at outside
      apply between
      by_contra working
      obtain ⟨idx, working⟩ := Option.ne_none_iff_exists'.mp working
      rw [(sameSection idx).mpr working] at outside
      cases outside
  cases move with
  | spin | load | retry | found | empty | callback =>
      have same : FlushCount.record s count (.consume spurious) s' = count := by
        simp only [FlushCount.record, start, consumer']
      rw [same]
      exact inside rfl fun idx => Iff.rfl
  | exchange agrees =>
      have counts : FlushCount.record s count (.consume spurious) s' =
          { count with swapped := s.accepted.length } := by
        simp only [FlushCount.record, start, consumer']
      have empty : s.logger.offsets s'.logger.activeIdx = 0 := by
        apply swapped.2
        rw [logger']
        exact exclusive.word.swap.2.2.symm
      rw [counts]
      constructor
      · exact ordered.trans counted
      · rw [accepted']
      · rw [accepted', List.drop_length, activePending,
          show s'.logger.offsets = s.logger.offsets by rw [logger'], empty]
        rfl
      · intro idx working
        rw [consumer'] at working
        cases working
        rw [accepted', List.take_length, logger', ← between rfl]
        exact active
      · intro outside
        rw [consumer'] at outside
        cases outside
  | reset idx =>
      have counts : FlushCount.record s count (.consume spurious) s' =
          { count with reset := count.swapped } := by
        simp only [FlushCount.record, start, consumer']
      have other : s.logger.activeIdx ≠ idx := (consumed idx rfl).symm
      rw [counts]
      constructor
      · exact Nat.le_refl _
      · rwa [accepted']
      · have sameIdx : s'.logger.activeIdx = s.logger.activeIdx := by
          rw [logger']
          rfl
        have sameOffset : s'.logger.offsets s.logger.activeIdx =
            s.logger.offsets s.logger.activeIdx := by
          rw [logger']
          exact Function.update_of_ne other _ _
        rw [activePending, sameIdx, sameOffset, accepted', ← active, logger']
        rfl
      · intro idx working
        rw [consumer'] at working
        cases working
      · exact fun _ => rfl

/-- Every step keeps the counts right. -/
theorem Flushable.step {groups : List (List (Message Unit))} {old cur : List (Message Unit)}
    {label : LogLabel Unit} (flushable : s.Flushable count) (accounts : s.Accounts groups old cur)
    (exclusive : s.Exclusive) (stepped : s.step label = some s') :
    s'.Flushable (FlushCount.record s count label s') := by
  -- A step of the producer leaves the consumer where it is, and the counts as they are.
  have keeps : s'.consumer = s.consumer → FlushCount.record s count label s' = count := by
    intro same
    rw [FlushCount.record, same]
    cases s.consumer <;> rfl
  rcases step_cases stepped with
    ⟨tid, data, rfl, _, rfl⟩ | ⟨tid, spurious, logger, pc, rfl, move, s'Eq⟩ |
      ⟨rfl, start, rfl⟩ | ⟨spurious, logger, pc, rfl, move, s'Eq⟩
  · rw [keeps rfl]
    exact ⟨flushable.ordered, flushable.counted, flushable.active, flushable.consuming,
      flushable.between⟩
  · cases tid
    rw [keeps (by rw [s'Eq]; exact recordPush_consumer s ())]
    exact flushable.push accounts exclusive move s'Eq
  · have same : FlushCount.record s count .invokeConsume { s with consumer := .load } = count := by
      simp only [FlushCount.record, start]
    obtain ⟨ordered, counted, active, consuming, between⟩ := flushable
    rw [same]
    exact ⟨ordered, counted, active, by simp [ConsumePc.section?],
      fun _ => between (by rw [start]; rfl)⟩
  · exact flushable.consume accounts exclusive move s'Eq

/-- The machine of one producer and one consumer, with the counts. -/
abbrev counted (bufSize : Nat) : Machine (LogState Unit × FlushCount) (LogLabel Unit) :=
  (machine Unit bufSize).withGhost FlushCount.start FlushCount.record

theorem flushable_of_reach (reached : (counted bufSize).Reachable (s, count)) :
    s.Exclusive ∧ (∃ groups old cur, s.Accounts groups old cur) ∧ s.Flushable count := by
  have guarded : (counted bufSize).Reach (Machine.Guard.onState fun _ _ _ => True) (s, count) :=
    reached
  have fresh := single_thread_fresh guarded.forget
  refine ⟨exclusive_of_reach fresh, accounts_of_reach fresh, ?_⟩
  suffices all : s.LoadedQuiet ∧ (∃ groups old cur, s.Accounts groups old cur) ∧
      s.Flushable count from all.2.2
  apply guarded.ghost_invariant fun s count =>
    s.LoadedQuiet ∧ (∃ groups old cur, s.Accounts groups old cur) ∧ s.Flushable count
  · intro s start
    refine ⟨loadedQuiet_initial start, ⟨[], [], [], accounts_initial start⟩, ?_⟩
    have active := (accounts_initial start).active
    obtain ⟨_, _, _, rfl⟩ := start
    exact ⟨Nat.le_refl _, Nat.le_refl _, active, by simp [ConsumePc.section?], fun _ => rfl⟩
  · rintro s count label s' ⟨quiet, ⟨groups, old, cur, accounts⟩, flushable⟩ stepped _
    exact ⟨quiet.step stepped, accounts.step quiet.exclusive stepped,
      flushable.step accounts quiet.exclusive stepped⟩

/-! ### The dump -/

/-- The dump is the written part of the first buffer, then that of the second. -/
theorem panicFlush_flatten (self : Logger) :
    self.panicFlush.flatten = self.slice 0 (self.offsets 0) ++ self.slice 1 (self.offsets 1) := by
  have each : ∀ idx, ((if self.offsets idx > 0 then some (self.slice idx (self.offsets idx))
      else none).toList).flatten = self.slice idx (self.offsets idx) := by
    intro idx
    split
    · simp
    · rename_i empty
      rw [Nat.eq_zero_of_not_pos empty]
      rfl
  rw [Logger.panicFlush, List.filterMap_eq_flatMap_toList]
  simp only [List.flatMap_cons, List.flatMap_nil, List.append_nil, List.flatten_append, each]

/-- The unreset bytes are those being consumed, then the active ones. -/
theorem Flushable.unreset_eq (flushable : s.Flushable count) :
    s.unreset count =
      bytes ((s.accepted.take count.swapped).drop count.reset) ++ s.activePending := by
  have before : count.reset ≤ (s.accepted.take count.swapped).length := by
    rw [List.length_take, Nat.min_eq_left flushable.counted]
    exact flushable.ordered
  rw [unreset, flushable.active, ← bytes_append, ← List.drop_append_of_le_length before,
    List.take_append_drop]

/-- One producer and one consumer, in every state of every interleaving.  The slices a panic dump
passes to its callback are the accepted bytes that were not reset, in order, exactly if the consumer
is not working on the second buffer, or the two buffers read the same in either order. -/
theorem panicFlush_iff (reached : (counted bufSize).Reachable (s, count)) :
    s.logger.panicFlush.flatten = s.unreset count ↔
      (s.consumer.section? = some 1 →
        s.logger.slice 0 (s.logger.offsets 0) ++ s.logger.slice 1 (s.logger.offsets 1) =
          s.logger.slice 1 (s.logger.offsets 1) ++ s.logger.slice 0 (s.logger.offsets 0)) := by
  obtain ⟨exclusive, ⟨groups, old, cur, accounts⟩, flushable⟩ := flushable_of_reach reached
  have consuming := flushable.consuming
  have consumed := exclusive.consumed
  have active : s.logger.activeIdx = 0 ∨ s.logger.activeIdx = 1 := by omega
  rw [panicFlush_flatten, flushable.unreset_eq, activePending]
  cases working : s.consumer.section? with
  | none =>
      have noneSwapped : (s.accepted.take count.swapped).drop count.reset = [] := by
        rw [flushable.between working, List.drop_eq_nil_iff, List.length_take]
        exact Nat.min_le_left _ _
      have inactive := accounts.inactive_empty working
      apply iff_of_true _ (by simp)
      rcases active with active | active
      · have empty := inactive 1 (by rw [active]; decide)
        rw [noneSwapped, active, empty]
        exact List.append_nil _
      · have empty := inactive 0 (by rw [active]; decide)
        rw [noneSwapped, active, empty]
        rfl
  | some idx =>
      have other := consumed idx working
      rw [← consuming idx working]
      rcases active with active | active
      · obtain rfl : idx = 1 := by omega
        rw [active]
        simp
      · obtain rfl : idx = 0 := by omega
        rw [active]
        simp

theorem counted_initial : (counted 4096).initial (zeroed Unit, FlushCount.start (zeroed Unit)) :=
  ⟨zeroed_initial Unit, rfl⟩

/-- The consumer has swapped the first buffer out when a newer message reaches the second: the dump
is in order. -/
theorem panicFlush_iff_swapped :
    ∃ (s : LogState Unit) (count : FlushCount), s.consumer.section? = some 0 ∧
      s.unreset count = [1, 2] ∧ s.logger.panicFlush.flatten = s.unreset count := by
  obtain ⟨⟨s, count⟩, reached, ends⟩ := Machine.exists_reachable_of_run counted_initial
    (quietPush () [1] ++ [.invokeConsume, .consume false, .consume false] ++ quietPush () [2])
    (fun p => p.1.consumer.section? == some 0 && p.1.unreset p.2 == [1, 2]) rfl
  simp only [Bool.and_eq_true, beq_iff_eq] at ends
  refine ⟨s, count, ends.1, ends.2, (panicFlush_iff reached).mpr fun second => ?_⟩
  rw [ends.1] at second
  cases second

/-- The consumer has swapped the second buffer out when a newer message reaches the first: the dump
shows the newer one before the older one. -/
theorem panicFlush_newer_first :
    ∃ (s : LogState Unit) (count : FlushCount), (counted 4096).Reachable (s, count) ∧
      s.producers () = .idle ∧ s.logger.panicFlush.flatten = [2, 1] ∧
        s.unreset count = [1, 2] := by
  obtain ⟨⟨s, count⟩, reached, ends⟩ := Machine.exists_reachable_of_run counted_initial
    (.invokeConsume :: List.replicate 4 (.consume false) ++ quietPush () [1] ++
      [.invokeConsume, .consume false, .consume false] ++ quietPush () [2])
    (fun p => p.1.logger.panicFlush.flatten == [2, 1] && p.1.unreset p.2 == [1, 2] &&
      (p.1.producers ()).data? == none) rfl
  simp only [Bool.and_eq_true, beq_iff_eq] at ends
  obtain ⟨⟨dumped, accepted⟩, idle⟩ := ends
  exact ⟨s, count, reached, PushPc.eq_idle idle, dumped, accepted⟩

end LogState

end Hoarder
