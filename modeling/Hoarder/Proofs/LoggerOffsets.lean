/-
Module: Hoarder.Proofs.LoggerOffsets
Purpose: The offsets of the logger under any number of pushing threads.  A push that has passed its
  check holds a reservation until its `fetch_add`; the offsets stay inside the buffers as long as
  every check counts the reservations of the other threads, and a check that does not can be followed
  to an offset beyond its buffer.
Trusted boundary: none
Main exports: PushPc.pending, LogState.countsPending, LogState.Bounded, LogState.Bounded.step,
  LogState.InBounds, LogState.offsets_in_bounds
-/
import Hoarder.Foundation.Reservation
import Hoarder.Proofs.LoggerExclusion

namespace Hoarder

open Foundation Foundation.Reservation

/-- The bytes by which a thread that has passed its check will advance the offset of a buffer. -/
def PushPc.pending (self : PushPc) (buffer : Fin 2) : Nat :=
  match self with
  | .copy data active _ | .fetchAdd data active _ => if active = buffer then data.length else 0
  | _ => 0

/-- A copy writes into an allocation and leaves its size alone. -/
theorem Logger.copyFromSlice_totalSize (self : Logger) (active : Fin 2) (offset : Nat)
    (data : List UInt8) (buffer : Fin 2) :
    ((self.copyFromSlice active offset data).bufs buffer).totalSize =
      (self.bufs buffer).totalSize := by
  rcases eq_or_ne buffer active with rfl | different
  · simp [Logger.copyFromSlice]
  · simp [Logger.copyFromSlice, Function.update_of_ne different]

namespace LogState

variable {Tid : Type} {s s' : LogState Tid}

/-- The bytes reserved by each thread on a buffer. -/
def reserved (s : LogState Tid) (buffer : Fin 2) (tid : Tid) : Nat :=
  (s.producers tid).pending buffer

/-- The condition on one step that a push passes its check only if its data also fits behind the
data of any other threads that have passed the check on this buffer and not advanced the offset. -/
def countsPending : Machine.Guard (LogState Tid) (LogLabel Tid) := fun s label _ =>
  ∀ tid spurious data active, label = .push tid spurious →
    s.producers tid = .loadOffset data active →
    s.logger.offsets active + data.length ≤ s.bufSize →
      ∀ others : Finset Tid, tid ∉ others →
        s.logger.offsets active + data.length + ∑ other ∈ others, s.reserved active other ≤ s.bufSize

/-- The offsets and the reservations are within the buffers, and so are the slices handed out. -/
structure Bounded (s : LogState Tid) : Prop where
  small : s.bufSize < usizeRange
  within : ∀ buffer, Within s.bufSize (s.logger.offsets buffer) (s.reserved buffer)
  allocated : ∀ buffer, (s.logger.bufs buffer).totalSize = s.bufSize
  callback : ∀ active offset, s.consumer = .callback active offset → offset ≤ s.bufSize
  delivered : ∀ slice ∈ s.delivered, slice.length ≤ s.bufSize

variable [DecidableEq Tid]

theorem reserved_update (tid : Tid) (pc : PushPc) (buffer : Fin 2) :
    (fun other => (Function.update s.producers tid pc other).pending buffer) =
      Function.update (s.reserved buffer) tid (pc.pending buffer) :=
  funext fun other =>
    Function.apply_update (fun _ pc => pc.pending buffer) s.producers tid pc other

/-- One operation of `push` keeps the offsets and reservations within the buffers, if its check
counts the other reservations. -/
theorem Bounded.push_within {tid : Tid} {spurious : Bool} {logger : Logger} {pc : PushPc}
    (bounded : s.Bounded) (move : PushMove s.logger s.bufSize spurious (s.producers tid) logger pc)
    (counts : countsPending s (.push tid spurious) s') (buffer : Fin 2) :
    Within s.bufSize (logger.offsets buffer)
        (Function.update (s.reserved buffer) tid (pc.pending buffer)) ∧
      (logger.bufs buffer).totalSize = (s.logger.bufs buffer).totalSize := by
  have within := bounded.within buffer
  generalize start : s.producers tid = before at move
  -- All moves but the check and the addition leave both sums alone.
  have quietly : logger.offsets buffer = s.logger.offsets buffer →
      pc.pending buffer = before.pending buffer →
      Within s.bufSize (logger.offsets buffer)
        (Function.update (s.reserved buffer) tid (pc.pending buffer)) := by
    intro sameOffset samePending
    have same : pc.pending buffer = s.reserved buffer tid := by
      rw [samePending, reserved, start]
    rw [sameOffset, same, Function.update_eq_self]
    exact within
  cases move with
  | load data => exact ⟨quietly rfl rfl, rfl⟩
  | exchange data agrees => exact ⟨quietly rfl rfl, rfl⟩
  | retry data currState failed => exact ⟨quietly rfl rfl, rfl⟩
  | refuse data active full => exact ⟨quietly rfl rfl, rfl⟩
  | fetchAnd data active result => exact ⟨quietly rfl rfl, rfl⟩
  | copy data active offset =>
      exact ⟨quietly rfl rfl, s.logger.copyFromSlice_totalSize active offset data buffer⟩
  | accept data active representable fits =>
      refine ⟨?_, rfl⟩
      rcases eq_or_ne active buffer with rfl | different
      · have amount : (PushPc.copy data active (s.logger.offsets active)).pending active =
            data.length := if_pos rfl
        rw [amount]
        exact within.reserve (counts tid spurious data active rfl start fits)
      · exact quietly rfl (if_neg different)
  | fetchAdd data active offset =>
      refine ⟨?_, rfl⟩
      rcases eq_or_ne active buffer with rfl | different
      · have amount : s.reserved active tid = data.length := by
          rw [reserved, start]
          exact if_pos rfl
        have fits := within.single_le tid
        rw [amount] at fits
        have added : Function.update s.logger.offsets active
            ((s.logger.offsets active + data.length) % usizeRange) active =
              s.logger.offsets active + s.reserved active tid := by
          -- Within the buffer the offset does not wrap.
          rw [Function.update_self, amount]
          exact Nat.mod_eq_of_lt (Nat.lt_of_le_of_lt fits bounded.small)
        have committed := within.commit tid
        rw [← added] at committed
        exact committed
      · exact quietly (Function.update_of_ne different.symm _ _) (if_neg different).symm

omit [DecidableEq Tid] in
/-- One operation of `consume` only sets offsets back, and takes the slice it hands out from the
offset it finds. -/
theorem Bounded.consume_offsets {spurious : Bool} {logger : Logger} {pc : ConsumePc}
    (bounded : s.Bounded) (move : ConsumeMove s.logger spurious s.consumer logger pc) :
    (∀ buffer, logger.offsets buffer ≤ s.logger.offsets buffer) ∧ logger.bufs = s.logger.bufs ∧
      ∀ active offset, pc = .callback active offset → offset ≤ s.bufSize := by
  generalize s.consumer = before at move
  cases move with
  | found active some =>
      refine ⟨fun _ => Nat.le_refl _, rfl, ?_⟩
      rintro active' offset same
      cases same
      exact (bounded.within active).used_le
  | reset active =>
      refine ⟨fun buffer => ?_, rfl, by simp⟩
      rcases eq_or_ne buffer active with rfl | different
      · simp
      · simp [Function.update_of_ne different]
  | spin | load | exchange | retry | empty | callback =>
      exact ⟨fun _ => Nat.le_refl _, rfl, by simp⟩

omit [DecidableEq Tid] in
theorem recordPush_fields (s : LogState Tid) (tid : Tid) :
    (s.recordPush tid).bufSize = s.bufSize ∧ (s.recordPush tid).consumer = s.consumer ∧
      (s.recordPush tid).delivered = s.delivered := by
  unfold recordPush
  split <;> exact ⟨rfl, rfl, rfl⟩

omit [DecidableEq Tid] in
/-- The slice a callback reads is as long as the offset says. -/
theorem Bounded.recordConsume (bounded : s.Bounded) :
    s.recordConsume.bufSize = s.bufSize ∧ s.recordConsume.producers = s.producers ∧
      ∀ slice ∈ s.recordConsume.delivered, slice.length ≤ s.bufSize := by
  unfold LogState.recordConsume
  split
  · rename_i active offset atCallback
    refine ⟨rfl, rfl, fun slice member => ?_⟩
    rcases List.mem_append.mp member with before | new
    · exact bounded.delivered slice before
    · obtain rfl := List.mem_singleton.mp new
      rw [Logger.slice, Memory.read_length]
      exact bounded.callback active offset atCallback
  · exact ⟨rfl, rfl, bounded.delivered⟩

/-- A step whose check counts the other reservations keeps everything within the buffers. -/
theorem Bounded.step {label : LogLabel Tid} (bounded : s.Bounded)
    (stepped : s.step label = some s') (counts : countsPending s label s') :
    s'.Bounded ∧ s'.bufSize = s.bufSize := by
  rcases step_cases stepped with
    ⟨tid, data, rfl, start, rfl⟩ | ⟨tid, spurious, logger, pc, rfl, move, rfl⟩ |
      ⟨rfl, start, rfl⟩ | ⟨spurious, logger, pc, rfl, move, rfl⟩
  · refine ⟨{ bounded with within := fun buffer => ?_ }, rfl⟩
    have idle : (PushPc.load data).pending buffer = s.reserved buffer tid := by
      rw [reserved, start]
      rfl
    have same := reserved_update (s := s) tid (.load data) buffer
    rw [idle, Function.update_eq_self] at same
    unfold reserved
    rw [same]
    exact bounded.within buffer
  · obtain ⟨bufSize, consumer, delivered⟩ := recordPush_fields s tid
    refine ⟨⟨?_, fun buffer => ?_, fun buffer => ?_, ?_, ?_⟩, bufSize⟩
    · exact bufSize ▸ bounded.small
    · have within := (bounded.push_within move counts buffer).1
      rw [← reserved_update tid pc buffer] at within
      exact bufSize ▸ within
    · have kept := (bounded.push_within move counts buffer).2
      exact kept.trans ((bounded.allocated buffer).trans bufSize.symm)
    · simp only [consumer, bufSize]
      exact bounded.callback
    · simp only [delivered, bufSize]
      exact bounded.delivered
  · exact ⟨{ bounded with callback := by simp }, rfl⟩
  · obtain ⟨bufSize, producers, delivered⟩ := bounded.recordConsume
    obtain ⟨less, bufs, callback⟩ := bounded.consume_offsets move
    refine ⟨⟨?_, fun buffer => ?_, fun buffer => ?_, ?_, ?_⟩, bufSize⟩
    · exact bufSize ▸ bounded.small
    · simp only [bufSize]
      apply (bounded.within buffer).mono (less buffer)
      intro tid
      simp only [reserved, producers, Nat.le_refl]
    · simp only [bufs, bufSize]
      exact bounded.allocated buffer
    · simp only [bufSize]
      exact callback
    · simp only [bufSize]
      exact delivered

theorem bounded_initial {bufSize : Nat} (start : (machine Tid bufSize).initial s) :
    s.Bounded ∧ s.bufSize = bufSize := by
  obtain ⟨raw, logger, made, rfl⟩ := start
  obtain ⟨small, offsets, _, allocated⟩ := Logger.new_fields made
  refine ⟨⟨small, ?_, allocated, by simp, by simp⟩, rfl⟩
  intro buffer honoured
  simp [offsets, reserved, PushPc.pending]

theorem bounded_of_reach {bufSize : Nat} (reached : (machine Tid bufSize).Reach countsPending s) :
    s.Bounded ∧ s.bufSize = bufSize := by
  apply reached.invariant (fun s => s.Bounded ∧ s.bufSize = bufSize)
  · exact fun _ => bounded_initial
  · rintro s label s' ⟨bounded, size⟩ stepped counts
    obtain ⟨bounded', sameSize⟩ := bounded.step stepped counts
    exact ⟨bounded', sameSize.trans size⟩

/-- Both offsets are inside their buffers, and so is every slice that `consume` is about to pass to
its callback, that it has passed, and that `panic_flush` would pass now. -/
structure InBounds (s : LogState Tid) : Prop where
  allocated : ∀ buffer, (s.logger.bufs buffer).totalSize = s.bufSize
  offsets : ∀ buffer, s.logger.offsets buffer ≤ s.bufSize
  callback : ∀ active offset, s.consumer = .callback active offset →
    offset ≤ (s.logger.bufs active).totalSize
  delivered : ∀ slice ∈ s.delivered, slice.length ≤ s.bufSize
  panicFlush : ∀ slice ∈ s.logger.panicFlush, slice.length ≤ s.bufSize

omit [DecidableEq Tid] in
theorem Bounded.inBounds (bounded : s.Bounded) : s.InBounds where
  allocated := bounded.allocated
  offsets buffer := (bounded.within buffer).used_le
  callback active offset atCallback := by
    rw [bounded.allocated]
    exact bounded.callback active offset atCallback
  delivered := bounded.delivered
  panicFlush slice member := by
    obtain ⟨buffer, _, flushed⟩ := List.mem_filterMap.mp member
    split at flushed <;> cases flushed
    rw [Logger.slice, Memory.read_length]
    exact (bounded.within buffer).used_le

/-! ### A check that does not count the others -/

/-- An addition adds what the thread has reserved, and no other reservation changes. -/
theorem step_fetchAdd {tid : Tid} {data : List UInt8} {active : Fin 2} {offset : Nat}
    (start : s.producers tid = .fetchAdd data active offset) :
    ∃ s', s.step (.push tid false) = some s' ∧ s'.bufSize = s.bufSize ∧
      s'.logger.offsets active = (s.logger.offsets active + data.length) % usizeRange ∧
      s'.reserved active = Function.update (s.reserved active) tid 0 := by
  let added : LogState Tid :=
    { s.recordPush tid with
      logger :=
        { s.logger with
          offsets := Function.update s.logger.offsets active
            ((s.logger.offsets active + data.length) % usizeRange) }
      producers := Function.update s.producers tid (.fetchAnd data active (.ok ())) }
  have stepped : s.step (.push tid false) = some added := by
    simp only [step, start, Logger.pushStep, added]
  refine ⟨added, stepped, (recordPush_fields s tid).1, Function.update_self .., ?_⟩
  exact reserved_update tid (.fetchAnd data active (.ok ())) active

/-- A copy leaves the offsets and the reservations alone. -/
theorem step_copy {tid : Tid} {data : List UInt8} {active : Fin 2} {offset : Nat}
    (start : s.producers tid = .copy data active offset) :
    ∃ s', s.step (.push tid false) = some s' ∧ s'.bufSize = s.bufSize ∧
      s'.logger.offsets = s.logger.offsets ∧ s'.reserved = s.reserved ∧
      s'.producers tid = .fetchAdd data active offset := by
  let copied : LogState Tid :=
    { s.recordPush tid with
      logger := s.logger.copyFromSlice active offset data
      producers := Function.update s.producers tid (.fetchAdd data active offset) }
  have stepped : s.step (.push tid false) = some copied := by
    simp only [step, start, Logger.pushStep, copied]
  refine ⟨copied, stepped, (recordPush_fields s tid).1, rfl, ?_, Function.update_self ..⟩
  funext buffer
  have same : (PushPc.fetchAdd data active offset).pending buffer = s.reserved buffer tid := by
    rw [reserved, start]
    rfl
  exact (reserved_update tid _ buffer).trans (by rw [same, Function.update_eq_self])

/-- A thread that has passed its check can go on to add what it has reserved. -/
theorem leads_commit (bufSize : Nat) {tid : Tid} {active : Fin 2}
    (some : s.reserved active tid ≠ 0) :
    ∃ s', (machine Tid bufSize).Leads s s' ∧ s'.bufSize = s.bufSize ∧
      s'.logger.offsets active =
        (s.logger.offsets active + s.reserved active tid) % usizeRange ∧
      s'.reserved active = Function.update (s.reserved active) tid 0 := by
  have ofActive : ∀ {buffer : Fin 2} {data : List UInt8},
      s.reserved active tid = (if buffer = active then data.length else 0) →
        buffer = active ∧ s.reserved active tid = data.length := by
    intro buffer data amount
    split at amount
    · rename_i same
      exact ⟨same, amount⟩
    · exact absurd amount some
  cases start : s.producers tid with
  | fetchAdd data buffer offset =>
      obtain ⟨rfl, amount⟩ := ofActive (by rw [reserved, start]; rfl)
      obtain ⟨s', stepped, size, added, rest⟩ := step_fetchAdd start
      rw [amount]
      exact ⟨s', .single ⟨.push tid false, stepped⟩, size, added, rest⟩
  | copy data buffer offset =>
      obtain ⟨rfl, amount⟩ := ofActive (by rw [reserved, start]; rfl)
      obtain ⟨copied, copiedStep, copiedSize, offsets, reservations, start'⟩ := step_copy start
      obtain ⟨s', stepped, size, added, rest⟩ := step_fetchAdd start'
      rw [offsets] at added
      rw [reservations] at rest
      rw [amount]
      exact ⟨s', .tail (.single ⟨.push tid false, copiedStep⟩) ⟨.push tid false, stepped⟩,
        size.trans copiedSize, added, rest⟩
  | idle | load | compareExchange | loadOffset | fetchAnd =>
      rw [reserved, start] at some
      exact absurd rfl some

/-- When the reservations of some threads do not fit behind an offset that is inside its buffer,
those threads can go on until it is outside. -/
theorem leads_overflow (bufSize : Nat) {active : Fin 2} (layout : s.bufSize ≤ isizeMax)
    (inside : s.logger.offsets active ≤ s.bufSize)
    (each : ∀ tid, s.reserved active tid ≤ s.bufSize) (others : Finset Tid)
    (exceeds : s.bufSize < s.logger.offsets active + ∑ other ∈ others, s.reserved active other) :
    ∃ s', (machine Tid bufSize).Leads s s' ∧ s'.bufSize = s.bufSize ∧
      s'.bufSize < s'.logger.offsets active := by
  induction others using Finset.induction_on generalizing s with
  | empty =>
      rw [Finset.sum_empty, Nat.add_zero] at exceeds
      exact absurd inside (Nat.not_le.mpr exceeds)
  | insert tid others other inductionHypothesis =>
      rw [Finset.sum_insert other] at exceeds
      by_cases some : s.reserved active tid = 0
      · rw [some, Nat.zero_add] at exceeds
        exact inductionHypothesis layout inside each exceeds
      obtain ⟨added, leads, size, offsets, rest⟩ := leads_commit bufSize some
      -- No sum of an offset and a length wraps, since a layout is at most `isize::MAX` bytes.
      have wraps : s.logger.offsets active + s.reserved active tid < usizeRange := by
        have := each tid
        unfold isizeMax at layout
        unfold usizeRange
        omega
      rw [Nat.mod_eq_of_lt wraps] at offsets
      by_cases outside : added.bufSize < added.logger.offsets active
      · exact ⟨added, leads, size, outside⟩
      have sameSum : ∑ second ∈ others, added.reserved active second =
          ∑ second ∈ others, s.reserved active second := by
        rw [rest, Finset.sum_update_of_notMem other]
      obtain ⟨s', leads', size', outside'⟩ := inductionHypothesis (s := added) (size ▸ layout)
        (Nat.le_of_not_lt outside)
        (fun second => by
          rw [rest, size]
          rcases eq_or_ne second tid with rfl | different
          · simp
          · rw [Function.update_of_ne different]
            exact each second)
        (by rw [sameSum, offsets, size]; omega)
      exact ⟨s', leads.trans leads', size'.trans size, outside'⟩

/-- A check that is passed reserves the length of the data. -/
theorem step_accept {tid : Tid} {spurious : Bool} {data : List UInt8} {active : Fin 2}
    (small : s.bufSize < usizeRange) (start : s.producers tid = .loadOffset data active)
    (fits : s.logger.offsets active + data.length ≤ s.bufSize)
    (stepped : s.step (.push tid spurious) = some s') :
    s'.bufSize = s.bufSize ∧ s'.logger.offsets = s.logger.offsets ∧
      s'.reserved active = Function.update (s.reserved active) tid data.length := by
  have representable := Nat.lt_of_le_of_lt fits small
  obtain rfl : s' =
      { s with
        producers := Function.update s.producers tid
          (.copy data active (s.logger.offsets active)) } := by
    simpa [step, start, Logger.pushStep, recordPush, checkedAdd, representable,
      Nat.not_lt.mpr fits] using stepped.symm
  have amount : (PushPc.copy data active (s.logger.offsets active)).pending active =
      data.length := if_pos rfl
  refine ⟨rfl, rfl, ?_⟩
  rw [← amount]
  exact reserved_update tid _ active

/-- A check that does not count the other reservations can be followed to an offset outside its
buffer. -/
theorem Bounded.leads_of_unmet {bufSize : Nat} {label : LogLabel Tid} (bounded : s.Bounded)
    (size : s.bufSize = bufSize) (layout : bufSize ≤ isizeMax) (stepped : s.step label = some s')
    (unmet : ¬ countsPending s label s') :
    ∃ s'', (machine Tid bufSize).Leads s' s'' ∧ ¬ s''.InBounds := by
  simp only [countsPending, not_forall, not_le] at unmet
  obtain ⟨tid, spurious, data, active, rfl, start, fits, others, other, exceeds⟩ := unmet
  obtain ⟨size', offsets', reserved'⟩ := step_accept bounded.small start fits stepped
  rw [size] at size'
  obtain ⟨s'', leads, same, outside⟩ := leads_overflow (s := s') bufSize (size' ▸ layout)
    (by rw [offsets', size', ← size]; exact (bounded.within active).used_le)
    (fun second => by
      rw [reserved', size', ← size]
      rcases eq_or_ne second tid with rfl | different
      · rw [Function.update_self]
        omega
      · have := (bounded.within active).single_le second
        rw [Function.update_of_ne different]
        omega)
    (insert tid others)
    (by
      rw [Finset.sum_insert other, reserved', Function.update_self,
        Finset.sum_update_of_notMem other, offsets', size', ← size, ← Nat.add_assoc]
      exact exceeds)
  refine ⟨s'', leads, fun inBounds => ?_⟩
  exact absurd (inBounds.offsets active) (Nat.not_le.mpr outside)

/-- Any number of pushing threads and one consumer, along every run in which each check counts what
the other threads have reserved: both offsets and all slices are inside the buffers.  A step whose
check does not count them can be followed to a state in which they are not. -/
theorem offsets_in_bounds {bufSize : Nat}
    (reached : (machine Tid bufSize).Reach countsPending s) :
    s.InBounds ∧ s.bufSize = bufSize ∧
      ∀ label s', s.step label = some s' → ¬ countsPending s label s' → bufSize ≤ isizeMax →
        ∃ s'', (machine Tid bufSize).Leads s' s'' ∧ ¬ s''.InBounds := by
  obtain ⟨bounded, size⟩ := bounded_of_reach reached
  exact ⟨bounded.inBounds, size, fun _ _ stepped unmet layout =>
    bounded.leads_of_unmet size layout stepped unmet⟩

/-- The condition on a check, as a test of a state and a label. -/
def isCounted [Fintype Tid] (s : LogState Tid) : LogLabel Tid → Bool
  | .push tid _ =>
      match s.producers tid with
      | .loadOffset data active =>
          s.logger.offsets active + data.length > s.bufSize ||
            s.logger.offsets active + data.length +
              ∑ other ∈ Finset.univ.erase tid, s.reserved active other ≤ s.bufSize
      | _ => true
  | _ => true

theorem isCounted_sound [Fintype Tid] {label : LogLabel Tid} (passed : s.isCounted label = true) :
    countsPending s label s' := by
  rintro tid spurious data active rfl start fits others other
  have counted : s.logger.offsets active + data.length +
      ∑ other ∈ Finset.univ.erase tid, s.reserved active other ≤ s.bufSize := by
    simpa [isCounted, start, Nat.not_lt.mpr fits] using passed
  have fewer : ∑ other ∈ others, s.reserved active other ≤
      ∑ other ∈ Finset.univ.erase tid, s.reserved active other := by
    apply Finset.sum_le_sum_of_subset
    intro second member
    exact Finset.mem_erase.mpr ⟨fun same => other (same ▸ member), Finset.mem_univ second⟩
  omega

/-- The second producer passes its check while the first has not advanced the offset, and both fit. -/
theorem offsets_in_bounds_overlapping :
    ∃ s : LogState Bool, s.logger.offsets 0 = 2 ∧ s.InBounds := by
  obtain ⟨s, reached, ends⟩ := Machine.exists_reach_of_run (fun s label _ => isCounted s label)
    (fun _ _ _ passed => isCounted_sound passed) (zeroed_initial Bool)
    (.invokePush false [1] :: .invokePush true [2] :: List.replicate 4 (.push false false) ++
      List.replicate 6 (.push true false) ++ List.replicate 2 (.push false false))
    (fun s => s.logger.offsets 0 == 2) (by decide +kernel)
  exact ⟨s, by simpa using ends, (offsets_in_bounds reached).1⟩

/-- Two producers fill the same buffer: the second passes its check before the first has advanced
the offset, and both add the length of a whole buffer. -/
theorem offsets_overflow :
    ∃ s : LogState Bool, (machine Bool 0x1000).Reachable s ∧ s.bufSize = 0x1000 ∧
      s.logger.offsets 0 = 0x2000 ∧ ¬ s.InBounds := by
  obtain ⟨s, reached, ends⟩ := Machine.exists_reachable_of_run (zeroed_initial Bool)
    (.invokePush false (List.replicate 0x1000 1) :: .invokePush true (List.replicate 0x1000 2) ::
      List.replicate 4 (.push false false) ++ List.replicate 6 (.push true false) ++
        List.replicate 2 (.push false false))
    (fun s => s.bufSize == 0x1000 && s.logger.offsets 0 == 0x2000) (by decide +kernel)
  simp only [Bool.and_eq_true, beq_iff_eq] at ends
  refine ⟨s, reached, ends.1, ends.2, fun inBounds => ?_⟩
  have := inBounds.offsets 0
  omega

end LogState

end Hoarder
