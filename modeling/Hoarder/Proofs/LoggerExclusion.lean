/-
Module: Hoarder.Proofs.LoggerExclusion
Purpose: Mutual exclusion in the logger.  `PushMove` and `ConsumeMove` list what one operation can
  do; `Exclusive` is the invariant on the state word, the pushing threads and the consumer.  It
  survives every step in which no push exchanges a word that already carries `WRITER_BIT`, and with
  one pushing thread there is no other step.
Trusted boundary: none
Main exports: PushMove, ConsumeMove, LogState.Exclusive, LogState.freshExchange,
  LogState.exclusive_of_reach, LogState.single_thread_fresh, LogState.exclusion
-/
import Hoarder.Core.Logger
import Hoarder.Foundation.Outcome

namespace Hoarder

open Foundation

/-- What one operation of `push` does, by the program counter it starts from. -/
inductive PushMove (self : Logger) (bufSize : Nat) (spurious : Bool) :
    PushPc → Logger → PushPc → Prop where
  | load (data : List UInt8) :
      PushMove self bufSize spurious (.load data) self (.compareExchange data self.state)
  | exchange (data : List UInt8) (agrees : spurious = false) :
      PushMove self bufSize spurious (.compareExchange data self.state)
        { self with state := writerBit ||| (self.state &&& indexMask) }
        (.loadOffset data (bufIndex (self.state &&& indexMask)))
  | retry (data : List UInt8) (currState : UInt16)
      (failed : ¬ (self.state = currState ∧ spurious = false)) :
      PushMove self bufSize spurious (.compareExchange data currState) self (.load data)
  | refuse (data : List UInt8) (active : Fin 2)
      (full : usizeRange ≤ self.offsets active + data.length ∨
        bufSize < self.offsets active + data.length) :
      PushMove self bufSize spurious (.loadOffset data active) self
        (.fetchAnd data active (.error .pushError))
  | accept (data : List UInt8) (active : Fin 2)
      (representable : self.offsets active + data.length < usizeRange)
      (fits : self.offsets active + data.length ≤ bufSize) :
      PushMove self bufSize spurious (.loadOffset data active) self
        (.copy data active (self.offsets active))
  | copy (data : List UInt8) (active : Fin 2) (offset : Nat) :
      PushMove self bufSize spurious (.copy data active offset)
        (self.copyFromSlice active offset data) (.fetchAdd data active offset)
  | fetchAdd (data : List UInt8) (active : Fin 2) (offset : Nat) :
      PushMove self bufSize spurious (.fetchAdd data active offset)
        { self with
          offsets := Function.update self.offsets active
            ((self.offsets active + data.length) % usizeRange) }
        (.fetchAnd data active (.ok ()))
  | fetchAnd (data : List UInt8) (active : Fin 2) (result : Result Unit) :
      PushMove self bufSize spurious (.fetchAnd data active result)
        { self with state := self.state &&& ~~~writerBit } .idle

/-- What one operation of `consume` does, by the program counter it starts from. -/
inductive ConsumeMove (self : Logger) (spurious : Bool) :
    ConsumePc → Logger → ConsumePc → Prop where
  | spin (writing : self.state &&& writerBit ≠ 0) : ConsumeMove self spurious .load self .load
  | load (quiet : self.state &&& writerBit = 0) :
      ConsumeMove self spurious .load self (.compareExchange self.state)
  | exchange (agrees : spurious = false) :
      ConsumeMove self spurious (.compareExchange self.state)
        { self with state := indexMask &&& (1 - (self.state &&& indexMask)) }
        (.loadOffset (bufIndex (self.state &&& indexMask)))
  | retry (currState : UInt16) (failed : ¬ (self.state = currState ∧ spurious = false)) :
      ConsumeMove self spurious (.compareExchange currState) self .load
  | found (active : Fin 2) (some : 0 < self.offsets active) :
      ConsumeMove self spurious (.loadOffset active) self
        (.callback active (self.offsets active))
  | empty (active : Fin 2) (none : self.offsets active = 0) :
      ConsumeMove self spurious (.loadOffset active) self (.reset active)
  | callback (active : Fin 2) (offset : Nat) :
      ConsumeMove self spurious (.callback active offset) self (.reset active)
  | reset (active : Fin 2) :
      ConsumeMove self spurious (.reset active)
        { self with offsets := Function.update self.offsets active 0 } .idle

/-- The data of the push a thread is in. -/
def PushPc.data? : PushPc → Option (List UInt8)
  | .idle => none
  | .load data | .compareExchange data _ | .loadOffset data _ | .copy data _ _
  | .fetchAdd data _ _ | .fetchAnd data _ _ => some data

/-- A thread without data is in no push. -/
theorem PushPc.eq_idle {pc : PushPc} (none : pc.data? = .none) : pc = .idle := by
  cases pc with
  | idle => rfl
  | load | compareExchange | loadOffset | copy | fetchAdd | fetchAnd => cases none

/-- A push keeps its data until it returns. -/
theorem PushMove.data_kept {self logger : Logger} {bufSize : Nat} {spurious : Bool}
    {pc pc' : PushPc} (move : PushMove self bufSize spurious pc logger pc') :
    pc'.data? = pc.data? ∨ pc' = .idle := by
  cases move with
  | fetchAnd data active result => exact .inr rfl
  | load | exchange | retry | refuse | accept | copy | fetchAdd => exact .inl rfl

namespace Logger

variable {self next : Logger} {bufSize : Nat} {spurious : Bool}

theorem pushStep_move {pc pc' : PushPc}
    (stepped : self.pushStep bufSize spurious pc = some (next, pc')) :
    PushMove self bufSize spurious pc next pc' := by
  cases pc with
  | idle => cases stepped
  | load data => cases stepped; exact .load data
  | compareExchange data currState =>
      simp only [pushStep] at stepped
      split at stepped
      · rename_i agrees
        obtain ⟨rfl, agrees⟩ := agrees
        cases stepped
        exact .exchange data agrees
      · rename_i failed
        cases stepped
        exact .retry data currState failed
  | loadOffset data active =>
      simp only [pushStep, checkedAdd] at stepped
      by_cases representable : self.offsets active + data.length < usizeRange
      · by_cases fits : self.offsets active + data.length ≤ bufSize
        · simp [representable, Nat.not_lt.mpr fits] at stepped
          obtain ⟨rfl, rfl⟩ := stepped
          exact .accept data active representable fits
        · simp [representable, Nat.lt_of_not_le fits] at stepped
          obtain ⟨rfl, rfl⟩ := stepped
          exact .refuse data active (.inr (Nat.lt_of_not_le fits))
      · simp [representable] at stepped
        obtain ⟨rfl, rfl⟩ := stepped
        exact .refuse data active (.inl (Nat.le_of_not_lt representable))
  | copy data active offset => cases stepped; exact .copy data active offset
  | fetchAdd data active offset => cases stepped; exact .fetchAdd data active offset
  | fetchAnd data active result => cases stepped; exact .fetchAnd data active result

theorem consumeStep_move {pc pc' : ConsumePc}
    (stepped : self.consumeStep spurious pc = some (next, pc')) :
    ConsumeMove self spurious pc next pc' := by
  cases pc with
  | idle => cases stepped
  | load =>
      simp only [consumeStep] at stepped
      split at stepped
      · rename_i writing
        cases stepped
        exact .spin writing
      · rename_i quiet
        cases stepped
        exact .load (by simpa using quiet)
  | compareExchange currState =>
      simp only [consumeStep] at stepped
      split at stepped
      · rename_i agrees
        obtain ⟨rfl, agrees⟩ := agrees
        cases stepped
        exact .exchange agrees
      · rename_i failed
        cases stepped
        exact .retry currState failed
  | loadOffset active =>
      simp only [consumeStep] at stepped
      split at stepped
      · rename_i found
        cases stepped
        exact .found active found
      · rename_i empty
        cases stepped
        exact .empty active (by omega)
  | callback active offset => cases stepped; exact .callback active offset
  | reset active => cases stepped; exact .reset active

/-- A new logger: both offsets and the state word are zero, and a buffer fits a `usize`. -/
theorem new_fields {raw : Fin 2 → Option (Nat × (Nat → UInt8))}
    (made : Logger.new bufSize raw = .ok (.ok self)) :
    bufSize < usizeRange ∧ self.offsets = (fun _ => 0) ∧ self.state = 0 ∧
      ∀ buffer, (self.bufs buffer).totalSize = bufSize := by
  simp only [Logger.new] at made
  split at made
  · cases made
  · obtain ⟨answer, firstMade, made⟩ := Outcome.bind_eq_ok.mp made
    split at made
    · cases made
    rename_i first
    obtain ⟨answer, secondMade, made⟩ := Outcome.bind_eq_ok.mp made
    split at made <;> cases made
    obtain ⟨small, _, _, firstSize⟩ := AlignedBuffers.new_inv firstMade
    obtain ⟨_, _, _, secondSize⟩ := AlignedBuffers.new_inv secondMade
    rw [Nat.one_mul] at small firstSize secondSize
    exact ⟨small, rfl, rfl, Fin.forall_fin_two.mpr ⟨firstSize, secondSize⟩⟩

/-- The index of the active buffer. -/
def activeIdx (self : Logger) : Fin 2 := bufIndex (self.state &&& indexMask)

end Logger

/-! ### The state word -/

/-- The four values the state word takes. -/
def IsStateWord (word : UInt16) : Prop :=
  word = 0 ∨ word = 1 ∨ word = writerBit ∨ word = writerBit ||| 1

/-- The word a successful push exchange stores: the same index, with the writer bit. -/
theorem IsStateWord.claim {word : UInt16} (isWord : IsStateWord word) :
    IsStateWord (writerBit ||| (word &&& indexMask)) ∧
      (writerBit ||| (word &&& indexMask)) &&& writerBit ≠ 0 ∧
      bufIndex ((writerBit ||| (word &&& indexMask)) &&& indexMask) =
        bufIndex (word &&& indexMask) := by
  rcases isWord with rfl | rfl | rfl | rfl <;> unfold IsStateWord <;> decide

/-- The word `fetch_and` leaves: the same index, without the writer bit. -/
theorem IsStateWord.release {word : UInt16} (isWord : IsStateWord word) :
    IsStateWord (word &&& ~~~writerBit) ∧ (word &&& ~~~writerBit) &&& writerBit = 0 ∧
      bufIndex ((word &&& ~~~writerBit) &&& indexMask) = bufIndex (word &&& indexMask) := by
  rcases isWord with rfl | rfl | rfl | rfl <;> unfold IsStateWord <;> decide

/-- The word a successful consume exchange stores: the other index, without the writer bit. -/
theorem IsStateWord.swap {word : UInt16} (isWord : IsStateWord word) :
    IsStateWord (indexMask &&& (1 - (word &&& indexMask))) ∧
      (indexMask &&& (1 - (word &&& indexMask))) &&& writerBit = 0 ∧
      bufIndex (word &&& indexMask) ≠
        bufIndex ((indexMask &&& (1 - (word &&& indexMask))) &&& indexMask) := by
  rcases isWord with rfl | rfl | rfl | rfl <;> unfold IsStateWord <;> decide

namespace LogState

variable {Tid : Type} [DecidableEq Tid] {s s' : LogState Tid}

/-- The buffer each pushing thread is in its critical section on. -/
def sections (s : LogState Tid) (tid : Tid) : Option (Fin 2) := (s.producers tid).section?

/-- Mutual exclusion.  The word is one of the four; its writer bit says whether some thread is
between its compare-exchange and its `fetch_and`; there is at most one such thread, and it works on
the active buffer, while the consumer works on the other one. -/
structure Exclusive (s : LogState Tid) : Prop where
  word : IsStateWord s.logger.state
  writer : s.logger.state &&& writerBit ≠ 0 ↔ ∃ tid, (s.sections tid).isSome
  single : ∀ first second,
    (s.sections first).isSome → (s.sections second).isSome → first = second
  active : ∀ tid idx, s.sections tid = some idx → idx = s.logger.activeIdx
  consumed : ∀ idx, s.consumer.section? = some idx → idx ≠ s.logger.activeIdx
  quietExchange : ∀ currState, s.consumer = .compareExchange currState →
    currState &&& writerBit = 0

/-- The condition on one step that a push does not exchange a word that already carries
`WRITER_BIT`. -/
def freshExchange : Machine.Guard (LogState Tid) (LogLabel Tid) := fun s label _ =>
  ∀ tid data, label = .push tid false → s.producers tid = .compareExchange data s.logger.state →
    s.logger.state &&& writerBit = 0

/-- Which threads are in a critical section after one of them has moved. -/
theorem sections_update (tid : Tid) (pc : PushPc) :
    (fun other => (Function.update s.producers tid pc other).section?) =
      Function.update s.sections tid pc.section? := by
  funext other
  rcases eq_or_ne other tid with rfl | different
  · simp
  · simp [sections, Function.update_of_ne different]

omit [DecidableEq Tid] in
theorem recordPush_consumer (s : LogState Tid) (tid : Tid) :
    (s.recordPush tid).consumer = s.consumer := by
  unfold recordPush
  split <;> rfl

omit [DecidableEq Tid] in
theorem recordConsume_producers (s : LogState Tid) :
    s.recordConsume.producers = s.producers := by
  unfold recordConsume
  split <;> rfl

omit [DecidableEq Tid] in
/-- An operation of a push accepts the data of that push, or nothing. -/
theorem recordPush_accepted (s : LogState Tid) (tid : Tid) :
    (s.recordPush tid).accepted = s.accepted ∨
      ∃ data, (s.producers tid).data? = some data ∧
        (s.recordPush tid).accepted = s.accepted ++ [(tid, data)] := by
  cases start : s.producers tid with
  | fetchAdd data active offset =>
      refine .inr ⟨data, rfl, ?_⟩
      rw [recordPush, start]
  | idle | load | compareExchange | loadOffset | copy | fetchAnd =>
      left
      rw [recordPush, start]

omit [DecidableEq Tid] in
theorem recordConsume_accepted (s : LogState Tid) : s.recordConsume.accepted = s.accepted := by
  unfold recordConsume
  split <;> rfl

theorem step_invokePush {tid : Tid} {data : List UInt8}
    (stepped : s.step (.invokePush tid data) = some s') :
    s.producers tid = .idle ∧
      s' = { s with producers := Function.update s.producers tid (.load data) } := by
  simp only [step] at stepped
  split at stepped <;> cases stepped
  exact ⟨‹_›, rfl⟩

theorem step_push {tid : Tid} {spurious : Bool} (stepped : s.step (.push tid spurious) = some s') :
    ∃ logger pc, PushMove s.logger s.bufSize spurious (s.producers tid) logger pc ∧
      s' =
        { s.recordPush tid with
          logger := logger, producers := Function.update s.producers tid pc } := by
  simp only [step] at stepped
  split at stepped <;> cases stepped
  rename_i logger pc moved
  exact ⟨logger, pc, Logger.pushStep_move moved, rfl⟩

theorem step_invokeConsume (stepped : s.step .invokeConsume = some s') :
    s.consumer = .idle ∧ s' = { s with consumer := .load } := by
  simp only [step] at stepped
  split at stepped <;> cases stepped
  exact ⟨‹_›, rfl⟩

theorem step_consume {spurious : Bool} (stepped : s.step (.consume spurious) = some s') :
    ∃ logger pc, ConsumeMove s.logger spurious s.consumer logger pc ∧
      s' = { s.recordConsume with logger := logger, consumer := pc } := by
  simp only [step] at stepped
  split at stepped <;> cases stepped
  rename_i logger pc moved
  exact ⟨logger, pc, Logger.consumeStep_move moved, rfl⟩

/-- What a step can be, as a move of one thread. -/
theorem step_cases {label : LogLabel Tid} (stepped : s.step label = some s') :
    (∃ tid data, label = .invokePush tid data ∧ s.producers tid = .idle ∧
      s' = { s with producers := Function.update s.producers tid (.load data) }) ∨
    (∃ tid spurious logger pc, label = .push tid spurious ∧
      PushMove s.logger s.bufSize spurious (s.producers tid) logger pc ∧
      s' =
        { s.recordPush tid with
          logger := logger, producers := Function.update s.producers tid pc }) ∨
    (label = .invokeConsume ∧ s.consumer = .idle ∧ s' = { s with consumer := .load }) ∨
    (∃ spurious logger pc, label = .consume spurious ∧
      ConsumeMove s.logger spurious s.consumer logger pc ∧
      s' = { s.recordConsume with logger := logger, consumer := pc }) := by
  cases label with
  | invokePush tid data => exact .inl ⟨tid, data, rfl, step_invokePush stepped⟩
  | push tid spurious =>
      obtain ⟨logger, pc, move, after⟩ := step_push stepped
      exact .inr (.inl ⟨tid, spurious, logger, pc, rfl, move, after⟩)
  | invokeConsume => exact .inr (.inr (.inl ⟨rfl, step_invokeConsume stepped⟩))
  | consume spurious =>
      obtain ⟨logger, pc, move, after⟩ := step_consume stepped
      exact .inr (.inr (.inr ⟨spurious, logger, pc, rfl, move, after⟩))

omit [DecidableEq Tid] in
/-- Exclusion only reads the state word, the sections and the consumer. -/
theorem Exclusive.transfer (exclusive : s.Exclusive) (word : s'.logger.state = s.logger.state)
    (sections : s'.sections = s.sections)
    (consumer : ∀ idx, s'.consumer.section? = some idx → s.consumer.section? = some idx)
    (exchange : ∀ currState, s'.consumer = .compareExchange currState →
      currState &&& writerBit = 0) : s'.Exclusive where
  word := word ▸ exclusive.word
  writer := by rw [word, sections]; exact exclusive.writer
  single := by rw [sections]; exact exclusive.single
  active := by rw [sections, Logger.activeIdx, word]; exact exclusive.active
  consumed idx working := by
    rw [Logger.activeIdx, word]
    exact exclusive.consumed idx (consumer idx working)
  quietExchange := exchange

omit [DecidableEq Tid] in
/-- With the writer bit clear no thread is in its critical section. -/
theorem Exclusive.none_writing (exclusive : s.Exclusive)
    (quiet : s.logger.state &&& writerBit = 0) (tid : Tid) : s.sections tid = none := by
  by_contra busy
  exact exclusive.writer.mpr ⟨tid, Option.isSome_iff_ne_none.mpr busy⟩ quiet

omit [DecidableEq Tid] in
/-- Exclusion when no thread is in its critical section. -/
theorem Exclusive.of_none_writing (word : IsStateWord s.logger.state)
    (quiet : s.logger.state &&& writerBit = 0) (noneWriting : ∀ tid, s.sections tid = none)
    (consumed : ∀ idx, s.consumer.section? = some idx → idx ≠ s.logger.activeIdx)
    (quietExchange : ∀ currState, s.consumer = .compareExchange currState →
      currState &&& writerBit = 0) : s.Exclusive where
  word := word
  writer := by simp [quiet, noneWriting]
  single first second busy := by
    rw [noneWriting] at busy
    cases busy
  active tid idx working := by
    rw [noneWriting] at working
    cases working
  consumed := consumed
  quietExchange := quietExchange

/-- One operation of `push` keeps exclusion, unless it exchanges a word with the writer bit. -/
theorem Exclusive.push {tid : Tid} {spurious : Bool} {logger : Logger} {pc : PushPc}
    (exclusive : s.Exclusive)
    (move : PushMove s.logger s.bufSize spurious (s.producers tid) logger pc)
    (fresh : ∀ data, spurious = false → s.producers tid = .compareExchange data s.logger.state →
      s.logger.state &&& writerBit = 0)
    (s'Eq : s' =
      { s.recordPush tid with
        logger := logger, producers := Function.update s.producers tid pc }) :
    s'.Exclusive := by
  have sections' : s'.sections = Function.update s.sections tid pc.section? := by
    subst s'
    exact sections_update tid pc
  have consumer' : s'.consumer = s.consumer := by
    subst s'
    exact recordPush_consumer s tid
  have logger' : s'.logger = logger := by
    subst s'
    rfl
  clear s'Eq
  -- Every move but the exchange and the final `fetch_and` stays where it is.
  have quietly : logger.state = s.logger.state → pc.section? = s.sections tid → s'.Exclusive := by
    intro word same
    refine exclusive.transfer (by rw [logger', word]) ?_ ?_ ?_
    · rw [sections', same, Function.update_eq_self]
    · rw [consumer']
      exact fun _ working => working
    · rw [consumer']
      exact exclusive.quietExchange
  generalize start : s.producers tid = before at move
  have section? : s.sections tid = before.section? := by rw [sections, start]
  cases move with
  | load data => exact quietly rfl section?.symm
  | retry data currState failed => exact quietly rfl section?.symm
  | refuse data active full => exact quietly rfl section?.symm
  | accept data active representable fits => exact quietly rfl section?.symm
  | copy data active offset => exact quietly rfl section?.symm
  | fetchAdd data active offset => exact quietly rfl section?.symm
  | exchange data agrees =>
      have quiet := fresh data agrees start
      obtain ⟨word, writing, sameIdx⟩ := exclusive.word.claim
      have only : ∀ other, (s'.sections other).isSome → other = tid := by
        intro other busy
        by_contra different
        rw [sections', Function.update_of_ne different,
          exclusive.none_writing quiet other] at busy
        cases busy
      constructor
      · rw [logger']
        exact word
      · rw [logger']
        exact iff_of_true writing ⟨tid, by rw [sections', Function.update_self]; rfl⟩
      · intro first second firstBusy secondBusy
        rw [only first firstBusy, only second secondBusy]
      · intro other idx working
        obtain rfl := only other (by rw [working]; rfl)
        rw [sections', Function.update_self] at working
        cases working
        rw [logger', Logger.activeIdx, sameIdx]
      · intro idx working
        rw [consumer'] at working
        rw [logger', Logger.activeIdx, sameIdx]
        exact exclusive.consumed idx working
      · rw [consumer']
        exact exclusive.quietExchange
  | fetchAnd data active result =>
      obtain ⟨word, quiet, sameIdx⟩ := exclusive.word.release
      have noneLeft : ∀ other, s'.sections other = none := by
        intro other
        rw [sections']
        rcases eq_or_ne other tid with rfl | different
        · rw [Function.update_self]
          rfl
        · rw [Function.update_of_ne different]
          by_contra busy
          exact different (exclusive.single other tid (Option.isSome_iff_ne_none.mpr busy)
            (by rw [section?]; rfl))
      apply Exclusive.of_none_writing (by rwa [logger']) (by rwa [logger']) noneLeft
      · intro idx working
        rw [consumer'] at working
        rw [logger', Logger.activeIdx, sameIdx]
        exact exclusive.consumed idx working
      · rw [consumer']
        exact exclusive.quietExchange

omit [DecidableEq Tid] in
/-- One operation of `consume` keeps exclusion. -/
theorem Exclusive.consume {spurious : Bool} {logger : Logger} {pc : ConsumePc}
    (exclusive : s.Exclusive) (move : ConsumeMove s.logger spurious s.consumer logger pc)
    (s'Eq : s' = { s.recordConsume with logger := logger, consumer := pc }) :
    s'.Exclusive := by
  have sections' : s'.sections = s.sections := by
    subst s'
    funext tid
    rw [sections, sections]
    exact congrArg PushPc.section? (congrFun (recordConsume_producers s) tid)
  have consumer' : s'.consumer = pc := by
    subst s'
    rfl
  have logger' : s'.logger = logger := by
    subst s'
    rfl
  clear s'Eq
  have quietly : logger.state = s.logger.state →
      (∀ idx, pc.section? = some idx → s.consumer.section? = some idx) →
      (∀ currState, pc = .compareExchange currState → currState &&& writerBit = 0) →
      s'.Exclusive := by
    intro word kept exchange
    exact exclusive.transfer (by rw [logger', word]) sections' (by rwa [consumer'])
      (by rwa [consumer'])
  generalize start : s.consumer = before at move
  cases move with
  | spin writing => exact quietly rfl (by simp [ConsumePc.section?]) (by simp)
  | retry currState failed => exact quietly rfl (by simp [ConsumePc.section?]) (by simp)
  | load quiet => exact quietly rfl (by simp [ConsumePc.section?]) (by simpa using quiet)
  | found active some => exact quietly rfl (by simp [start, ConsumePc.section?]) (by simp)
  | empty active none => exact quietly rfl (by simp [start, ConsumePc.section?]) (by simp)
  | callback active offset => exact quietly rfl (by simp [start, ConsumePc.section?]) (by simp)
  | reset active => exact quietly rfl (by simp [ConsumePc.section?]) (by simp)
  | exchange agrees =>
      have quiet := exclusive.quietExchange _ start
      obtain ⟨word, stillQuiet, otherIdx⟩ := exclusive.word.swap
      have noneWriting := exclusive.none_writing quiet
      apply Exclusive.of_none_writing (by rwa [logger']) (by rwa [logger']) (by rwa [sections'])
      · intro idx working
        rw [consumer'] at working
        cases working
        rw [logger']
        exact otherIdx
      · rw [consumer']
        simp

theorem Exclusive.step {label : LogLabel Tid} (exclusive : s.Exclusive)
    (stepped : s.step label = some s') (fresh : freshExchange s label s') : s'.Exclusive := by
  rcases step_cases stepped with
    ⟨tid, data, rfl, start, rfl⟩ | ⟨tid, spurious, logger, pc, rfl, move, s'Eq⟩ |
      ⟨rfl, start, rfl⟩ | ⟨spurious, logger, pc, rfl, move, s'Eq⟩
  · refine exclusive.transfer rfl ?_ (fun _ working => working) exclusive.quietExchange
    have section? : s.sections tid = none := by
      rw [sections, start]
      rfl
    exact (sections_update tid (.load data)).trans (by
      rw [show (PushPc.load data).section? = s.sections tid from section?.symm,
        Function.update_eq_self])
  · exact exclusive.push move (fun data agrees => fresh tid data (by rw [agrees])) s'Eq
  · exact exclusive.transfer rfl rfl (by simp [ConsumePc.section?]) (by simp)
  · exact exclusive.consume move s'Eq

theorem exclusive_initial {bufSize : Nat} (start : (machine Tid bufSize).initial s) :
    s.Exclusive := by
  obtain ⟨raw, logger, made, rfl⟩ := start
  obtain ⟨_, _, word, _⟩ := Logger.new_fields made
  constructor <;> simp [word, IsStateWord, sections, PushPc.section?, ConsumePc.section?]

/-- Exclusion along every run whose pushes only exchange words without the writer bit. -/
theorem exclusive_of_reach {bufSize : Nat}
    (reached : (machine Tid bufSize).Reach freshExchange s) : s.Exclusive :=
  reached.invariant Exclusive (fun _ => exclusive_initial)
    fun _ _ _ exclusive stepped fresh => exclusive.step stepped fresh

/-! ### One pushing thread -/

/-- With one pushing thread no exchange meets the writer bit: the word the thread loaded was read
outside its own critical section. -/
structure LoadedQuiet (s : LogState Tid) : Prop where
  exclusive : s.Exclusive
  loaded : ∀ tid data currState, s.producers tid = .compareExchange data currState →
    currState &&& writerBit = 0

omit [DecidableEq Tid] in
theorem loadedQuiet_fresh {label : LogLabel Tid} (quiet : s.LoadedQuiet) :
    freshExchange s label s' := by
  intro tid data _ start
  exact quiet.loaded tid data _ start

theorem LoadedQuiet.step [Subsingleton Tid] {label : LogLabel Tid} (quiet : s.LoadedQuiet)
    (stepped : s.step label = some s') : s'.LoadedQuiet := by
  refine ⟨quiet.exclusive.step stepped (loadedQuiet_fresh quiet), ?_⟩
  rcases step_cases stepped with
    ⟨tid, data, rfl, start, rfl⟩ | ⟨tid, spurious, logger, pc, rfl, move, rfl⟩ |
      ⟨rfl, start, rfl⟩ | ⟨spurious, logger, pc, rfl, move, rfl⟩
  · intro other data' currState atExchange
    obtain rfl := Subsingleton.elim other tid
    simp at atExchange
  · intro other data' currState atExchange
    obtain rfl := Subsingleton.elim other tid
    simp only [Function.update_self] at atExchange
    subst atExchange
    generalize start : s.producers other = before at move
    cases move with
    | load data =>
        -- The only thread is outside its critical section when it loads the word.
        by_contra writing
        obtain ⟨writer, busy⟩ := quiet.exclusive.writer.mp writing
        obtain rfl := Subsingleton.elim writer other
        rw [sections, start] at busy
        cases busy
  · exact quiet.loaded
  · intro other data' currState atExchange
    rw [show s.recordConsume.producers = s.producers from recordConsume_producers s] at atExchange
    exact quiet.loaded other data' currState atExchange

theorem loadedQuiet_initial {bufSize : Nat} (start : (machine Tid bufSize).initial s) :
    s.LoadedQuiet := by
  refine ⟨exclusive_initial start, ?_⟩
  obtain ⟨_, _, _, rfl⟩ := start
  simp

/-- Every run of one pushing thread meets the exchange condition at every step. -/
theorem single_thread_fresh [Subsingleton Tid] {bufSize : Nat}
    (reached : (machine Tid bufSize).Reachable s) :
    (machine Tid bufSize).Reach freshExchange s := by
  exact reached.of_invariant LoadedQuiet (fun _ => loadedQuiet_initial)
    (fun _ _ _ quiet stepped => quiet.step stepped) (fun _ _ _ quiet _ => loadedQuiet_fresh quiet)

/-- One producer and one consumer, any interleaving: the state word is one of its four values, the
writer bit is set exactly while the producer is between its compare-exchange and its `fetch_and`,
and the two never work on the same buffer. -/
theorem exclusion {s : LogState Unit} {bufSize : Nat}
    (reached : (machine Unit bufSize).Reachable s) :
    IsStateWord s.logger.state ∧
      (s.logger.state &&& writerBit ≠ 0 ↔ ((s.producers ()).section?).isSome) ∧
      ∀ i j, (s.producers ()).section? = some i → s.consumer.section? = some j → i ≠ j := by
  have exclusive := exclusive_of_reach (single_thread_fresh reached)
  refine ⟨exclusive.word, ?_, ?_⟩
  · rw [exclusive.writer]
    exact ⟨fun ⟨_, busy⟩ => busy, fun busy => ⟨(), busy⟩⟩
  · rintro i j producing consuming rfl
    exact exclusive.consumed i consuming (exclusive.active () i producing)

/-- A zeroed page. -/
def zeroedPage : AlignedBuffers where
  ptr := 0x1000
  bufSize := 0x1000
  count := 1
  alignment := 0x1000
  totalSize := 0x1000
  mem := fun _ => 0

/-- A fresh logger whose two buffers are zeroed pages. -/
def zeroed (Tid : Type) : LogState Tid where
  logger := { bufs := ![zeroedPage, zeroedPage], offsets := fun _ => 0, state := 0 }
  bufSize := 0x1000
  producers := fun _ => .idle
  consumer := .idle
  accepted := []
  returned := []
  delivered := []

theorem zeroed_initial (Tid : Type) [DecidableEq Tid] :
    (machine Tid 0x1000).initial (zeroed Tid) :=
  ⟨fun _ => some (0x1000, fun _ => 0), _, rfl, rfl⟩

/-- Producer and consumer both inside their sections, on different buffers. -/
theorem exclusion_both_inside :
    ∃ s : LogState Unit, (machine Unit 0x1000).Reachable s ∧
      (s.producers ()).section? = some 1 ∧ s.consumer.section? = some 0 ∧
      IsStateWord s.logger.state ∧ s.logger.state &&& writerBit ≠ 0 := by
  obtain ⟨s, reached, inside⟩ := Machine.exists_reachable_of_run (zeroed_initial Unit)
    [.invokeConsume, .consume false, .consume false, .invokePush () [7], .push () false,
      .push () false]
    (fun s => (s.producers ()).section? == some 1 && s.consumer.section? == some 0) rfl
  simp only [Bool.and_eq_true, beq_iff_eq] at inside
  obtain ⟨word, writer, _⟩ := exclusion reached
  exact ⟨s, reached, inside.1, inside.2, word, writer.mpr (by rw [inside.1]; rfl)⟩

end LogState

end Hoarder
