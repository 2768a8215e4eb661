/-
Module: Hoarder.Proofs.LoggerHistory
Purpose: Nothing is lost, duplicated or reordered by the logger.  `Accounts` splits the pushes that
  have advanced their offset into those delivered, those in the swapped-out buffer and those in the
  active buffer, message by message, and ties the last two to the bytes of the buffers.  With one
  pushing thread it holds in every state; with several it holds while no push exchanges a word that
  carries `WRITER_BIT`, and the first such exchange puts two threads in the critical section.
Trusted boundary: none
Main exports: LogState.Accounts, LogState.Accounts.step, LogState.ExactlyOnce, LogState.delivery,
  LogState.delivery_many_producers
-/
import Hoarder.Proofs.LoggerExclusion

namespace Hoarder

open Foundation

namespace LogState

variable {Tid : Type} {s s' : LogState Tid}

/-- A push, by the thread that made it. -/
abbrev Message (Tid : Type) := Tid × List UInt8

/-- The bytes of some messages, in order. -/
def bytes (messages : List (Message Tid)) : List UInt8 := (messages.map Prod.snd).flatten

@[simp] theorem bytes_nil : bytes ([] : List (Message Tid)) = [] := rfl

@[simp] theorem bytes_append (first second : List (Message Tid)) :
    bytes (first ++ second) = bytes first ++ bytes second := by
  simp [bytes]

@[simp] theorem bytes_singleton (message : Message Tid) : bytes [message] = message.2 := by
  simp [bytes]

theorem bytes_flatten (groups : List (List (Message Tid))) :
    bytes groups.flatten = (groups.map bytes).flatten := by
  induction groups with
  | nil => rfl
  | cons group groups inductionHypothesis => simp [inductionHypothesis]

/-- The pushes that have returned `Ok`, in the order they returned. -/
def okReturned (s : LogState Tid) : List (Message Tid) :=
  s.returned.filterMap fun (tid, data, result) =>
    match result with
    | .ok () => some (tid, data)
    | .error _ => none

/-- The bytes of the active buffer up to its offset. -/
def activePending (s : LogState Tid) : List UInt8 :=
  s.logger.slice s.logger.activeIdx (s.logger.offsets s.logger.activeIdx)

/-- The bytes of the swapped-out buffer, while its callback has not run. -/
def swappedPending (s : LogState Tid) : List UInt8 :=
  match s.consumer with
  | .loadOffset active => s.logger.slice active (s.logger.offsets active)
  | .callback active offset => s.logger.slice active offset
  | _ => []

/-- What a pushing thread knows about its buffer, by where it is. -/
def Placed (s : LogState Tid) (cur : List (Message Tid)) : PushPc → Prop
  | .copy data active offset =>
      offset = s.logger.offsets active ∧ offset + data.length ≤ s.bufSize
  | .fetchAdd data active offset =>
      offset = s.logger.offsets active ∧ offset + data.length ≤ s.bufSize ∧
        s.logger.slice active (offset + data.length) = bytes cur ++ data
  | _ => True

/-- What the consumer knows about the buffer it has swapped out, by where it is. -/
def Swapped (s : LogState Tid) (old : List (Message Tid)) : ConsumePc → Prop
  | .loadOffset active => s.logger.slice active (s.logger.offsets active) = bytes old
  | .callback active offset =>
      offset = s.logger.offsets active ∧ s.logger.slice active offset = bytes old
  | .reset _ => old = []
  | _ => old = [] ∧ ∀ idx, idx ≠ s.logger.activeIdx → s.logger.offsets idx = 0

/-- The books of the logger: the accepted messages are the delivered groups, then the messages of
the swapped-out buffer, then those of the active buffer. -/
structure Accounts (s : LogState Tid) (groups : List (List (Message Tid)))
    (old cur : List (Message Tid)) : Prop where
  accepted : s.accepted = groups.flatten ++ old ++ cur
  delivered : s.delivered = groups.map bytes
  active : s.activePending = bytes cur
  swapped : s.Swapped old s.consumer
  placed : ∀ tid, s.Placed cur (s.producers tid)
  returning : ∀ tid data active, s.producers tid = .fetchAnd data active (.ok ()) →
    s.accepted = s.okReturned ++ [(tid, data)]
  allReturned : (∀ tid data active, s.producers tid ≠ .fetchAnd data active (.ok ())) →
    s.accepted = s.okReturned
  small : s.bufSize < usizeRange

/-- The swapped-out bytes are those of the swapped-out messages. -/
theorem Accounts.swapped_bytes {groups : List (List (Message Tid))} {old cur : List (Message Tid)}
    (accounts : s.Accounts groups old cur) : s.swappedPending = bytes old := by
  have swapped := accounts.swapped
  unfold swappedPending
  cases pc : s.consumer with
  | loadOffset active => rwa [pc] at swapped
  | callback active offset =>
      rw [pc] at swapped
      exact swapped.2
  | reset active =>
      rw [pc] at swapped
      rw [show old = [] from swapped]
      rfl
  | idle | load | compareExchange _ =>
      rw [pc] at swapped
      rw [swapped.1]
      rfl

/-! ### What the operations do to slices -/

theorem slice_copy_before (self : Logger) (idx : Fin 2) {offset len : Nat} (data : List UInt8)
    (before : len ≤ offset) :
    (self.copyFromSlice idx offset data).slice idx len = self.slice idx len := by
  simp only [Logger.slice, Logger.copyFromSlice, Function.update_self]
  exact Memory.read_write_before (by omega)

theorem slice_copy_extend (self : Logger) (idx : Fin 2) (offset : Nat) (data : List UInt8) :
    (self.copyFromSlice idx offset data).slice idx (offset + data.length) =
      self.slice idx offset ++ data := by
  simp only [Logger.slice, Logger.copyFromSlice, Function.update_self]
  rw [Memory.read_append, Memory.read_write_before (by omega), Memory.read_write_self]

theorem slice_copy_other (self : Logger) {idx other : Fin 2} (offset len : Nat)
    (data : List UInt8) (different : other ≠ idx) :
    (self.copyFromSlice idx offset data).slice other len = self.slice other len := by
  simp only [Logger.slice, Logger.copyFromSlice, Function.update_of_ne different]

/-! ### The steps of a push -/

variable {groups : List (List (Message Tid))} {old cur : List (Message Tid)}

/-- A thread outside the copying part of its critical section knows nothing it could lose. -/
theorem placed_of_not_writing {pc : PushPc} (s : LogState Tid) (cur : List (Message Tid))
    (outside : pc.section? = none) : s.Placed cur pc := by
  cases pc <;> trivial

/-- In exclusion, only the thread in the critical section is in it. -/
theorem Exclusive.others_outside (exclusive : s.Exclusive) {tid : Tid}
    (inside : ((s.producers tid).section?).isSome) {other : Tid} (different : other ≠ tid) :
    (s.producers other).section? = none := by
  by_contra busy
  exact different (exclusive.single other tid (Option.isSome_iff_ne_none.mpr busy) inside)

/-- The buffer the consumer reads is not the active one, so a step that keeps the consumer and
everything but the active buffer keeps what the consumer knows. -/
theorem Exclusive.swapped_transfer (exclusive : s.Exclusive) (swapped : s.Swapped old s.consumer)
    (consumer : s'.consumer = s.consumer) (activeIdx : s'.logger.activeIdx = s.logger.activeIdx)
    (offsets : ∀ idx, idx ≠ s.logger.activeIdx → s'.logger.offsets idx = s.logger.offsets idx)
    (slices : ∀ idx len, idx ≠ s.logger.activeIdx →
      s'.logger.slice idx len = s.logger.slice idx len) : s'.Swapped old s'.consumer := by
  have consumed := exclusive.consumed
  rw [consumer]
  cases pc : s.consumer with
  | loadOffset active | callback active offset =>
      rw [pc] at swapped consumed
      have different := consumed active rfl
      simp only [Swapped, offsets active different, slices active _ different]
      exact swapped
  | reset active =>
      rw [pc] at swapped
      exact swapped
  | idle | load | compareExchange _ =>
      rw [pc] at swapped
      refine ⟨swapped.1, fun idx different => ?_⟩
      rw [activeIdx] at different
      rw [offsets idx different]
      exact swapped.2 idx different

/-- In exclusion no thread returns a success while another one is in its critical section. -/
theorem Exclusive.none_returning (exclusive : s.Exclusive) {tid : Tid}
    (inside : ((s.producers tid).section?).isSome)
    (notReturning : ∀ data active, s.producers tid ≠ .fetchAnd data active (.ok ()))
    (other : Tid) (data : List UInt8) (active : Fin 2) :
    s.producers other ≠ .fetchAnd data active (.ok ()) := by
  intro atReturn
  rcases eq_or_ne other tid with rfl | different
  · exact notReturning data active atReturn
  · have outside := exclusive.others_outside inside different
    rw [atReturn] at outside
    cases outside

variable [DecidableEq Tid]

/-- In exclusion only the thread in the critical section has to say what its move keeps in place. -/
theorem Exclusive.placed_update (exclusive : s.Exclusive) {tid : Tid}
    (inside : ((s.producers tid).section?).isSome) {pc : PushPc} (placed : s'.Placed cur pc)
    (other : Tid) : s'.Placed cur (Function.update s.producers tid pc other) := by
  rcases eq_or_ne other tid with rfl | different
  · rw [Function.update_self]
    exact placed
  · rw [Function.update_of_ne different]
    exact placed_of_not_writing _ _ (exclusive.others_outside inside different)

/-- A move of one pushing thread that leaves buffers, offsets and history as they are. -/
theorem Accounts.push_quiet {tid : Tid} {pc : PushPc} (accounts : s.Accounts groups old cur)
    (state : UInt16) (exclusive : s.Exclusive)
    (activeIdx : bufIndex (state &&& indexMask) = s.logger.activeIdx)
    (notReturning : ∀ data active, s.producers tid ≠ .fetchAnd data active (.ok ()))
    (notReturning' : ∀ data active, pc ≠ .fetchAnd data active (.ok ()))
    (placed : s.Placed cur pc) :
    Accounts
      { s with
        logger := { s.logger with state := state }
        producers := Function.update s.producers tid pc } groups old cur where
  accepted := accounts.accepted
  delivered := accounts.delivered
  active := by
    have active := accounts.active
    simp only [activePending, Logger.activeIdx] at active ⊢
    rw [activeIdx]
    exact active
  swapped := by
    refine exclusive.swapped_transfer accounts.swapped rfl ?_ (fun _ _ => rfl) (fun _ _ _ => rfl)
    exact activeIdx
  placed other := by
    rcases eq_or_ne other tid with rfl | different
    · simp only [Function.update_self]
      cases pc <;> exact placed
    · simp only [Function.update_of_ne different]
      have kept := accounts.placed other
      cases start : s.producers other <;> rw [start] at kept <;> exact kept
  returning other data active start := by
    rcases eq_or_ne other tid with rfl | different
    · simp only [Function.update_self] at start
      exact absurd start (notReturning' data active)
    · simp only [Function.update_of_ne different] at start
      exact accounts.returning other data active start
  allReturned none := by
    apply accounts.allReturned
    intro other data active start
    rcases eq_or_ne other tid with rfl | different
    · exact notReturning data active start
    · exact none other data active (by simpa [Function.update_of_ne different] using start)
  small := accounts.small

/-- Copying the data behind the active offset. -/
theorem Accounts.push_copy {tid : Tid} {data : List UInt8} {idx : Fin 2} {offset : Nat}
    (accounts : s.Accounts groups old cur) (exclusive : s.Exclusive)
    (start : s.producers tid = .copy data idx offset) :
    Accounts
      { s with
        logger := s.logger.copyFromSlice idx offset data
        producers := Function.update s.producers tid (.fetchAdd data idx offset) }
      groups old cur := by
  obtain rfl : idx = s.logger.activeIdx := exclusive.active tid idx (by rw [sections, start]; rfl)
  have placed := accounts.placed tid
  rw [start] at placed
  obtain ⟨atOffset, fits⟩ := placed
  have inside : ((s.producers tid).section?).isSome := by rw [start]; rfl
  have active := accounts.active
  rw [activePending, ← atOffset] at active
  constructor
  · exact accounts.accepted
  · exact accounts.delivered
  · change (s.logger.copyFromSlice s.logger.activeIdx offset data).slice s.logger.activeIdx
      (s.logger.offsets s.logger.activeIdx) = bytes cur
    rw [← atOffset, slice_copy_before _ _ _ (Nat.le_refl _), active]
  · refine exclusive.swapped_transfer accounts.swapped rfl rfl (fun _ _ => rfl) ?_
    exact fun other len different => slice_copy_other _ _ _ _ different
  · apply exclusive.placed_update inside
    refine ⟨atOffset, fits, ?_⟩
    rw [slice_copy_extend, active]
  · intro other data' active' atReturn
    rcases eq_or_ne other tid with rfl | different
    · simp at atReturn
    · simp only [Function.update_of_ne different] at atReturn
      exact accounts.returning other data' active' atReturn
  · intro none
    apply accounts.allReturned
    intro other data' active' atReturn
    rcases eq_or_ne other tid with rfl | different
    · rw [start] at atReturn
      cases atReturn
    · exact none other data' active' (by simpa [Function.update_of_ne different] using atReturn)
  · exact accounts.small

/-- Advancing the offset over the copied data makes the message part of the active buffer. -/
theorem Accounts.push_fetchAdd {tid : Tid} {data : List UInt8} {idx : Fin 2} {offset : Nat}
    (accounts : s.Accounts groups old cur) (exclusive : s.Exclusive)
    (start : s.producers tid = .fetchAdd data idx offset) :
    Accounts
      { s with
        logger :=
          { s.logger with
            offsets := Function.update s.logger.offsets idx
              ((s.logger.offsets idx + data.length) % usizeRange) }
        producers := Function.update s.producers tid (.fetchAnd data idx (.ok ()))
        accepted := s.accepted ++ [(tid, data)] }
      groups old (cur ++ [(tid, data)]) := by
  obtain rfl : idx = s.logger.activeIdx := exclusive.active tid idx (by rw [sections, start]; rfl)
  have placed := accounts.placed tid
  rw [start] at placed
  obtain ⟨atOffset, fits, copied⟩ := placed
  have inside : ((s.producers tid).section?).isSome := by rw [start]; rfl
  -- The sum was checked against the buffer size, so it does not wrap.
  have noWrap : (s.logger.offsets s.logger.activeIdx + data.length) % usizeRange =
      offset + data.length := by
    rw [← atOffset]
    exact Nat.mod_eq_of_lt (Nat.lt_of_le_of_lt fits accounts.small)
  have noneReturning : ∀ other data' active',
      s.producers other ≠ .fetchAnd data' active' (.ok ()) :=
    exclusive.none_returning inside (by simp [start])
  constructor
  · change s.accepted ++ [(tid, data)] = _
    rw [accounts.accepted]
    simp
  · exact accounts.delivered
  · change s.logger.slice s.logger.activeIdx (Function.update s.logger.offsets s.logger.activeIdx
      ((s.logger.offsets s.logger.activeIdx + data.length) % usizeRange) s.logger.activeIdx) = _
    rw [Function.update_self, noWrap, copied, bytes_append, bytes_singleton]
  · refine exclusive.swapped_transfer accounts.swapped rfl rfl ?_ (fun _ _ _ => rfl)
    exact fun other different => Function.update_of_ne different _ _
  · exact exclusive.placed_update inside trivial
  · intro other data' active' atReturn
    change s.accepted ++ [(tid, data)] = s.okReturned ++ [(other, data')]
    rcases eq_or_ne other tid with rfl | different
    · simp only [Function.update_self] at atReturn
      cases atReturn
      rw [accounts.allReturned noneReturning]
    · simp only [Function.update_of_ne different] at atReturn
      exact absurd atReturn (noneReturning other data' active')
  · intro none
    exact absurd (Function.update_self tid _ s.producers) (none tid data s.logger.activeIdx)
  · exact accounts.small

/-- Clearing the writer bit returns from the push. -/
theorem Accounts.push_fetchAnd {tid : Tid} {data : List UInt8} {idx : Fin 2}
    {result : Result Unit} (accounts : s.Accounts groups old cur) (exclusive : s.Exclusive)
    (start : s.producers tid = .fetchAnd data idx result) :
    Accounts
      { s with
        logger := { s.logger with state := s.logger.state &&& ~~~writerBit }
        producers := Function.update s.producers tid .idle
        returned := s.returned ++ [(tid, data, result)] }
      groups old cur := by
  have inside : ((s.producers tid).section?).isSome := by rw [start]; rfl
  have noneReturning : ∀ other data' active',
      Function.update s.producers tid .idle other ≠ .fetchAnd data' active' (.ok ()) := by
    intro other data' active' atReturn
    rcases eq_or_ne other tid with rfl | different
    · simp at atReturn
    · simp only [Function.update_of_ne different] at atReturn
      have outside := exclusive.others_outside inside different
      rw [atReturn] at outside
      cases outside
  have sameIdx : bufIndex ((s.logger.state &&& ~~~writerBit) &&& indexMask) = s.logger.activeIdx :=
    exclusive.word.release.2.2
  constructor
  · exact accounts.accepted
  · exact accounts.delivered
  · have active := accounts.active
    simp only [activePending, Logger.activeIdx] at active ⊢
    rw [sameIdx]
    exact active
  · refine exclusive.swapped_transfer accounts.swapped rfl ?_ (fun _ _ => rfl) (fun _ _ _ => rfl)
    exact sameIdx
  · exact exclusive.placed_update inside trivial
  · intro other data' active' atReturn
    exact absurd atReturn (noneReturning other data' active')
  · intro _
    cases result with
    | ok _ =>
        have returning := accounts.returning tid data idx start
        simpa [okReturned] using returning
    | error error =>
        have allReturned :=
          accounts.allReturned (exclusive.none_returning inside (by simp [start]))
        simpa [okReturned] using allReturned
  · exact accounts.small

/-- One operation of a pushing thread keeps the books, in exclusion. -/
theorem Accounts.push {tid : Tid} {spurious : Bool} {logger : Logger} {pc : PushPc}
    (accounts : s.Accounts groups old cur) (exclusive : s.Exclusive)
    (move : PushMove s.logger s.bufSize spurious (s.producers tid) logger pc)
    (s'Eq : s' =
      { s.recordPush tid with
        logger := logger, producers := Function.update s.producers tid pc }) :
    ∃ cur', s'.Accounts groups old cur' := by
  generalize start : s.producers tid = before at move
  -- Before the offset has been advanced the history is left alone.
  have quietly : ∀ state, logger = { s.logger with state := state } →
      bufIndex (state &&& indexMask) = s.logger.activeIdx → s.recordPush tid = s →
      (∀ data active, before ≠ .fetchAnd data active (.ok ())) →
      (∀ data active, pc ≠ .fetchAnd data active (.ok ())) → s.Placed cur pc →
      ∃ cur', s'.Accounts groups old cur' := by
    intro state loggerEq activeIdx unrecorded notReturning notReturning' placed
    subst start
    rw [s'Eq, unrecorded, loggerEq]
    exact ⟨cur, accounts.push_quiet state exclusive activeIdx notReturning notReturning' placed⟩
  have unrecorded : (∀ data active offset, before ≠ .fetchAdd data active offset) →
      (∀ data active result, before ≠ .fetchAnd data active result) → s.recordPush tid = s := by
    intro notAdd notAnd
    unfold recordPush
    rw [start]
    split
    · exact absurd rfl (notAdd _ _ _)
    · exact absurd rfl (notAnd _ _ _)
    · rfl
  cases move with
  | load data =>
      exact quietly s.logger.state rfl rfl (unrecorded (by simp) (by simp)) (by simp) (by simp)
        trivial
  | retry data currState failed =>
      exact quietly s.logger.state rfl rfl (unrecorded (by simp) (by simp)) (by simp) (by simp)
        trivial
  | exchange data agrees =>
      exact quietly _ rfl exclusive.word.claim.2.2 (unrecorded (by simp) (by simp)) (by simp)
        (by simp) trivial
  | refuse data active full =>
      exact quietly s.logger.state rfl rfl (unrecorded (by simp) (by simp)) (by simp) (by simp)
        trivial
  | accept data active representable fits =>
      exact quietly s.logger.state rfl rfl (unrecorded (by simp) (by simp)) (by simp) (by simp)
        ⟨rfl, fits⟩
  | copy data active offset =>
      rw [s'Eq, unrecorded (by simp) (by simp)]
      exact ⟨cur, accounts.push_copy exclusive start⟩
  | fetchAdd data active offset =>
      have recorded : s.recordPush tid = { s with accepted := s.accepted ++ [(tid, data)] } := by
        simp only [recordPush, start]
      rw [s'Eq, recorded]
      exact ⟨_, accounts.push_fetchAdd exclusive start⟩
  | fetchAnd data active result =>
      have recorded :
          s.recordPush tid = { s with returned := s.returned ++ [(tid, data, result)] } := by
        simp only [recordPush, start]
      rw [s'Eq, recorded]
      exact ⟨cur, accounts.push_fetchAnd exclusive start⟩

/-! ### The steps of a consume -/

omit [DecidableEq Tid] in
/-- What a step of the consumer has to show, when it leaves the active buffer as it is. -/
theorem Accounts.consume_transfer {groups' : List (List (Message Tid))}
    {old' cur' : List (Message Tid)} (accounts : s.Accounts groups old cur)
    (exclusive : s.Exclusive) (producers : s'.producers = s.producers)
    (history : s'.accepted = s.accepted ∧ s'.returned = s.returned)
    (bufSize : s'.bufSize = s.bufSize) (activeIdx : s'.logger.activeIdx = s.logger.activeIdx)
    (offset : s'.logger.offsets s.logger.activeIdx = s.logger.offsets s.logger.activeIdx)
    (slice : ∀ len, s'.logger.slice s.logger.activeIdx len = s.logger.slice s.logger.activeIdx len)
    (split : groups'.flatten ++ old' ++ cur' = groups.flatten ++ old ++ cur)
    (sameBytes : bytes cur' = bytes cur) (delivered : s'.delivered = groups'.map bytes)
    (swapped : s'.Swapped old' s'.consumer) : s'.Accounts groups' old' cur' := by
  have okReturned' : s'.okReturned = s.okReturned := by rw [okReturned, history.2, okReturned]
  constructor
  · rw [history.1, accounts.accepted, split]
  · exact delivered
  · rw [activePending, activeIdx, offset, slice, sameBytes]
    exact accounts.active
  · exact swapped
  · intro tid
    have placed := accounts.placed tid
    have atActive := exclusive.active tid
    rw [producers]
    rw [sections] at atActive
    cases start : s.producers tid with
    | copy data active at' =>
        rw [start] at placed atActive
        obtain rfl := atActive active rfl
        simp only [Placed, offset, bufSize]
        exact placed
    | fetchAdd data active at' =>
        rw [start] at placed atActive
        obtain rfl := atActive active rfl
        simp only [Placed, offset, bufSize, slice, sameBytes]
        exact placed
    | idle | load _ | compareExchange _ _ | loadOffset _ _ | fetchAnd _ _ _ => trivial
  · intro tid data active start
    rw [producers] at start
    rw [history.1, okReturned']
    exact accounts.returning tid data active start
  · intro none
    rw [producers] at none
    rw [history.1, okReturned']
    exact accounts.allReturned none
  · rw [bufSize]
    exact accounts.small

omit [DecidableEq Tid] in
/-- Swapping the buffers: the active messages become the swapped-out ones. -/
theorem Accounts.consume_exchange (accounts : s.Accounts groups old cur)
    (exclusive : s.Exclusive) (start : s.consumer = .compareExchange s.logger.state) :
    Accounts
      { s with
        logger :=
          { s.logger with state := indexMask &&& (1 - (s.logger.state &&& indexMask)) }
        consumer := .loadOffset s.logger.activeIdx } groups cur [] := by
  have noneWriting := exclusive.none_writing (exclusive.quietExchange _ start)
  have otherIdx := exclusive.word.swap.2.2
  have swapped := accounts.swapped
  rw [start] at swapped
  obtain ⟨rfl, otherEmpty⟩ := swapped
  constructor
  · simpa using accounts.accepted
  · exact accounts.delivered
  · have := otherEmpty _ (Ne.symm otherIdx)
    simp only [activePending, Logger.activeIdx, this]
    rfl
  · exact accounts.active
  · exact fun tid => placed_of_not_writing _ _ (noneWriting tid)
  · exact accounts.returning
  · exact accounts.allReturned
  · exact accounts.small

omit [DecidableEq Tid] in
/-- One operation of the consumer keeps the books, in exclusion. -/
theorem Accounts.consume {spurious : Bool} {logger : Logger} {pc : ConsumePc}
    (accounts : s.Accounts groups old cur) (exclusive : s.Exclusive)
    (move : ConsumeMove s.logger spurious s.consumer logger pc)
    (s'Eq : s' = { s.recordConsume with logger := logger, consumer := pc }) :
    ∃ groups' old' cur', s'.Accounts groups' old' cur' := by
  have swapped := accounts.swapped
  have consumed := exclusive.consumed
  have unrecorded : (∀ active offset, s.consumer ≠ .callback active offset) →
      s.recordConsume = s := by
    intro early
    unfold recordConsume
    split
    · exact absurd ‹_› (early _ _)
    · rfl
  -- Moves around the loop of the compare-exchange change nothing but the program counter.
  have looping : s.recordConsume = s → logger = s.logger → s'.Swapped old pc →
      ∃ groups' old' cur', s'.Accounts groups' old' cur' := by
    rintro unrecorded rfl swapped'
    rw [unrecorded] at s'Eq
    subst s'Eq
    exact ⟨groups, old, cur, accounts.consume_transfer exclusive rfl ⟨rfl, rfl⟩ rfl rfl rfl
      (fun _ => rfl) rfl rfl accounts.delivered swapped'⟩
  generalize start : s.consumer = before at move
  rw [start] at swapped consumed
  have logger' : s'.logger = logger := by
    subst s'
    rfl
  cases move with
  | spin writing =>
      apply looping (unrecorded (by simp [start])) rfl
      simp only [Swapped, logger']
      exact swapped
  | load quiet =>
      apply looping (unrecorded (by simp [start])) rfl
      simp only [Swapped, logger']
      exact swapped
  | retry currState failed =>
      apply looping (unrecorded (by simp [start])) rfl
      simp only [Swapped, logger']
      exact swapped
  | found active some =>
      apply looping (unrecorded (by simp [start])) rfl
      simp only [Swapped, logger']
      exact ⟨trivial, swapped⟩
  | exchange agrees =>
      rw [s'Eq, unrecorded (by simp [start])]
      exact ⟨groups, cur, [], accounts.consume_exchange exclusive start⟩
  | empty active none =>
      -- Nothing but empty messages can lie in a buffer whose offset is zero.
      have noBytes : bytes old = [] := by
        have readOut : s.logger.slice active (s.logger.offsets active) = bytes old := swapped
        rw [← readOut, none]
        rfl
      rw [s'Eq, unrecorded (by simp [start])]
      exact ⟨groups, [], old ++ cur, accounts.consume_transfer exclusive rfl ⟨rfl, rfl⟩ rfl rfl rfl
        (fun _ => rfl) (by simp) (by simp [noBytes]) accounts.delivered rfl⟩
  | callback active offset =>
      have recorded : s.recordConsume =
          { s with delivered := s.delivered ++ [s.logger.slice active offset] } := by
        simp only [recordConsume, start]
      rw [s'Eq, recorded]
      exact ⟨groups ++ [old], [], cur, accounts.consume_transfer exclusive rfl ⟨rfl, rfl⟩ rfl rfl
        rfl (fun _ => rfl) (by simp) rfl (by simp [accounts.delivered, swapped.2]) rfl⟩
  | reset active =>
      have different : active ≠ s.logger.activeIdx := consumed active rfl
      rw [s'Eq, unrecorded (by simp [start])]
      refine ⟨groups, old, cur, accounts.consume_transfer exclusive rfl ⟨rfl, rfl⟩ rfl rfl
        (Function.update_of_ne different.symm _ _) (fun _ => rfl) rfl rfl accounts.delivered
        ⟨swapped, fun idx other => ?_⟩⟩
      -- There are only two buffers.
      obtain rfl : idx = active := by
        change idx ≠ s.logger.activeIdx at other
        omega
      exact Function.update_self ..

/-! ### Whole runs -/

/-- The books are kept by every step. -/
theorem Accounts.step {label : LogLabel Tid} (accounts : s.Accounts groups old cur)
    (exclusive : s.Exclusive) (stepped : s.step label = some s') :
    ∃ groups' old' cur', s'.Accounts groups' old' cur' := by
  rcases step_cases stepped with
    ⟨tid, data, rfl, start, rfl⟩ | ⟨tid, spurious, logger, pc, rfl, move, s'Eq⟩ |
      ⟨rfl, start, rfl⟩ | ⟨spurious, logger, pc, rfl, move, s'Eq⟩
  · exact ⟨groups, old, cur, accounts.push_quiet s.logger.state exclusive rfl
      (by simp [start]) (by simp) trivial⟩
  · obtain ⟨cur', kept⟩ := accounts.push exclusive move s'Eq
    exact ⟨groups, old, cur', kept⟩
  · have swapped := accounts.swapped
    rw [start] at swapped
    exact ⟨groups, old, cur, accounts.consume_transfer exclusive rfl ⟨rfl, rfl⟩ rfl rfl rfl
      (fun _ => rfl) rfl rfl accounts.delivered swapped⟩
  · exact accounts.consume exclusive move s'Eq

theorem accounts_initial {bufSize : Nat} (start : (machine Tid bufSize).initial s) :
    s.Accounts [] [] [] := by
  obtain ⟨raw, logger, made, rfl⟩ := start
  obtain ⟨small, offsets, _⟩ := Logger.new_fields made
  constructor <;> simp [activePending, Swapped, Placed, okReturned, offsets, small, Logger.slice]

/-- Exclusion and the books along every run whose pushes only exchange words without the writer
bit. -/
theorem accounts_of_reach {bufSize : Nat}
    (reached : (machine Tid bufSize).Reach freshExchange s) :
    ∃ groups old cur, s.Accounts groups old cur := by
  have both : s.Exclusive ∧ ∃ groups old cur, s.Accounts groups old cur := by
    refine reached.invariant (fun s => s.Exclusive ∧ ∃ groups old cur, s.Accounts groups old cur)
      (fun s start => ⟨exclusive_initial start, [], [], [], accounts_initial start⟩) ?_
    rintro s label s' ⟨exclusive, groups, old, cur, accounts⟩ stepped fresh
    exact ⟨exclusive.step stepped fresh, accounts.step exclusive stepped⟩
  exact both.2

/-- The accepted messages in order, whole and contiguous: delivered slice by slice, then in the
swapped-out buffer, then in the active buffer; a push that returned `Ok` is one of them. -/
def ExactlyOnce (s : LogState Tid) : Prop :=
  ∃ (groups : List (List (Message Tid))) (old cur : List (Message Tid)),
    s.accepted = groups.flatten ++ old ++ cur ∧ s.delivered = groups.map bytes ∧
      s.swappedPending = bytes old ∧ s.activePending = bytes cur ∧ s.okReturned <+: s.accepted

/-- At most one thread is between its compare-exchange and its `fetch_and`. -/
def SingleWriter (s : LogState Tid) : Prop :=
  ∀ first second, (s.sections first).isSome → (s.sections second).isSome → first = second

omit [DecidableEq Tid] in
/-- A push that returned `Ok` has advanced its offset, and at most one other has not returned. -/
theorem Accounts.okReturned_prefix (accounts : s.Accounts groups old cur) :
    s.okReturned <+: s.accepted := by
  by_cases returning : ∃ tid data active, s.producers tid = .fetchAnd data active (.ok ())
  · obtain ⟨tid, data, active, start⟩ := returning
    exact ⟨_, (accounts.returning tid data active start).symm⟩
  · rw [accounts.allReturned (by simpa using returning)]

omit [DecidableEq Tid] in
theorem Accounts.exactlyOnce (accounts : s.Accounts groups old cur) : s.ExactlyOnce :=
  ⟨groups, old, cur, accounts.accepted, accounts.delivered, accounts.swapped_bytes,
    accounts.active, accounts.okReturned_prefix⟩

omit [DecidableEq Tid] in
/-- The bytes of the accepted messages are the delivered bytes and the pending ones. -/
theorem ExactlyOnce.bytes_eq (once : s.ExactlyOnce) :
    bytes s.accepted = s.delivered.flatten ++ s.swappedPending ++ s.activePending := by
  obtain ⟨groups, old, cur, accepted, delivered, swapped, active, _⟩ := once
  rw [accepted, delivered, swapped, active, bytes_append, bytes_append, bytes_flatten]

/-- One producer and one consumer, any interleaving: the data of the pushes that have advanced
their offset is the data delivered, then the swapped-out bytes, then the active ones, and the
delivered slices are whole messages. -/
theorem delivery {s : LogState Unit} {bufSize : Nat}
    (reached : (machine Unit bufSize).Reachable s) :
    bytes s.accepted = s.delivered.flatten ++ s.swappedPending ++ s.activePending ∧
      ∃ groups : List (List (Message Unit)),
        s.delivered = groups.map bytes ∧ groups.flatten <+: s.accepted := by
  obtain ⟨groups, old, cur, accounts⟩ := accounts_of_reach (single_thread_fresh reached)
  refine ⟨accounts.exactlyOnce.bytes_eq, groups, accounts.delivered, ?_⟩
  rw [accounts.accepted, List.append_assoc]
  exact List.prefix_append _ _

/-- A push that meets no other thread, from its call to its return. -/
def quietPush (tid : Tid) (data : List UInt8) : List (LogLabel Tid) :=
  .invokePush tid data :: List.replicate 6 (.push tid false)

/-- A consume that meets no other thread and finds data, from its call to its return. -/
def quietConsume : List (LogLabel Tid) := .invokeConsume :: List.replicate 5 (.consume false)

/-- One slice of two messages delivered, one message in the active buffer. -/
theorem delivery_two_then_one :
    ∃ s : LogState Unit, s.delivered = [[1, 2, 3]] ∧ s.activePending = [4] ∧
      bytes s.accepted = s.delivered.flatten ++ s.swappedPending ++ s.activePending := by
  obtain ⟨s, reached, ends⟩ := Machine.exists_reachable_of_run (zeroed_initial Unit)
    (quietPush () [1, 2] ++ quietPush () [3] ++ quietConsume ++ quietPush () [4])
    (fun s => s.delivered == [[1, 2, 3]] && s.activePending == [4]) rfl
  simp only [Bool.and_eq_true, beq_iff_eq] at ends
  exact ⟨s, ends.1, ends.2, (delivery reached).1⟩

/-! ### Several producers -/

/-- An exchange of a word that carries the writer bit puts a second thread in the section. -/
theorem fresh_of_singleWriter {label : LogLabel Tid} (exclusive : s.Exclusive)
    (stepped : s.step label = some s') (single : s'.SingleWriter) :
    freshExchange s label s' := by
  rintro tid data rfl start
  by_contra writing
  obtain ⟨writer, busy⟩ := exclusive.writer.mp writing
  have different : writer ≠ tid := by
    rintro rfl
    rw [sections, start] at busy
    cases busy
  have entered : s' =
      { s with
        logger := { s.logger with state := writerBit ||| (s.logger.state &&& indexMask) }
        producers := Function.update s.producers tid
          (.loadOffset data (bufIndex (s.logger.state &&& indexMask))) } := by
    simpa [step, start, Logger.pushStep, recordPush] using stepped.symm
  refine different (single writer tid ?_ ?_)
  · rw [entered]
    simpa [sections, Function.update_of_ne different] using busy
  · rw [entered]
    simp [sections, PushPc.section?]

/-- Any number of producers and one consumer, along every run in which no push exchanges a word
that already carries `WRITER_BIT`: one writer at a time, and every accepted message once, whole.
A step leads to a state with one writer exactly if it makes no such exchange. -/
theorem delivery_many_producers {bufSize : Nat}
    (reached : (machine Tid bufSize).Reach freshExchange s) :
    s.SingleWriter ∧ s.ExactlyOnce ∧
      ∀ label s', s.step label = some s' → (s'.SingleWriter ↔ freshExchange s label s') := by
  have exclusive := exclusive_of_reach reached
  obtain ⟨groups, old, cur, accounts⟩ := accounts_of_reach reached
  refine ⟨exclusive.single, accounts.exactlyOnce, fun label s' stepped => ?_⟩
  exact ⟨fresh_of_singleWriter exclusive stepped,
    fun fresh => (exclusive.step stepped fresh).single⟩

/-- The exchange condition, as a test of a state and a label. -/
def isFresh (s : LogState Tid) : LogLabel Tid → Bool
  | .push tid false =>
      match s.producers tid with
      | .compareExchange _ currState =>
          currState != s.logger.state || s.logger.state &&& writerBit == 0
      | _ => true
  | _ => true

omit [DecidableEq Tid] in
theorem isFresh_sound {label : LogLabel Tid} (passed : s.isFresh label = true) :
    freshExchange s label s' := by
  rintro tid data rfl start
  simpa [isFresh, start] using passed

/-- Two producers and a swap in between: the second waits with its exchange until the first has
returned, and the consumer delivers the first message while the second is pending. -/
theorem delivery_many_producers_in_turn :
    ∃ s : LogState Bool, s.delivered = [[1]] ∧ s.activePending = [2] ∧
      s.SingleWriter ∧ s.ExactlyOnce := by
  obtain ⟨s, reached, ends⟩ := Machine.exists_reach_of_run (fun s label _ => isFresh s label)
    (fun _ _ _ passed => isFresh_sound passed) (zeroed_initial Bool)
    (quietPush false [1] ++ quietConsume ++ quietPush true [2])
    (fun s => s.delivered == [[1]] && s.activePending == [2]) rfl
  simp only [Bool.and_eq_true, beq_iff_eq] at ends
  have delivered := delivery_many_producers reached
  exact ⟨s, ends.1, ends.2, delivered.1, delivered.2.1⟩

/-- The second producer loads the word while the first is copying, exchanges it, and copies to the
same place: both pushes return `Ok`, and the first message is never delivered. -/
theorem delivery_two_producers_lost :
    (∃ s : LogState Bool, (machine Bool 0x1000).Reachable s ∧ ¬ s.SingleWriter) ∧
      ∃ s : LogState Bool, (machine Bool 0x1000).Reachable s ∧
        s.okReturned = [(true, [2]), (false, [1])] ∧ s.delivered = [[2, 0]] ∧
        ¬ s.ExactlyOnce := by
  constructor
  · obtain ⟨s, reached, both⟩ := Machine.exists_reachable_of_run (zeroed_initial Bool)
      (.invokePush false [1] :: .invokePush true [2] :: List.replicate 4 (.push false false) ++
        List.replicate 2 (.push true false))
      (fun s => (s.sections false).isSome && (s.sections true).isSome) rfl
    rw [Bool.and_eq_true] at both
    exact ⟨s, reached, fun single => Bool.noConfusion (single false true both.1 both.2)⟩
  · obtain ⟨s, reached, ends⟩ := Machine.exists_reachable_of_run (zeroed_initial Bool)
      (.invokePush false [1] :: .invokePush true [2] :: List.replicate 4 (.push false false) ++
        List.replicate 6 (.push true false) ++ List.replicate 2 (.push false false) ++
        quietConsume)
      (fun s => s.okReturned == [(true, [2]), (false, [1])] && s.delivered == [[2, 0]] &&
        bytes s.accepted != s.delivered.flatten ++ s.swappedPending ++ s.activePending) rfl
    simp only [Bool.and_eq_true, beq_iff_eq, bne_iff_ne] at ends
    exact ⟨s, reached, ends.1.1, ends.1.2, fun once => ends.2 once.bytes_eq⟩

end LogState

end Hoarder
