/-
Module: Hoarder.Proofs.LogRecords
Purpose: The records the logging macros push, and the lines of the consumed stream.  A record is the
  prefix, the message and a newline, cut at `MAX_LOG_LINE`; it is a whole line exactly if the newline
  is not cut off.  What the pushes of a run are given is what the logger accepts, so whole lines
  pushed are whole lines consumed.
Trusted boundary: none
Main exports: recordText, hlog_eq, IsLine, isLine_iff, LogState.accepted_of_pushed, LogRecords.line_iff
-/
import Hoarder.Proofs.FmtBuf
import Hoarder.Proofs.LoggerHistory

namespace Hoarder

open Foundation

variable {level : LogLevel} {fragments : List String} {record : List UInt8}

/-- The byte of `"\n"`. -/
def newline : UInt8 := 10

/-- The prefix of a level and a formatted message. -/
def recordText (level : LogLevel) (fragments : List String) : List UInt8 :=
  strBytes level.levelPrefix ++ (fragments.map strBytes).flatten

/-- A record is the first bytes of prefix, message and newline, as many as fit. -/
theorem hlog_eq (level : LogLevel) (fragments : List String) :
    hlog level fragments = .ok ((recordText level fragments ++ [newline]).take maxLogLine) := by
  have start : (FmtBuf.new (List.replicate maxLogLine 0)).Holds maxLogLine [] := by
    simpa using FmtBuf.holds_new (List.replicate maxLogLine 0)
  obtain ⟨first, ranPrefix, holds⟩ := start.writeStr level.levelPrefix
  obtain ⟨second, ranMessage, holds⟩ := holds.writeFmt fragments
  obtain ⟨last, ranNewline, holds⟩ := holds.writeStr "\n"
  have bytes := holds.asBytes
  rw [List.nil_append, show strBytes "\n" = [newline] from rfl] at bytes
  rw [hlog, ranPrefix, Outcome.ok_bind]
  dsimp only
  rw [ranMessage, Outcome.ok_bind]
  dsimp only
  rw [ranNewline, Outcome.ok_bind]
  exact bytes

/-- The bytes of a whole line: at most `MAX_LOG_LINE`, the prefix first, a newline last. -/
structure IsLine (level : LogLevel) (record : List UInt8) : Prop where
  bounded : record.length ≤ maxLogLine
  starts : strBytes level.levelPrefix <+: record
  terminated : record.getLast? = some newline

/-- Prefix and message leave room for the newline, or carry one where they are cut. -/
def Terminated (level : LogLevel) (fragments : List String) : Prop :=
  (recordText level fragments).length < maxLogLine ∨
    (recordText level fragments)[maxLogLine - 1]? = some newline

theorem levelPrefix_short (level : LogLevel) :
    (strBytes level.levelPrefix).length ≤ maxLogLine := by
  cases level <;> decide

/-- The last byte of a text that is cut is its byte at the cut. -/
theorem getLast?_take {text : List UInt8} {cut : Nat} (positive : 0 < cut)
    (long : cut ≤ text.length) : (text.take cut).getLast? = text[cut - 1]? := by
  rw [List.getLast?_eq_getElem?, List.length_take, Nat.min_eq_left long,
    List.getElem?_take_of_lt (Nat.sub_lt positive Nat.one_pos)]

/-- A record is a whole line exactly if its newline is not lost. -/
theorem isLine_iff (level : LogLevel) (fragments : List String) :
    IsLine level ((recordText level fragments ++ [newline]).take maxLogLine) ↔
      Terminated level fragments := by
  have bounded : ((recordText level fragments ++ [newline]).take maxLogLine).length ≤ maxLogLine :=
    List.length_take_le _ _
  have starts : strBytes level.levelPrefix <+:
      (recordText level fragments ++ [newline]).take maxLogLine := by
    apply List.prefix_take_iff.mpr
    refine ⟨?_, levelPrefix_short level⟩
    rw [recordText, List.append_assoc]
    exact List.prefix_append _ _
  have last : ((recordText level fragments ++ [newline]).take maxLogLine).getLast? = some newline ↔
      Terminated level fragments := by
    unfold Terminated
    rcases Nat.lt_or_ge (recordText level fragments).length maxLogLine with short | long
    · rw [List.take_of_length_le (by rw [List.length_append]; exact short)]
      simp [short]
    · rw [List.take_append_of_le_length long, getLast?_take (by decide) long]
      simp [Nat.not_lt.mpr long]
  exact ⟨fun line => last.mp line.terminated, fun whole => ⟨bounded, starts, last.mpr whole⟩⟩

namespace LogState

variable {Tid : Type} [DecidableEq Tid] {s s' : LogState Tid} {good : List UInt8 → Prop}

/-- The condition on a run that only good data is pushed. -/
def pushesOnly (good : List UInt8 → Prop) : Machine.Guard (LogState Tid) (LogLabel Tid) :=
  fun _ label _ => ∀ tid data, label = .invokePush tid data → good data

/-- The data of the pushes after one thread has moved. -/
theorem data_update {producers : Tid → PushPc} {tid : Tid} {pc : PushPc}
    (pushing : ∀ other data, (producers other).data? = some data → good data)
    (moved : ∀ data, pc.data? = some data → good data) :
    ∀ other data, (Function.update producers tid pc other).data? = some data → good data := by
  intro other data has
  rcases eq_or_ne other tid with rfl | different
  · rw [Function.update_self] at has
    exact moved data has
  · rw [Function.update_of_ne different] at has
    exact pushing other data has

/-- What is accepted was pushed. -/
theorem accepted_of_pushed {bufSize : Nat}
    (reached : (machine Tid bufSize).Reach (pushesOnly good) s) :
    ∀ message ∈ s.accepted, good message.2 := by
  suffices both : (∀ tid data, (s.producers tid).data? = some data → good data) ∧
      ∀ message ∈ s.accepted, good message.2 from both.2
  refine reached.invariant (fun s => (∀ tid data, (s.producers tid).data? = some data → good data) ∧
    ∀ message ∈ s.accepted, good message.2) ?_ ?_
  · rintro s ⟨raw, logger, _, rfl⟩
    simp [PushPc.data?]
  rintro s label s' ⟨pushing, accepted⟩ stepped met
  rcases step_cases stepped with
    ⟨tid, data, rfl, _, rfl⟩ | ⟨tid, spurious, logger, pc, rfl, move, rfl⟩ |
      ⟨rfl, _, rfl⟩ | ⟨spurious, logger, pc, rfl, move, rfl⟩
  · refine ⟨data_update pushing fun data' has => ?_, accepted⟩
    rw [PushPc.data?, Option.some.injEq] at has
    exact met tid data' (by rw [has])
  · constructor
    · apply data_update pushing
      intro data has
      rcases move.data_kept with kept | rfl
      · exact pushing tid data (kept ▸ has)
      · cases has
    · intro message member
      rcases recordPush_accepted s tid with same | ⟨data, has, added⟩
      · exact accepted message (same ▸ member)
      · rw [show _ = s.accepted ++ [(tid, data)] from added] at member
        rcases List.mem_append.mp member with member | isNew
        · exact accepted message member
        · rw [List.mem_singleton.mp isNew]
          exact pushing tid data has
  · exact ⟨pushing, accepted⟩
  · constructor
    · intro other data has
      exact pushing other data (by rwa [← recordConsume_producers s])
    · intro message member
      exact accepted message (by rwa [← recordConsume_accepted s])

end LogState

namespace LogRecords

open LogState

/-- The condition on a run that every push is one of a logging macro with a terminated record. -/
def terminatedRecords : Machine.Guard (LogState Unit) (LogLabel Unit) :=
  pushesOnly fun data =>
    ∃ level fragments, hlog level fragments = .ok data ∧ Terminated level fragments

/-- Every level and every message: the record is a whole line exactly if prefix and message are
shorter than `MAX_LOG_LINE`, or cut behind a newline.  In every run of one producer and one consumer
whose records meet this, the consumed stream is a sequence of whole lines. -/
theorem line_iff (level : LogLevel) (fragments : List String) :
    ∃ record, hlog level fragments = .ok record ∧
      (IsLine level record ↔ Terminated level fragments) ∧
      ∀ bufSize s, (machine Unit bufSize).Reach terminatedRecords s →
        ∃ lines : List (Message Unit), s.delivered.flatten = bytes lines ∧
          lines <+: s.accepted ∧ ∀ line ∈ lines, ∃ level, IsLine level line.2 := by
  refine ⟨_, hlog_eq level fragments, isLine_iff level fragments, fun bufSize s reached => ?_⟩
  obtain ⟨groups, old, cur, accounts⟩ := accounts_of_reach (single_thread_fresh reached.reachable)
  have isPrefix : groups.flatten <+: s.accepted := by
    rw [accounts.accepted, List.append_assoc]
    exact List.prefix_append _ _
  refine ⟨groups.flatten, by rw [accounts.delivered, bytes_flatten], isPrefix,
    fun line member => ?_⟩
  obtain ⟨level, fragments, made, whole⟩ := accepted_of_pushed reached line (isPrefix.subset member)
  rw [hlog_eq, Except.ok.injEq] at made
  exact ⟨level, made ▸ (isLine_iff level fragments).mpr whole⟩

/-- Two short records are pushed and consumed: both are whole lines. -/
theorem line_iff_two :
    ∃ s, (machine Unit 0x1000).Reach terminatedRecords s ∧
      s.delivered = [strBytes "[INFO] up\n" ++ strBytes "ok\n"] ∧
      ∃ lines : List (Message Unit), s.delivered.flatten = bytes lines ∧ lines <+: s.accepted ∧
        ∀ line ∈ lines, ∃ level, IsLine level line.2 := by
  let isRecord (data : List UInt8) : Bool :=
    data == strBytes "[INFO] up\n" || data == strBytes "ok\n"
  let check (_ : LogState Unit) (label : LogLabel Unit) (_ : LogState Unit) : Bool :=
    match label with
    | .invokePush _ data => isRecord data
    | _ => true
  have sound : ∀ s label s', check s label s' = true → terminatedRecords s label s' := by
    rintro s label s' passed tid data rfl
    simp only [check, isRecord, Bool.or_eq_true, beq_iff_eq] at passed
    rcases passed with rfl | rfl
    · exact ⟨.info, ["up"], by rw [hlog_eq]; decide +kernel, .inl (by decide +kernel)⟩
    · exact ⟨.print, ["ok"], by rw [hlog_eq]; decide +kernel, .inl (by decide +kernel)⟩
  obtain ⟨s, reached, ends⟩ := Machine.exists_reach_of_run check sound (zeroed_initial Unit)
    (.invokePush () (strBytes "[INFO] up\n") :: List.replicate 6 (.push () false) ++
      .invokePush () (strBytes "ok\n") :: List.replicate 6 (.push () false) ++
      .invokeConsume :: List.replicate 5 (.consume false))
    (fun s => s.delivered == [strBytes "[INFO] up\n" ++ strBytes "ok\n"]) (by decide +kernel)
  obtain ⟨_, _, _, consumed⟩ := line_iff .info ["up"]
  exact ⟨s, reached, beq_iff_eq.mp ends, consumed _ s reached⟩

/-- A message of 512 letters loses its newline, and is pushed all the same. -/
theorem unterminated_record :
    ∃ record, hlog .print [String.ofList (List.replicate 512 'a')] = .ok record ∧
      record.length = maxLogLine ∧ record.getLast? = some 97 ∧ ¬ IsLine .print record := by
  have text : recordText .print [String.ofList (List.replicate 512 'a')] = List.replicate 512 97 := by
    decide +kernel
  have length : (List.replicate 512 (97 : UInt8)).length = maxLogLine := List.length_replicate
  have record : (recordText .print [String.ofList (List.replicate 512 'a')] ++ [newline]).take
      maxLogLine = List.replicate 512 97 := by
    rw [text, List.take_append_of_le_length length.ge, List.take_of_length_le length.le]
  have last : (List.replicate 512 (97 : UInt8)).getLast? = some 97 := by
    rw [List.getLast?_replicate, if_neg (by decide)]
  refine ⟨_, by rw [hlog_eq, record], length, last, fun line => ?_⟩
  rw [line.terminated, Option.some.injEq] at last
  exact absurd last (by decide)

end LogRecords

end Hoarder
