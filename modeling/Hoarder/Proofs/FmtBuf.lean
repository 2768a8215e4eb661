/-
Module: Hoarder.Proofs.FmtBuf
Purpose: What a formatting buffer holds.  `Holds` says that it is the first bytes of what was written
  since it was last cleared, as many as fit; every call keeps it.  A record therefore ends where the
  capacity cuts it, in the middle of a line or of a character, and nothing follows the cut.
Trusted boundary: none
Main exports: FmtBuf.Holds, FmtBuf.Holds.writeStr, FmtBuf.Holds.run, FmtBuf.textOf, FmtBuf.run_full,
  FmtBuf.asBytes_since_clear, FmtBuf.asBytes_utf8_iff
-/
import Hoarder.Core.FmtBuf
import Hoarder.Foundation.Outcome

namespace Hoarder

open Foundation

@[simp] theorem strBytes_append (s t : String) : strBytes (s ++ t) = strBytes s ++ strBytes t := by
  simp [strBytes, String.toByteArray_append]

@[simp] theorem strBytes_empty : strBytes "" = [] := rfl

@[simp] theorem strBytes_length (s : String) : (strBytes s).length = s.utf8ByteSize := by
  rw [strBytes, Array.length_toList]
  rfl

namespace FmtBuf

variable {fmt : FmtBuf} {capacity : Nat} {text : List UInt8}

/-- The buffer has the capacity, and its written part is the text, as far as that fits. -/
structure Holds (fmt : FmtBuf) (capacity : Nat) (text : List UInt8) : Prop where
  sized : fmt.buf.length = capacity
  position : fmt.pos = min capacity text.length
  written : fmt.buf.take fmt.pos = text.take capacity

theorem holds_new (buf : List UInt8) : (new buf).Holds buf.length [] :=
  ⟨rfl, by simp [new], by simp [new]⟩

theorem Holds.clear (holds : fmt.Holds capacity text) : fmt.clear.Holds capacity [] :=
  ⟨holds.sized, by simp [FmtBuf.clear], by simp [FmtBuf.clear]⟩

/-- The slice of `as_bytes` is in range. -/
theorem Holds.asBytes (holds : fmt.Holds capacity text) :
    fmt.asBytes = .ok (text.take capacity) := by
  have inside : fmt.pos ≤ fmt.buf.length := by
    rw [holds.sized, holds.position]
    exact Nat.min_le_left _ _
  rw [FmtBuf.asBytes, sliceRange, if_pos ⟨Nat.zero_le _, inside⟩, List.drop_zero, holds.written]

/-- A write succeeds, and copies what there is room for behind the written part. -/
theorem writeStr_eq {s : String} {copied : Nat} (inside : fmt.pos ≤ fmt.buf.length)
    (fits : copied = min (strBytes s).length (fmt.buf.length - fmt.pos)) :
    fmt.writeStr s = .ok (.ok (),
      ⟨fmt.buf.take fmt.pos ++ (strBytes s).take copied ++ fmt.buf.drop (fmt.pos + copied),
        fmt.pos + copied⟩) := by
  have target : sliceRange fmt.buf fmt.pos (fmt.pos + copied) =
      .ok ((fmt.buf.take (fmt.pos + copied)).drop fmt.pos) :=
    if_pos ⟨Nat.le_add_right _ _, by omega⟩
  have source : sliceRange (strBytes s) 0 copied = .ok ((strBytes s).take copied) :=
    if_pos ⟨Nat.zero_le _, by omega⟩
  have sameLength : ((fmt.buf.take (fmt.pos + copied)).drop fmt.pos).length =
      ((strBytes s).take copied).length := by
    rw [List.length_drop, List.length_take, List.length_take]
    omega
  dsimp only [FmtBuf.writeStr]
  rw [if_pos inside, ← fits, target, Outcome.ok_bind, source, Outcome.ok_bind, if_pos sameLength]
  rfl

/-- A write to a full buffer changes nothing. -/
theorem writeStr_full (full : fmt.pos = fmt.buf.length) (s : String) :
    fmt.writeStr s = .ok (.ok (), fmt) := by
  have nothing : 0 = min (strBytes s).length (fmt.buf.length - fmt.pos) := by omega
  rw [writeStr_eq full.le nothing, Nat.add_zero, List.take_zero, List.append_nil,
    List.take_append_drop]

/-- A write appends what fits to the text. -/
theorem Holds.writeStr (holds : fmt.Holds capacity text) (s : String) :
    ∃ next, fmt.writeStr s = .ok (.ok (), next) ∧ next.Holds capacity (text ++ strBytes s) := by
  obtain ⟨sized, position, written⟩ := holds
  have inside : fmt.pos ≤ fmt.buf.length := by omega
  obtain ⟨copied, fits⟩ : ∃ copied, copied = min (strBytes s).length (fmt.buf.length - fmt.pos) :=
    ⟨_, rfl⟩
  refine ⟨_, writeStr_eq inside fits, ?_, ?_, ?_⟩
  · simp only [List.length_append, List.length_take, List.length_drop]
    omega
  · simp only [List.length_append]
    omega
  · have head : (fmt.buf.take fmt.pos ++ (strBytes s).take copied).length =
        fmt.pos + copied := by
      rw [List.length_append, List.length_take, List.length_take]
      omega
    rw [List.take_left' head, written, List.take_append]
    congr 1
    -- What is written of the string is what the text leaves room for.
    rcases Nat.le_total capacity text.length with full | room
    · rw [show copied = 0 by omega, Nat.sub_eq_zero_of_le full]
    · rw [List.take_eq_take_iff]
      omega

/-- Writing fragments writes their concatenation. -/
theorem Holds.writeFmt (holds : fmt.Holds capacity text) (fragments : List String) :
    ∃ next, fmt.writeFmt fragments = .ok (.ok (), next) ∧
      next.Holds capacity (text ++ (fragments.map strBytes).flatten) := by
  induction fragments generalizing fmt text with
  | nil => exact ⟨fmt, rfl, by simpa using holds⟩
  | cons fragment fragments inductionHypothesis =>
      obtain ⟨next, ran, holds'⟩ := holds.writeStr fragment
      obtain ⟨last, ranRest, holdsEnd⟩ := inductionHypothesis holds'
      refine ⟨last, ?_, by simpa using holdsEnd⟩
      rw [FmtBuf.writeFmt, ran]
      exact ranRest

/-- A write that leaves out a byte fills the buffer. -/
theorem Holds.full_of_truncated {next : FmtBuf} {s : String} (holds : fmt.Holds capacity text)
    (ran : fmt.writeStr s = .ok (.ok (), next)) (truncated : next.len < fmt.len + s.utf8ByteSize) :
    next.pos = next.buf.length := by
  obtain ⟨written, wrote, holds'⟩ := holds.writeStr s
  obtain rfl : written = next := by
    rw [wrote] at ran
    cases ran
    rfl
  have before := holds.position
  have after := holds'.position
  rw [List.length_append, strBytes_length] at after
  rw [len, len] at truncated
  rw [holds'.sized]
  omega

/-! ### Histories of calls -/

/-- The text written since the last `clear`, after `before`. -/
def textOf (before : String) : List FmtCall → String
  | [] => before
  | .writeStr s :: calls => textOf (before ++ s) calls
  | .clear :: calls => textOf "" calls

/-- A history that begins with a write. -/
theorem run_writeStr {s : String} {calls : List FmtCall} {result : FmtResult}
    {results : List FmtResult} {next last : FmtBuf} (wrote : fmt.writeStr s = .ok (result, next))
    (ran : next.run calls = .ok (results, last)) :
    fmt.run (.writeStr s :: calls) = .ok (result :: results, last) := by
  rw [FmtBuf.run, wrote, Outcome.ok_bind]
  dsimp only
  rw [ran]
  rfl

/-- Every history succeeds, no write in it reports an error, and the buffer holds what was written
since the last `clear`. -/
theorem Holds.run {before : String} (holds : fmt.Holds capacity (strBytes before))
    (calls : List FmtCall) :
    ∃ results next, fmt.run calls = .ok (results, next) ∧ (∀ result ∈ results, result = .ok ()) ∧
      next.Holds capacity (strBytes (textOf before calls)) := by
  induction calls generalizing fmt before with
  | nil => exact ⟨[], fmt, rfl, by simp, holds⟩
  | cons call calls inductionHypothesis =>
      cases call with
      | writeStr s =>
          obtain ⟨next, wrote, holds'⟩ := holds.writeStr s
          rw [← strBytes_append] at holds'
          obtain ⟨results, last, ran, succeed, holdsEnd⟩ := inductionHypothesis holds'
          exact ⟨.ok () :: results, last, run_writeStr wrote ran, by simpa using succeed, holdsEnd⟩
      | clear =>
          have cleared : fmt.clear.Holds capacity (strBytes "") := holds.clear
          obtain ⟨results, last, ranRest, succeed, holdsEnd⟩ := inductionHypothesis cleared
          exact ⟨results, last, ranRest, succeed, holdsEnd⟩

/-- A new buffer, after any history of calls. -/
theorem run_new (buf : List UInt8) (calls : List FmtCall) :
    ∃ results fmt, (new buf).run calls = .ok (results, fmt) ∧ (∀ result ∈ results, result = .ok ()) ∧
      fmt.Holds buf.length (strBytes (textOf "" calls)) := by
  have start : (new buf).Holds buf.length (strBytes "") := holds_new buf
  exact start.run calls

/-- A full buffer keeps what it holds until it is cleared. -/
theorem run_full (full : fmt.pos = fmt.buf.length) {calls : List FmtCall}
    (noClear : .clear ∉ calls) : ∃ results, fmt.run calls = .ok (results, fmt) := by
  induction calls with
  | nil => exact ⟨[], rfl⟩
  | cons call calls inductionHypothesis =>
      rw [List.mem_cons, not_or] at noClear
      obtain ⟨results, ran⟩ := inductionHypothesis noClear.2
      cases call with
      | writeStr s => exact ⟨.ok () :: results, run_writeStr (writeStr_full full s) ran⟩
      | clear => exact absurd rfl noClear.1

/-- Every capacity and every history of calls: no call fails and no write reports an error; the bytes
are the first ones of the text written since the last `clear`, as many as fit; and after a write that
is truncated no later one, up to the next `clear`, changes the buffer. -/
theorem asBytes_since_clear (buf : List UInt8) (calls : List FmtCall) :
    ∃ results fmt, (new buf).run calls = .ok (results, fmt) ∧
      (∀ result ∈ results, result = .ok ()) ∧
      fmt.len = min buf.length (textOf "" calls).utf8ByteSize ∧
      fmt.asBytes = .ok ((strBytes (textOf "" calls)).take
        (min buf.length (textOf "" calls).utf8ByteSize)) ∧
      ∀ s next, fmt.writeStr s = .ok (.ok (), next) → next.len < fmt.len + s.utf8ByteSize →
        ∀ later, .clear ∉ later → ∃ results', next.run later = .ok (results', next) := by
  obtain ⟨results, fmt, ran, succeed, holds⟩ := run_new buf calls
  have position := holds.position
  have bytes := holds.asBytes
  rw [strBytes_length] at position
  rw [List.take_eq_take_min, strBytes_length] at bytes
  refine ⟨results, fmt, ran, succeed, position, bytes, fun s next wrote truncated later noClear => ?_⟩
  exact run_full (holds.full_of_truncated wrote truncated) noClear

/-- The second write is cut, and the third finds no room. -/
example : (new [0, 0, 0]).run [.writeStr "ab", .writeStr "cd", .writeStr "e"] =
    .ok ([.ok (), .ok (), .ok ()], ⟨[97, 98, 99], 3⟩) := by decide

/-! ### Cut characters -/

/-- Bytes that decode as UTF-8. -/
def IsUtf8 (bytes : List UInt8) : Prop := (ByteArray.mk bytes.toArray).IsValidUTF8

/-- The first bytes of a text are valid exactly if they are all of it, or the cut lies between two of
its characters. -/
theorem isUtf8_take_iff (text : String) (cut : Nat) :
    IsUtf8 ((strBytes text).take cut) ↔
      text.utf8ByteSize ≤ cut ∨ ∃ first rest, text = first ++ rest ∧ first.utf8ByteSize = cut := by
  have asExtract : ByteArray.mk ((strBytes text).take cut).toArray =
      text.toByteArray.extract 0 cut := by
    apply ByteArray.ext
    apply Array.toList_inj.mp
    simp [strBytes]
  rw [IsUtf8, asExtract]
  rcases Nat.le_total text.utf8ByteSize cut with fits | longer
  · have whole : text.toByteArray.extract 0 cut = text.toByteArray := by
      apply ByteArray.ext
      rw [ByteArray.data_extract]
      exact Array.extract_eq_self_of_le fits
    rw [whole]
    exact iff_of_true text.isValidUTF8 (.inl fits)
  · have boundary : (⟨cut⟩ : String.Pos.Raw).IsValid text ↔
        (text.toByteArray.extract 0 cut).IsValidUTF8 :=
      String.Pos.Raw.isValid_iff_isValidUTF8_extract_zero.trans
        (and_iff_right (String.Pos.Raw.le_iff.mpr longer))
    rw [← boundary, String.Pos.Raw.isValid_iff_exists_append]
    constructor
    · rintro ⟨first, rest, split, ends⟩
      exact .inr ⟨first, rest, split, (congrArg String.Pos.Raw.byteIdx ends).symm⟩
    · rintro (fits | ⟨first, rest, split, ends⟩)
      · refine ⟨text, "", by simp, String.Pos.Raw.ext ?_⟩
        exact Nat.le_antisymm longer fits
      · exact ⟨first, rest, split, String.Pos.Raw.ext ends.symm⟩

/-- Every capacity and every history: the bytes are valid UTF-8 exactly if the text since the last
`clear` fits, or some of its first characters fill the buffer exactly. -/
theorem asBytes_utf8_iff (buf : List UInt8) (calls : List FmtCall) :
    ∃ results fmt bytes, (new buf).run calls = .ok (results, fmt) ∧ fmt.asBytes = .ok bytes ∧
      (IsUtf8 bytes ↔
        (textOf "" calls).utf8ByteSize ≤ buf.length ∨
          ∃ first rest, textOf "" calls = first ++ rest ∧ first.utf8ByteSize = buf.length) := by
  obtain ⟨results, fmt, ran, _, holds⟩ := run_new buf calls
  exact ⟨results, fmt, _, ran, holds.asBytes, isUtf8_take_iff _ _⟩

/-- One byte of room for a character of two: what is left is no text. -/
theorem asBytes_cut_character :
    ∃ fmt bytes, (new [0]).run [.writeStr "é"] = .ok ([.ok ()], fmt) ∧
      fmt.asBytes = .ok bytes ∧ ¬ IsUtf8 bytes := by
  refine ⟨⟨[0xC3], 1⟩, [0xC3], by decide, by decide, ?_⟩
  unfold IsUtf8
  decide

end FmtBuf

end Hoarder
