/-
Module: Hoarder.Core.FmtBuf
Purpose: The formatting buffer of hoarder-log/src/lib.rs and the record that a logging macro builds in
  it.  A string is given by its UTF-8 bytes, and the arguments of a macro by the fragments that
  formatting them writes.
Trusted boundary: human-reviewed model
Main exports: LogLevel, LogLevel.levelPrefix, FmtFault, FmtBuf, FmtBuf.new, FmtBuf.asBytes,
  FmtBuf.clear, FmtBuf.len, FmtBuf.writeStr, FmtBuf.writeFmt, FmtCall, FmtBuf.run, hlog
-/
import Mathlib

namespace Hoarder

/-- `LogLevel`. -/
inductive LogLevel where
  | print
  | debug
  | info
  | warn
  | error
deriving DecidableEq, Repr

/-- `LogLevel::prefix`. -/
def LogLevel.levelPrefix : LogLevel → String
  | .print => ""
  | .debug => "[DEBUG] "
  | .info => "[INFO] "
  | .warn => "[WARN] "
  | .error => "[ERROR] "

/-- `str::as_bytes`. -/
def strBytes (s : String) : List UInt8 := s.toByteArray.data.toList

/-- Why a call on a `FmtBuf` does not return. -/
inductive FmtFault where
  /-- `self.buf.len() - self.pos` underflows. -/
  | subtractOverflow
  /-- A slice index is out of range. -/
  | sliceIndex
  /-- `copy_from_slice` is given slices of different lengths. -/
  | copyLength
deriving DecidableEq, Repr

/-- `core::fmt::Error`. -/
structure FmtError where
deriving DecidableEq, Repr

/-- `core::fmt::Result`. -/
abbrev FmtResult := Except FmtError Unit

/-- `&bytes[start..stop]`. -/
def sliceRange (bytes : List UInt8) (start stop : Nat) : Except FmtFault (List UInt8) :=
  if start ≤ stop ∧ stop ≤ bytes.length then .ok ((bytes.take stop).drop start)
  else .error .sliceIndex

/-- `FmtBuf`: the borrowed bytes, and how many of them are written. -/
structure FmtBuf where
  buf : List UInt8
  pos : Nat
deriving DecidableEq, Repr

namespace FmtBuf

def new (buf : List UInt8) : FmtBuf := { buf := buf, pos := 0 }

def asBytes (self : FmtBuf) : Except FmtFault (List UInt8) := sliceRange self.buf 0 self.pos

def clear (self : FmtBuf) : FmtBuf := { self with pos := 0 }

def len (self : FmtBuf) : Nat := self.pos

/-- `write_str`. -/
def writeStr (self : FmtBuf) (s : String) : Except FmtFault (FmtResult × FmtBuf) := do
  let bytes := strBytes s
  if self.pos ≤ self.buf.length then
    let available := self.buf.length - self.pos
    let toWrite := min bytes.length available
    let target ← sliceRange self.buf self.pos (self.pos + toWrite)
    let source ← sliceRange bytes 0 toWrite
    if target.length = source.length then
      let buf := self.buf.take self.pos ++ source ++ self.buf.drop (self.pos + toWrite)
      return (.ok (), { buf := buf, pos := self.pos + toWrite })
    else .error .copyLength
  else .error .subtractOverflow

/-- `write_fmt`, the default of `core::fmt::Write`: `write_str` on each fragment, until one of them
reports an error. -/
def writeFmt (self : FmtBuf) : List String → Except FmtFault (FmtResult × FmtBuf)
  | [] => .ok (.ok (), self)
  | fragment :: fragments => do
      match ← self.writeStr fragment with
      | (.ok (), self) => self.writeFmt fragments
      | (.error error, self) => return (.error error, self)

end FmtBuf

/-- A call that changes a `FmtBuf`. -/
inductive FmtCall where
  | writeStr (s : String)
  | clear
deriving DecidableEq, Repr

/-- A history of calls, with the results of the writes. -/
def FmtBuf.run (self : FmtBuf) : List FmtCall → Except FmtFault (List FmtResult × FmtBuf)
  | [] => .ok ([], self)
  | .writeStr s :: calls => do
      let (result, self) ← self.writeStr s
      let (results, self) ← self.run calls
      return (result :: results, self)
  | .clear :: calls => self.clear.run calls

/-- `MAX_LOG_LINE`. -/
def maxLogLine : Nat := 512

/-- `__hlog`: the bytes it hands to `Producer::push`. -/
def hlog (level : LogLevel) (fragments : List String) : Except FmtFault (List UInt8) := do
  let raw := List.replicate maxLogLine 0
  let fmt := FmtBuf.new raw
  let (_, fmt) ← fmt.writeStr level.levelPrefix
  let (_, fmt) ← fmt.writeFmt fragments
  let (_, fmt) ← fmt.writeStr "\n"
  fmt.asBytes

end Hoarder
