/-
Module: Hoarder.Core.DirectDescriptors
Purpose: The executor on a kernel that keeps the table of direct descriptors the executor registered.
  A successful accept occupies a free slot of the table, a successful close vacates its slot, and a
  completion is posted when the operation is performed.
Trusted boundary: human-reviewed model
Main exports: Op.perform, Hosted, Hosted.step, Hosted.machine
-/
import Hoarder.Core.Executor

namespace Hoarder

open Foundation

/-- What an operation does to the occupied slots of a table of `files` slots when it completes with
the given result.  `none` is a completion this kernel does not post: an accept reports a free slot,
or fails and ends the multishot; a read does not fail. -/
def Op.perform (self : Op) (files : UInt32) (occupied : Finset Fixed) (result : Int32)
    (flags : UInt32) : Option (Finset Fixed) :=
  match self with
  | .acceptMulti _ =>
      if 0 ≤ result then
        if result.toUInt32 < files ∧ result.toUInt32 ∉ occupied then
          some (insert result.toUInt32 occupied)
        else none
      else if moreIo flags then none
      else some occupied
  | .readFixed _ _ _ _ _ => if 0 ≤ result then some occupied else none
  | .close fixed => if result = 0 then some (occupied.erase fixed) else some occupied

/-- A running executor, and the occupied slots of the table. -/
structure Hosted where
  running : Running
  occupied : Finset Fixed

namespace Hosted

/-- One step of the system: the kernel posts only the completions of `perform`. -/
def step (self : Hosted) : RunLabel → Option Hosted
  | .complete index result flags data =>
      match self.running.executor.io.inFlight[index]? with
      | some sqe =>
          match sqe.op.perform self.running.executor.io.files self.occupied result flags with
          | some occupied =>
              (self.running.step (.complete index result flags data)).map fun running =>
                { running, occupied }
          | none => none
      | none => none
  | .take => (self.running.step .take).map fun running => { self with running }
  | .tick listened => (self.running.step (.tick listened)).map fun running => { self with running }

/-- All runs of an executor with the given pools, from an empty table. -/
def machine (listeners connHandlers bufCount : UInt32) : Machine Hosted RunLabel where
  initial s := (Running.machine listeners connHandlers bufCount).initial s.running ∧ s.occupied = ∅
  step := step

end Hosted

end Hoarder
