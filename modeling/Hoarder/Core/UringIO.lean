/-
Module: Hoarder.Core.UringIO
Purpose: hoarder-io/src/lib.rs: `enqueue` and `submit_and_wait` of `UringIO`, over a ring of the
  io_uring crate.  The two functions of the crate that the code calls are parameters; what it relies
  on from them is `IoUringCrate.Documented`.
Trusted boundary: human-reviewed model
Main exports: IoUring, IoUringCrate, IoUringCrate.Documented, UringIO, UringIO.enqueue,
  UringIO.submitAndWait
-/
import Hoarder.Core.Executor

namespace Hoarder

/-- `IoUring<SQE, CQE>` as the program sees it: the entries pushed and not submitted, the entries
handed to the kernel so far, and the completions available. -/
structure IoUring where
  entries : Nat
  sqpoll : Bool
  submission : List Sqe
  submitted : List Sqe
  completion : List Cqe
deriving DecidableEq, Repr

/-- The functions of the io_uring crate behind `submit_and_wait`.  The second returns the number of
submitted entries or a raw error of the operating system, and leaves a ring behind. -/
structure IoUringCrate where
  needWakeup : IoUring → Bool
  submitAndWait : IoUring → Nat → Except Int32 Nat × IoUring

/-- What the crate documents for a ring without `SQPOLL`: there is no kernel thread to wake, and a
`submit_and_wait` that returns has submitted all pending entries and seen enough completions. -/
structure IoUringCrate.Documented (crate : IoUringCrate) : Prop where
  needWakeup : ∀ ring, ring.sqpoll = false → crate.needWakeup ring = false
  submits : ∀ ring want got ring', ring.sqpoll = false →
    crate.submitAndWait ring want = (.ok got, ring') →
      ring'.submission = [] ∧ ring'.submitted = ring.submitted ++ ring.submission
  waits : ∀ ring want got ring', ring.sqpoll = false →
    crate.submitAndWait ring want = (.ok got, ring') → want ≤ ring'.completion.length

/-- `UringIO`. -/
structure UringIO where
  ring : IoUring
deriving DecidableEq, Repr

namespace UringIO

/-- A ring nothing was pushed to. -/
def new (entries : Nat) (useSqpoll : Bool) : UringIO where
  ring :=
    { entries := entries, sqpoll := useSqpoll, submission := [], submitted := [], completion := [] }

def enqueue (self : UringIO) (sqe : Sqe) : Result UringIO :=
  if self.ring.submission.length < self.ring.entries then
    .ok { ring := { self.ring with submission := self.ring.submission ++ [sqe] } }
  else .error .pushError

/-- `submit_and_wait`: the result, and the ring after the call.  The completions are those posted
when the queue is synchronised. -/
def submitAndWait (crate : IoUringCrate) (self : UringIO) (want : Nat) :
    Result Nat × UringIO :=
  let cqsize := self.ring.completion.length
  if !crate.needWakeup self.ring && cqsize ≥ want then (.ok cqsize, self)
  else
    match crate.submitAndWait self.ring want with
    | (.ok got, ring) => (.ok got, { ring })
    | (.error errno, ring) => (.error (.ioError errno), { ring })

end UringIO

end Hoarder
