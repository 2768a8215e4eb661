/-
Module: Hoarder.Core.ConnHandler
Purpose: hoarder-blob/src/state_machine/conn_handler.rs: the state machine of one connection.
Trusted boundary: human-reviewed model
Main exports: RecvPhase, ConnHandlerState, ConnHandler, ConnHandler.new, ConnHandler.processEvent
-/
import Hoarder.Core.Protocol

namespace Hoarder

/-- `RecvPhase`. -/
inductive RecvPhase where
  | receivingHeader
  | receivingBody (header : MsgHeader)
  | processing
deriving DecidableEq, Repr

/-- `ConnHandlerState`. -/
inductive ConnHandlerState where
  | init
  | recv (phase : RecvPhase)
  | closing
  | closed
deriving DecidableEq, Repr

/-- `ConnHandler`.  The source calls the third field `buf_handle`, like the method. -/
structure ConnHandler where
  state : ConnHandlerState
  socket : Fixed
  bufHandle? : Option BufferHandle
  offset : UInt32
deriving DecidableEq, Repr

namespace ConnHandler

def new (socketDirectDescriptor : UInt32) : ConnHandler :=
  { state := .init, socket := socketDirectDescriptor, bufHandle? := none, offset := 0 }

/-- `buf_handle`: `unwrap_unchecked`, undefined behaviour on `None`. -/
def bufHandle (self : ConnHandler) : Except Fault BufferHandle :=
  match self.bufHandle? with
  | some handle => .ok handle
  | none => .error .bufHandleNone

def recv (self : ConnHandler) (ctx : ExecutorContext) : Except Fault ExecutorContext := do
  let handle ← self.bufHandle
  ctx.submitIntent (.submitRecv self.socket handle self.offset.toUInt16)

/-- The first statement of `close`: free the buffer, if the handler has ever had one. -/
def freeBuffer (self : ConnHandler) (buffers : IoBufs) : Except Fault IoBufs :=
  match self.bufHandle? with
  | some handle => do
      let (_, buffers) ← buffers.free handle
      return buffers
  | none => return buffers

def close (self : ConnHandler) (ctx : ExecutorContext) :
    Except Fault (ConnHandler × ExecutorContext) := do
  let buffers ← self.freeBuffer ctx.buffers
  let ctx ← { ctx with buffers }.submitIntent (.closeFixed self.socket)
  return ({ self with offset := 0 }, ctx)

/-- The errnos after which `handle_io_error` receives again. -/
def transientErrnos : List Errno :=
  [Errno.EINTR, Errno.EAGAIN, Errno.ENOBUFS, Errno.ENOMEM, Errno.ETIMEDOUT]

/-- The errnos on which `handle_io_error` panics. -/
def unexpectedErrnos : List Errno :=
  [Errno.EBADF, Errno.EFAULT, Errno.EINVAL, Errno.ENOTSOCK, Errno.EAFNOSUPPORT,
    Errno.EOPNOTSUPP]

/-- The errnos after which `handle_io_error` closes the connection. -/
def disconnectErrnos : List Errno :=
  [Errno.EIO, Errno.ECONNRESET, Errno.ENOTCONN, Errno.ESHUTDOWN, Errno.ECONNABORTED,
    Errno.ENETDOWN, Errno.ENETUNREACH, Errno.ENETRESET]

/-- `handle_io_error`: the next state, the handler otherwise, and the context. -/
def handleIoError (self : ConnHandler) (err : Int32) (ctx : ExecutorContext) :
    Except Fault (ConnHandlerState × ConnHandler × ExecutorContext) :=
  let errno := Errno.fromRawSyscallError err
  if errno ∈ transientErrnos then do
    let ctx ← self.recv ctx
    return (self.state, self, ctx)
  else if errno ∈ unexpectedErrnos then .error .unexpectedIoError
  else if errno ∈ disconnectErrnos then do
    let (self, ctx) ← self.close ctx
    return (.closing, self, ctx)
  else return (self.state, self, ctx)

def onInit (self : ConnHandler) (ctx : ExecutorContext) :
    Except Fault (ConnHandlerState × ConnHandler × ExecutorContext) := do
  let (handle, buffers) ← ctx.buffers.alloc
  let ctx := { ctx with buffers }
  match handle with
  | some handle =>
      let self := { self with bufHandle? := some handle }
      let ctx ← self.recv ctx
      return (.recv .receivingHeader, self, ctx)
  | none =>
      let ctx ← ctx.submitIntent .retry
      return (.init, self, ctx)

/-- The branch of `on_recv` for a positive result. -/
def onBytes (self : ConnHandler) (ctx : ExecutorContext) (res : Int32) :
    Except Fault (ConnHandlerState × ConnHandler × ExecutorContext) := do
  let self := { self with offset := self.offset + res.toUInt32 }
  if MsgHeader.size ≤ self.offset.toNat then
    let handle ← self.bufHandle
    match (← ctx.buffers.get handle).bind fun bytes =>
        MsgHeader.readFromBytes (bytes.take MsgHeader.size) with
    | some header => return (.recv (.receivingBody header), self, ctx)
    | none => .error .headerBuffer
  else return (.recv .receivingHeader, self, ctx)

/-- The conditional of `on_recv` whose value is the next state. -/
def onResult (self : ConnHandler) (ctx : ExecutorContext) (res : Int32) :
    Except Fault (ConnHandlerState × ConnHandler × ExecutorContext) :=
  if res < 0 then self.handleIoError res ctx else self.onBytes ctx res

def onRecv (self : ConnHandler) (ctx : ExecutorContext) (res : Int32) :
    Except Fault (ConnHandlerState × ConnHandler × ExecutorContext) :=
  if res = 0 then do
    let (self, ctx) ← self.close ctx
    return (.closing, self, ctx)
  else do
    let (state, self, ctx) ← self.onResult ctx res
    let ctx ← self.recv ctx
    return (state, self, ctx)

def onClosing (self : ConnHandler) (ctx : ExecutorContext) (res : Int32) :
    Except Fault (ConnHandlerState × ConnHandler × ExecutorContext) :=
  if res = 0 then do
    let ctx ← ctx.submitIntent .terminate
    return (.closed, self, ctx)
  else do
    let (self, ctx) ← self.close ctx
    return (.closing, self, ctx)

/-- The `match` of `process_event` whose value is the next state. -/
def onEvent (self : ConnHandler) (ctx : ExecutorContext) (event : MachineEvent) :
    Except Fault (ConnHandlerState × ConnHandler × ExecutorContext) :=
  match event, self.state with
  | .spawn, .init => self.onInit ctx
  | .ioCompleted res _, .recv _ => self.onRecv ctx res
  | .ioCompleted res _, .closing => self.onClosing ctx res
  | _, .closed => .ok (.closed, self, ctx)
  | _, _ => .error .unreachable

/-- `process_event`: the handler and the context after the event. -/
def processEvent (self : ConnHandler) (ctx : ExecutorContext) (event : MachineEvent) :
    Except Fault (ConnHandler × ExecutorContext) := do
  let (state, self, ctx) ← self.onEvent ctx event
  return ({ self with state }, ctx)

end ConnHandler

end Hoarder
