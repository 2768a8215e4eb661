/-
Module: Hoarder.Core.TcpServer
Purpose: hoarder-blob/src/state_machine/tcp_server.rs: the state machine of a listener.
Trusted boundary: human-reviewed model
Main exports: TcpServerState, TcpServer, TcpServer.new, TcpServer.processEvent
-/
import Hoarder.Core.Protocol

namespace Hoarder

/-- `TcpServerState`. -/
inductive TcpServerState where
  | init
  | accepting
  | error (error : HoarderError)
deriving DecidableEq, Repr

/-- `TcpServer`. -/
structure TcpServer where
  state : TcpServerState
  addr : String
  backlog : UInt16
  listenerFd : Fd
deriving DecidableEq, Repr

namespace TcpServer

def new (addr : String) (backlog : UInt16) : TcpServer :=
  { state := .init, addr := addr, backlog := backlog, listenerFd := -1 }

/-- `listen`.  `listened` is what the operating system answers to the sequence of `socket`,
`setsockopt`, `bind` and `listen` calls: the descriptor, or the first error. -/
def listen (self : TcpServer) (listened : Result Fd) : Result TcpServer := do
  let fd ← listened
  return { self with listenerFd := fd }

def multishotAccept (self : TcpServer) (ctx : ExecutorContext) : Except Fault ExecutorContext :=
  ctx.submitIntent (.submitMultishotAccept self.listenerFd)

/-- `process_event`: the listener and the context after the event. -/
def processEvent (self : TcpServer) (listened : Result Fd) (ctx : ExecutorContext) :
    MachineEvent → Except Fault (TcpServer × ExecutorContext)
  | .spawn =>
      match self.state with
      | .init =>
          match self.listen listened with
          | .ok self => do
              let ctx ← self.multishotAccept ctx
              return ({ self with state := .accepting }, ctx)
          | .error error => return ({ self with state := .error error }, ctx)
      | _ => .error .unreachable
  | .ioCompleted res flags =>
      match self.state with
      | .accepting =>
          if res < 0 then return ({ self with state := .error (.ioError res) }, ctx)
          else do
            let ctx ← ctx.submitIntent (.spawnConnHandler res.toUInt32)
            if moreIo flags then return (self, ctx)
            else do
              let ctx ← self.multishotAccept ctx
              return (self, ctx)
      | .error _ => return (self, ctx)
      | .init => .error .unreachable

end TcpServer

end Hoarder
