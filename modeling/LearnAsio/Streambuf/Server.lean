import LearnAsio.Streambuf.Session
import LearnAsio.Transition.System
import Mathlib.Logic.Function.Basic

namespace LearnAsio
namespace Streambuf

open Transition

/-!
# The streambuf server as an event loop

The sessions of this server have nothing in common but the loop that runs their
handlers: there is no list of sessions, each is held by the handlers of its own
operations.  As in the chat server, an event is something the operating system
does or the execution of one queued handler, everything the environment decides
is in the event, and a handler that throws ends the loop.

`session::~session` only prints.  A session whose socket is open has a read
outstanding, so `name` has no peer to ask for there.
-/

/-- `class server`.  Sessions are numbered in the order in which `accept`
creates them. -/
structure Server where
  session : Nat → Session := fun _ => {}
  newSession : Nat := 0
  accepts : List Accept := []
  thrown : Bool := false

inductive Event where
  | acceptDone (index : Nat) (ec : ErrorCode)
  | arrive (id index : Nat) (data : Bytes)
  | readFailed (id index : Nat)
  | writeDone (id index : Nat)
  | writeFailed (id index : Nat)
  | onAccept (index : Nat) (gone : Bool)
  | onRead (id index : Nat) (gone closeThrows : Bool)
  | onWrite (id index : Nat) (gone closeThrows : Bool)
  deriving DecidableEq, Repr

namespace Server

/-- Apply a member function of one session. -/
def update (server : Server) (id : Nat) (change : Session → Session) : Server :=
  { server with session := Function.update server.session id (change (server.session id)) }

/-- `server::accept`. -/
def accept (server : Server) : Server :=
  { server with
    session := Function.update server.session server.newSession {}
    newSession := server.newSession + 1
    accepts := server.accepts ++ [{ target := server.newSession }] }

/-- The handler of `server::accept`.  It asks the socket for its peer, which
throws if the peer is gone. -/
def onAccept (server : Server) (ec : ErrorCode) (id : Nat) (gone : Bool) : Server :=
  if ec ≠ .success then server
  else if gone then { server with thrown := true }
  else (server.update id Session.start).accept

/-- Take a completed accept out of the queue.  A successful one has assigned the
socket of its target. -/
def dequeueAccept (server : Server) (index target : Nat) (ec : ErrorCode) : Server :=
  let dequeued := { server with accepts := server.accepts.eraseIdx index }
  if ec = .success then dequeued.update target fun session => { session with isOpen := true }
  else dequeued

/-- Run a handler of a session. -/
def handle (server : Server) (id : Nat) (handler : Session → Session × Bool) : Server :=
  let (session, thrown) := handler (server.session id)
  { server.update id fun _ => session with thrown := thrown }

/-- One event in a running loop. -/
def react (server : Server) : Event → Option Server
  | .acceptDone index ec =>
      match server.accepts[index]? with
      | some { target, completion := none } =>
          if ec = .operationAborted then none
          else some { server with
            accepts := server.accepts.set index { target := target, completion := some ec } }
      | _ => none
  | .arrive id index data =>
      match (server.session id).reads[index]? with
      | some { completion := none } =>
          if data = [] then none
          else some (server.update id fun session => session.arrive index data)
      | _ => none
  | .readFailed id index =>
      match (server.session id).reads[index]? with
      | some { completion := none } => some (server.update id fun session => session.failRead index)
      | _ => none
  | .writeDone id index =>
      match (server.session id).writes[index]? with
      | some { message, completion := none } =>
          some (server.update id fun session => session.completeWrite index message .success)
      | _ => none
  | .writeFailed id index =>
      match (server.session id).writes[index]? with
      | some { message, completion := none } =>
          some (server.update id fun session => session.completeWrite index message .failure)
      | _ => none
  | .onAccept index gone =>
      match server.accepts[index]? with
      | some { target, completion := some ec } =>
          some ((server.dequeueAccept index target ec).onAccept ec target gone)
      | _ => none
  | .onRead id index gone closeThrows =>
      match (server.session id).reads[index]? with
      | some { completion := some completion } =>
          some (server.handle id fun session =>
            (session.dequeueRead index).onRead completion gone closeThrows)
      | _ => none
  | .onWrite id index gone closeThrows =>
      match (server.session id).writes[index]? with
      | some { message, completion := some completion } =>
          some (server.handle id fun session =>
            (session.dequeueWrite index).onWrite message completion.error gone closeThrows)
      | _ => none

/-- `server::run` accepts the first client before it runs the loop. -/
def machine : System Server Event where
  initial := ({} : Server).accept
  step := fun server event => if server.thrown = true then none else server.react event

theorem machine_step (server : Server) (event : Event) :
    machine.step server event = if server.thrown = true then none else server.react event := rfl

end Server
end Streambuf
end LearnAsio
