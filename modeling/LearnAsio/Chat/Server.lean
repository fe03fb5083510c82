import LearnAsio.Chat.Session
import LearnAsio.Transition.System
import Mathlib.Logic.Function.Basic

namespace LearnAsio
namespace Chat

open Transition

/-!
# The chat server as an event loop

`io_context::run` executes one completion handler at a time on one thread.  The
state between two handlers consists of the sessions, the vector `sessions_` and
the outstanding accept.  An event is either something the operating system does
to an outstanding operation, or the execution of one queued handler.

Everything the environment decides is in the event: the bytes that arrive, the
outcome of a write, the peer's address and which calls throw.  A handler that
throws ends the loop, since `main` catches nothing.

The server remembers what has been passed to `broadcast`, for whom, and how much
of that there was when a session was added.  No function reads it.
-/

/-- The session that a broadcast is about, and where the call is made: in
`on_accept`, in `on_read` or in the destructor. -/
inductive Origin where
  | joined (id : Nat) | line (id : Nat) | left (id : Nat)
  deriving DecidableEq, Repr

structure Broadcast where
  origin : Origin
  post : Post
  deriving DecidableEq, Repr

/-- `class server`.  Sessions are numbered in the order in which `accept`
creates them. -/
structure Server where
  session : Nat → Session := fun _ => {}
  sessions : List Nat := []
  newSession : Nat := 0
  accepts : List Accept := []
  thrown : Bool := false
  broadcasts : List Broadcast := []
  addedAt : Nat → Nat := fun _ => 0

namespace Server

/-- Apply a member function of one session. -/
def update (server : Server) (id : Nat) (change : Session → Session) : Server :=
  { server with session := Function.update server.session id (change (server.session id)) }

/-- The loop of `server::broadcast`. -/
def postEach (server : Server) (message : Post) : List Nat → Server
  | [] => server
  | id :: rest => (server.update id fun session => session.post message).postEach message rest

/-- `server::broadcast`. -/
def broadcast (server : Server) (origin : Origin) (message : Bytes) : Server :=
  let post : Post := { message := message, broadcast := some server.broadcasts.length }
  let logged : Server :=
    { server with broadcasts := server.broadcasts ++ [{ origin := origin, post := post }] }
  logged.postEach post server.sessions

/-- The session is in `sessions_` or is held by the handler of an operation. -/
def Owned (server : Server) (id : Nat) : Prop :=
  id ∈ server.sessions ∨ (∃ accept ∈ server.accepts, accept.target = id) ∨
    (server.session id).reads ≠ [] ∨ (server.session id).writes ≠ []

instance (server : Server) (id : Nat) : Decidable (server.Owned id) :=
  inferInstanceAs (Decidable (_ ∨ _ ∨ _ ∨ _))

/-- A handler that has returned drops its shared pointer, and the last one runs
`session::~session`. -/
def release (server : Server) (id : Nat) : Server :=
  if server.thrown = true ∨ server.Owned id then server
  else server.broadcast (.left id) ((server.session id).name ++ bytes " has left the chat")

/-- `server::accept`. -/
def accept (server : Server) : Server :=
  { server with
    session := Function.update server.session server.newSession {}
    newSession := server.newSession + 1
    accepts := server.accepts ++ [{ target := server.newSession }] }

/-- `sessions_.push_back`. -/
def pushBack (server : Server) (id : Nat) : Server :=
  { server with
    sessions := server.sessions ++ [id]
    addedAt := Function.update server.addedAt id server.broadcasts.length }

/-- `on_accept` up to the call of `start`. -/
def welcome (server : Server) (id : Nat) (endpoint : Bytes) : Server :=
  (server.broadcast (.joined id) (endpoint ++ bytes " joined\n")).update id fun session =>
    session.post { message := bytes "Welcome to the chat server\n" }

/-- `server::on_accept`.  Each call of `remote_endpoint` may throw, the first one
in `on_accept` and the second one in `start`. -/
def onAccept (server : Server) (ec : ErrorCode) (id : Nat) (endpoint : Bytes)
    (joinedThrows startThrows : Bool) : Server :=
  if ec ≠ .success then server
  else if joinedThrows then { server with thrown := true }
  else if startThrows then { server.welcome id endpoint with thrown := true }
  else
    (((server.welcome id endpoint).update id fun session => session.start endpoint).pushBack
      id).accept

/-! ### The handlers of a session -/

/-- `session::on_error`.  Closing an open socket may throw; the descriptor is
closed even then. -/
def onError (server : Server) (id : Nat) (change : Session → Session) (throws : Bool) : Server :=
  { server.update id change with thrown := throws && (server.session id).isOpen }

/-- `session::on_read`. -/
def onRead (server : Server) (id : Nat) (completion : Completion) (throws : Bool) : Server :=
  if completion.error ≠ .success then server.onError id Session.onError throws
  else
    let (line, session) := (server.session id).takeLine completion.bytesTransferred
    ((server.update id fun _ => session).broadcast (.line id) (session.name ++ line)).update id
      fun session => session.post { message := line }

/-- `session::on_write`. -/
def onWrite (server : Server) (id : Nat) (written : Post) (error : ErrorCode) (throws : Bool) :
    Server :=
  if error ≠ .success then server.onError id Session.writeError throws
  else server.update id fun session => session.popFront written

end Server

/-! ## Events -/

inductive Event where
  | acceptDone (index : Nat) (ec : ErrorCode)
  | arrive (id index : Nat) (data : Bytes)
  | readFailed (id index : Nat)
  | writeDone (id index : Nat)
  | writeFailed (id index : Nat)
  | onAccept (index : Nat) (endpoint : Bytes) (joinedThrows startThrows : Bool)
  | onRead (id index : Nat) (throws : Bool)
  | onWrite (id index : Nat) (throws : Bool)
  deriving DecidableEq, Repr

namespace Server

/-- Take a completed accept out of the queue.  A successful one has assigned the
socket of its target. -/
def dequeueAccept (server : Server) (index target : Nat) (ec : ErrorCode) : Server :=
  let dequeued := { server with accepts := server.accepts.eraseIdx index }
  if ec = .success then dequeued.update target fun session => { session with isOpen := true }
  else dequeued

/-- One event in a running loop.  The text of an endpoint is one line. -/
def react (server : Server) : Event → Option Server
  | .acceptDone index ec =>
      match server.accepts[index]? with
      | some { target, completion := none } =>
          if ec = .operationAborted then none
          else some { server with
            accepts := server.accepts.set index { target := target, completion := some ec } }
      | _ => none
  | .arrive id index data =>
      match (server.session id).reads[index]? with
      | some { completion := none } =>
          if data = [] then none
          else some (server.update id fun session => session.arrive index data)
      | _ => none
  | .readFailed id index =>
      match (server.session id).reads[index]? with
      | some { completion := none } => some (server.update id fun session => session.failRead index)
      | _ => none
  | .writeDone id index =>
      match (server.session id).writes[index]? with
      | some { post, completion := none } =>
          some (server.update id fun session => session.completeWrite index post .success)
      | _ => none
  | .writeFailed id index =>
      match (server.session id).writes[index]? with
      | some { post, completion := none } =>
          some (server.update id fun session => session.completeWrite index post .failure)
      | _ => none
  | .onAccept index endpoint joinedThrows startThrows =>
      match server.accepts[index]? with
      | some { target, completion := some ec } =>
          if newline ∈ endpoint then none
          else some (((server.dequeueAccept index target ec).onAccept ec target endpoint
            joinedThrows startThrows).release target)
      | _ => none
  | .onRead id index throws =>
      match (server.session id).reads[index]? with
      | some { completion := some completion } =>
          some (((server.update id fun session => session.dequeueRead index).onRead id completion
            throws).release id)
      | _ => none
  | .onWrite id index throws =>
      match (server.session id).writes[index]? with
      | some { post, completion := some completion } =>
          some (((server.update id fun session => session.dequeueWrite index).onWrite id post
            completion.error throws).release id)
      | _ => none

/-- `server::run` accepts the first client before it runs the loop. -/
def machine : System Server Event where
  initial := ({} : Server).accept
  step := fun server event => if server.thrown = true then none else server.react event

theorem machine_step (server : Server) (event : Event) :
    machine.step server event = if server.thrown = true then none else server.react event := rfl

end Server
end Chat
end LearnAsio
