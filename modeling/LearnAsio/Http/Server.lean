import LearnAsio.Http.Connection
import LearnAsio.Transition.System
import Mathlib.Data.Finset.Basic
import Mathlib.Logic.Function.Basic

namespace LearnAsio
namespace Http

open Transition

/-!
# The server as an event loop

`io_context::run` executes one completion handler at a time on one thread.  The
state between two handlers consists of the connections, the manager's set,
`new_connection_`, the acceptor with its outstanding accepts and the signal
wait.  An event is either something the operating system does to an outstanding
operation, or the execution of one queued handler.  Handlers may be executed in
any order.

Everything the environment decides is in the event: the bytes a read delivers,
how many bytes a write takes and what it finds in the buffers, the date, the
order in which the set is iterated, and which calls throw.  A handler that
throws ends the loop, since `main` catches option errors only.  A handler bound
to a connection that has lost its last owner has undefined behaviour, and the
loop is not followed any further.
-/

/-- `connection::buffer_size`. -/
def bufferSize : Nat := 1024

inductive Status where
  | running | thrown | undefined
  deriving DecidableEq, Repr

inductive SignalWait where
  | waiting | queued | handled
  deriving DecidableEq, Repr

/-- `class server`.  Connections are numbered in the order in which
`start_accept` creates them. -/
structure Server (env : Env) where
  connection : Nat → Connection env := fun _ => {}
  connections : Finset Nat := ∅
  newConnection : Nat := 0
  acceptorOpen : Bool := true
  accepts : List Accept := [{ target := 0 }]
  signalWait : SignalWait := .waiting
  status : Status := .running

namespace Server

variable {env : Env}

/-- Apply a member function of one connection. -/
def update (server : Server env) (id : Nat) (change : Connection env → Connection env) :
    Server env :=
  { server with
    connection := Function.update server.connection id (change (server.connection id)) }

/-- The connection is in `connections_`, is `new_connection_`, or is held by the
handler of one of its operations. -/
def Owned (server : Server env) (id : Nat) : Prop :=
  id ∈ server.connections ∨ server.newConnection = id ∨
    ∃ operation ∈ (server.connection id).operations, operation.ownsConnection = true

instance (server : Server env) (id : Nat) : Decidable (server.Owned id) :=
  inferInstanceAs (Decidable (_ ∨ _ ∨ _))

/-- The storage of a write's buffers still holds the strings they were taken
from. -/
def Intact (server : Server env) (id : Nat) (buffers : Buffers) : Prop :=
  buffers.storage = .response ∧ (server.connection id).response = buffers.source ∧
    server.Owned id

instance (server : Server env) (id : Nat) (buffers : Buffers) :
    Decidable (server.Intact id buffers) :=
  inferInstanceAs (Decidable (_ ∧ _ ∧ _))

/-! ### `connection_manager` -/

/-- Closing an open socket may throw; the descriptor is closed even then. -/
def closeThrows (server : Server env) (id : Nat) (throws : Bool) : Bool :=
  throws && (server.connection id).isOpen

def managerStart (server : Server env) (id : Nat) : Server env :=
  { server with connections := insert id server.connections }.update id Connection.start

def managerStop (server : Server env) (id : Nat) (throws : Bool) : Server env :=
  let stopped := server.update id Connection.stop
  if server.closeThrows id throws then { stopped with status := .thrown }
  else { stopped with connections := stopped.connections.erase id }

/-- `connection_manager::stop_all`, iterating in the given order. -/
def stopAll (server : Server env) (throws : Nat → Bool) : List Nat → Server env
  | [] => { server with connections := ∅ }
  | id :: rest =>
      let stopped := server.update id Connection.stop
      if server.closeThrows id (throws id) then { stopped with status := .thrown }
      else stopAll stopped throws rest

/-! ### `server` -/

def startAccept (server : Server env) : Server env :=
  let id := server.newConnection + 1
  let completion := if server.acceptorOpen then none else some .failure
  { server with
    newConnection := id
    connection := Function.update server.connection id {}
    accepts := server.accepts ++ [{ target := id, completion := completion }] }

/-- `server::hanlde_accept`, after the accept has assigned the socket. -/
def hanldeAccept (server : Server env) (ec : ErrorCode) (endpointThrows : Bool) : Server env :=
  if !server.acceptorOpen then server
  else if ec ≠ .success then server.startAccept
  else if endpointThrows then { server with status := .thrown }
  else (server.managerStart server.newConnection).startAccept

/-- `server::hanlde_stop`. -/
def hanldeStop (server : Server env) (order : List Nat) (acceptorThrows : Bool)
    (throws : Nat → Bool) : Server env :=
  let closed :=
    { server with acceptorOpen := false, accepts := server.accepts.map Accept.cancel }
  if acceptorThrows then { closed with status := .thrown } else closed.stopAll throws order

/-! ### The handlers of a connection -/

/-- `connection::handle_read`. -/
def handleRead (server : Server env) (id : Nat) (completion : Completion) (date : Bytes)
    (throws : Bool) : Server env :=
  if completion.ec = .failure then server.managerStop id throws
  else server.update id fun connection => connection.receive completion.bytesTransferred date

/-- `connection::handle_write`, which was bound to a bare pointer. -/
def handleWrite (server : Server env) (id : Nat) (completion : Completion) (throws : Bool) :
    Server env :=
  if ¬ server.Owned id then { server with status := .undefined }
  else if completion.ec = .failure then server.managerStop id throws
  else server.update id Connection.shutdown

end Server

/-! ## Events -/

inductive Event where
  | acceptDone (index : Nat) (ec : ErrorCode)
  | readDone (id index : Nat) (data : Bytes)
  | readFailed (id index : Nat)
  | writeDone (id index count : Nat) (memory : Bytes)
  | writeFailed (id index : Nat)
  | signalRaised
  | hanldeAccept (index : Nat) (endpointThrows : Bool)
  | handleRead (id index : Nat) (date : Bytes) (throws : Bool)
  | handleWrite (id index : Nat) (throws : Bool)
  | hanldeStop (order : List Nat) (acceptorThrows : Bool) (throws : Nat → Bool)

namespace Connection

variable {env : Env}

/-- Queue the completion of an operation. -/
def complete (connection : Connection env) (index : Nat) (kind : OperationKind)
    (completion : Completion) : Connection env :=
  { connection with
    operations := connection.operations.set index { kind := kind, completion := some completion } }

/-- A read places its bytes at the front of the buffer. -/
def completeRead (connection : Connection env) (index : Nat) (data : Bytes) : Connection env :=
  { connection.complete index .readSome { ec := .success, bytesTransferred := data.length } with
    buffer := data ++ connection.buffer.drop data.length }

/-- The socket accepts the first bytes of what the buffers hold. -/
def completeWrite (connection : Connection env) (index : Nat) (buffers : Buffers) (count : Nat)
    (memory : Bytes) : Connection env :=
  { connection.complete index (.writeSome buffers)
      { ec := .success, bytesTransferred := count } with
    accepted := connection.accepted ++ memory.take count
    memory := memory }

/-- Take an operation whose handler is about to run out of the queue. -/
def dequeue (connection : Connection env) (index : Nat) : Connection env :=
  { connection with operations := connection.operations.eraseIdx index }

/-- A successful accept assigns the socket. -/
def assign (connection : Connection env) : Connection env :=
  { connection with isOpen := true }

end Connection

namespace Server

variable {env : Env}

/-- Take a completed accept out of the queue.  A successful one has assigned the
socket of its target. -/
def dequeueAccept (server : Server env) (index target : Nat) (ec : ErrorCode) : Server env :=
  let dequeued := { server with accepts := server.accepts.eraseIdx index }
  if ec = .success then dequeued.update target Connection.assign else dequeued

/-- One event in a running loop. -/
def react (server : Server env) : Event → Option (Server env)
  | .acceptDone index ec =>
      match server.accepts[index]? with
      | some { target, completion := none } =>
          if ec = .operationAborted then none
          else some { server with
            accepts := server.accepts.set index { target := target, completion := some ec } }
      | _ => none
  | .readDone id index data =>
      match (server.connection id).operations[index]? with
      | some { kind := .readSome, completion := none } =>
          if 1 ≤ data.length ∧ data.length ≤ bufferSize then
            some (server.update id fun connection => connection.completeRead index data)
          else none
      | _ => none
  | .readFailed id index =>
      match (server.connection id).operations[index]? with
      | some { kind := .readSome, completion := none } =>
          some (server.update id fun connection =>
            connection.complete index .readSome { ec := .failure })
      | _ => none
  | .writeDone id index count memory =>
      match (server.connection id).operations[index]? with
      | some { kind := .writeSome buffers, completion := none } =>
          if 1 ≤ count ∧ count ≤ buffers.whole.length ∧ memory.length = buffers.whole.length ∧
              (server.Intact id buffers → memory = buffers.whole) then
            some (server.update id fun connection =>
              connection.completeWrite index buffers count memory)
          else none
      | _ => none
  | .writeFailed id index =>
      match (server.connection id).operations[index]? with
      | some { kind := .writeSome buffers, completion := none } =>
          some (server.update id fun connection =>
            connection.complete index (.writeSome buffers) { ec := .failure })
      | _ => none
  | .signalRaised =>
      if server.signalWait = .waiting then some { server with signalWait := .queued } else none
  | .hanldeAccept index endpointThrows =>
      match server.accepts[index]? with
      | some { target, completion := some ec } =>
          some ((server.dequeueAccept index target ec).hanldeAccept ec endpointThrows)
      | _ => none
  | .handleRead id index date throws =>
      match (server.connection id).operations[index]? with
      | some { kind := .readSome, completion := some completion } =>
          some ((server.update id fun connection => connection.dequeue index).handleRead
            id completion date throws)
      | _ => none
  | .handleWrite id index throws =>
      match (server.connection id).operations[index]? with
      | some { kind := .writeSome _, completion := some completion } =>
          some ((server.update id fun connection => connection.dequeue index).handleWrite
            id completion throws)
      | _ => none
  | .hanldeStop order acceptorThrows throws =>
      if server.signalWait = .queued ∧ order.Nodup ∧ order.toFinset = server.connections then
        some ({ server with signalWait := .handled }.hanldeStop order acceptorThrows throws)
      else none

/-- The server, started by its constructor. -/
def machine (env : Env) : System (Server env) Event where
  initial := {}
  step := fun server event => if server.status = .running then server.react event else none

theorem machine_step (server : Server env) (event : Event) :
    (machine env).step server event =
      if server.status = .running then server.react event else none := rfl

end Server
end Http
end LearnAsio
