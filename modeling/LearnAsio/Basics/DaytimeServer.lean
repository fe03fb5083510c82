import LearnAsio.Asio
import LearnAsio.Transition.History
import LearnAsio.Transition.Outstanding
import LearnAsio.Transition.Pending
import Mathlib.Data.Multiset.Range
import Mathlib.Logic.Function.Basic
import Mathlib.Tactic.Abel

namespace LearnAsio
namespace Basics

open Transition

/-!
# The TCP daytime servers

`TcpServer` of `daytime3` and of `daytime7` accepts one client after another.  The
handler of an accept makes the message, begins to write it with `async_write`, which
goes on until all of it has been taken, and accepts again.  A connection is kept alive
by the one operation that is outstanding for it and is destroyed after the handler of
its write.  Both handlers throw when their operation has failed.

The connection of `daytime3` asks its socket for the peer, in `Start` and in its
destructor, and the call throws when the peer is gone or there has never been one.  The
accepted socket is moved to the connection only when the handler of the accept is about
to be called, so until then the connection has no peer.  An exception that leaves a
destructor ends the program, and so never comes to the `catch` of `main`.

Steady clock: `time` reads the system clock, which may be set.  It is assumed here that
nobody does, so that the clock only moves forward, and it is read to the second as
`time_t` is.
-/

/-- The programs with this server. -/
inductive Program where
  | daytime3 | daytime7
  deriving DecidableEq, Repr

/-- How the loop ends: in the `catch` of `main`, or in `std::terminate`. -/
inductive Ending where
  | caught | terminated
  deriving DecidableEq, Repr

/-- `class TcpConnection`, with the text of the peer's endpoint as long as the socket
knows it and the bytes that the socket has taken. -/
structure TcpConnection where
  peer : Option Bytes := none
  message : Bytes := []
  taken : Bytes := []
  deriving DecidableEq, Repr

/-- An `async_accept` whose handler has not run, with the number of the connection whose
socket it fills and the text of the client's endpoint, as long as the accepted socket
knows it. -/
structure TcpAccept where
  target : Nat
  completion : Option ErrorCode := none
  peer : Option Bytes := none
  deriving DecidableEq, Repr

/-- An `async_write` whose handler has not run. -/
structure TcpWrite where
  target : Nat
  completion : Option ErrorCode := none
  deriving DecidableEq, Repr

/-- `class TcpServer` and the loop.  Connections are numbered as they are created, and
`destroyed` lists those whose destructor has run in the loop. -/
structure TcpServer where
  now : Nat := 0
  connection : Nat → TcpConnection := fun _ => {}
  newConnection : Nat := 0
  accepts : List TcpAccept := []
  writes : List TcpWrite := []
  destroyed : List Nat := []
  ended : Option Ending := none

namespace Program

/-- What `Start` writes. -/
def message (ctime : Nat → Bytes) (now : Nat) (peer : Bytes) : Program → Bytes
  | daytime3 => ctime now ++ bytes "client address is " ++ peer ++ bytes "\n"
  | daytime7 => ctime now

/-- `Start` and the destructor call `remote_endpoint`. -/
def asksPeer : Program → Bool
  | daytime3 => true
  | daytime7 => false

/-- The seconds for which the handler of a write sleeps. -/
def sleeps : Program → Nat
  | daytime3 => 5
  | daytime7 => 0

end Program

namespace TcpServer

/-- Apply a member function of one connection. -/
def update (server : TcpServer) (id : Nat) (change : TcpConnection → TcpConnection) : TcpServer :=
  { server with
    connection := Function.update server.connection id (change (server.connection id)) }

/-- Does `remote_endpoint` throw in this program for this connection? -/
def peerThrows (program : Program) (server : TcpServer) (id : Nat) : Bool :=
  program.asksPeer && (server.connection id).peer.isNone

/-- The connections that operations keep alive. -/
def heldByOperations (server : TcpServer) : List Nat :=
  server.accepts.map TcpAccept.target ++ server.writes.map TcpWrite.target

/-- An exception leaves a handler.  The connection that the handler has kept alive is
destroyed first, and the others with the context. -/
def unwind (program : Program) (server : TcpServer) (id : Nat) : TcpServer :=
  { server with
    ended := some (if (id :: server.heldByOperations).any (server.peerThrows program) then
      .terminated else .caught) }

/-- `start_accept`. -/
def startAccept (server : TcpServer) : TcpServer :=
  { server with
    newConnection := server.newConnection + 1
    accepts := server.accepts ++ [{ target := server.newConnection }] }

/-- `Start`, where it does not throw. -/
def start (program : Program) (ctime : Nat → Bytes) (server : TcpServer) (id : Nat) : TcpServer :=
  let message := program.message ctime server.now ((server.connection id).peer.getD [])
  { server.update id fun connection => { connection with message := message } with
    writes := server.writes ++
      [{ target := id, completion := if message = [] then some .success else none }] }

/-- Take a completed accept out of the queue.  A successful one has assigned the
socket of its target. -/
def dequeueAccept (server : TcpServer) (index target : Nat) (ec : ErrorCode)
    (peer : Option Bytes) : TcpServer :=
  let dequeued := { server with accepts := server.accepts.eraseIdx index }
  if ec = .success then
    dequeued.update target fun connection => { connection with peer := peer }
  else dequeued

def dequeueWrite (server : TcpServer) (index : Nat) : TcpServer :=
  { server with writes := server.writes.eraseIdx index }

/-- `TcpServer::accept`. -/
def accept (program : Program) (ctime : Nat → Bytes) (server : TcpServer) (id : Nat)
    (ec : ErrorCode) : TcpServer :=
  if ec ≠ .success then server.unwind program id
  else if server.peerThrows program id then server.unwind program id
  else (server.start program ctime id).startAccept

/-- The destructor of a connection after its last handler. -/
def destroy (program : Program) (server : TcpServer) (id : Nat) : TcpServer :=
  { server with
    destroyed := server.destroyed ++ [id]
    ended := if server.peerThrows program id then some .terminated else server.ended }

/-- `TcpConnection::write`, and the end of its handler. -/
def write (program : Program) (server : TcpServer) (id : Nat) (ec : ErrorCode) : TcpServer :=
  let slept := { server with now := server.now + program.sleeps }
  if ec ≠ .success then slept.unwind program id else slept.destroy program id

/-- Time passes, something happens to a socket, or a handler runs. -/
inductive Event where
  | pass (seconds : Nat)
  | acceptDone (index : Nat) (ec : ErrorCode) (peer : Bytes)
  | goneQueued (index : Nat)
  | gone (id : Nat)
  | writeSome (index count : Nat)
  | writeFailed (index : Nat)
  | accept (index : Nat)
  | write (index : Nat)
  deriving DecidableEq, Repr

/-- An accept ends.  If it has succeeded there is a socket with a peer. -/
def acceptDone (server : TcpServer) (index target : Nat) (ec : ErrorCode) (peer : Bytes) :
    TcpServer :=
  { server with
    accepts := server.accepts.set index
      { target := target, completion := some ec
        peer := if ec = .success then some peer else none } }

/-- A client goes before the handler of its accept has run. -/
def goneQueued (server : TcpServer) (index : Nat) (accept : TcpAccept) : TcpServer :=
  { server with accepts := server.accepts.set index { accept with peer := none } }

/-- The socket takes some of the bytes that are left; the operation ends with the
last of them. -/
def writeSome (server : TcpServer) (index target count : Nat) : TcpServer :=
  let connection := server.connection target
  let taken := connection.message.take (connection.taken.length + count)
  { server.update target fun connection => { connection with taken := taken } with
    writes := if taken = connection.message then
      server.writes.set index { target := target, completion := some .success }
    else server.writes }

def writeFailed (server : TcpServer) (index target : Nat) : TcpServer :=
  { server with
    writes := server.writes.set index { target := target, completion := some .failure } }

def step (program : Program) (ctime : Nat → Bytes) (server : TcpServer) (event : Event) :
    Option TcpServer :=
  if server.ended = none then
    match event with
    | .pass seconds => some { server with now := server.now + seconds }
    | .acceptDone index ec peer =>
        match server.accepts[index]? with
        | some { target, completion := none, .. } =>
            if ec = .operationAborted then none
            else some (server.acceptDone index target ec peer)
        | _ => none
    | .goneQueued index =>
        match server.accepts[index]? with
        | some accept => if accept.peer.isSome then some (server.goneQueued index accept) else none
        | none => none
    | .gone id =>
        if (server.connection id).peer.isSome then
          some (server.update id fun connection => { connection with peer := none })
        else none
    | .writeSome index count =>
        match server.writes[index]? with
        | some { target, completion := none } =>
            if 1 ≤ count ∧ (server.connection target).taken.length + count ≤
                (server.connection target).message.length then
              some (server.writeSome index target count)
            else none
        | _ => none
    | .writeFailed index =>
        match server.writes[index]? with
        | some { target, completion := none } => some (server.writeFailed index target)
        | _ => none
    | .accept index =>
        match server.accepts[index]? with
        | some { target, completion := some ec, peer } =>
            some ((server.dequeueAccept index target ec peer).accept program ctime target ec)
        | _ => none
    | .write index =>
        match server.writes[index]? with
        | some { target, completion := some ec } =>
            some ((server.dequeueWrite index).write program target ec)
        | _ => none
  else none

/-- The constructor begins the first accept. -/
def machine (program : Program) (ctime : Nat → Bytes) : System TcpServer Event where
  initial := ({} : TcpServer).startAccept
  step := step program ctime

/-- What one step does, and when it can. -/
inductive Moves (program : Program) (ctime : Nat → Bytes) (server : TcpServer) :
    Event → TcpServer → Prop
  | pass (seconds : Nat) :
      Moves program ctime server (.pass seconds) { server with now := server.now + seconds }
  | acceptDone {index target : Nat} {ec : ErrorCode} {before : Option Bytes} (peer : Bytes)
      (listed : server.accepts[index]? = some { target := target, peer := before }) :
      Moves program ctime server (.acceptDone index ec peer)
        (server.acceptDone index target ec peer)
  | goneQueued {index : Nat} {accept : TcpAccept}
      (listed : server.accepts[index]? = some accept) :
      Moves program ctime server (.goneQueued index) (server.goneQueued index accept)
  | gone {id : Nat} :
      Moves program ctime server (.gone id)
        (server.update id fun connection => { connection with peer := none })
  | writeSome {index target count : Nat}
      (listed : server.writes[index]? = some { target := target })
      (fits : (server.connection target).taken.length + count ≤
        (server.connection target).message.length) :
      Moves program ctime server (.writeSome index count) (server.writeSome index target count)
  | writeFailed {index target : Nat} (listed : server.writes[index]? = some { target := target }) :
      Moves program ctime server (.writeFailed index) (server.writeFailed index target)
  | acceptThrew {index target : Nat} {ec : ErrorCode} {peer : Option Bytes}
      (listed : server.accepts[index]? =
        some { target := target, completion := some ec, peer := peer })
      (threw : ec ≠ .success ∨ (program.asksPeer && peer.isNone) = true) :
      Moves program ctime server (.accept index)
        ((server.dequeueAccept index target ec peer).unwind program target)
  | accepted {index target : Nat} {peer : Option Bytes}
      (listed : server.accepts[index]? =
        some { target := target, completion := some .success, peer := peer })
      (known : (program.asksPeer && peer.isNone) = false) :
      Moves program ctime server (.accept index)
        ((server.dequeueAccept index target .success peer).start program ctime target).startAccept
  | writeThrew {index target : Nat} {ec : ErrorCode}
      (listed : server.writes[index]? = some { target := target, completion := some ec })
      (failed : ec ≠ .success) :
      Moves program ctime server (.write index)
        (({ server.dequeueWrite index with now := server.now + program.sleeps } :
          TcpServer).unwind program target)
  | written {index target : Nat}
      (listed : server.writes[index]? = some { target := target, completion := some .success }) :
      Moves program ctime server (.write index)
        (({ server.dequeueWrite index with now := server.now + program.sleeps } :
          TcpServer).destroy program target)

/-- The operation ends with the last bytes of the message, and only then. -/
theorem writeSome_writes (server : TcpServer) (index target count : Nat) :
    ((server.connection target).message.take ((server.connection target).taken.length + count) =
        (server.connection target).message ∧
      (server.writeSome index target count).writes =
        server.writes.set index { target := target, completion := some .success }) ∨
      (server.writeSome index target count).writes = server.writes := by
  by_cases ends : (server.connection target).message.take
      ((server.connection target).taken.length + count) = (server.connection target).message
  · exact Or.inl ⟨ends, if_pos ends⟩
  · exact Or.inr (if_neg ends)

/-- A successful accept has given the connection its peer. -/
theorem dequeueAccept_connection (server : TcpServer) (index target : Nat)
    (peer : Option Bytes) :
    (server.dequeueAccept index target .success peer).connection target =
      { server.connection target with peer := peer } := by
  simp [dequeueAccept, update]

theorem dequeueAccept_connection_of_ne {server : TcpServer} {index target other : Nat}
    (different : other ≠ target) (ec : ErrorCode) (peer : Option Bytes) :
    (server.dequeueAccept index target ec peer).connection other = server.connection other := by
  unfold dequeueAccept
  dsimp only
  split
  · simp [update, Function.update_of_ne different]
  · rfl

theorem peerThrows_dequeueAccept (program : Program) (server : TcpServer) (index target : Nat)
    (peer : Option Bytes) :
    (server.dequeueAccept index target .success peer).peerThrows program target =
      (program.asksPeer && peer.isNone) := by
  rw [peerThrows, dequeueAccept_connection]

theorem moves_of_step {program : Program} {ctime : Nat → Bytes} {server next : TcpServer}
    {event : Event} (moved : (machine program ctime).step server event = some next) :
    server.ended = none ∧ Moves program ctime server event next := by
  change step program ctime server event = some next at moved
  unfold step at moved
  split at moved
  next running =>
    refine ⟨running, ?_⟩
    cases event with
    | pass seconds =>
        cases moved
        exact .pass seconds
    | acceptDone index ec peer =>
        dsimp only at moved
        split at moved
        next listed =>
          split at moved
          next => cases moved
          next =>
            cases moved
            exact .acceptDone peer listed
        next => cases moved
    | goneQueued index =>
        dsimp only at moved
        split at moved
        next listed =>
          split at moved
          next =>
            cases moved
            exact .goneQueued listed
          next => cases moved
        next => cases moved
    | gone id =>
        dsimp only at moved
        split at moved
        next =>
          cases moved
          exact .gone
        next => cases moved
    | writeSome index count =>
        dsimp only at moved
        split at moved
        next listed =>
          split at moved
          next fits =>
            cases moved
            exact .writeSome listed fits.2
          next => cases moved
        next => cases moved
    | writeFailed index =>
        dsimp only at moved
        split at moved
        next listed =>
          cases moved
          exact .writeFailed listed
        next => cases moved
    | accept index =>
        dsimp only at moved
        split at moved
        next target ec peer listed =>
          cases moved
          unfold accept
          split
          next failed => exact .acceptThrew listed (Or.inl failed)
          next success =>
            have ends : ec = .success := not_not.mp success
            subst ends
            rw [peerThrows_dequeueAccept]
            split
            next threw => exact .acceptThrew listed (Or.inr threw)
            next known => exact .accepted listed (Bool.eq_false_iff.mpr known)
        next => cases moved
    | write index =>
        dsimp only at moved
        split at moved
        next target ec listed =>
          cases moved
          unfold write
          dsimp only
          split
          next failed => exact .writeThrew listed failed
          next success =>
            have ends : ec = .success := not_not.mp success
            subst ends
            exact .written listed
        next => cases moved
  next => cases moved

/-! ## What has happened so far -/

namespace Event

/-- The seconds that an event takes. -/
def duration (program : Program) : Event → Nat
  | .pass seconds => seconds
  | .write _ => program.sleeps
  | _ => 0

/-- The peer of a connection that comes about with an event. -/
def connected? : Event → Option Bytes
  | .acceptDone _ ec peer => if ec = .success then some peer else none
  | _ => none

/-- Whether an event is a call of `accept`. -/
def accept? : Event → Option Unit
  | .accept _ => some ()
  | _ => none

end Event

/-- The clients of a run, in the order in which they have come. -/
def clients (events : List Event) : List Bytes :=
  events.filterMap Event.connected?

/-- The times at which `accept` has been called. -/
def calls (program : Program) (events : List Event) : List Nat :=
  (moments (Event.duration program) Event.accept? 0 events).map Prod.fst

/-- The outstanding accept is waiting for client `id`, has failed, or has ended with
it. -/
inductive Turn (clients : List Bytes) (peer : Option Bytes) (id : Nat) : Option ErrorCode → Prop
  | waiting (level : clients.length = id) (unknown : peer = none) : Turn clients peer id none
  | failed {ec : ErrorCode} (error : ec ≠ .success) (unknown : peer = none) :
      Turn clients peer id (some ec)
  | connected {earlier : List Bytes} {address : Bytes} (whole : clients = earlier ++ [address])
      (level : earlier.length = id) (known : ∀ other, peer = some other → other = address) :
      Turn clients peer id (some .success)

/-- The server waits for the client that comes after the calls of `accept`, and its
connection has no peer yet. -/
structure Waits (program : Program) (events : List Event) (server : TcpServer)
    (accept : TcpAccept) : Prop where
  accepts : server.accepts = [accept]
  created : server.newConnection = accept.target + 1
  level : (calls program events).length = accept.target
  turn : Turn (clients events) accept.peer accept.target accept.completion
  unmet : ∀ other, accept.target ≤ other → (server.connection other).peer = none

/-- The connection that a write keeps alive. -/
def keeps (write : TcpWrite) : Option Nat :=
  some write.target

/-- Every connection that has been started is written to or has been destroyed, and
only once; the exception of a write may have lost one. -/
def Conserved (server : TcpServer) : Prop :=
  ∃ lost : List Nat, lost.length ≤ 1 ∧ (server.ended = none → lost = []) ∧
    held keeps server.writes + (server.destroyed : Multiset Nat) + (lost : Multiset Nat) =
      Multiset.range (server.newConnection - 1)

/-- The message of a connection is made when `accept` is called for it, and is on its
way from the front. -/
structure Delivers (program : Program) (ctime : Nat → Bytes) (events : List Event)
    (server : TcpServer) : Prop where
  fresh : ∀ id, server.newConnection ≤ id + 1 →
    (server.connection id).message = [] ∧ (server.connection id).taken = []
  said : ∀ id, id + 1 < server.newConnection → ∃ time peer,
    (calls program events)[id]? = some time ∧ (clients events)[id]? = some peer ∧
      (server.connection id).message = program.message ctime time peer
  begun : ∀ id, (server.connection id).taken <+: (server.connection id).message
  complete : ∀ write ∈ server.writes, write.completion = some .success →
    (server.connection write.target).taken = (server.connection write.target).message
  whole : ∀ id ∈ server.destroyed, (server.connection id).taken = (server.connection id).message

/-- All of this holds after any events. -/
structure Lawful (program : Program) (ctime : Nat → Bytes) (events : List Event)
    (server : TcpServer) : Prop where
  clock : server.now = elapsed (Event.duration program) events
  waits : server.ended = none → ∃ accept, Waits program events server accept
  conserved : server.Conserved
  delivers : Delivers program ctime events server

/-! ## One event -/

section Events

variable {program : Program} {ctime : Nat → Bytes} {events : List Event} {event : Event}

theorem clients_concat (events : List Event) (event : Event) :
    clients (events ++ [event]) = clients events ++ event.connected?.toList := by
  rw [clients, List.filterMap_append]
  cases joins : event.connected? with
  | none => simp [clients, joins]
  | some peer => simp [clients, joins]

theorem calls_of_uncalled (uncalled : event.accept? = none) :
    calls program (events ++ [event]) = calls program events := by
  simp only [calls, moments_concat_of_none _ _ uncalled 0 events]

theorem calls_accept (program : Program) (events : List Event) (index : Nat) :
    calls program (events ++ [.accept index]) =
      calls program events ++ [elapsed (Event.duration program) events] := by
  have leaves : Event.accept? (.accept index) = some () := rfl
  have called := moments_concat_of_mark (Event.duration program) Event.accept? leaves 0 events
  rw [Nat.zero_add] at called
  rw [calls, called, List.map_append]
  rfl

/-- What has been called remains. -/
theorem calls_extend (program : Program) (events : List Event) (event : Event) :
    calls program events <+: calls program (events ++ [event]) := by
  rw [calls, calls, moments_append, List.map_append]
  exact List.prefix_append _ _

theorem clients_extend (events : List Event) (event : Event) :
    clients events <+: clients (events ++ [event]) := by
  rw [clients_concat]
  exact List.prefix_append _ _

theorem getElem?_of_extend {Entry : Type} {shorter longer : List Entry} {index : Nat}
    {entry : Entry} (ahead : shorter <+: longer) (listed : shorter[index]? = some entry) :
    longer[index]? = some entry := by
  rcases List.getElem?_eq_some_iff.mp listed with ⟨bound, same⟩
  rw [← same]
  exact List.prefix_iff_getElem?.mp ahead index bound

/-- A client that has gone is no longer known. -/
theorem Turn.gone {arrived : List Bytes} {peer : Option Bytes} {id : Nat}
    {completion : Option ErrorCode} (turn : Turn arrived peer id completion) :
    Turn arrived none id completion := by
  cases turn with
  | waiting level _ => exact .waiting level rfl
  | failed error _ => exact .failed error rfl
  | connected whole level _ => exact .connected whole level (fun _ same => nomatch same)

/-- What the server says does not depend on whether it still knows the client. -/
theorem message_of_known {now : Nat} {peer : Option Bytes} {address : Bytes}
    (asked : (program.asksPeer && peer.isNone) = false)
    (known : ∀ other, peer = some other → other = address) :
    program.message ctime now (peer.getD []) = program.message ctime now address := by
  cases program with
  | daytime7 => rfl
  | daytime3 =>
      cases peer with
      | none => cases asked
      | some other => rw [known other rfl, Option.getD_some]

end Events

/-! ## The connections that have been started -/

namespace Conserved

variable {server next : TcpServer}

theorem of_running (conserved : server.Conserved) (running : server.ended = none) :
    held keeps server.writes + (server.destroyed : Multiset Nat) =
      Multiset.range (server.newConnection - 1) := by
  rcases conserved with ⟨lost, _, intact, all⟩
  rw [intact running, Multiset.coe_nil, add_zero] at all
  exact all

theorem of_all (all : held keeps next.writes + (next.destroyed : Multiset Nat) =
    Multiset.range (next.newConnection - 1)) : next.Conserved :=
  ⟨[], Nat.zero_le 1, fun _ => rfl, (add_zero _).trans all⟩

/-- What operations and destructors refer to has been started. -/
theorem started (conserved : server.Conserved) {id : Nat}
    (among : id ∈ held keeps server.writes + (server.destroyed : Multiset Nat)) :
    id + 1 < server.newConnection := by
  rcases conserved with ⟨lost, _, _, all⟩
  have bound : id ∈ Multiset.range (server.newConnection - 1) := by
    rw [← all]
    exact Multiset.mem_add.mpr (Or.inl among)
  have below := Multiset.mem_range.mp bound
  omega

theorem written_to (conserved : server.Conserved) {write : TcpWrite}
    (among : write ∈ server.writes) : write.target + 1 < server.newConnection :=
  conserved.started (Multiset.mem_add.mpr
    (Or.inl (Multiset.mem_coe.mpr (List.mem_filterMap.mpr ⟨write, among, rfl⟩))))

theorem was_destroyed (conserved : server.Conserved) {id : Nat}
    (among : id ∈ server.destroyed) : id + 1 < server.newConnection :=
  conserved.started (Multiset.mem_add.mpr (Or.inr (Multiset.mem_coe.mpr among)))

/-- Whatever becomes of a write, it keeps the same connection alive. -/
theorem set (conserved : server.Conserved) (running : server.ended = none) {index target : Nat}
    {completion : Option ErrorCode}
    (listed : server.writes[index]? = some { target := target })
    (writes : next.writes = server.writes.set index { target := target, completion := completion })
    (destroyed : next.destroyed = server.destroyed)
    (created : next.newConnection = server.newConnection) : next.Conserved := by
  refine of_all ?_
  rw [writes, destroyed, created, held_set_of_listed keeps listed]
  have all := conserved.of_running running
  rw [held_of_listed keeps listed] at all
  exact all

end Conserved

namespace Delivers

variable {program : Program} {ctime : Nat → Bytes} {events : List Event}
  {server next : TcpServer}

/-- What a connection says is settled by what has already happened. -/
theorem said_later (delivers : Delivers program ctime events server) (event : Event) {id : Nat}
    (started : id + 1 < server.newConnection) : ∃ time peer,
      (calls program (events ++ [event]))[id]? = some time ∧
        (clients (events ++ [event]))[id]? = some peer ∧
        (server.connection id).message = program.message ctime time peer := by
  rcases delivers.said id started with ⟨time, peer, called, arrived, made⟩
  exact ⟨time, peer, getElem?_of_extend (calls_extend program events event) called,
    getElem?_of_extend (clients_extend events event) arrived, made⟩

/-- Most events leave alone what is written. -/
theorem concat (delivers : Delivers program ctime events server) (event : Event)
    (created : next.newConnection = server.newConnection)
    (message : ∀ id, (next.connection id).message = (server.connection id).message)
    (taken : ∀ id, (next.connection id).taken = (server.connection id).taken)
    (writes : ∀ write ∈ next.writes, write.completion = some .success → write ∈ server.writes)
    (destroyed : ∀ id ∈ next.destroyed, id ∈ server.destroyed ∨
      (server.connection id).taken = (server.connection id).message) :
    Delivers program ctime (events ++ [event]) next := by
  constructor
  case fresh =>
    intro id unstarted
    rw [message, taken]
    exact delivers.fresh id (created ▸ unstarted)
  case said =>
    intro id started
    rw [message]
    exact delivers.said_later event (created ▸ started)
  case begun =>
    intro id
    rw [message, taken]
    exact delivers.begun id
  case complete =>
    intro write among success
    rw [message, taken]
    exact delivers.complete write (writes write among success) success
  case whole =>
    intro id among
    rw [message, taken]
    exact (destroyed id among).elim (delivers.whole id) fun whole => whole

/-- The socket takes bytes in the order of the message, so a message that has been taken
stays taken. -/
theorem writeSome (delivers : Delivers program ctime events server) (event : Event)
    {index target count : Nat} (listed : server.writes[index]? = some { target := target })
    (fits : (server.connection target).taken.length + count ≤
      (server.connection target).message.length) :
    Delivers program ctime (events ++ [event]) (server.writeSome index target count) := by
  have message : ∀ id, ((server.writeSome index target count).connection id).message =
      (server.connection id).message := by
    intro id
    by_cases same : id = target
    · subst same
      simp [TcpServer.writeSome, update]
    · simp [TcpServer.writeSome, update, Function.update_of_ne same]
  have own : ((server.writeSome index target count).connection target).taken =
      (server.connection target).message.take
        ((server.connection target).taken.length + count) := by
    simp [TcpServer.writeSome, update]
  have others : ∀ id, id ≠ target →
      ((server.writeSome index target count).connection id).taken =
        (server.connection id).taken := by
    intro id other
    simp [TcpServer.writeSome, update, Function.update_of_ne other]
  have keep : ∀ id, (server.connection id).taken = (server.connection id).message →
      ((server.writeSome index target count).connection id).taken =
        (server.connection id).message := by
    intro id whole
    by_cases same : id = target
    · subst same
      rw [own, whole]
      exact List.take_of_length_le (Nat.le_add_right _ _)
    · rw [others id same]
      exact whole
  constructor
  case fresh =>
    intro id unstarted
    rcases delivers.fresh id unstarted with ⟨silent, untaken⟩
    refine ⟨(message id).trans silent, ?_⟩
    rw [keep id (untaken.trans silent.symm)]
    exact silent
  case said =>
    intro id started
    rw [message]
    exact delivers.said_later event started
  case begun =>
    intro id
    rw [message]
    by_cases same : id = target
    · subst same
      rw [own]
      exact List.take_prefix _ _
    · rw [others id same]
      exact delivers.begun id
  case complete =>
    intro write among success
    rw [message]
    rcases server.writeSome_writes index target count with ⟨ends, writes⟩ | writes
    · rw [writes] at among
      rcases List.mem_or_eq_of_mem_set among with earlier | here
      · exact keep write.target (delivers.complete write earlier success)
      · subst here
        exact own.trans ends
    · rw [writes] at among
      exact keep write.target (delivers.complete write among success)
  case whole =>
    intro id among
    rw [message]
    exact keep id (delivers.whole id among)

/-- `accept` makes the message of the connection that has been waiting, for its own
client. -/
theorem accepted (delivers : Delivers program ctime events server)
    (conserved : server.Conserved) {index id : Nat} {peer : Option Bytes}
    (clock : server.now = elapsed (Event.duration program) events)
    (waits : Waits program events server
      { target := id, completion := some .success, peer := peer })
    (known : (program.asksPeer && peer.isNone) = false) :
    Delivers program ctime (events ++ [.accept index])
      ((server.dequeueAccept index id .success peer).start program ctime id).startAccept := by
  have called : calls program (events ++ [.accept index]) =
      calls program events ++ [server.now] := by
    rw [calls_accept, clock]
  have others : ∀ other, other ≠ id →
      ((server.dequeueAccept index id .success peer).start program ctime id).startAccept.connection
        other = server.connection other := by
    intro other distinct
    simp [startAccept, start, update, dequeueAccept, Function.update_of_ne distinct]
  have own :
      ((server.dequeueAccept index id .success peer).start program ctime id).startAccept.connection
        id = { server.connection id with
          peer := peer
          message := program.message ctime server.now (peer.getD []) } := by
    simp [startAccept, start, update, dequeueAccept]
  have created : server.newConnection = id + 1 := waits.created
  have counted : (calls program events).length = id := waits.level
  have untaken : (server.connection id).taken = [] :=
    (delivers.fresh id (Nat.le_of_eq created)).2
  have earlier : ∀ other, other + 1 < server.newConnection → other ≠ id := by
    intro other started same
    rw [same, created] at started
    exact Nat.lt_irrefl _ started
  constructor
  case fresh =>
    intro other unstarted
    change server.newConnection + 1 ≤ other + 1 at unstarted
    have distinct : other ≠ id := by omega
    rw [others other distinct]
    exact delivers.fresh other (Nat.le_of_succ_le unstarted)
  case said =>
    intro other started
    change other + 1 < server.newConnection + 1 at started
    by_cases same : other = id
    · subst same
      cases waits.turn with
      | failed error _ => exact absurd rfl error
      | @connected before address whole level client =>
          refine ⟨server.now, address, ?_, ?_, ?_⟩
          · rw [called, ← counted]
            exact List.getElem?_concat_length
          · have here : before.length = other := level
            rw [clients_concat, whole, ← here]
            simp [Event.connected?]
          · rw [own]
            exact message_of_known known client
    · have sooner : other + 1 < server.newConnection := by omega
      rw [others other same]
      exact delivers.said_later _ sooner
  case begun =>
    intro other
    by_cases same : other = id
    · subst same
      rw [own, untaken]
      exact List.nil_prefix
    · rw [others other same]
      exact delivers.begun other
  case complete =>
    intro write among success
    rcases List.mem_append.mp among with sooner | last
    · rw [others write.target (earlier _ (conserved.written_to sooner))]
      exact delivers.complete write sooner success
    · rw [List.mem_singleton] at last
      subst last
      have empty : program.message ctime server.now (peer.getD []) = [] := by
        by_contra filled
        have made : program.message ctime (server.dequeueAccept index id .success peer).now
            (((server.dequeueAccept index id .success peer).connection id).peer.getD []) ≠ [] := by
          rw [dequeueAccept_connection]
          exact filled
        exact nomatch (if_neg made).symm.trans success
      rw [own]
      exact untaken.trans empty.symm
  case whole =>
    intro other among
    rw [others other (earlier _ (conserved.was_destroyed among))]
    exact delivers.whole other among

end Delivers

namespace Waits

variable {program : Program} {events : List Event} {server next : TcpServer}
  {accept : TcpAccept}

/-- Other events do not touch the accept, and no connection gets a peer from them. -/
theorem concat (waits : Waits program events server accept) {event : Event}
    (silent : event.connected? = none) (uncalled : event.accept? = none)
    (accepts : next.accepts = server.accepts)
    (created : next.newConnection = server.newConnection)
    (peer : ∀ other, (next.connection other).peer = (server.connection other).peer ∨
      (next.connection other).peer = none) :
    Waits program (events ++ [event]) next accept where
  accepts := accepts.trans waits.accepts
  created := created.trans waits.created
  level := by
    rw [calls_of_uncalled uncalled]
    exact waits.level
  turn := by
    rw [clients_concat, silent, Option.toList_none, List.append_nil]
    exact waits.turn
  unmet := by
    intro other later
    rcases peer other with same | gone
    · exact same.trans (waits.unmet other later)
    · exact gone

/-- The accept that an event refers to is the only one. -/
theorem of_listed (waits : Waits program events server accept) {index : Nat}
    {other : TcpAccept} (listed : server.accepts[index]? = some other) :
    other = accept ∧ index = 0 := by
  have single : server.accepts.length ≤ 1 := by
    rw [waits.accepts]
    exact Nat.le_refl 1
  rcases eq_singleton_of_listed single listed with ⟨whole, first⟩
  rw [waits.accepts] at whole
  exact ⟨(List.singleton_inj.mp whole).symm, first⟩

/-- The accept ends, with a client or without one. -/
theorem acceptDone {id : Nat} {before : Option Bytes}
    (waits : Waits program events server { target := id, peer := before }) (ec : ErrorCode)
    (peer : Bytes) :
    Waits program (events ++ [.acceptDone 0 ec peer]) (server.acceptDone 0 id ec peer)
      { target := id, completion := some ec
        peer := if ec = .success then some peer else none } where
  accepts := by
    change server.accepts.set 0 _ = _
    rw [waits.accepts]
    rfl
  created := waits.created
  level := by
    rw [calls_of_uncalled rfl]
    exact waits.level
  turn := by
    cases waits.turn with
    | waiting level unknown =>
        rw [clients_concat]
        by_cases success : ec = .success
        · subst success
          refine .connected rfl level fun other same => ?_
          cases same
          rfl
        · rw [if_neg success]
          exact .failed success rfl
  unmet := waits.unmet

/-- The client that has been accepted goes. -/
theorem goneQueued (waits : Waits program events server accept) :
    Waits program (events ++ [.goneQueued 0]) (server.goneQueued 0 accept)
      { accept with peer := none } where
  accepts := by
    change server.accepts.set 0 _ = _
    rw [waits.accepts]
    rfl
  created := waits.created
  level := by
    rw [calls_of_uncalled rfl]
    exact waits.level
  turn := by
    have silent : (Event.goneQueued 0).connected? = none := rfl
    rw [clients_concat, silent, Option.toList_none, List.append_nil]
    exact waits.turn.gone
  unmet := waits.unmet

/-- The next accept waits for the next client. -/
theorem accepted {id : Nat} {peer : Option Bytes}
    (waits : Waits program events server
      { target := id, completion := some .success, peer := peer })
    (ctime : Nat → Bytes) :
    Waits program (events ++ [.accept 0])
      ((server.dequeueAccept 0 id .success peer).start program ctime id).startAccept
      { target := id + 1 } := by
  have accepts : (server.dequeueAccept 0 id .success peer).accepts = server.accepts.eraseIdx 0 :=
    rfl
  have created : (server.dequeueAccept 0 id .success peer).newConnection =
      server.newConnection := rfl
  constructor
  case accepts =>
    change (server.dequeueAccept 0 id .success peer).accepts ++ [{ target :=
      (server.dequeueAccept 0 id .success peer).newConnection }] = _
    rw [accepts, created, waits.accepts, waits.created]
    rfl
  case created => exact congrArg Nat.succ waits.created
  case level =>
    rw [calls_accept, List.length_append, waits.level, List.length_singleton]
  case turn =>
    cases waits.turn with
    | failed error _ => exact absurd rfl error
    | connected whole level _ =>
        refine .waiting ?_ rfl
        rw [clients_concat, whole]
        simp [Event.connected?, level]
  case unmet =>
    intro other later
    have different : other ≠ id := Nat.ne_of_gt later
    simp only [startAccept, start, update, Function.update_of_ne different,
      dequeueAccept_connection_of_ne different]
    exact waits.unmet other (Nat.le_of_lt later)

end Waits

namespace Lawful

variable {program : Program} {ctime : Nat → Bytes} {events : List Event}
  {server next : TcpServer} {event : Event}

theorem initial : Lawful program ctime [] (machine program ctime).initial where
  clock := rfl
  waits := fun _ => ⟨{ target := 0 }, ⟨rfl, rfl, rfl, .waiting rfl rfl, fun _ _ => rfl⟩⟩
  conserved := Conserved.of_all rfl
  delivers := {
    fresh := fun _ _ => ⟨rfl, rfl⟩
    said := fun id started => absurd started (Nat.not_lt.mpr (Nat.le_add_left 1 id))
    begun := fun _ => List.prefix_rfl
    complete := List.forall_mem_nil _
    whole := List.forall_mem_nil _ }

/-- An event that is neither the end of an accept nor a call of `accept`. -/
theorem quiet (lawful : Lawful program ctime events server) (running : server.ended = none)
    (silent : event.connected? = none) (uncalled : event.accept? = none)
    (clock : next.now = server.now + event.duration program)
    (accepts : next.accepts = server.accepts)
    (created : next.newConnection = server.newConnection)
    (peer : ∀ other, (next.connection other).peer = (server.connection other).peer ∨
      (next.connection other).peer = none)
    (conserved : next.Conserved)
    (delivers : Delivers program ctime (events ++ [event]) next) :
    Lawful program ctime (events ++ [event]) next where
  clock := by rw [clock, elapsed_concat, lawful.clock]
  waits := by
    intro _
    rcases lawful.waits running with ⟨accept, waits⟩
    exact ⟨accept, waits.concat silent uncalled accepts created peer⟩
  conserved := conserved
  delivers := delivers

theorem gone (lawful : Lawful program ctime events server) (running : server.ended = none)
    (id : Nat) :
    Lawful program ctime (events ++ [.gone id])
      (server.update id fun connection => { connection with peer := none }) := by
  have own : ∀ other, (server.update id fun connection =>
      { connection with peer := none }).connection other = server.connection other ∨
        (server.update id fun connection => { connection with peer := none }).connection other =
          { server.connection other with peer := none } := by
    intro other
    by_cases same : other = id
    · subst same
      right
      simp [update]
    · left
      simp [update, Function.update_of_ne same]
  refine lawful.quiet running rfl rfl rfl rfl rfl ?_
    (Conserved.of_all (lawful.conserved.of_running running))
    (lawful.delivers.concat _ rfl ?_ ?_ (fun _ among _ => among) (fun _ among => Or.inl among))
  · intro other
    rcases own other with same | gone
    · exact Or.inl (congrArg TcpConnection.peer same)
    · exact Or.inr (congrArg TcpConnection.peer gone)
  · intro other
    rcases own other with same | gone
    · rw [same]
    · rw [gone]
  · intro other
    rcases own other with same | gone
    · rw [same]
    · rw [gone]

theorem writeSome (lawful : Lawful program ctime events server) (running : server.ended = none)
    {index target count : Nat} (listed : server.writes[index]? = some { target := target })
    (fits : (server.connection target).taken.length + count ≤
      (server.connection target).message.length) :
    Lawful program ctime (events ++ [.writeSome index count])
      (server.writeSome index target count) := by
  refine lawful.quiet running rfl rfl rfl rfl rfl ?_ ?_ (lawful.delivers.writeSome _ listed fits)
  · intro other
    by_cases same : other = target
    · subst same
      simp [TcpServer.writeSome, update]
    · simp [TcpServer.writeSome, update, Function.update_of_ne same]
  · rcases server.writeSome_writes index target count with ⟨_, writes⟩ | writes
    · exact lawful.conserved.set running listed writes rfl rfl
    · refine Conserved.of_all ?_
      rw [writes]
      exact lawful.conserved.of_running running

theorem writeFailed (lawful : Lawful program ctime events server) (running : server.ended = none)
    {index target : Nat} (listed : server.writes[index]? = some { target := target }) :
    Lawful program ctime (events ++ [.writeFailed index]) (server.writeFailed index target) := by
  refine lawful.quiet running rfl rfl rfl rfl rfl (fun _ => Or.inl rfl)
    (lawful.conserved.set running listed rfl rfl rfl)
    (lawful.delivers.concat _ rfl (fun _ => rfl) (fun _ => rfl) ?_ fun _ among => Or.inl among)
  intro write among success
  rcases List.mem_or_eq_of_mem_set among with earlier | here
  · exact earlier
  · subst here
    cases success

/-- What becomes of the accept concerns no connection before its handler runs. -/
theorem of_accepts (lawful : Lawful program ctime events server) (running : server.ended = none)
    (accepts : List TcpAccept) {accept : TcpAccept} (lasts : event.duration program = 0)
    (waits : Waits program (events ++ [event]) { server with accepts := accepts } accept) :
    Lawful program ctime (events ++ [event]) { server with accepts := accepts } where
  clock := by
    rw [elapsed_concat, lasts]
    exact lawful.clock
  waits := fun _ => ⟨accept, waits⟩
  conserved := Conserved.of_all (lawful.conserved.of_running running)
  delivers := lawful.delivers.concat _ rfl (fun _ => rfl) (fun _ => rfl)
    (fun _ among _ => among) (fun _ among => Or.inl among)

theorem acceptDone (lawful : Lawful program ctime events server) (running : server.ended = none)
    {index target : Nat} {ec : ErrorCode} {before : Option Bytes} (peer : Bytes)
    (listed : server.accepts[index]? = some { target := target, peer := before }) :
    Lawful program ctime (events ++ [.acceptDone index ec peer])
      (server.acceptDone index target ec peer) := by
  rcases lawful.waits running with ⟨accept, waits⟩
  rcases waits.of_listed listed with ⟨same, first⟩
  subst same first
  exact lawful.of_accepts running _ rfl (waits.acceptDone ec peer)

theorem goneQueued (lawful : Lawful program ctime events server) (running : server.ended = none)
    {index : Nat} {accept : TcpAccept} (listed : server.accepts[index]? = some accept) :
    Lawful program ctime (events ++ [.goneQueued index]) (server.goneQueued index accept) := by
  rcases lawful.waits running with ⟨outstanding, waits⟩
  rcases waits.of_listed listed with ⟨same, first⟩
  subst same first
  exact lawful.of_accepts running _ rfl waits.goneQueued

/-- Taking the accept out of the queue leaves alone what is written. -/
theorem dequeueAccept_written (server : TcpServer) (index target : Nat) (ec : ErrorCode)
    (peer : Option Bytes) (id : Nat) :
    ((server.dequeueAccept index target ec peer).connection id).message =
        (server.connection id).message ∧
      ((server.dequeueAccept index target ec peer).connection id).taken =
        (server.connection id).taken := by
  by_cases same : id = target
  · subst same
    unfold dequeueAccept
    dsimp only
    split
    · simp [update]
    · exact ⟨rfl, rfl⟩
  · rw [dequeueAccept_connection_of_ne same]
    exact ⟨rfl, rfl⟩

theorem dequeueAccept_rest (server : TcpServer) (index target : Nat) (ec : ErrorCode)
    (peer : Option Bytes) : ∃ connection, server.dequeueAccept index target ec peer =
      { server with connection := connection, accepts := server.accepts.eraseIdx index } := by
  unfold dequeueAccept
  dsimp only
  split
  · exact ⟨_, rfl⟩
  · exact ⟨server.connection, rfl⟩

theorem acceptThrew (lawful : Lawful program ctime events server) (running : server.ended = none)
    (index target : Nat) (ec : ErrorCode) (peer : Option Bytes) :
    Lawful program ctime (events ++ [.accept index])
      ((server.dequeueAccept index target ec peer).unwind program target) := by
  have written := dequeueAccept_written server index target ec peer
  rcases dequeueAccept_rest server index target ec peer with ⟨connection, same⟩
  rw [same] at written ⊢
  constructor
  case clock =>
    rw [elapsed_concat]
    exact lawful.clock
  case waits =>
    intro goes_on
    cases goes_on
  case conserved => exact Conserved.of_all (lawful.conserved.of_running running)
  case delivers =>
    exact lawful.delivers.concat _ rfl (fun id => (written id).1) (fun id => (written id).2)
      (fun _ among _ => among) (fun _ among => Or.inl among)

theorem accepted (lawful : Lawful program ctime events server) (running : server.ended = none)
    {index target : Nat} {peer : Option Bytes}
    (listed : server.accepts[index]? =
      some { target := target, completion := some .success, peer := peer })
    (known : (program.asksPeer && peer.isNone) = false) :
    Lawful program ctime (events ++ [.accept index])
      ((server.dequeueAccept index target .success peer).start program ctime
        target).startAccept := by
  rcases lawful.waits running with ⟨accept, waits⟩
  rcases waits.of_listed listed with ⟨same, first⟩
  subst same first
  constructor
  case clock =>
    rw [elapsed_concat]
    exact lawful.clock
  case waits => exact fun _ => ⟨{ target := target + 1 }, waits.accepted ctime⟩
  case conserved =>
    have created : server.newConnection = target + 1 := waits.created
    refine Conserved.of_all ?_
    change held keeps (server.writes ++ [_]) + (server.destroyed : Multiset Nat) =
      Multiset.range (server.newConnection + 1 - 1)
    have all := lawful.conserved.of_running running
    rw [created, Nat.add_sub_cancel] at all
    rw [held_concat, created, Nat.add_sub_cancel, Multiset.range_succ, ← all,
      ← Multiset.singleton_add]
    change _ + {target} + _ = _
    abel
  case delivers => exact lawful.delivers.accepted lawful.conserved lawful.clock waits known

theorem writeThrew (lawful : Lawful program ctime events server) (running : server.ended = none)
    {index : Nat} {write : TcpWrite} (listed : server.writes[index]? = some write) :
    Lawful program ctime (events ++ [.write index])
      (({ server.dequeueWrite index with now := server.now + program.sleeps } :
        TcpServer).unwind program write.target) where
  clock := by
    rw [elapsed_concat, ← lawful.clock]
    rfl
  waits := by
    intro goes_on
    cases goes_on
  conserved := by
    refine ⟨[write.target], Nat.le_refl 1, ?_, ?_⟩
    · intro goes_on
      cases goes_on
    · have all := lawful.conserved.of_running running
      rw [held_of_listed keeps listed] at all
      refine Eq.trans ?_ all
      change held keeps (server.writes.eraseIdx index) + (server.destroyed : Multiset Nat) +
        {write.target} = {write.target} + held keeps (server.writes.eraseIdx index) + _
      abel
  delivers := lawful.delivers.concat _ rfl (fun _ => rfl) (fun _ => rfl)
    (fun _ among _ => List.mem_of_mem_eraseIdx among) (fun _ among => Or.inl among)

/-- After its last handler the whole message of a connection has been taken. -/
theorem written (lawful : Lawful program ctime events server) (running : server.ended = none)
    {index target : Nat}
    (listed : server.writes[index]? = some { target := target, completion := some .success }) :
    Lawful program ctime (events ++ [.write index])
      (({ server.dequeueWrite index with now := server.now + program.sleeps } :
        TcpServer).destroy program target) := by
  have whole : (server.connection target).taken = (server.connection target).message :=
    lawful.delivers.complete _ (List.mem_of_getElem? listed) rfl
  refine lawful.quiet running rfl rfl rfl rfl rfl (fun _ => Or.inl rfl) ?_
    (lawful.delivers.concat _ rfl (fun _ => rfl) (fun _ => rfl)
      (fun _ among _ => List.mem_of_mem_eraseIdx among) ?_)
  · refine Conserved.of_all ?_
    have all := lawful.conserved.of_running running
    rw [held_of_listed keeps listed] at all
    refine Eq.trans ?_ all
    change held keeps (server.writes.eraseIdx index) +
      ((server.destroyed ++ [target] : List Nat) : Multiset Nat) =
        {target} + held keeps (server.writes.eraseIdx index) + _
    rw [← Multiset.coe_add]
    change _ + (_ + {target}) = _
    abel
  · intro other among
    rcases List.mem_append.mp among with earlier | last
    · exact Or.inl earlier
    · rw [List.mem_singleton] at last
      subst last
      exact Or.inr whole

theorem of_step (lawful : Lawful program ctime events server)
    (moved : (machine program ctime).step server event = some next) :
    Lawful program ctime (events ++ [event]) next := by
  rcases moves_of_step moved with ⟨running, moves⟩
  cases moves with
  | pass seconds =>
      exact lawful.quiet running rfl rfl rfl rfl rfl (fun _ => Or.inl rfl)
        (Conserved.of_all (lawful.conserved.of_running running))
        (lawful.delivers.concat _ rfl (fun _ => rfl) (fun _ => rfl) (fun _ among _ => among)
          (fun _ among => Or.inl among))
  | acceptDone peer listed => exact lawful.acceptDone running peer listed
  | goneQueued listed => exact lawful.goneQueued running listed
  | gone => exact lawful.gone running _
  | writeSome listed fits => exact lawful.writeSome running listed fits
  | writeFailed listed => exact lawful.writeFailed running listed
  | acceptThrew _ _ => exact lawful.acceptThrew running _ _ _ _
  | accepted listed known => exact lawful.accepted running listed known
  | writeThrew listed _ => exact lawful.writeThrew running listed
  | written listed => exact lawful.written running listed

end Lawful

/-! ## Whole runs -/

/-- While the loop runs the server waits for the client after those it has accepted.
Each accepted client has one connection that is written to or has been destroyed, with
the daytime of the call of its `accept`; what the socket takes is taken from the front,
and a connection is destroyed in the loop only when all of it has been taken. -/
structure Delivered (program : Program) (ctime : Nat → Bytes) (events : List Event)
    (server : TcpServer) : Prop where
  waiting : server.ended = none →
    (∃ completion peer, server.accepts = [{ target := (calls program events).length
                                            completion := completion, peer := peer }]) ∧
      server.newConnection = (calls program events).length + 1
  conserved : server.Conserved
  said : ∀ id, id + 1 < server.newConnection → ∃ time peer,
    (calls program events)[id]? = some time ∧ (clients events)[id]? = some peer ∧
      (server.connection id).message = program.message ctime time peer
  begun : ∀ id, (server.connection id).taken <+: (server.connection id).message
  whole : ∀ id ∈ server.destroyed, (server.connection id).taken = (server.connection id).message

theorem lawful_of_run {program : Program} {ctime : Nat → Bytes} {events : List Event}
    {server : TcpServer}
    (steps : (machine program ctime).run (machine program ctime).initial events = some server) :
    Lawful program ctime events server :=
  (machine program ctime).run_history Lawful.initial
    (fun _ _ _ _ lawful moved => lawful.of_step moved) steps

theorem delivered_of_run {program : Program} {ctime : Nat → Bytes} {events : List Event}
    {server : TcpServer}
    (steps : (machine program ctime).run (machine program ctime).initial events = some server) :
    Delivered program ctime events server := by
  have lawful := lawful_of_run steps
  constructor
  case waiting =>
    intro running
    rcases lawful.waits running with ⟨⟨id, completion, peer⟩, waits⟩
    rw [waits.level]
    exact ⟨⟨completion, peer, waits.accepts⟩, waits.created⟩
  case conserved => exact lawful.conserved
  case said => exact lawful.delivers.said
  case begun => exact lawful.delivers.begun
  case whole => exact lawful.delivers.whole

/-- The second client comes while the message of the first one is being written, and is
served first. -/
theorem twoClients_delivered : ∃ server : TcpServer,
    server.destroyed = [1] ∧ (server.connection 0).taken = [7] ∧
      Delivered .daytime7 (fun time => [7, time.toUInt8])
        [.acceptDone 0 .success [1], .accept 0, .writeSome 0 1, .acceptDone 0 .success [2],
          .pass 3, .accept 0, .writeSome 1 2, .write 1] server := by
  refine ⟨_, ?_, ?_, delivered_of_run rfl⟩
  · rfl
  · rfl

/-! ## How the loop ends -/

/-- How an exception ends the program. -/
def ending : Program → Ending
  | .daytime3 => .terminated
  | .daytime7 => .caught

/-- The handler that is about to run returns, and so does the destructor after it. -/
def Survives (program : Program) (server : TcpServer) : Event → Prop
  | .accept index => ∀ accept, server.accepts[index]? = some accept →
      accept.completion = some .success ∧ (program.asksPeer && accept.peer.isNone) = false
  | .write index => ∀ write, server.writes[index]? = some write →
      write.completion = some .success ∧ server.peerThrows program write.target = false
  | _ => True

/-- The loop goes on precisely as long as every handler returns.  An exception always
gets to the `catch` in `daytime7`, and never in `daytime3`: there is always a connection
without a peer, and its destructor throws another one. -/
structure Ends (program : Program) (ctime : Nat → Bytes) (events : List Event)
    (server : TcpServer) : Prop where
  goesOn : server.ended = none ↔
    (machine program ctime).Meets (Survives program) (machine program ctime).initial events
  how : server.ended = none ∨ server.ended = some (ending program)

section Ends

variable {program : Program} {ctime : Nat → Bytes} {events : List Event}
  {server next : TcpServer} {event : Event}

/-- The loop goes on after a step precisely if the handler that it runs returns. -/
theorem survives_step (running : server.ended = none)
    (moved : (machine program ctime).step server event = some next) :
    next.ended = none ↔ Survives program server event := by
  cases (moves_of_step moved).2 with
  | pass _ => exact iff_of_true running trivial
  | acceptDone _ _ => exact iff_of_true running trivial
  | goneQueued _ => exact iff_of_true running trivial
  | gone => exact iff_of_true running trivial
  | writeSome _ _ => exact iff_of_true running trivial
  | writeFailed _ => exact iff_of_true running trivial
  | acceptThrew listed threw =>
      refine iff_of_false (Option.some_ne_none _) fun survives => ?_
      rcases survives _ listed with ⟨success, known⟩
      rcases threw with failed | threw
      · exact failed (Option.some.inj success)
      · exact Bool.false_ne_true (known.symm.trans threw)
  | accepted listed known =>
      refine iff_of_true running fun accept same => ?_
      cases listed.symm.trans same
      exact ⟨rfl, known⟩
  | writeThrew listed failed =>
      refine iff_of_false (Option.some_ne_none _) fun survives => ?_
      exact failed (Option.some.inj (survives _ listed).1)
  | @written index target listed =>
      change (if server.peerThrows program target then some Ending.terminated
        else server.ended) = none ↔ _
      constructor
      · intro goes_on write same
        cases listed.symm.trans same
        refine ⟨rfl, ?_⟩
        rw [← Bool.not_eq_true]
        intro throws
        rw [if_pos throws] at goes_on
        cases goes_on
      · intro survives
        have known := (survives _ listed).2
        rw [if_neg (Bool.eq_false_iff.mp known)]
        exact running

/-- An exception destroys all connections, and one that has no peer throws another. -/
theorem unwind_ended (server : TcpServer) {id held : Nat}
    (among : held ∈ id :: server.heldByOperations)
    (peerless : (server.connection held).peer = none) :
    (server.unwind program id).ended = some (ending program) := by
  cases program with
  | daytime3 =>
      have throws : (id :: server.heldByOperations).any (server.peerThrows .daytime3) = true :=
        List.any_eq_true.mpr ⟨held, among, by simp [peerThrows, Program.asksPeer, peerless]⟩
      rw [unwind, if_pos throws]
      rfl
  | daytime7 =>
      have quiet : ¬ (id :: server.heldByOperations).any (server.peerThrows .daytime7) = true := by
        rw [List.any_eq_true]
        rintro ⟨_, _, throws⟩
        exact Bool.false_ne_true throws
      rw [unwind, if_neg quiet]
      rfl

/-- A destructor that throws is one of `daytime3`. -/
theorem destroy_ended (running : server.ended = none) (id : Nat) :
    (server.destroy program id).ended = none ∨
      (server.destroy program id).ended = some (ending program) := by
  cases program with
  | daytime3 =>
      unfold destroy
      split
      · exact Or.inr rfl
      · exact Or.inl running
  | daytime7 => exact Or.inl running

/-- The connection that the outstanding accept keeps alive has no peer, and neither has
the one for which `accept` throws. -/
theorem ended_step {accept : TcpAccept} (waits : Waits program events server accept)
    (running : server.ended = none)
    (moved : (machine program ctime).step server event = some next) :
    next.ended = none ∨ next.ended = some (ending program) := by
  cases (moves_of_step moved).2 with
  | @acceptThrew index target ec peer listed threw =>
      refine Or.inr (unwind_ended _ List.mem_cons_self ?_)
      rcases waits.of_listed listed with ⟨same, _⟩
      subst same
      by_cases success : ec = .success
      · subst success
        have unknown : peer.isNone = true := by
          rcases threw with failed | threw
          · exact absurd rfl failed
          · exact (Bool.and_eq_true_iff.mp threw).2
        rw [dequeueAccept_connection, Option.isNone_iff_eq_none.mp unknown]
      · rw [dequeueAccept, if_neg success]
        exact waits.unmet target (Nat.le_refl _)
  | @writeThrew index target ec listed failed =>
      refine Or.inr (unwind_ended _ (List.mem_cons_of_mem _ ?_)
        (waits.unmet accept.target (Nat.le_refl _)))
      change accept.target ∈ server.accepts.map TcpAccept.target ++ _
      rw [waits.accepts]
      exact List.mem_append_left _ List.mem_cons_self
  | written _ => exact destroy_ended running _
  | _ => exact Or.inl running

end Ends

theorem ends_of_run {program : Program} {ctime : Nat → Bytes} {events : List Event}
    {server : TcpServer}
    (steps : (machine program ctime).run (machine program ctime).initial events = some server) :
    Ends program ctime events server := by
  constructor
  case goesOn =>
    have running : ∀ state event next, (machine program ctime).step state event = some next →
        state.ended = none := fun _ _ _ moved => (moves_of_step moved).1
    rw [← (machine program ctime).always_iff_last running steps]
    have kept : ∀ state event next, True →
        (machine program ctime).step state event = some next → True :=
      fun _ _ _ holds _ => holds
    exact (machine program ctime).always_iff_meets kept
      (fun _ _ _ _ holds moved => survives_step holds moved) trivial rfl steps
  case how =>
    rcases List.eq_nil_or_concat events with none | ⟨before, event, whole⟩
    · subst none
      cases steps
      exact Or.inl rfl
    · rw [List.concat_eq_append] at whole
      subst whole
      rcases (machine program ctime).run_concat_eq_some.mp steps with ⟨middle, arrived, moved⟩
      have running := (moves_of_step moved).1
      rcases (lawful_of_run arrived).waits running with ⟨accept, waits⟩
      exact ended_step waits running moved

/-- A write fails while the accept has already found the next client. -/
theorem brokenPipe_ends : ∃ server : TcpServer, server.ended = some .terminated ∧
    Ends .daytime3 (fun time => [time.toUInt8])
      [.acceptDone 0 .success [1], .accept 0, .acceptDone 0 .success [2], .writeFailed 0,
        .write 0] server := by
  refine ⟨_, ?_, ends_of_run rfl⟩
  rfl

end TcpServer
end Basics
end LearnAsio
