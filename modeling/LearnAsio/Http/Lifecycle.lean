import LearnAsio.Http.Server
import LearnAsio.Transition.Outstanding

namespace LearnAsio
namespace Http

open Transition

/-!
# What holds in every state of the server

What is proved of whole runs rests on one invariant.  Its local half describes a single
connection: at most one operation is outstanding, a pending operation has an
open socket, nothing has been sent while a read is outstanding, and a write
knows what it took.  Its global half ties the connections to the manager's set,
to `new_connection_` and to the accept.

`Moves` is the inversion of one step, with a constructor for each event.  The
proofs below and in the following modules take a step apart through it and
through one lemma for each member function, and never unfold the step function.
-/

variable {env : Env}

/-! ## One step taken apart -/

/-- A step of a running server, by the event that causes it. -/
inductive Moves (server : Server env) : Event → Server env → Prop where
  | acceptDone {index target : Nat} {ec : ErrorCode}
      (listed : server.accepts[index]? = some { target := target }) :
      Moves server (.acceptDone index ec)
        { server with
          accepts := server.accepts.set index { target := target, completion := some ec } }
  | readDone {id index : Nat} {data : Bytes}
      (listed : (server.connection id).operations[index]? = some { kind := .readSome })
      (size : 1 ≤ data.length ∧ data.length ≤ bufferSize) :
      Moves server (.readDone id index data)
        (server.update id fun connection => connection.completeRead index data)
  | readFailed {id index : Nat}
      (listed : (server.connection id).operations[index]? = some { kind := .readSome }) :
      Moves server (.readFailed id index)
        (server.update id fun connection =>
          connection.complete index .readSome { ec := .failure })
  | writeDone {id index count : Nat} {buffers : Buffers} {memory : Bytes}
      (listed : (server.connection id).operations[index]? = some { kind := .writeSome buffers })
      (size : 1 ≤ count ∧ count ≤ buffers.whole.length)
      (found : memory.length = buffers.whole.length ∧
        (server.Intact id buffers → memory = buffers.whole)) :
      Moves server (.writeDone id index count memory)
        (server.update id fun connection =>
          connection.completeWrite index buffers count memory)
  | writeFailed {id index : Nat} {buffers : Buffers}
      (listed : (server.connection id).operations[index]? = some { kind := .writeSome buffers }) :
      Moves server (.writeFailed id index)
        (server.update id fun connection =>
          connection.complete index (.writeSome buffers) { ec := .failure })
  | signalRaised (waiting : server.signalWait = .waiting) :
      Moves server .signalRaised { server with signalWait := .queued }
  | hanldeAccept {index target : Nat} {ec : ErrorCode} {endpointThrows : Bool}
      (listed : server.accepts[index]? = some { target := target, completion := some ec }) :
      Moves server (.hanldeAccept index endpointThrows)
        ((server.dequeueAccept index target ec).hanldeAccept ec endpointThrows)
  | handleRead {id index : Nat} {completion : Completion} {date : Bytes} {throws : Bool}
      (listed : (server.connection id).operations[index]? =
        some { kind := .readSome, completion := some completion }) :
      Moves server (.handleRead id index date throws)
        ((server.update id fun connection => connection.dequeue index).handleRead
          id completion date throws)
  | handleWrite {id index : Nat} {buffers : Buffers} {completion : Completion} {throws : Bool}
      (listed : (server.connection id).operations[index]? =
        some { kind := .writeSome buffers, completion := some completion }) :
      Moves server (.handleWrite id index throws)
        ((server.update id fun connection => connection.dequeue index).handleWrite
          id completion throws)
  | hanldeStop {order : List Nat} {acceptorThrows : Bool} {throws : Nat → Bool}
      (raised : server.signalWait = .queued) (distinct : order.Nodup)
      (listed : order.toFinset = server.connections) :
      Moves server (.hanldeStop order acceptorThrows throws)
        (({ server with signalWait := .handled } : Server env).hanldeStop
          order acceptorThrows throws)

/-- Every step is taken by a running server and has one of these shapes. -/
theorem moves_of_step {server next : Server env} {event : Event}
    (step : (Server.machine env).step server event = some next) :
    server.status = .running ∧ Moves server event next := by
  have running : server.status = .running := by
    by_contra stopped
    rw [Server.machine_step, if_neg stopped] at step
    cases step
  rw [Server.machine_step, if_pos running] at step
  refine ⟨running, ?_⟩
  cases event with
  | acceptDone index ec =>
      simp only [Server.react] at step
      split at step
      next target listed =>
        split at step
        · cases step
        · cases step
          exact .acceptDone listed
      next => cases step
  | readDone id index data =>
      simp only [Server.react] at step
      split at step
      next listed =>
        split at step
        next size =>
          cases step
          exact .readDone listed size
        next => cases step
      next => cases step
  | readFailed id index =>
      simp only [Server.react] at step
      split at step
      next listed =>
        cases step
        exact .readFailed listed
      next => cases step
  | writeDone id index count memory =>
      simp only [Server.react] at step
      split at step
      next buffers listed =>
        split at step
        next guard =>
          cases step
          exact .writeDone listed ⟨guard.1, guard.2.1⟩ guard.2.2
        next => cases step
      next => cases step
  | writeFailed id index =>
      simp only [Server.react] at step
      split at step
      next buffers listed =>
        cases step
        exact .writeFailed listed
      next => cases step
  | signalRaised =>
      simp only [Server.react] at step
      split at step
      next waiting =>
        cases step
        exact .signalRaised waiting
      next => cases step
  | hanldeAccept index endpointThrows =>
      simp only [Server.react] at step
      split at step
      next target ec listed =>
        cases step
        exact .hanldeAccept listed
      next => cases step
  | handleRead id index date throws =>
      simp only [Server.react] at step
      split at step
      next completion listed =>
        cases step
        exact .handleRead listed
      next => cases step
  | handleWrite id index throws =>
      simp only [Server.react] at step
      split at step
      next buffers completion listed =>
        cases step
        exact .handleWrite listed
      next => cases step
  | hanldeStop order acceptorThrows throws =>
      simp only [Server.react] at step
      split at step
      next guard =>
        cases step
        exact .hanldeStop guard.1 guard.2.1 guard.2.2
      next => cases step

/-! ## What the member functions of a connection do -/

namespace Connection

/-- The completion with which an operation begins. -/
def initialCompletion (connection : Connection env) : Option Completion :=
  if connection.isOpen then none else some { ec := .failure }

theorem begin_operations (connection : Connection env) (kind : OperationKind) :
    (connection.begin kind).operations =
      connection.operations ++ [{ kind := kind, completion := connection.initialCompletion }] := rfl

theorem initialCompletion_eq_none (connection : Connection env)
    (pending : connection.initialCompletion = none) : connection.isOpen = true := by
  unfold initialCompletion at pending
  split at pending
  · assumption
  · cases pending

/-- An operation begun on a closed socket never succeeds. -/
theorem initialCompletion_ec (connection : Connection env) {completion : Completion}
    (queued : connection.initialCompletion = some completion) : completion.ec = .failure := by
  unfold initialCompletion at queued
  split at queued
  · cases queued
  · cases queued
    rfl

theorem writeResponse_operations (connection : Connection env) (date : Bytes) :
    (connection.writeResponse date).operations = connection.operations ++
      [{ kind := .writeSome (connection.responseBuffers date)
         completion := connection.initialCompletion }] := rfl

theorem writeResponse_log (connection : Connection env) (date : Bytes) :
    (connection.writeResponse date).log =
      connection.log ++ [.asyncWriteSome (connection.responseBuffers date).whole] := rfl

section Dispatch

variable (connection : Connection env)

@[simp] theorem dispatch_isOpen : connection.dispatch.isOpen = connection.isOpen := by
  unfold dispatch
  split <;> rfl

@[simp] theorem dispatch_operations : connection.dispatch.operations = connection.operations := by
  unfold dispatch
  split <;> rfl

@[simp] theorem dispatch_accepted : connection.dispatch.accepted = connection.accepted := by
  unfold dispatch
  split <;> rfl

@[simp] theorem dispatch_request : connection.dispatch.request = connection.request := by
  unfold dispatch
  split <;> rfl

/-- A dispatch appends at most one handler call to the log. -/
theorem dispatch_log : connection.dispatch.log = connection.log ++
    ((selected connection.request.method).map fun method =>
      Action.call method connection.request.toPublicFields).toList := by
  unfold dispatch
  split
  next method chosen => rw [chosen]; rfl
  next chosen => rw [chosen]; exact (List.append_nil _).symm

end Dispatch

end Connection

/-- The buffers come from `to_buffers`: of the bad-request reply for the
temporary, of some response otherwise. -/
def Buffers.Taken (env : Env) (buffers : Buffers) : Prop :=
  ∃ response date, (buffers.storage = .temporary → response = Response.ofStatus .badRequest) ∧
    buffers.source = (response.toBuffers env.iteration date).1 ∧
    buffers.whole = (response.toBuffers env.iteration date).2.flatten

namespace Connection

variable (connection : Connection env) (bytesTransferred : Nat) (date : Bytes)

/-- The status that `parse` returns in `handle_read`. -/
def parseStatus : MessageStatus := (connection.parseRequest bytesTransferred).2

theorem receive_wantMore (status : connection.parseStatus bytesTransferred = .wantMore) :
    connection.receive bytesTransferred date =
      (connection.parseRequest bytesTransferred).1.start := by
  unfold parseStatus at status
  unfold receive
  rw [show connection.parseRequest bytesTransferred =
    ((connection.parseRequest bytesTransferred).1, .wantMore) from Prod.ext rfl status]

theorem receive_faild (status : connection.parseStatus bytesTransferred = .faild) :
    connection.receive bytesTransferred date =
      (connection.parseRequest bytesTransferred).1.writeBadRequest date := by
  unfold parseStatus at status
  unfold receive
  rw [show connection.parseRequest bytesTransferred =
    ((connection.parseRequest bytesTransferred).1, .faild) from Prod.ext rfl status]

theorem receive_complete (status : connection.parseStatus bytesTransferred = .complete) :
    connection.receive bytesTransferred date =
      (connection.parseRequest bytesTransferred).1.dispatch.writeResponse date := by
  unfold parseStatus at status
  unfold receive
  rw [show connection.parseRequest bytesTransferred =
    ((connection.parseRequest bytesTransferred).1, .complete) from Prod.ext rfl status]

theorem parseRequest_fst : (connection.parseRequest bytesTransferred).1 =
    { connection with
      request := (connection.request.parse (connection.buffer.take bytesTransferred)).1
      log := connection.log ++ [.parse (connection.buffer.take bytesTransferred)] } := rfl

@[simp] theorem receive_isOpen :
    (connection.receive bytesTransferred date).isOpen = connection.isOpen := by
  cases status : connection.parseStatus bytesTransferred with
  | wantMore => rw [receive_wantMore _ _ _ status]; rfl
  | faild => rw [receive_faild _ _ _ status]; rfl
  | complete =>
      rw [receive_complete _ _ _ status]
      exact dispatch_isOpen _

@[simp] theorem receive_accepted :
    (connection.receive bytesTransferred date).accepted = connection.accepted := by
  cases status : connection.parseStatus bytesTransferred with
  | wantMore => rw [receive_wantMore _ _ _ status]; rfl
  | faild => rw [receive_faild _ _ _ status]; rfl
  | complete =>
      rw [receive_complete _ _ _ status]
      exact dispatch_accepted _

/-- Receiving never logs a stop. -/
theorem stop_mem_receive_log :
    .stop ∈ (connection.receive bytesTransferred date).log ↔ .stop ∈ connection.log := by
  cases status : connection.parseStatus bytesTransferred with
  | wantMore =>
      rw [receive_wantMore _ _ _ status, parseRequest_fst]
      simp [start, asyncReadSome]
  | faild =>
      rw [receive_faild _ _ _ status, parseRequest_fst]
      simp [writeBadRequest, asyncWriteSome]
  | complete =>
      rw [receive_complete _ _ _ status, parseRequest_fst]
      simp [writeResponse, asyncWriteSome, dispatch_log]

/-- Receiving feeds the parser first. -/
theorem receive_log : ∃ later, (connection.receive bytesTransferred date).log =
    connection.log ++ .parse (connection.buffer.take bytesTransferred) :: later := by
  cases status : connection.parseStatus bytesTransferred with
  | wantMore =>
      rw [receive_wantMore _ _ _ status, parseRequest_fst]
      exact ⟨[.asyncReadSome], List.append_assoc _ _ _⟩
  | faild =>
      rw [receive_faild _ _ _ status, parseRequest_fst]
      exact ⟨[.asyncWriteSome _], List.append_assoc _ _ _⟩
  | complete =>
      rw [receive_complete _ _ _ status]
      rw [writeResponse_log, dispatch_log, parseRequest_fst]
      simp only [List.append_assoc, List.cons_append, List.nil_append]
      exact ⟨_, rfl⟩

/-- Every way through `handle_read` after its error check begins one operation:
a read when the parser wants more, otherwise a write of freshly taken buffers. -/
theorem receive_operations : ∃ kind,
    (connection.receive bytesTransferred date).operations = connection.operations ++
        [{ kind := kind, completion := connection.initialCompletion }] ∧
      (kind = .readSome ↔ connection.parseStatus bytesTransferred = .wantMore) ∧
      ∀ buffers, kind = .writeSome buffers → buffers.Taken env ∧
        (buffers.storage = .response →
          (connection.receive bytesTransferred date).response = buffers.source) := by
  cases status : connection.parseStatus bytesTransferred with
  | wantMore =>
      rw [receive_wantMore _ _ _ status]
      refine ⟨.readSome, rfl, ⟨fun _ => rfl, fun _ => rfl⟩, ?_⟩
      intro buffers impossible
      cases impossible
  | faild =>
      rw [receive_faild _ _ _ status]
      refine ⟨.writeSome (badRequestBuffers env date), rfl,
        ⟨(by intro impossible; cases impossible), (by intro impossible; cases impossible)⟩, ?_⟩
      intro buffers same
      cases same
      exact ⟨⟨_, date, fun _ => rfl, rfl, rfl⟩, (by intro impossible; cases impossible)⟩
  | complete =>
      rw [receive_complete _ _ _ status]
      have ready := connection.parseRequest_fst bytesTransferred
      refine ⟨.writeSome
        ((connection.parseRequest bytesTransferred).1.dispatch.responseBuffers date), ?_,
        ⟨(by intro impossible; cases impossible), (by intro impossible; cases impossible)⟩, ?_⟩
      · rw [writeResponse_operations, dispatch_operations, initialCompletion, dispatch_isOpen,
          ready]
        rfl
      · intro buffers same
        cases same
        exact ⟨⟨_, date, (by intro impossible; cases impossible), rfl, rfl⟩, fun _ => rfl⟩

end Connection

/-! ## What the manager does -/

namespace Server

variable (server : Server env) (id : Nat) (change : Connection env → Connection env)

@[simp] theorem update_connections : (server.update id change).connections = server.connections :=
  rfl

@[simp] theorem update_newConnection :
    (server.update id change).newConnection = server.newConnection := rfl

@[simp] theorem update_connection_self :
    (server.update id change).connection id = change (server.connection id) :=
  Function.update_self id _ _

theorem update_connection_of_ne {other : Nat} (different : other ≠ id) :
    (server.update id change).connection other = server.connection other :=
  Function.update_of_ne different _ _

@[simp] theorem startAccept_connection_self :
    server.startAccept.connection (server.newConnection + 1) = {} :=
  Function.update_self _ _ _

theorem startAccept_connection_of_ne {other : Nat} (different : other ≠ server.newConnection + 1) :
    server.startAccept.connection other = server.connection other :=
  Function.update_of_ne different _ _

@[simp] theorem managerStart_connection_self :
    (server.managerStart id).connection id = (server.connection id).start :=
  Function.update_self _ _ _

theorem managerStart_connection_of_ne {other : Nat} (different : other ≠ id) :
    (server.managerStart id).connection other = server.connection other :=
  Function.update_of_ne different _ _

/-- What holds of the changed connection and of the others holds of all. -/
theorem forall_update (property : Nat → Connection env → Prop)
    (changed : property id (change (server.connection id)))
    (others : ∀ other, other ≠ id → property other (server.connection other)) (other : Nat) :
    property other ((server.update id change).connection other) :=
  (Function.forall_update_iff _ property).mpr ⟨changed, others⟩ other

/-- Two member functions of one connection, one after the other. -/
theorem update_update (later : Connection env → Connection env) :
    (server.update id change).update id later =
      server.update id fun connection => later (change connection) := by
  unfold update
  simp only [Function.update_self, Function.update_idem]

/-- The four ways through `hanlde_accept`. -/
theorem hanldeAccept_cases (ec : ErrorCode) (endpointThrows : Bool) :
    (server.acceptorOpen = false ∧ server.hanldeAccept ec endpointThrows = server) ∨
      (ec ≠ .success ∧ server.hanldeAccept ec endpointThrows = server.startAccept) ∨
      (ec = .success ∧
        server.hanldeAccept ec endpointThrows = { server with status := .thrown }) ∨
      (ec = .success ∧ server.hanldeAccept ec endpointThrows =
        (server.managerStart server.newConnection).startAccept) := by
  unfold hanldeAccept
  split
  next closed => exact Or.inl ⟨Bool.not_eq_true' _ ▸ closed, rfl⟩
  next =>
    split
    next failed => exact Or.inr (Or.inl ⟨failed, rfl⟩)
    next worked =>
      have success : ec = .success := not_not.mp worked
      cases endpointThrows with
      | true => exact Or.inr (Or.inr (Or.inl ⟨success, rfl⟩))
      | false => exact Or.inr (Or.inr (Or.inr ⟨success, rfl⟩))

/-- A stop whose close does not throw also takes the connection out of the
manager's set. -/
theorem managerStop_closed {throws : Bool} (quiet : server.closeThrows id throws = false) :
    server.managerStop id throws =
      { server.update id Connection.stop with connections := server.connections.erase id } := by
  unfold managerStop
  rw [quiet]
  rfl

theorem managerStop_thrown {throws : Bool} (thrown : server.closeThrows id throws = true) :
    server.managerStop id throws =
      { server.update id Connection.stop with status := .thrown } := by
  unfold managerStop
  rw [if_pos thrown]

/-- The two ways through `managerStop`. -/
theorem managerStop_cases (throws : Bool) :
    (server.closeThrows id throws = false ∧ server.managerStop id throws =
        { server.update id Connection.stop with connections := server.connections.erase id }) ∨
      (server.closeThrows id throws = true ∧ server.managerStop id throws =
        { server.update id Connection.stop with status := .thrown }) := by
  cases thrown : server.closeThrows id throws with
  | false => exact Or.inl ⟨rfl, server.managerStop_closed id thrown⟩
  | true => exact Or.inr ⟨rfl, server.managerStop_thrown id thrown⟩

theorem handleRead_failed {completion : Completion} (failed : completion.ec = .failure)
    (date : Bytes) (throws : Bool) :
    server.handleRead id completion date throws = server.managerStop id throws :=
  if_pos failed

theorem handleRead_received {completion : Completion} (unfailed : completion.ec ≠ .failure)
    (date : Bytes) (throws : Bool) :
    server.handleRead id completion date throws = server.update id fun connection =>
      connection.receive completion.bytesTransferred date :=
  if_neg unfailed

/-- The three ways through `handle_write`, which must not run on a connection
that nobody owns. -/
theorem handleWrite_cases (completion : Completion) (throws : Bool) :
    (¬ server.Owned id ∧
        server.handleWrite id completion throws = { server with status := .undefined }) ∨
      (server.Owned id ∧ completion.ec = .failure ∧
        server.handleWrite id completion throws = server.managerStop id throws) ∨
      (server.Owned id ∧ completion.ec ≠ .failure ∧
        server.handleWrite id completion throws = server.update id Connection.shutdown) := by
  unfold handleWrite
  by_cases owned : server.Owned id
  · rw [if_neg (not_not.mpr owned)]
    by_cases failed : completion.ec = .failure
    · exact Or.inr (Or.inl ⟨owned, failed, if_pos failed⟩)
    · exact Or.inr (Or.inr ⟨owned, failed, if_neg failed⟩)
  · exact Or.inl ⟨owned, if_pos owned⟩

/-- `stop` called once on each of the given connections. -/
def stopEach (ids : List Nat) : Server env :=
  { server with
    connection := fun id =>
      if id ∈ ids then (server.connection id).stop else server.connection id }

theorem stopEach_of_mem {ids : List Nat} (listed : id ∈ ids) :
    (server.stopEach ids).connection id = (server.connection id).stop :=
  if_pos listed

theorem stopEach_of_notMem {ids : List Nat} (unlisted : id ∉ ids) :
    (server.stopEach ids).connection id = server.connection id :=
  if_neg unlisted

theorem forall_startAccept (property : Nat → Connection env → Prop)
    (fresh : property (server.newConnection + 1) {})
    (others : ∀ id, id ≠ server.newConnection + 1 → property id (server.connection id)) (id : Nat) :
    property id (server.startAccept.connection id) :=
  (Function.forall_update_iff _ property).mpr ⟨fresh, others⟩ id

theorem forall_stopEach (property : Nat → Connection env → Prop) {ids : List Nat}
    (stopped : ∀ id ∈ ids, property id (server.connection id).stop)
    (others : ∀ id, id ∉ ids → property id (server.connection id)) (id : Nat) :
    property id ((server.stopEach ids).connection id) := by
  by_cases listed : id ∈ ids
  · rw [stopEach_of_mem server id listed]
    exact stopped id listed
  · rw [stopEach_of_notMem server id listed]
    exact others id listed

theorem stopEach_singleton : server.stopEach [id] = server.update id Connection.stop := by
  unfold stopEach update
  congr 1
  funext other
  by_cases same : other = id
  · subst same
    rw [if_pos (List.mem_singleton_self other), Function.update_self]
  · rw [if_neg (fun listed => same (List.mem_singleton.mp listed)),
      Function.update_of_ne same]

theorem update_stopEach {rest : List Nat} (fresh : id ∉ rest) :
    (server.update id Connection.stop).stopEach rest = server.stopEach (id :: rest) := by
  unfold stopEach update
  congr 1
  funext other
  dsimp only
  by_cases same : other = id
  · subst same
    rw [if_neg fresh, Function.update_self, if_pos List.mem_cons_self]
  · have listed : other ∈ id :: rest ↔ other ∈ rest :=
      ⟨fun cons => (List.mem_cons.mp cons).resolve_left same, List.mem_cons_of_mem id⟩
    simp only [Function.update_of_ne same, listed]

/-- The loop of `stop_all` either closes every connection and empties the set or
ends with the exception of one close, after it has closed a part of them. -/
theorem stopAll_eq (throws : Nat → Bool) {order : List Nat} (distinct : order.Nodup) :
    ((∀ id ∈ order, server.closeThrows id (throws id) = false) ∧
        server.stopAll throws order = { server.stopEach order with connections := ∅ }) ∨
      ((¬ ∀ id ∈ order, server.closeThrows id (throws id) = false) ∧
        ∃ prior, prior ⊆ order ∧ server.stopAll throws order =
          { server.stopEach prior with status := .thrown }) := by
  induction order generalizing server with
  | nil => exact Or.inl ⟨fun _ listed => absurd listed List.not_mem_nil, rfl⟩
  | cons id rest inductionHypothesis =>
      have fresh : id ∉ rest := (List.nodup_cons.mp distinct).1
      cases thrown : server.closeThrows id (throws id) with
      | true =>
          refine Or.inr ⟨fun quiet => ?_, [id], List.cons_subset_cons id (List.nil_subset rest), ?_⟩
          · have contrary := quiet id List.mem_cons_self
            rw [thrown] at contrary
            cases contrary
          · rw [stopAll, if_pos thrown, stopEach_singleton]
      | false =>
          have loop : server.stopAll throws (id :: rest) =
              (server.update id Connection.stop).stopAll throws rest := by
            rw [stopAll, thrown]
            rfl
          -- Closing this connection does not change whether the others throw.
          have later : (∀ other ∈ rest, (server.update id Connection.stop).closeThrows other
                (throws other) = false) ↔
              ∀ other ∈ id :: rest, server.closeThrows other (throws other) = false := by
            rw [List.forall_mem_cons]
            refine ⟨fun quiet => ⟨thrown, fun other listed => ?_⟩, fun quiet other listed => ?_⟩
            · have different : other ≠ id := fun same => fresh (same ▸ listed)
              have here := quiet other listed
              unfold closeThrows at here ⊢
              rwa [update_connection_of_ne _ _ _ different] at here
            · have different : other ≠ id := fun same => fresh (same ▸ listed)
              unfold closeThrows
              rw [update_connection_of_ne _ _ _ different]
              exact quiet.2 other listed
          rw [loop, ← later]
          rcases inductionHypothesis (server.update id Connection.stop)
            (List.nodup_cons.mp distinct).2 with ⟨quiet, same⟩ | ⟨loud, prior, among, same⟩
          · refine Or.inl ⟨quiet, ?_⟩
            rw [same, update_stopEach server id fresh]
          · refine Or.inr ⟨loud, id :: prior, List.cons_subset_cons id among, ?_⟩
            rw [same, update_stopEach server id fun listed => fresh (among listed)]

/-- No close of `hanlde_stop` throws. -/
def StopsQuietly (acceptorThrows : Bool) (throws : Nat → Bool) : Prop :=
  acceptorThrows = false ∧
    ∀ id ∈ server.connections, server.closeThrows id (throws id) = false

theorem hanldeStop_eq (acceptorThrows : Bool) (throws : Nat → Bool) {order : List Nat}
    (distinct : order.Nodup) (listed : order.toFinset = server.connections) :
    (server.StopsQuietly acceptorThrows throws ∧
        server.hanldeStop order acceptorThrows throws =
          { server.stopEach order with
            connections := ∅, acceptorOpen := false
            accepts := server.accepts.map Accept.cancel }) ∨
      (¬ server.StopsQuietly acceptorThrows throws ∧
        ∃ prior, prior ⊆ order ∧ server.hanldeStop order acceptorThrows throws =
          { server.stopEach prior with
            status := .thrown, acceptorOpen := false
            accepts := server.accepts.map Accept.cancel }) := by
  have same : ∀ id, id ∈ server.connections ↔ id ∈ order := by
    intro id
    rw [← listed, List.mem_toFinset]
  unfold StopsQuietly hanldeStop
  simp only [same]
  cases acceptorThrows with
  | true =>
      exact Or.inr ⟨fun quiet => Bool.noConfusion quiet.1, [], List.nil_subset order, rfl⟩
  | false =>
      rcases stopAll_eq { server with
        acceptorOpen := false, accepts := server.accepts.map Accept.cancel } throws distinct with
        ⟨quiet, stopped⟩ | ⟨loud, prior, among, stopped⟩
      · exact Or.inl ⟨⟨rfl, quiet⟩, stopped⟩
      · exact Or.inr ⟨fun quiet => loud quiet.2, prior, among, stopped⟩

end Server
end Http
end LearnAsio
