import LearnAsio.Http.Lifecycle

namespace LearnAsio
namespace Http

open Transition

/-!
# The invariant of the server

The local part says what an outstanding operation can rely on.  It is stated
about the one operation that a connection can have, and every member function
keeps it.  The global part says which connections exist, which of them the
manager keeps, and that only `new_connection_` can be the target of an accept.

All of it is about a running loop: a handler that throws leaves the manager in
a state that no later handler sees.
-/

variable {env : Env}

namespace Connection

/-- What is known while a write is outstanding: `response_` is still the response
that the buffers were taken from, and nothing has been accepted as long as the
write is pending.  Once it has succeeded, the accepted bytes are the first ones
of what the socket found in the buffers. -/
def Sending (connection : Connection env) (buffers : Buffers)
    (completion : Option Completion) : Prop :=
  (buffers.storage = .response → connection.response = buffers.source) ∧
    match completion with
    | none => connection.accepted = []
    | some completion => completion.ec = .success →
        connection.memory.length = buffers.whole.length ∧
          completion.bytesTransferred ≤ buffers.whole.length ∧
          connection.accepted = connection.memory.take completion.bytesTransferred ∧
          (buffers.storage = .response → connection.memory = buffers.whole)

/-- What is known of an outstanding operation of the connection. -/
def Awaits (connection : Connection env) (operation : Operation) : Prop :=
  (operation.completion = none → connection.isOpen = true) ∧
    match operation.kind with
    | .readSome => connection.accepted = []
    | .writeSome buffers => buffers.Taken env ∧ connection.Sending buffers operation.completion

/-- At most one operation is outstanding, and it is as it should be. -/
def Orderly (connection : Connection env) : Prop :=
  connection.operations = [] ∨
    ∃ operation, connection.operations = [operation] ∧ connection.Awaits operation

namespace Orderly

variable {connection : Connection env}

theorem single (orderly : connection.Orderly) : connection.operations.length ≤ 1 := by
  rcases orderly with none | ⟨operation, one, _⟩
  · rw [none]
    exact Nat.zero_le 1
  · rw [one]
    exact Nat.le_refl 1

/-- An operation that an event refers to is the only one, and it is known. -/
theorem listed (orderly : connection.Orderly) {index : Nat} {operation : Operation}
    (listed : connection.operations[index]? = some operation) :
    connection.operations = [operation] ∧ connection.Awaits operation := by
  have only := (eq_singleton_of_listed orderly.single listed).1
  refine ⟨only, ?_⟩
  rcases orderly with none | ⟨other, one, awaits⟩
  · rw [none] at only
    cases only
  · rw [one, List.cons.injEq] at only
    exact only.1 ▸ awaits

theorem member (orderly : connection.Orderly) {operation : Operation}
    (listed : operation ∈ connection.operations) :
    connection.operations = [operation] ∧ connection.Awaits operation := by
  rcases List.mem_iff_getElem?.mp listed with ⟨index, found⟩
  exact orderly.listed found

/-- Closing the socket keeps a connection orderly. -/
theorem stop (orderly : connection.Orderly) : connection.stop.Orderly := by
  rcases orderly with none | ⟨operation, one, awaits⟩
  · refine Or.inl ?_
    rw [Connection.stop, none]
    rfl
  · refine Or.inr ⟨operation.cancel, ?_, ?_⟩
    · rw [Connection.stop, one]
      rfl
    · refine ⟨(by intro impossible; cases impossible), ?_⟩
      have known := awaits.2
      rw [Operation.cancel_kind]
      cases shape : operation.kind with
      | readSome =>
          rw [shape] at known
          exact known
      | writeSome buffers =>
          rw [shape] at known
          rcases known with ⟨taken, source, sending⟩
          refine ⟨taken, source, ?_⟩
          -- A queued completion stays; a pending one becomes an abort.
          cases queued : operation.completion with
          | none =>
              rw [Operation.cancel, queued]
              intro impossible
              cases impossible
          | some completion =>
              rw [queued] at sending
              rw [Operation.cancel, queued]
              exact sending

end Orderly

/-- Reading starts an orderly connection that has sent nothing. -/
theorem start_orderly {connection : Connection env} (idle : connection.operations = [])
    (unsent : connection.accepted = []) : connection.start.Orderly := by
  refine Or.inr ⟨{ kind := .readSome, completion := connection.initialCompletion }, ?_, ?_⟩
  · rw [start, asyncReadSome]
    dsimp only
    rw [begin_operations, idle]
    rfl
  · exact ⟨connection.initialCompletion_eq_none, unsent⟩

/-- `handle_read` leaves the connection with the one operation it began. -/
theorem receive_orderly {connection : Connection env} (idle : connection.operations = [])
    (unsent : connection.accepted = []) (bytesTransferred : Nat) (date : Bytes) :
    (connection.receive bytesTransferred date).Orderly := by
  rcases connection.receive_operations bytesTransferred date with ⟨kind, began, _, written⟩
  rw [idle, List.nil_append] at began
  refine Or.inr ⟨_, began, ?_, ?_⟩
  · intro pending
    rw [receive_isOpen]
    exact connection.initialCompletion_eq_none pending
  · cases kind with
    | readSome =>
        change (connection.receive bytesTransferred date).accepted = []
        rw [receive_accepted, unsent]
    | writeSome buffers =>
        have taken := written buffers rfl
        refine ⟨taken.1, taken.2, ?_⟩
        cases queued : connection.initialCompletion with
        | none => exact (receive_accepted _ _ _).trans unsent
        | some completion =>
            intro success
            have failed := connection.initialCompletion_ec queued
            rw [success] at failed
            cases failed

end Connection

/-- What holds between two handlers. -/
structure Invariant (server : Server env) : Prop where
  orderly : ∀ id, (server.connection id).Orderly
  unstarted : ∀ id, server.newConnection ≤ id → (server.connection id).operations = [] ∧
    (server.connection id).log = [] ∧ (server.connection id).accepted = []
  members : ∀ id ∈ server.connections, id < server.newConnection
  closed : ∀ id, id < server.newConnection → id ∉ server.connections →
    (server.connection id).isOpen = false
  stopped : ∀ id, .stop ∈ (server.connection id).log →
    (server.connection id).isOpen = false ∧ id ∉ server.connections
  oneAccept : server.accepts.length ≤ 1
  target : ∀ accept ∈ server.accepts, accept.target = server.newConnection
  unassigned : server.accepts ≠ [] →
    (server.connection server.newConnection).isOpen = false

namespace Invariant

variable {server : Server env}

theorem initial : Invariant (Server.machine env).initial where
  orderly := fun _ => Or.inl rfl
  unstarted := fun _ _ => ⟨rfl, rfl, rfl⟩
  members := fun id listed => absurd listed (Finset.notMem_empty id)
  closed := fun _ _ _ => rfl
  stopped := fun id listed => absurd listed List.not_mem_nil
  oneAccept := Nat.le_refl 1
  target := by
    intro accept listed
    rw [List.mem_singleton.mp listed]
    rfl
  unassigned := fun _ => rfl

/-- A connection with an outstanding operation has been started. -/
theorem started (invariant : Invariant server) {id index : Nat} {operation : Operation}
    (listed : (server.connection id).operations[index]? = some operation) :
    id < server.newConnection := by
  by_contra late
  rw [(invariant.unstarted id (Nat.le_of_not_lt late)).1] at listed
  cases listed

/-- A connection with a pending operation is kept by the manager. -/
theorem member_of_pending (invariant : Invariant server) {id index : Nat} {kind : OperationKind}
    (listed : (server.connection id).operations[index]? = some { kind := kind }) :
    id ∈ server.connections := by
  by_contra missing
  have isOpen := ((invariant.orderly id).listed listed).2.1 rfl
  rw [invariant.closed id (invariant.started listed) missing] at isOpen
  cases isOpen

/-- A member function that neither opens the socket nor logs a stop keeps the
invariant when it leaves the connection orderly. -/
theorem update (invariant : Invariant server) {id : Nat} (isStarted : id < server.newConnection)
    {change : Connection env → Connection env}
    (orderly : (change (server.connection id)).Orderly)
    (sameSocket : (change (server.connection id)).isOpen = (server.connection id).isOpen)
    (sameStops : .stop ∈ (change (server.connection id)).log →
      .stop ∈ (server.connection id).log) : Invariant (server.update id change) where
  orderly := server.forall_update id change (fun _ connection => connection.Orderly) orderly
    fun other _ => invariant.orderly other
  unstarted := by
    intro other late
    have different : other ≠ id := fun same => Nat.not_lt_of_le late (same ▸ isStarted)
    rw [Server.update_connection_of_ne _ _ _ different]
    exact invariant.unstarted other late
  members := invariant.members
  closed := by
    apply server.forall_update id change (fun other connection =>
      other < server.newConnection → other ∉ server.connections → connection.isOpen = false)
    · intro early missing
      exact sameSocket.trans (invariant.closed id early missing)
    · exact fun other _ => invariant.closed other
  stopped := by
    apply server.forall_update id change (fun other connection =>
      .stop ∈ connection.log → connection.isOpen = false ∧ other ∉ server.connections)
    · intro logged
      have before := invariant.stopped id (sameStops logged)
      exact ⟨sameSocket.trans before.1, before.2⟩
    · exact fun other _ => invariant.stopped other
  oneAccept := invariant.oneAccept
  target := invariant.target
  unassigned := by
    intro outstanding
    have different : server.newConnection ≠ id := Ne.symm (Nat.ne_of_lt isStarted)
    have kept := Server.update_connection_of_ne server id change different
    exact (congrArg Connection.isOpen kept).trans (invariant.unassigned outstanding)

/-- Taking the outstanding operation out of the queue. -/
theorem dequeue (invariant : Invariant server) {id index : Nat} {operation : Operation}
    (listed : (server.connection id).operations[index]? = some operation) :
    Invariant (server.update id fun connection => connection.dequeue index) :=
  invariant.update (invariant.started listed)
    (Or.inl (eraseIdx_of_listed (invariant.orderly id).single listed)) rfl fun logged => logged

/-- The operating system completes the outstanding operation. -/
theorem complete (invariant : Invariant server) {id index : Nat} {operation : Operation}
    (listed : (server.connection id).operations[index]? = some operation)
    {change : Connection env → Connection env} {kind : OperationKind} {completion : Completion}
    (replaced : (change (server.connection id)).operations =
      (server.connection id).operations.set index { kind := kind, completion := some completion })
    (awaits : (change (server.connection id)).Awaits
      { kind := kind, completion := some completion })
    (sameSocket : (change (server.connection id)).isOpen = (server.connection id).isOpen)
    (sameLog : (change (server.connection id)).log = (server.connection id).log) :
    Invariant (server.update id change) := by
  have only := set_of_listed (invariant.orderly id).single listed
    { kind := kind, completion := some completion }
  refine invariant.update (invariant.started listed) (Or.inr ⟨_, replaced.trans only, awaits⟩)
    sameSocket fun logged => ?_
  rw [sameLog] at logged
  exact logged

theorem readDone (invariant : Invariant server) {id index : Nat} {data : Bytes}
    (listed : (server.connection id).operations[index]? = some { kind := .readSome }) :
    Invariant (server.update id fun connection => connection.completeRead index data) := by
  have awaits := ((invariant.orderly id).listed listed).2
  apply invariant.complete listed
  · rfl
  · exact ⟨(by intro impossible; cases impossible), awaits.2⟩
  · rfl
  · rfl

theorem readFailed (invariant : Invariant server) {id index : Nat}
    (listed : (server.connection id).operations[index]? = some { kind := .readSome }) :
    Invariant (server.update id fun connection =>
      connection.complete index .readSome { ec := .failure }) := by
  have awaits := ((invariant.orderly id).listed listed).2
  apply invariant.complete listed
  · rfl
  · exact ⟨(by intro impossible; cases impossible), awaits.2⟩
  · rfl
  · rfl

/-- A pending write owned by the manager finds in `response_` what was taken
from it, so what it sends is the beginning of the response. -/
theorem writeDone (invariant : Invariant server) {id index count : Nat} {buffers : Buffers}
    {memory : Bytes}
    (listed : (server.connection id).operations[index]? = some { kind := .writeSome buffers })
    (size : 1 ≤ count ∧ count ≤ buffers.whole.length)
    (found : memory.length = buffers.whole.length ∧
      (server.Intact id buffers → memory = buffers.whole)) :
    Invariant (server.update id fun connection =>
      connection.completeWrite index buffers count memory) := by
  have awaits := ((invariant.orderly id).listed listed).2
  rcases awaits.2 with ⟨taken, source, unsent⟩
  have unsent : (server.connection id).accepted = [] := unsent
  have owned : server.Owned id := Or.inl (invariant.member_of_pending listed)
  apply invariant.complete listed
  · rfl
  · refine ⟨(by intro impossible; cases impossible), taken, source, ?_⟩
    intro _
    refine ⟨found.1, size.2, ?_, ?_⟩
    · change (server.connection id).accepted ++ memory.take count = memory.take count
      rw [unsent, List.nil_append]
    · intro stored
      exact found.2 ⟨stored, source stored, owned⟩
  · rfl
  · rfl

theorem writeFailed (invariant : Invariant server) {id index : Nat} {buffers : Buffers}
    (listed : (server.connection id).operations[index]? = some { kind := .writeSome buffers }) :
    Invariant (server.update id fun connection =>
      connection.complete index (.writeSome buffers) { ec := .failure }) := by
  have awaits := ((invariant.orderly id).listed listed).2
  apply invariant.complete listed
  · rfl
  · refine ⟨(by intro impossible; cases impossible), awaits.2.1, awaits.2.2.1, ?_⟩
    intro impossible
    cases impossible
  · rfl
  · rfl

/-- The manager closes a connection and lets go of it. -/
theorem managerStop (invariant : Invariant server) {id : Nat}
    (isStarted : id < server.newConnection) :
    Invariant { server.update id Connection.stop with
      connections := server.connections.erase id } where
  orderly := server.forall_update id Connection.stop (fun _ connection => connection.Orderly)
    (invariant.orderly id).stop fun other _ => invariant.orderly other
  unstarted := by
    intro other late
    have different : other ≠ id := fun same => Nat.not_lt_of_le late (same ▸ isStarted)
    have kept := Server.update_connection_of_ne server id Connection.stop different
    exact kept ▸ invariant.unstarted other late
  members := fun other kept => invariant.members other (Finset.mem_of_mem_erase kept)
  closed := by
    apply server.forall_update id Connection.stop (fun other connection =>
      other < server.newConnection → other ∉ server.connections.erase id →
        connection.isOpen = false)
    · intro _ _
      rfl
    · intro other different early missing
      apply invariant.closed other early
      intro listed
      exact missing (Finset.mem_erase.mpr ⟨different, listed⟩)
  stopped := by
    apply server.forall_update id Connection.stop (fun other connection =>
      .stop ∈ connection.log → connection.isOpen = false ∧ other ∉ server.connections.erase id)
    · intro _
      exact ⟨rfl, Finset.notMem_erase id _⟩
    · intro other _ logged
      have before := invariant.stopped other logged
      exact ⟨before.1, fun erased => before.2 (Finset.mem_of_mem_erase erased)⟩
  oneAccept := invariant.oneAccept
  target := invariant.target
  unassigned := by
    intro outstanding
    have different : server.newConnection ≠ id := Ne.symm (Nat.ne_of_lt isStarted)
    have kept := Server.update_connection_of_ne server id Connection.stop different
    exact (congrArg Connection.isOpen kept).trans (invariant.unassigned outstanding)

/-- Shutting down closes every connection of the manager and the acceptor. -/
theorem stopEach (invariant : Invariant server) {order : List Nat}
    (listed : order.toFinset = server.connections) :
    Invariant { server.stopEach order with
      connections := ∅, acceptorOpen := false
      accepts := server.accepts.map Accept.cancel } := by
  have same : ∀ id, id ∈ order ↔ id ∈ server.connections := by
    intro id
    rw [← listed, List.mem_toFinset]
  have untouched : ∀ id, server.newConnection ≤ id →
      (server.stopEach order).connection id = server.connection id := by
    intro id late
    apply Server.stopEach_of_notMem
    intro member
    exact Nat.not_lt_of_le late (invariant.members id ((same id).mp member))
  refine ⟨?_, ?_, ?_, ?_, ?_, ?_, ?_, ?_⟩
  · exact server.forall_stopEach (fun _ connection => connection.Orderly)
      (fun id _ => (invariant.orderly id).stop) fun id _ => invariant.orderly id
  · intro id late
    exact (untouched id late) ▸ invariant.unstarted id late
  · intro id member
    exact absurd member (Finset.notMem_empty id)
  · intro id early _
    apply server.forall_stopEach (fun id connection =>
      id < server.newConnection → connection.isOpen = false) _ _ id early
    · intro id _ _
      rfl
    · intro id unlisted early
      exact invariant.closed id early fun kept => unlisted ((same id).mpr kept)
  · intro id logged
    refine ⟨?_, Finset.notMem_empty id⟩
    apply server.forall_stopEach (fun _ connection =>
      .stop ∈ connection.log → connection.isOpen = false) _ _ id logged
    · intro id _ _
      rfl
    · intro id _ before
      exact (invariant.stopped id before).1
  · change (server.accepts.map Accept.cancel).length ≤ 1
    rw [List.length_map]
    exact invariant.oneAccept
  · intro accept member
    rcases List.mem_map.mp member with ⟨before, outstanding, cancelled⟩
    rw [← cancelled]
    exact invariant.target before outstanding
  · intro outstanding
    have before : server.accepts ≠ [] := by
      intro none
      apply outstanding
      change server.accepts.map Accept.cancel = []
      rw [none]
      rfl
    exact (congrArg Connection.isOpen (untouched server.newConnection (Nat.le_refl _))).trans
      (invariant.unassigned before)

/-- An accept that is the only one leaves none when its handler runs. -/
theorem acceptHandled (invariant : Invariant server) {index : Nat} {accept : Accept}
    (listed : server.accepts[index]? = some accept) :
    server.accepts.eraseIdx index = [] ∧ accept.target = server.newConnection ∧
      (server.connection server.newConnection).isOpen = false := by
  have member : accept ∈ server.accepts := List.mem_of_getElem? listed
  exact ⟨eraseIdx_of_listed invariant.oneAccept listed, invariant.target accept member,
    invariant.unassigned (List.ne_nil_of_mem member)⟩

/-- Nothing is required of the accepts once none is outstanding. -/
theorem acceptDequeued (invariant : Invariant server) :
    Invariant { server with accepts := [] } where
  orderly := invariant.orderly
  unstarted := invariant.unstarted
  members := invariant.members
  closed := invariant.closed
  stopped := invariant.stopped
  oneAccept := Nat.zero_le 1
  target := fun _ listed => absurd listed List.not_mem_nil
  unassigned := fun outstanding => absurd rfl outstanding

/-- The accept opens the socket of `new_connection_`, which is not started. -/
theorem assigned (invariant : Invariant server) (handled : server.accepts = []) :
    Invariant (server.update server.newConnection Connection.assign) := by
  have fresh := invariant.unstarted server.newConnection (Nat.le_refl _)
  refine ⟨?_, ?_, invariant.members, ?_, ?_, invariant.oneAccept, invariant.target, ?_⟩
  · exact server.forall_update _ _ (fun _ connection => connection.Orderly) (Or.inl fresh.1)
      fun id _ => invariant.orderly id
  · exact server.forall_update _ _ (fun id connection => server.newConnection ≤ id →
      connection.operations = [] ∧ connection.log = [] ∧ connection.accepted = [])
      (fun _ => fresh) fun id _ => invariant.unstarted id
  · intro id early missing
    have kept := Server.update_connection_of_ne server server.newConnection Connection.assign
      (Nat.ne_of_lt early)
    exact (congrArg Connection.isOpen kept).trans (invariant.closed id early missing)
  · apply server.forall_update _ _ (fun id connection =>
      .stop ∈ connection.log → connection.isOpen = false ∧ id ∉ server.connections)
    · intro logged
      have nothing : Action.stop ∈ (server.connection server.newConnection).log := logged
      rw [fresh.2.1] at nothing
      cases nothing
    · exact fun id _ => invariant.stopped id
  · intro outstanding
    exact absurd handled outstanding

/-- `start_accept` replaces `new_connection_`, so the previous one counts as
started: it must be kept by the manager or closed. -/
theorem startAccept (orderly : ∀ id, (server.connection id).Orderly)
    (unstarted : ∀ id, server.newConnection < id → (server.connection id).operations = [] ∧
      (server.connection id).log = [] ∧ (server.connection id).accepted = [])
    (members : ∀ id ∈ server.connections, id ≤ server.newConnection)
    (closed : ∀ id, id ≤ server.newConnection → id ∉ server.connections →
      (server.connection id).isOpen = false)
    (stopped : ∀ id, .stop ∈ (server.connection id).log →
      (server.connection id).isOpen = false ∧ id ∉ server.connections)
    (handled : server.accepts = []) : Invariant server.startAccept := by
  have one : server.startAccept.accepts = [{ target := server.newConnection + 1
                                             completion :=
                                               if server.acceptorOpen then none
                                               else some .failure }] := by
    rw [Server.startAccept, handled]
    rfl
  refine ⟨?_, ?_, ?_, ?_, ?_, ?_, ?_, ?_⟩
  · exact server.forall_startAccept (fun _ connection => connection.Orderly) (Or.inl rfl)
      fun id _ => orderly id
  · exact server.forall_startAccept (fun id connection => server.newConnection + 1 ≤ id →
      connection.operations = [] ∧ connection.log = [] ∧ connection.accepted = [])
      (fun _ => ⟨rfl, rfl, rfl⟩) fun id _ => unstarted id
  · intro id member
    exact Nat.lt_succ_of_le (members id member)
  · exact server.forall_startAccept (fun id connection => id < server.newConnection + 1 →
      id ∉ server.connections → connection.isOpen = false)
      (fun _ _ => rfl) fun id _ early => closed id (Nat.le_of_lt_succ early)
  · apply server.forall_startAccept (fun id connection =>
      .stop ∈ connection.log → connection.isOpen = false ∧ id ∉ server.connections)
    · intro impossible
      cases impossible
    · exact fun id _ => stopped id
  · rw [one]
    exact Nat.le_of_eq rfl
  · intro accept listed
    rw [one] at listed
    rw [List.mem_singleton.mp listed]
    rfl
  · intro _
    exact congrArg Connection.isOpen server.startAccept_connection_self

/-- A failed accept drops `new_connection_`, which was never opened. -/
theorem acceptFailed (invariant : Invariant server) (handled : server.accepts = [])
    (unopened : (server.connection server.newConnection).isOpen = false) :
    Invariant server.startAccept := by
  apply startAccept invariant.orderly
  · intro id late
    exact invariant.unstarted id (Nat.le_of_lt late)
  · intro id member
    exact Nat.le_of_lt (invariant.members id member)
  · intro id early missing
    rcases Nat.lt_or_eq_of_le early with before | same
    · exact invariant.closed id before missing
    · exact same ▸ unopened
  · exact invariant.stopped
  · exact handled

/-- An accepted connection is started by the manager before it is replaced. -/
theorem acceptStarted (invariant : Invariant server) (handled : server.accepts = []) :
    Invariant (server.managerStart server.newConnection).startAccept := by
  have fresh := invariant.unstarted server.newConnection (Nat.le_refl _)
  have elsewhere : ∀ id, id ≠ server.newConnection →
      (server.managerStart server.newConnection).connection id = server.connection id :=
    fun id different => server.managerStart_connection_of_ne _ different
  apply startAccept
  · exact server.forall_update _ _ (fun _ connection => connection.Orderly)
      (Connection.start_orderly fresh.1 fresh.2.2) fun id _ => invariant.orderly id
  · intro id late
    have before : server.newConnection < id := late
    rw [elsewhere id (Nat.ne_of_gt before)]
    exact invariant.unstarted id (Nat.le_of_lt before)
  · intro id member
    rcases Finset.mem_insert.mp member with same | kept
    · exact Nat.le_of_eq same
    · exact Nat.le_of_lt (invariant.members id kept)
  · intro id early missing
    have different : id ≠ server.newConnection :=
      fun same => missing (Finset.mem_insert.mpr (Or.inl same))
    rw [elsewhere id different]
    exact invariant.closed id (Nat.lt_of_le_of_ne early different)
      (fun kept => missing (Finset.mem_insert_of_mem kept))
  · apply server.forall_update _ _ (fun id connection => .stop ∈ connection.log →
      connection.isOpen = false ∧ id ∉ insert server.newConnection server.connections)
    · intro logged
      have nothing : Action.stop ∈
          (server.connection server.newConnection).log ++ [.asyncReadSome] := logged
      rw [fresh.2.1] at nothing
      cases List.mem_singleton.mp nothing
    · intro id different logged
      have before := invariant.stopped id logged
      refine ⟨before.1, fun member => ?_⟩
      rcases Finset.mem_insert.mp member with equal | kept
      · exact different equal
      · exact before.2 kept
  · exact handled

end Invariant

/-! ## Every step keeps the invariant -/

/-- `hanlde_accept` keeps the invariant unless asking for the endpoint throws. -/
theorem Invariant.hanldeAccept {server : Server env} (invariant : Invariant server)
    {index target : Nat} {ec : ErrorCode} {endpointThrows : Bool}
    (listed : server.accepts[index]? = some { target := target, completion := some ec })
    (running : ((server.dequeueAccept index target ec).hanldeAccept ec endpointThrows).status =
      .running) :
    Invariant ((server.dequeueAccept index target ec).hanldeAccept ec endpointThrows) := by
  rcases invariant.acceptHandled listed with ⟨handled, aimed, unopened⟩
  have target_eq : target = server.newConnection := aimed
  have dequeued := invariant.acceptDequeued
  have unsuccessful : ec ≠ .success →
      server.dequeueAccept index target ec = { server with accepts := [] } := by
    intro failed
    rw [Server.dequeueAccept, if_neg failed, handled]
  have successful : ec = .success → server.dequeueAccept index target ec =
      ({ server with accepts := [] } : Server env).update server.newConnection
        Connection.assign := by
    intro success
    rw [Server.dequeueAccept, if_pos success, handled, target_eq]
  rcases (server.dequeueAccept index target ec).hanldeAccept_cases ec endpointThrows with
    ⟨_, same⟩ | ⟨failed, same⟩ | ⟨_, same⟩ | ⟨success, same⟩
  · rw [same]
    by_cases success : ec = .success
    · rw [successful success]
      exact dequeued.assigned rfl
    · rw [unsuccessful success]
      exact dequeued
  · rw [same, unsuccessful failed]
    exact dequeued.acceptFailed rfl unopened
  · rw [same] at running
    cases running
  · rw [same, successful success]
    exact (dequeued.assigned rfl).acceptStarted rfl

/-- `connection_manager::stop` keeps the invariant unless the close throws. -/
theorem Invariant.stopped_running {server : Server env} (invariant : Invariant server) {id : Nat}
    {throws : Bool} (isStarted : id < server.newConnection)
    (running : (server.managerStop id throws).status = .running) :
    Invariant (server.managerStop id throws) := by
  rcases server.managerStop_cases id throws with ⟨_, same⟩ | ⟨_, same⟩
  · rw [same]
    exact invariant.managerStop isStarted
  · rw [same] at running
    cases running

theorem Invariant.handleRead {server : Server env} (invariant : Invariant server)
    {id index : Nat} {completion : Completion} {date : Bytes} {throws : Bool}
    (listed : (server.connection id).operations[index]? =
      some { kind := .readSome, completion := some completion })
    (running : ((server.update id fun connection => connection.dequeue index).handleRead
      id completion date throws).status = .running) :
    Invariant ((server.update id fun connection => connection.dequeue index).handleRead
      id completion date throws) := by
  have isStarted := invariant.started listed
  have dequeued := invariant.dequeue listed
  by_cases failed : completion.ec = .failure
  · rw [Server.handleRead_failed _ _ failed] at running ⊢
    exact dequeued.stopped_running isStarted running
  · rw [Server.handleRead_received _ _ failed]
    have unsent : (server.connection id).accepted = [] :=
      ((invariant.orderly id).listed listed).2.2
    have idle : ((server.connection id).dequeue index).operations = [] :=
      eraseIdx_of_listed (invariant.orderly id).single listed
    have here := Server.update_connection_self server id fun connection =>
      connection.dequeue index
    apply dequeued.update isStarted
    · rw [here]
      exact Connection.receive_orderly idle unsent completion.bytesTransferred date
    · rw [Connection.receive_isOpen]
    · intro logged
      exact (Connection.stop_mem_receive_log _ _ _).mp logged

theorem Invariant.handleWrite {server : Server env} (invariant : Invariant server)
    {id index : Nat} {buffers : Buffers} {completion : Completion} {throws : Bool}
    (listed : (server.connection id).operations[index]? =
      some { kind := .writeSome buffers, completion := some completion })
    (running : ((server.update id fun connection => connection.dequeue index).handleWrite
      id completion throws).status = .running) :
    Invariant ((server.update id fun connection => connection.dequeue index).handleWrite
      id completion throws) := by
  have isStarted := invariant.started listed
  have dequeued := invariant.dequeue listed
  rcases (server.update id fun connection => connection.dequeue index).handleWrite_cases
    id completion throws with ⟨_, same⟩ | ⟨_, _, same⟩ | ⟨_, _, same⟩
  · rw [same] at running
    cases running
  · rw [same] at running ⊢
    exact dequeued.stopped_running isStarted running
  · rw [same]
    apply dequeued.update isStarted
    · rw [Server.update_connection_self]
      exact Or.inl (eraseIdx_of_listed (invariant.orderly id).single listed)
    · rfl
    · intro logged
      rcases List.mem_append.mp logged with before | new
      · exact before
      · cases List.mem_singleton.mp new

theorem Invariant.hanldeStop {server : Server env} (invariant : Invariant server)
    {order : List Nat} {acceptorThrows : Bool} {throws : Nat → Bool} (distinct : order.Nodup)
    (listed : order.toFinset = server.connections)
    (running : (server.hanldeStop order acceptorThrows throws).status = .running) :
    Invariant (server.hanldeStop order acceptorThrows throws) := by
  rcases server.hanldeStop_eq acceptorThrows throws distinct listed with
    ⟨_, same⟩ | ⟨_, prior, _, same⟩
  · rw [same]
    exact invariant.stopEach listed
  · rw [same] at running
    cases running

/-- A handler that does not throw keeps the invariant. -/
theorem Invariant.moves {server next : Server env} {event : Event} (invariant : Invariant server)
    (moved : Moves server event next) (running : next.status = .running) : Invariant next := by
  cases moved with
  | acceptDone listed =>
      refine ⟨invariant.orderly, invariant.unstarted, invariant.members, invariant.closed,
        invariant.stopped, ?_, ?_, ?_⟩
      · rw [List.length_set]
        exact invariant.oneAccept
      · intro accept member
        rw [set_of_listed invariant.oneAccept listed] at member
        have aimed := invariant.target _ (List.mem_of_getElem? listed)
        rw [List.mem_singleton.mp member]
        exact aimed
      · intro _
        exact invariant.unassigned (List.ne_nil_of_mem (List.mem_of_getElem? listed))
  | readDone listed _ => exact invariant.readDone listed
  | readFailed listed => exact invariant.readFailed listed
  | writeDone listed size found => exact invariant.writeDone listed size found
  | writeFailed listed => exact invariant.writeFailed listed
  | signalRaised _ =>
      exact ⟨invariant.orderly, invariant.unstarted, invariant.members, invariant.closed,
        invariant.stopped, invariant.oneAccept, invariant.target, invariant.unassigned⟩
  | hanldeAccept listed => exact invariant.hanldeAccept listed running
  | handleRead listed => exact invariant.handleRead listed running
  | handleWrite listed => exact invariant.handleWrite listed running
  | hanldeStop raised distinct listed =>
      have handled : Invariant { server with signalWait := .handled } :=
        ⟨invariant.orderly, invariant.unstarted, invariant.members, invariant.closed,
          invariant.stopped, invariant.oneAccept, invariant.target, invariant.unassigned⟩
      exact handled.hanldeStop distinct listed running

/-- In every reachable state of a running loop the invariant holds. -/
def Sound (server : Server env) : Prop :=
  server.status = .running → Invariant server

theorem sound_initial : Sound (Server.machine env).initial :=
  fun _ => Invariant.initial

theorem sound_step (server : Server env) (event : Event) (next : Server env)
    (sound : Sound server) (step : (Server.machine env).step server event = some next) :
    Sound next := by
  rcases moves_of_step step with ⟨running, moved⟩
  intro stillRunning
  exact (sound running).moves moved stillRunning

theorem sound_of_reachable {server : Server env}
    (reached : (Server.machine env).Reachable server) : Sound server :=
  (Server.machine env).reachable_induction sound_initial sound_step reached

end Http
end LearnAsio
