import LearnAsio.Http.Invariant
import LearnAsio.Http.Segmentation

namespace LearnAsio
namespace Http

open Transition

/-!
# Who keeps a connection alive

A handler of a connection must find it alive.  The read that `start` begins
holds a shared pointer for that purpose; the two writes of `handle_read` do not,
so a connection with an outstanding write lives only as long as the manager
keeps it.

The property is stated for every state of a run and every outstanding operation.
Two steps can break it, both during a shutdown, and the condition below names
exactly these two.  Every other step keeps the property, whatever the order of
accepts, completions and errors.
-/

variable {env : Env}

/-- Every connection with an outstanding operation has an owner, and no handler
has run on a connection without one. -/
def OwnersKept (server : Server env) : Prop :=
  server.status ≠ .undefined ∧
    ∀ id, ∀ operation ∈ (server.connection id).operations, server.Owned id

/-- The steps that keep every owner.  A shutdown must not find a write
outstanding on a connection of the manager, since its handler holds no owner.
After it, a read completion must not lead to a write: the shared pointer of the
read is the last owner. -/
def KeepsOwners (server : Server env) : Event → Prop
  | .handleRead id index _ _ => ∀ completion,
      (server.connection id).operations[index]? =
          some { kind := .readSome, completion := some completion } →
        completion.ec = .failure ∨ id ∈ server.connections ∨
          (server.connection id).parseStatus completion.bytesTransferred = .wantMore
  | .hanldeStop _ acceptorThrows throws => server.StopsQuietly acceptorThrows throws →
      ∀ id ∈ server.connections, ∀ operation ∈ (server.connection id).operations,
        operation.ownsConnection = true
  | _ => True

namespace OwnersKept

variable {server : Server env}

/-- Changing one connection keeps the owners of the others. -/
theorem update_iff (kept : OwnersKept server) {id : Nat}
    {change : Connection env → Connection env} :
    OwnersKept (server.update id change) ↔
      ∀ operation ∈ (change (server.connection id)).operations,
        (server.update id change).Owned id := by
  constructor
  · intro after operation listed
    apply after.2 id operation
    rw [Server.update_connection_self]
    exact listed
  · intro owned
    refine ⟨kept.1, ?_⟩
    intro other operation listed
    by_cases same : other = id
    · subst same
      rw [Server.update_connection_self] at listed
      exact owned operation listed
    · have untouched := Server.update_connection_of_ne server id change same
      rw [untouched] at listed
      have before := kept.2 other operation listed
      unfold Server.Owned at before ⊢
      rw [untouched]
      exact before

/-- A connection left without operations needs no owner. -/
theorem update_idle (kept : OwnersKept server) {id : Nat}
    {change : Connection env → Connection env}
    (idle : (change (server.connection id)).operations = []) :
    OwnersKept (server.update id change) := by
  apply kept.update_iff.mpr
  intro operation listed
  rw [idle] at listed
  cases listed

/-- A connection of the manager has an owner whatever it does. -/
theorem update_member (kept : OwnersKept server) {id : Nat} (member : id ∈ server.connections)
    (change : Connection env → Connection env) : OwnersKept (server.update id change) :=
  kept.update_iff.mpr fun _ _ => Or.inl member

/-- An idle connection may leave the manager's set. -/
theorem erase_idle (kept : OwnersKept server) {id : Nat}
    (idle : (server.connection id).operations = []) :
    OwnersKept { server with connections := server.connections.erase id } := by
  refine ⟨kept.1, ?_⟩
  intro other operation listed
  have different : other ≠ id := by
    intro same
    subst same
    rw [idle] at listed
    cases listed
  rcases kept.2 other operation listed with member | fresh | held
  · exact Or.inl (Finset.mem_erase.mpr ⟨different, member⟩)
  · exact Or.inr (Or.inl fresh)
  · exact Or.inr (Or.inr held)

/-- `connection_manager::stop` on a connection whose operation has just been
handled. -/
theorem managerStop (kept : OwnersKept server) {id : Nat}
    (idle : (server.connection id).operations = []) (throws : Bool) :
    OwnersKept (server.managerStop id throws) := by
  have stopped : (server.connection id).stop.operations = [] := by
    rw [Connection.stop, idle]
    rfl
  have updated : OwnersKept (server.update id Connection.stop) := kept.update_idle stopped
  rcases server.managerStop_cases id throws with ⟨_, same⟩ | ⟨_, same⟩
  · rw [same]
    apply updated.erase_idle
    rw [Server.update_connection_self]
    exact stopped
  · rw [same]
    exact ⟨(by intro impossible; cases impossible), updated.2⟩

/-- `start_accept` gives up the previous `new_connection_`, which must be idle
or kept by the manager. -/
theorem startAccept (kept : OwnersKept server)
    (given : (server.connection server.newConnection).operations = [] ∨
      server.newConnection ∈ server.connections) : OwnersKept server.startAccept := by
  refine ⟨kept.1, ?_⟩
  intro id operation listed
  by_cases same : id = server.newConnection + 1
  · exact Or.inr (Or.inl same.symm)
  · have untouched := server.startAccept_connection_of_ne same
    rw [untouched] at listed
    rcases kept.2 id operation listed with member | fresh | held
    · exact Or.inl member
    · rcases given with idle | member
      · rw [← fresh, idle] at listed
        cases listed
      · exact Or.inl (fresh ▸ member)
    · refine Or.inr (Or.inr ?_)
      rw [untouched]
      exact held

/-- A stop of some connections changes neither their operations nor, as long as
the set stays, their owners. -/
theorem stopEach_owned (kept : OwnersKept server) (ids : List Nat) (id : Nat) :
    ∀ operation ∈ ((server.stopEach ids).connection id).operations,
      (server.stopEach ids).Owned id := by
  by_cases listed : id ∈ ids
  · have stopped := Server.stopEach_of_mem server id listed
    unfold Server.Owned
    rw [stopped]
    intro operation outstanding
    rcases List.mem_map.mp outstanding with ⟨before, member, _⟩
    rcases kept.2 id before member with managed | fresh | ⟨owner, among, owns⟩
    · exact Or.inl managed
    · exact Or.inr (Or.inl fresh)
    · exact Or.inr (Or.inr ⟨owner.cancel, List.mem_map_of_mem among, owns⟩)
  · have untouched := Server.stopEach_of_notMem server id listed
    unfold Server.Owned
    rw [untouched]
    exact kept.2 id

/-- An accept hands a started connection to the manager before it asks for the
next one. -/
theorem hanldeAccept (kept : OwnersKept server) (invariant : Invariant server)
    {index target : Nat} {ec : ErrorCode} (endpointThrows : Bool)
    (listed : server.accepts[index]? = some { target := target, completion := some ec }) :
    OwnersKept ((server.dequeueAccept index target ec).hanldeAccept ec endpointThrows) := by
  have aimed : target = server.newConnection :=
    invariant.target _ (List.mem_of_getElem? listed)
  have unused : (server.connection server.newConnection).operations = [] :=
    (invariant.unstarted server.newConnection (Nat.le_refl _)).1
  have dequeued : OwnersKept { server with accepts := server.accepts.eraseIdx index } := kept
  have assigned : OwnersKept (server.dequeueAccept index target ec) ∧
      (server.dequeueAccept index target ec).newConnection = server.newConnection ∧
      ((server.dequeueAccept index target ec).connection server.newConnection).operations =
        [] := by
    unfold Server.dequeueAccept
    by_cases success : ec = .success
    · rw [if_pos success, aimed]
      refine ⟨dequeued.update_idle unused, rfl, ?_⟩
      rw [Server.update_connection_self]
      exact unused
    · rw [if_neg success]
      exact ⟨dequeued, rfl, unused⟩
  rcases assigned with ⟨after, fresh, idle⟩
  rcases (server.dequeueAccept index target ec).hanldeAccept_cases ec endpointThrows with
    ⟨_, same⟩ | ⟨_, same⟩ | ⟨_, same⟩ | ⟨_, same⟩
  · rw [same]
    exact after
  · rw [same]
    apply after.startAccept
    exact Or.inl (fresh ▸ idle)
  · rw [same]
    exact ⟨(by intro impossible; cases impossible), after.2⟩
  · rw [same]
    apply OwnersKept.startAccept
    · have inserted : OwnersKept { server.dequeueAccept index target ec with
          connections := insert (server.dequeueAccept index target ec).newConnection
            (server.dequeueAccept index target ec).connections } := by
        refine ⟨after.1, fun id operation outstanding => ?_⟩
        rcases after.2 id operation outstanding with member | fresh | held
        · exact Or.inl (Finset.mem_insert_of_mem member)
        · exact Or.inr (Or.inl fresh)
        · exact Or.inr (Or.inr held)
      exact inserted.update_member (Finset.mem_insert_self _ _) Connection.start
    · exact Or.inr (Finset.mem_insert_self _ _)

/-- After a read, the connection is owned by the manager or, when it reads
again, by its next operation. -/
theorem handleRead_iff (kept : OwnersKept server) (invariant : Invariant server)
    {id index : Nat} {completion : Completion} (date : Bytes) (throws : Bool)
    (listed : (server.connection id).operations[index]? =
      some { kind := .readSome, completion := some completion }) :
    OwnersKept ((server.update id fun connection => connection.dequeue index).handleRead
        id completion date throws) ↔
      completion.ec = .failure ∨ id ∈ server.connections ∨
        (server.connection id).parseStatus completion.bytesTransferred = .wantMore := by
  have idle : ((server.connection id).dequeue index).operations = [] :=
    eraseIdx_of_listed (invariant.orderly id).single listed
  have dequeued : OwnersKept (server.update id fun connection => connection.dequeue index) :=
    kept.update_idle idle
  have notFresh : server.newConnection ≠ id := Ne.symm (Nat.ne_of_lt (invariant.started listed))
  by_cases failed : completion.ec = .failure
  · rw [Server.handleRead_failed _ _ failed]
    refine ⟨fun _ => Or.inl failed, fun _ => dequeued.managerStop ?_ throws⟩
    rw [Server.update_connection_self]
    exact idle
  · rw [Server.handleRead_received _ _ failed, dequeued.update_iff]
    rcases ((server.connection id).dequeue index).receive_operations
      completion.bytesTransferred date with ⟨kind, began, reads, _⟩
    rw [idle, List.nil_append] at began
    rw [Server.update_connection_self]
    simp only [began, List.mem_singleton, forall_eq, Server.Owned, Server.update_connections,
      Server.update_newConnection, Server.update_connection_self, exists_eq_left]
    cases kind with
    | readSome =>
        have status : (server.connection id).parseStatus completion.bytesTransferred =
          .wantMore := reads.mp rfl
        exact ⟨fun _ => Or.inr (Or.inr status), fun _ => Or.inr (Or.inr rfl)⟩
    | writeSome buffers =>
        have status : (server.connection id).parseStatus completion.bytesTransferred ≠
            .wantMore := by
          intro wantMore
          cases reads.mpr wantMore
        constructor
        · rintro (member | fresh | held)
          · exact Or.inr (Or.inl member)
          · exact absurd fresh notFresh
          · cases held
        · rintro (contrary | member | wantMore)
          · exact absurd contrary failed
          · exact Or.inl member
          · exact absurd wantMore status

/-- A write is handled on an owned connection, which is idle afterwards. -/
theorem handleWrite (kept : OwnersKept server) (invariant : Invariant server)
    {id index : Nat} {buffers : Buffers} {completion : Completion} (throws : Bool)
    (listed : (server.connection id).operations[index]? =
      some { kind := .writeSome buffers, completion := some completion }) :
    OwnersKept ((server.update id fun connection => connection.dequeue index).handleWrite
        id completion throws) := by
  have only := ((invariant.orderly id).listed listed).1
  have idle : ((server.connection id).dequeue index).operations = [] :=
    eraseIdx_of_listed (invariant.orderly id).single listed
  have dequeued : OwnersKept (server.update id fun connection => connection.dequeue index) :=
    kept.update_idle idle
  have idleNow : ((server.update id fun connection =>
      connection.dequeue index).connection id).operations = [] := by
    rw [Server.update_connection_self]
    exact idle
  rcases (server.update id fun connection => connection.dequeue index).handleWrite_cases
    id completion throws with ⟨ownerless, _⟩ | ⟨_, _, same⟩ | ⟨_, _, same⟩
  · -- The write that is handled is not an owner, so there was another one.
    refine absurd ?_ ownerless
    rcases kept.2 id _ (List.mem_of_getElem? listed) with member | fresh | ⟨owner, among, owns⟩
    · exact Or.inl member
    · exact Or.inr (Or.inl fresh)
    · rw [only] at among
      rw [List.mem_singleton.mp among] at owns
      cases owns
  · rw [same]
    exact dequeued.managerStop idleNow throws
  · rw [same]
    exact dequeued.update_idle idleNow

/-- `stop_all` takes the manager's ownership away from every connection. -/
theorem hanldeStop_iff (kept : OwnersKept server) (invariant : Invariant server)
    {order : List Nat} (acceptorThrows : Bool) (throws : Nat → Bool) (distinct : order.Nodup)
    (listed : order.toFinset = server.connections) :
    OwnersKept (server.hanldeStop order acceptorThrows throws) ↔
      (server.StopsQuietly acceptorThrows throws →
        ∀ id ∈ server.connections, ∀ operation ∈ (server.connection id).operations,
          operation.ownsConnection = true) := by
  rcases server.hanldeStop_eq acceptorThrows throws distinct listed with
    ⟨quiet, same⟩ | ⟨loud, prior, _, same⟩
  · rw [same]
    constructor
    · rintro after _ id member operation outstanding
      have inOrder : id ∈ order := List.mem_toFinset.mp (listed ▸ member)
      have stopped := Server.stopEach_of_mem server id inOrder
      have only := ((invariant.orderly id).member outstanding).1
      have cancelled : (server.connection id).stop.operations = [operation.cancel] := by
        rw [Connection.stop, only]
        rfl
      have owned := after.2 id operation.cancel (by
        change operation.cancel ∈ ((server.stopEach order).connection id).operations
        rw [stopped, cancelled]
        exact List.mem_singleton_self _)
      rcases owned with managed | fresh | ⟨owner, among, owns⟩
      · exact absurd managed (Finset.notMem_empty id)
      · exact absurd fresh (Ne.symm (Nat.ne_of_lt (invariant.members id member)))
      · change owner ∈ ((server.stopEach order).connection id).operations at among
        rw [stopped, cancelled] at among
        rw [List.mem_singleton.mp among] at owns
        exact owns
    · intro holding
      refine ⟨kept.1, ?_⟩
      intro id operation outstanding
      change operation ∈ ((server.stopEach order).connection id).operations at outstanding
      by_cases member : id ∈ server.connections
      · have inOrder : id ∈ order := List.mem_toFinset.mp (listed ▸ member)
        rw [Server.stopEach_of_mem server id inOrder] at outstanding
        refine Or.inr (Or.inr ⟨operation, ?_, ?_⟩)
        · change operation ∈ ((server.stopEach order).connection id).operations
          rw [Server.stopEach_of_mem server id inOrder]
          exact outstanding
        · rcases List.mem_map.mp outstanding with ⟨before, among, cancelled⟩
          rw [← cancelled]
          exact holding quiet id member before among
      · rcases kept.stopEach_owned order id operation outstanding with managed | fresh | held
        · exact absurd managed member
        · exact Or.inr (Or.inl fresh)
        · exact Or.inr (Or.inr held)
  · rw [same]
    refine ⟨fun _ quiet => absurd quiet loud, fun _ => ⟨?_, ?_⟩⟩
    · intro impossible
      cases impossible
    · exact kept.stopEach_owned prior

end OwnersKept

/-- One step keeps every owner exactly when it meets the condition. -/
theorem ownersKept_step (server : Server env) (event : Event) (next : Server env)
    (sound : Sound server) (kept : OwnersKept server)
    (step : (Server.machine env).step server event = some next) :
    OwnersKept next ↔ KeepsOwners server event := by
  rcases moves_of_step step with ⟨running, moved⟩
  have invariant := sound running
  cases moved with
  | acceptDone _ => exact ⟨fun _ => trivial, fun _ => kept⟩
  | signalRaised _ => exact ⟨fun _ => trivial, fun _ => kept⟩
  | readDone listed _ =>
      exact ⟨fun _ => trivial, fun _ =>
        kept.update_member (invariant.member_of_pending listed) _⟩
  | readFailed listed =>
      exact ⟨fun _ => trivial, fun _ =>
        kept.update_member (invariant.member_of_pending listed) _⟩
  | writeDone listed _ _ =>
      exact ⟨fun _ => trivial, fun _ =>
        kept.update_member (invariant.member_of_pending listed) _⟩
  | writeFailed listed =>
      exact ⟨fun _ => trivial, fun _ =>
        kept.update_member (invariant.member_of_pending listed) _⟩
  | hanldeAccept listed =>
      exact ⟨fun _ => trivial, fun _ => kept.hanldeAccept invariant _ listed⟩
  | handleRead listed =>
      rw [kept.handleRead_iff invariant _ _ listed]
      constructor
      · intro holds completion found
        rw [listed] at found
        cases found
        exact holds
      · intro holds
        exact holds _ listed
  | handleWrite listed =>
      exact ⟨fun _ => trivial, fun _ => kept.handleWrite invariant _ listed⟩
  | @hanldeStop order acceptorThrows throws raised distinct listed =>
      have raised : OwnersKept { server with signalWait := .handled } := kept
      have handled : Invariant { server with signalWait := .handled } :=
        ⟨invariant.orderly, invariant.unstarted, invariant.members, invariant.closed,
          invariant.stopped, invariant.oneAccept, invariant.target, invariant.unassigned⟩
      exact raised.hanldeStop_iff handled acceptorThrows throws distinct listed

theorem ownersKept_initial : OwnersKept (Server.machine env).initial :=
  ⟨(by intro impossible; cases impossible), fun _ _ outstanding => absurd outstanding
    List.not_mem_nil⟩

/-- Every state of a run keeps every owner exactly when all steps of the run
meet the condition. -/
theorem ownersKept_along_run {events : List Event} {final : Server env}
    (steps : (Server.machine env).run (Server.machine env).initial events = some final) :
    (Server.machine env).Always OwnersKept (Server.machine env).initial events ↔
      (Server.machine env).Meets KeepsOwners (Server.machine env).initial events :=
  (Server.machine env).always_iff_meets sound_step ownersKept_step sound_initial
    ownersKept_initial steps

/-! ### A shutdown during a write -/

/-- The repository's handler with the library on its shortest request. -/
def shortRequestEnv : Env where
  library := shortRequestParser
  iteration := .entries
  handler := .repository

/-- One client connects, and its bytes arrive in one read, which is handled. -/
def servedUntilWrite (received : Bytes) : List Event :=
  [.acceptDone 0 .success, .hanldeAccept 0 false, .readDone 0 0 received,
    .handleRead 0 0 [] false]

/-- The signal arrives before the write has completed. -/
def stoppedDuringWrite : List Event :=
  servedUntilWrite shortRequest ++
    [.signalRaised, .hanldeStop [0] false (fun _ => false), .handleWrite 0 0 false]

theorem stoppedDuringWrite_undefined : ∃ server : Server shortRequestEnv,
    (Server.machine shortRequestEnv).run (Server.machine shortRequestEnv).initial
      stoppedDuringWrite = some server ∧ server.status = .undefined := by
  have outcome : ((Server.machine shortRequestEnv).run (Server.machine shortRequestEnv).initial
      stoppedDuringWrite).map Server.status = some .undefined := by decide +kernel
  exact Option.map_eq_some_iff.mp outcome

/-- The aborted write runs its handler on a connection that is gone. -/
theorem stoppedDuringWrite_not_ownersKept : ∃ server : Server shortRequestEnv,
    (Server.machine shortRequestEnv).Reachable server ∧ ¬ OwnersKept server := by
  rcases stoppedDuringWrite_undefined with ⟨server, steps, undefinedNow⟩
  exact ⟨server, ⟨stoppedDuringWrite, steps⟩, fun kept => kept.1 undefinedNow⟩

/-- This run has a step that does not meet the condition. -/
theorem stoppedDuringWrite_not_meets :
    ¬ (Server.machine shortRequestEnv).Meets KeepsOwners
      (Server.machine shortRequestEnv).initial stoppedDuringWrite := by
  rcases stoppedDuringWrite_undefined with ⟨server, steps, undefinedNow⟩
  intro meets
  have always := (ownersKept_along_run steps).mpr meets
  exact (always.last _ steps).1 undefinedNow

end Http
end LearnAsio
