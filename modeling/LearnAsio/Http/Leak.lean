import LearnAsio.Http.Ownership

namespace LearnAsio
namespace Http

open Transition

/-!
# What the manager keeps

A connection in `connections_` is kept for the sake of its next completion.  One
that has nothing outstanding is never looked at again: its socket stays open and
its entry stays in the set until the server shuts down.

`handle_read` begins an operation or stops the connection on each of its paths,
and so does `handle_write` when the write has failed.  The remaining path of
`handle_write` shuts the socket down and does neither.
-/

variable {env : Env}

/-- Every connection of the manager waits for a completion. -/
def Busy (server : Server env) : Prop :=
  ∀ id ∈ server.connections, (server.connection id).operations ≠ []

/-- Between two handlers no connection is kept in vain, and a started one that
waits for nothing has been removed and closed. -/
def NoLeak (server : Server env) : Prop :=
  server.status = .running → Busy server ∧
    ∀ id, id < server.newConnection → (server.connection id).operations = [] →
      id ∉ server.connections ∧ (server.connection id).isOpen = false

/-- The steps that leak nothing: no write that the socket did not fail is
handled for a connection of the manager. -/
def LeaksNothing (server : Server env) : Event → Prop
  | .handleWrite id index _ => ∀ buffers completion,
      (server.connection id).operations[index]? =
          some { kind := .writeSome buffers, completion := some completion } →
        completion.ec = .failure ∨ id ∉ server.connections
  | _ => True

/-- Being removed and closed follows from being busy: the manager closes what it
removes. -/
theorem noLeak_iff_busy {server : Server env} (sound : Sound server) :
    NoLeak server ↔ (server.status = .running → Busy server) := by
  constructor
  · intro holds running
    exact (holds running).1
  · intro busy running
    refine ⟨busy running, ?_⟩
    intro id isStarted idle
    have removed : id ∉ server.connections := fun member => busy running id member idle
    exact ⟨removed, (sound running).closed id isStarted removed⟩

namespace Busy

variable {server : Server env}

/-- A connection that begins or keeps an operation leaves the others as they
are. -/
theorem update (busy : Busy server) {id : Nat} {change : Connection env → Connection env}
    (outstanding : (change (server.connection id)).operations ≠ []) :
    Busy (server.update id change) := by
  apply server.forall_update id change (fun other connection =>
    other ∈ server.connections → connection.operations ≠ [])
  · exact fun _ => outstanding
  · exact fun other _ => busy other

/-- What a completion replaces stays in the list. -/
theorem complete (busy : Busy server) {id index : Nat} {operation : Operation}
    (listed : (server.connection id).operations[index]? = some operation)
    {change : Connection env → Connection env} {replacement : Operation}
    (replaced : (change (server.connection id)).operations =
      (server.connection id).operations.set index replacement) :
    Busy (server.update id change) := by
  apply busy.update
  rw [replaced]
  intro empty
  rw [List.set_eq_nil_iff] at empty
  rw [empty] at listed
  cases listed

/-- A stop removes the connection, whatever it had outstanding. -/
theorem erase (busy : Busy server) (id : Nat) (change : Connection env → Connection env) :
    Busy { server.update id change with connections := server.connections.erase id } := by
  intro other member
  rcases Finset.mem_erase.mp member with ⟨different, kept⟩
  change ((server.update id change).connection other).operations ≠ []
  rw [Server.update_connection_of_ne _ _ _ different]
  exact busy other kept

/-- `new_connection_` is not in the set when it is replaced. -/
theorem startAccept (busy : Busy server)
    (started : ∀ id ∈ server.connections, id ≤ server.newConnection) :
    Busy server.startAccept := by
  intro id member
  have different : id ≠ server.newConnection + 1 :=
    Nat.ne_of_lt (Nat.lt_succ_of_le (started id member))
  rw [server.startAccept_connection_of_ne different]
  exact busy id member

/-- The manager starts the read of a connection when it takes it in. -/
theorem managerStart (busy : Busy server) (id : Nat) : Busy (server.managerStart id) := by
  apply server.forall_update id Connection.start (fun other connection =>
    other ∈ insert id server.connections → connection.operations ≠ [])
  · intro _
    change ((server.connection id).begin .readSome).operations ≠ []
    rw [Connection.begin_operations]
    exact List.append_ne_nil_of_right_ne_nil _ (List.cons_ne_nil _ _)
  · intro other different member
    exact busy other ((Finset.mem_insert.mp member).resolve_left different)

theorem hanldeAccept (busy : Busy server) (invariant : Invariant server) {index target : Nat}
    {ec : ErrorCode} {endpointThrows : Bool}
    (listed : server.accepts[index]? = some { target := target, completion := some ec })
    (running : ((server.dequeueAccept index target ec).hanldeAccept ec endpointThrows).status =
      .running) :
    Busy ((server.dequeueAccept index target ec).hanldeAccept ec endpointThrows) := by
  have aimed : target = server.newConnection :=
    invariant.target _ (List.mem_of_getElem? listed)
  have dequeued : Busy (server.dequeueAccept index target ec) ∧
      ∀ id ∈ (server.dequeueAccept index target ec).connections,
        id < (server.dequeueAccept index target ec).newConnection := by
    unfold Server.dequeueAccept
    by_cases success : ec = .success
    · rw [if_pos success]
      refine ⟨fun id member => ?_, invariant.members⟩
      have different : id ≠ target := aimed ▸ Nat.ne_of_lt (invariant.members id member)
      rw [Server.update_connection_of_ne _ _ _ different]
      exact busy id member
    · rw [if_neg success]
      exact ⟨busy, invariant.members⟩
  rcases dequeued with ⟨after, members⟩
  rcases (server.dequeueAccept index target ec).hanldeAccept_cases ec endpointThrows with
    ⟨_, same⟩ | ⟨_, same⟩ | ⟨_, same⟩ | ⟨_, same⟩
  · rw [same]
    exact after
  · rw [same]
    apply after.startAccept
    exact fun id member => Nat.le_of_lt (members id member)
  · rw [same] at running
    cases running
  · rw [same]
    apply (after.managerStart _).startAccept
    intro id member
    rcases Finset.mem_insert.mp member with same | kept
    · exact Nat.le_of_eq same
    · exact Nat.le_of_lt (members id kept)

/-- A stop of the handled connection, or of none when its close throws. -/
theorem managerStop (busy : Busy server) {id index : Nat} {throws : Bool}
    (running : ((server.update id fun connection => connection.dequeue index).managerStop
      id throws).status = .running) :
    Busy ((server.update id fun connection => connection.dequeue index).managerStop id throws) := by
  rcases (server.update id fun connection => connection.dequeue index).managerStop_cases id throws
    with ⟨_, same⟩ | ⟨_, same⟩
  · rw [same, Server.update_update]
    exact busy.erase id _
  · rw [same] at running
    cases running

/-- Every path of `handle_read` begins an operation or removes the
connection. -/
theorem handleRead (busy : Busy server) {id index : Nat} {completion : Completion} {date : Bytes}
    {throws : Bool}
    (running : ((server.update id fun connection => connection.dequeue index).handleRead
      id completion date throws).status = .running) :
    Busy ((server.update id fun connection => connection.dequeue index).handleRead
      id completion date throws) := by
  by_cases failed : completion.ec = .failure
  · rw [Server.handleRead_failed _ _ failed] at running ⊢
    exact busy.managerStop running
  · rw [Server.handleRead_received _ _ failed, Server.update_update]
    apply busy.update
    rcases ((server.connection id).dequeue index).receive_operations
      completion.bytesTransferred date with ⟨kind, began, _⟩
    rw [began]
    exact List.append_ne_nil_of_right_ne_nil _ (List.cons_ne_nil _ _)

/-- `handle_write` leaves an idle connection behind unless it removes it. -/
theorem handleWrite_iff (busy : Busy server) (invariant : Invariant server)
    (running : server.status = .running) {id index : Nat}
    {buffers : Buffers} {completion : Completion} (throws : Bool)
    (listed : (server.connection id).operations[index]? =
      some { kind := .writeSome buffers, completion := some completion }) :
    (((server.update id fun connection => connection.dequeue index).handleWrite
        id completion throws).status = .running →
      Busy ((server.update id fun connection => connection.dequeue index).handleWrite
        id completion throws)) ↔ completion.ec = .failure ∨ id ∉ server.connections := by
  have idle : ((server.connection id).dequeue index).operations = [] :=
    eraseIdx_of_listed (invariant.orderly id).single listed
  have notFresh : server.newConnection ≠ id := Ne.symm (Nat.ne_of_lt (invariant.started listed))
  have owned_iff : (server.update id fun connection => connection.dequeue index).Owned id ↔
      id ∈ server.connections := by
    unfold Server.Owned
    rw [Server.update_connection_self, idle]
    constructor
    · rintro (member | fresh | ⟨operation, among, _⟩)
      · exact member
      · exact absurd fresh notFresh
      · cases among
    · exact Or.inl
  rcases (server.update id fun connection => connection.dequeue index).handleWrite_cases
    id completion throws with ⟨ownerless, same⟩ | ⟨_, failed, same⟩ | ⟨owned, unfailed, same⟩
  · rw [same]
    refine ⟨fun _ => Or.inr fun member => ownerless (owned_iff.mpr member), ?_⟩
    intro _ impossible
    cases impossible
  · rw [same]
    exact ⟨fun _ => Or.inl failed, fun _ running => busy.managerStop running⟩
  · rw [same]
    constructor
    · intro after
      refine Or.inr fun member => after running id member ?_
      rw [Server.update_connection_self, Server.update_connection_self]
      exact idle
    · rintro (failed | missing)
      · exact absurd failed unfailed
      · exact absurd (owned_iff.mp owned) missing

end Busy

/-- One step leaks nothing exactly when it meets the condition. -/
theorem noLeak_step (server : Server env) (event : Event) (next : Server env)
    (sound : Sound server) (kept : NoLeak server)
    (step : (Server.machine env).step server event = some next) :
    NoLeak next ↔ LeaksNothing server event := by
  rw [noLeak_iff_busy (sound_step server event next sound step)]
  rcases moves_of_step step with ⟨running, moved⟩
  have invariant := sound running
  have busy := (kept running).1
  cases moved with
  | acceptDone _ => exact ⟨fun _ => trivial, fun _ _ => busy⟩
  | signalRaised _ => exact ⟨fun _ => trivial, fun _ _ => busy⟩
  | readDone listed _ => exact ⟨fun _ => trivial, fun _ _ => busy.complete listed rfl⟩
  | readFailed listed => exact ⟨fun _ => trivial, fun _ _ => busy.complete listed rfl⟩
  | writeDone listed _ _ => exact ⟨fun _ => trivial, fun _ _ => busy.complete listed rfl⟩
  | writeFailed listed => exact ⟨fun _ => trivial, fun _ _ => busy.complete listed rfl⟩
  | hanldeAccept listed =>
      exact ⟨fun _ => trivial, fun _ still => busy.hanldeAccept invariant listed still⟩
  | handleRead _ => exact ⟨fun _ => trivial, fun _ still => busy.handleRead still⟩
  | handleWrite listed =>
      rw [busy.handleWrite_iff invariant running _ listed]
      constructor
      · intro holds buffers completion found
        rw [listed] at found
        cases found
        exact holds
      · intro holds
        exact holds _ _ listed
  | @hanldeStop order acceptorThrows throws _ distinct listed =>
      refine ⟨fun _ => trivial, fun _ still => ?_⟩
      rcases Server.hanldeStop_eq { server with signalWait := .handled } acceptorThrows throws
        distinct listed with ⟨_, same⟩ | ⟨_, prior, _, same⟩
      · rw [same]
        exact fun id member => absurd member (Finset.notMem_empty id)
      · rw [same] at still
        cases still

theorem noLeak_initial : NoLeak (Server.machine env).initial :=
  (noLeak_iff_busy sound_initial).mpr fun _ id member => absurd member (Finset.notMem_empty id)

/-- Nothing is leaked in any state of a run exactly when all its steps meet the
condition. -/
theorem noLeak_along_run {events : List Event} {final : Server env}
    (steps : (Server.machine env).run (Server.machine env).initial events = some final) :
    (Server.machine env).Always NoLeak (Server.machine env).initial events ↔
      (Server.machine env).Meets LeaksNothing (Server.machine env).initial events :=
  (Server.machine env).always_iff_meets sound_step noLeak_step sound_initial noLeak_initial steps

/-! ### One response -/

/-- The buffers of what the repository's handler answers. -/
def shortReply : Buffers :=
  let sent := (RequestHandler.onGet {} Response.initial).toBuffers .entries []
  { storage := .response, source := sent.1, whole := sent.2.flatten }

/-- The socket takes the first bytes of the response. -/
def servedBytes (count : Nat) : List Event :=
  servedUntilWrite shortRequest ++ [.writeDone 0 0 count shortReply.whole]

/-- One client is served, the socket takes the whole response, and the write is
handled. -/
def servedOnce : List Event :=
  servedBytes shortReply.whole.length ++ [.handleWrite 0 0 false]

theorem servedOnce_idle : ∃ server : Server shortRequestEnv,
    (Server.machine shortRequestEnv).run (Server.machine shortRequestEnv).initial servedOnce =
        some server ∧
      (server.status = .running ∧ 0 ∈ server.connections ∧
        (server.connection 0).operations = []) := by
  have outcome : ((Server.machine shortRequestEnv).run (Server.machine shortRequestEnv).initial
      servedOnce).map (fun server => decide (server.status = .running ∧ 0 ∈ server.connections ∧
        (server.connection 0).operations = [])) = some true := by decide +kernel
  rcases Option.map_eq_some_iff.mp outcome with ⟨server, steps, idle⟩
  exact ⟨server, steps, of_decide_eq_true idle⟩

/-- After the response the connection is still in the set, with nothing
outstanding. -/
theorem servedOnce_not_noLeak : ∃ server : Server shortRequestEnv,
    (Server.machine shortRequestEnv).Reachable server ∧ ¬ NoLeak server := by
  rcases servedOnce_idle with ⟨server, steps, running, member, idle⟩
  exact ⟨server, ⟨servedOnce, steps⟩, fun holds => (holds running).1 0 member idle⟩

/-- The handled write is the step that does not meet the condition. -/
theorem servedOnce_not_meets : ¬ (Server.machine shortRequestEnv).Meets LeaksNothing
    (Server.machine shortRequestEnv).initial servedOnce := by
  rcases servedOnce_idle with ⟨server, steps, running, member, idle⟩
  intro meets
  have always := (noLeak_along_run steps).mpr meets
  exact (always.last _ steps running).1 0 member idle

end Http
end LearnAsio
