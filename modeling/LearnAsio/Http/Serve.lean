import LearnAsio.Http.Invariant

namespace LearnAsio
namespace Http

open Transition

/-!
# The loop as one connection sees it

A completion or a handler of a connection reads nothing of the server but that
connection, apart from one question: is the connection in the manager's set, or
is it `new_connection_`?  It changes nothing but that connection, apart from
taking it out of the set or ending the loop.

`serve` is a connection's share of a step.  `react_serve` says that the loop does
exactly this with the connection the event belongs to.
-/

variable {env : Env}

/-- The connection that an event belongs to. -/
def Event.connection? : Event → Option Nat
  | .readDone id _ _ => some id
  | .readFailed id _ => some id
  | .writeDone id _ _ _ => some id
  | .writeFailed id _ => some id
  | .handleRead id _ _ _ => some id
  | .handleWrite id _ _ => some id
  | _ => none

/-- What a handler of a connection does to the rest of the server. -/
inductive Outcome where
  | kept | removed | thrown | undefined
  deriving DecidableEq, Repr

namespace Connection

variable (connection : Connection env)

/-- Some owner is left: the manager or the server, or the handler of an
operation. -/
def Alive (held : Bool) : Prop :=
  held = true ∨ ∃ operation ∈ connection.operations, operation.ownsConnection = true

instance (held : Bool) : Decidable (connection.Alive held) :=
  inferInstanceAs (Decidable (_ ∨ _))

/-- `connection_manager::stop`. -/
def halt (throws : Bool) : Connection env × Outcome :=
  (connection.stop, if throws && connection.isOpen then .thrown else .removed)

/-- `connection::handle_read`. -/
def readHandled (completion : Completion) (date : Bytes) (throws : Bool) :
    Connection env × Outcome :=
  if completion.ec = .failure then connection.halt throws
  else (connection.receive completion.bytesTransferred date, .kept)

/-- `connection::handle_write`. -/
def writeHandled (held : Bool) (completion : Completion) (throws : Bool) :
    Connection env × Outcome :=
  if ¬ connection.Alive held then (connection, .undefined)
  else if completion.ec = .failure then connection.halt throws
  else (connection.shutdown, .kept)

/-- One event of this connection. -/
def serve (held : Bool) : Event → Option (Connection env × Outcome)
  | .readDone _ index data =>
      match connection.operations[index]? with
      | some { kind := .readSome, completion := none } =>
          if 1 ≤ data.length ∧ data.length ≤ bufferSize then
            some (connection.completeRead index data, .kept)
          else none
      | _ => none
  | .readFailed _ index =>
      match connection.operations[index]? with
      | some { kind := .readSome, completion := none } =>
          some (connection.complete index .readSome { ec := .failure }, .kept)
      | _ => none
  | .writeDone _ index count memory =>
      match connection.operations[index]? with
      | some { kind := .writeSome buffers, completion := none } =>
          if 1 ≤ count ∧ count ≤ buffers.whole.length ∧ memory.length = buffers.whole.length ∧
              (buffers.storage = .response ∧ connection.response = buffers.source ∧
                connection.Alive held → memory = buffers.whole) then
            some (connection.completeWrite index buffers count memory, .kept)
          else none
      | _ => none
  | .writeFailed _ index =>
      match connection.operations[index]? with
      | some { kind := .writeSome buffers, completion := none } =>
          some (connection.complete index (.writeSome buffers) { ec := .failure }, .kept)
      | _ => none
  | .handleRead _ index date throws =>
      match connection.operations[index]? with
      | some { kind := .readSome, completion := some completion } =>
          some ((connection.dequeue index).readHandled completion date throws)
      | _ => none
  | .handleWrite _ index throws =>
      match connection.operations[index]? with
      | some { kind := .writeSome _, completion := some completion } =>
          some ((connection.dequeue index).writeHandled held completion throws)
      | _ => none
  | _ => none

end Connection

namespace Server

variable (server : Server env) (id : Nat)

/-- The connection is in the manager's set or is `new_connection_`. -/
def held : Bool :=
  decide (id ∈ server.connections ∨ server.newConnection = id)

/-- Put back what a handler leaves of its connection. -/
def install (result : Connection env × Outcome) : Server env :=
  let server := server.update id fun _ => result.1
  match result.2 with
  | .kept => server
  | .removed => { server with connections := server.connections.erase id }
  | .thrown => { server with status := .thrown }
  | .undefined => { server with status := .undefined }

theorem owned_iff : server.Owned id ↔ (server.connection id).Alive (server.held id) := by
  rw [Owned, Connection.Alive, held, decide_eq_true_iff, or_assoc]

theorem owned_update_iff (change : Connection env → Connection env) :
    (server.update id change).Owned id ↔
      (change (server.connection id)).Alive (server.held id) := by
  rw [owned_iff, update_connection_self]
  rfl

theorem managerStop_update (change : Connection env → Connection env) (throws : Bool) :
    (server.update id change).managerStop id throws =
      server.install id ((change (server.connection id)).halt throws) := by
  unfold managerStop closeThrows Connection.halt install
  rw [update_update, update_connection_self]
  dsimp only
  cases (throws && (change (server.connection id)).isOpen) with
  | false => rfl
  | true => rfl

theorem handleRead_update (change : Connection env → Connection env) (completion : Completion)
    (date : Bytes) (throws : Bool) :
    (server.update id change).handleRead id completion date throws =
      server.install id ((change (server.connection id)).readHandled completion date throws) := by
  unfold Connection.readHandled
  by_cases failed : completion.ec = .failure
  · rw [handleRead_failed _ _ failed, if_pos failed, managerStop_update]
  · rw [handleRead_received _ _ failed, if_neg failed, update_update]
    rfl

theorem handleWrite_update (change : Connection env → Connection env) (completion : Completion)
    (throws : Bool) :
    (server.update id change).handleWrite id completion throws =
      server.install id
        ((change (server.connection id)).writeHandled (server.held id) completion throws) := by
  have owned_iff := server.owned_update_iff id change
  unfold handleWrite Connection.writeHandled
  by_cases alive : (change (server.connection id)).Alive (server.held id)
  · rw [if_neg (not_not.mpr (owned_iff.mpr alive)), if_neg (not_not.mpr alive)]
    by_cases failed : completion.ec = .failure
    · rw [if_pos failed, if_pos failed, managerStop_update]
    · rw [if_neg failed, if_neg failed, update_update]
      rfl
  · rw [if_pos (mt owned_iff.mp alive), if_pos alive]
    rfl

/-- The loop serves the connection that the event belongs to. -/
theorem react_serve {event : Event} (concerns : event.connection? = some id) :
    server.react event =
      ((server.connection id).serve (server.held id) event).map (server.install id) := by
  cases event with
  | readDone other index data =>
      cases concerns
      cases found : (server.connection id).operations[index]? with
      | none => simp only [react, Connection.serve, found, Option.map_none]
      | some operation =>
          rcases operation with ⟨_ | _, _ | _⟩ <;>
            simp only [react, Connection.serve, found, Option.map_none]
          split
          · rfl
          · rfl
  | readFailed other index =>
      cases concerns
      cases found : (server.connection id).operations[index]? with
      | none => simp only [react, Connection.serve, found, Option.map_none]
      | some operation =>
          rcases operation with ⟨_ | _, _ | _⟩ <;>
            simp only [react, Connection.serve, found, Option.map_none]
          rfl
  | writeDone other index count memory =>
      cases concerns
      cases found : (server.connection id).operations[index]? with
      | none => simp only [react, Connection.serve, found, Option.map_none]
      | some operation =>
          rcases operation with ⟨_ | _, _ | _⟩ <;>
            simp only [react, Connection.serve, found, Option.map_none, Intact, owned_iff]
          split
          · rfl
          · rfl
  | writeFailed other index =>
      cases concerns
      cases found : (server.connection id).operations[index]? with
      | none => simp only [react, Connection.serve, found, Option.map_none]
      | some operation =>
          rcases operation with ⟨_ | _, _ | _⟩ <;>
            simp only [react, Connection.serve, found, Option.map_none]
          rfl
  | handleRead other index date throws =>
      cases concerns
      cases found : (server.connection id).operations[index]? with
      | none => simp only [react, Connection.serve, found, Option.map_none]
      | some operation =>
          rcases operation with ⟨_ | _, _ | _⟩ <;>
            simp only [react, Connection.serve, found, Option.map_none, Option.map_some,
              handleRead_update]
  | handleWrite other index throws =>
      cases concerns
      cases found : (server.connection id).operations[index]? with
      | none => simp only [react, Connection.serve, found, Option.map_none]
      | some operation =>
          rcases operation with ⟨_ | _, _ | _⟩ <;>
            simp only [react, Connection.serve, found, Option.map_none, Option.map_some,
              handleWrite_update]
  | acceptDone _ _ => cases concerns
  | signalRaised => cases concerns
  | hanldeAccept _ _ => cases concerns
  | hanldeStop _ _ _ => cases concerns

/-- One step of a running loop for that connection. -/
theorem step_serve (running : server.status = .running) {event : Event}
    (concerns : event.connection? = some id) :
    (machine env).step server event =
      ((server.connection id).serve (server.held id) event).map (server.install id) := by
  rw [machine_step, if_pos running, react_serve server id concerns]

end Server
/-! ## What serving does to a connection -/

/-- The effect of an event on its own connection. -/
inductive Served (connection : Connection env) (held : Bool) :
    Event → Connection env → Outcome → Prop where
  | completed {event : Event} {after : Connection env} {index : Nat} {kind : OperationKind}
      {completion : Completion}
      (listed : connection.operations[index]? = some { kind := kind })
      (replaced : after.operations = connection.operations.set index
        { kind := kind, completion := some completion })
      (request : after.request = connection.request)
      (response : after.response = connection.response)
      (log : after.log = connection.log) :
      Served connection held event after .kept
  | halted {event : Event} {index : Nat} {throws : Bool} {kind : OperationKind}
      {completion : Completion}
      (listed : connection.operations[index]? =
        some { kind := kind, completion := some completion })
      (failed : completion.ec = .failure) :
      Served connection held event (connection.dequeue index).stop
        ((connection.dequeue index).halt throws).2
  | received {id index : Nat} {date : Bytes} {throws : Bool} {completion : Completion}
      (listed : connection.operations[index]? =
        some { kind := .readSome, completion := some completion })
      (unfailed : completion.ec ≠ .failure) :
      Served connection held (.handleRead id index date throws)
        ((connection.dequeue index).receive completion.bytesTransferred date) .kept
  | shutdown {id index : Nat} {throws : Bool} {buffers : Buffers} {completion : Completion}
      (listed : connection.operations[index]? =
        some { kind := .writeSome buffers, completion := some completion }) :
      Served connection held (.handleWrite id index throws)
        (connection.dequeue index).shutdown .kept
  | dropped {id index : Nat} {throws : Bool} {buffers : Buffers} {completion : Completion}
      (listed : connection.operations[index]? =
        some { kind := .writeSome buffers, completion := some completion })
      (lost : ¬ (connection.dequeue index).Alive held) :
      Served connection held (.handleWrite id index throws) (connection.dequeue index) .undefined

theorem served_of_readHandled {connection after : Connection env} {held : Bool}
    {id index : Nat} {date : Bytes} {throws : Bool} {completion : Completion} {outcome : Outcome}
    (listed : connection.operations[index]? =
      some { kind := .readSome, completion := some completion })
    (handled : (connection.dequeue index).readHandled completion date throws = (after, outcome)) :
    Served connection held (.handleRead id index date throws) after outcome := by
  unfold Connection.readHandled at handled
  split at handled
  · next failed =>
      cases handled
      exact .halted listed failed
  · next unfailed =>
      cases handled
      exact .received listed unfailed

theorem served_of_writeHandled {connection after : Connection env} {held : Bool}
    {id index : Nat} {throws : Bool} {buffers : Buffers} {completion : Completion}
    {outcome : Outcome}
    (listed : connection.operations[index]? =
      some { kind := .writeSome buffers, completion := some completion })
    (handled : (connection.dequeue index).writeHandled held completion throws =
      (after, outcome)) :
    Served connection held (.handleWrite id index throws) after outcome := by
  unfold Connection.writeHandled at handled
  split at handled
  · next lost =>
      cases handled
      exact .dropped listed lost
  · split at handled
    · next failed =>
        cases handled
        exact .halted listed failed
    · cases handled
      exact .shutdown listed

theorem served_of_serve {connection after : Connection env} {held : Bool} {event : Event}
    {outcome : Outcome} (served : connection.serve held event = some (after, outcome)) :
    Served connection held event after outcome := by
  unfold Connection.serve at served
  cases event with
  | readDone id index data =>
      dsimp only at served
      split at served
      · next listed =>
          split at served
          · cases served
            exact .completed listed rfl rfl rfl rfl
          · cases served
      · cases served
  | readFailed id index =>
      dsimp only at served
      split at served
      · next listed =>
          cases served
          exact .completed listed rfl rfl rfl rfl
      · cases served
  | writeDone id index count memory =>
      dsimp only at served
      split at served
      · next buffers listed =>
          split at served
          · cases served
            exact .completed listed rfl rfl rfl rfl
          · cases served
      · cases served
  | writeFailed id index =>
      dsimp only at served
      split at served
      · next buffers listed =>
          cases served
          exact .completed listed rfl rfl rfl rfl
      · cases served
  | handleRead id index date throws =>
      dsimp only at served
      split at served
      · next completion listed =>
          exact served_of_readHandled listed (Option.some.inj served)
      · cases served
  | handleWrite id index throws =>
      dsimp only at served
      split at served
      · next buffers completion listed =>
          exact served_of_writeHandled listed (Option.some.inj served)
      · cases served
  | acceptDone _ _ => cases served
  | signalRaised => cases served
  | hanldeAccept _ _ => cases served
  | hanldeStop _ _ _ => cases served

/-- What the events that do not belong to a connection can do to it. -/
inductive Elsewhere (server : Server env) (id : Nat) (after : Connection env) : Prop where
  | kept (same : after = server.connection id)
  | stopped (same : after = (server.connection id).stop)
  | created (late : server.newConnection < id) (same : after = {})
  | accepted (new : id = server.newConnection) (same : after = (server.connection id).assign)
  | started (new : id = server.newConnection)
      (same : after = (server.connection id).assign.start)

@[simp] theorem Server.install_connection_self (server : Server env) (id : Nat)
    (result : Connection env × Outcome) : (server.install id result).connection id = result.1 := by
  have here := server.update_connection_self id fun _ => result.1
  unfold install
  cases result.2 <;> exact here

theorem Server.install_connection_of_ne (server : Server env) {id other : Nat}
    (different : other ≠ id) (result : Connection env × Outcome) :
    (server.install id result).connection other = server.connection other := by
  have there := server.update_connection_of_ne id (fun _ => result.1) different
  unfold install
  cases result.2 <;> exact there

namespace Server

section

variable (server : Server env) (id : Nat) (result : Connection env × Outcome)

theorem install_frame : (server.install id result).accepts = server.accepts ∧
    (server.install id result).newConnection = server.newConnection ∧
    (server.install id result).acceptorOpen = server.acceptorOpen ∧
    (server.install id result).signalWait = server.signalWait := by
  unfold install
  cases result.2 with
  | kept => exact ⟨rfl, rfl, rfl, rfl⟩
  | removed => exact ⟨rfl, rfl, rfl, rfl⟩
  | thrown => exact ⟨rfl, rfl, rfl, rfl⟩
  | undefined => exact ⟨rfl, rfl, rfl, rfl⟩

/-- Only the connection itself can be taken out of the set. -/
theorem mem_install_iff (other : Nat) : other ∈ (server.install id result).connections ↔
    other ∈ server.connections ∧ (result.2 = .removed → other ≠ id) := by
  have unremoved : ∀ {outcome : Outcome}, outcome ≠ .removed → (other ∈ server.connections ↔
      other ∈ server.connections ∧ (outcome = .removed → other ≠ id)) :=
    fun different => (and_iff_left fun removed => absurd removed different).symm
  unfold install
  cases result.2 with
  | kept => exact unremoved (by decide)
  | removed =>
      refine (Finset.mem_erase.trans And.comm).trans (and_congr_right fun _ => ?_)
      exact ⟨fun different _ => different, fun different => different rfl⟩
  | thrown => exact unremoved (by decide)
  | undefined => exact unremoved (by decide)

end

variable (server : Server env) (index target : Nat) (ec : ErrorCode)

theorem dequeueAccept_acceptorOpen :
    (server.dequeueAccept index target ec).acceptorOpen = server.acceptorOpen := by
  unfold dequeueAccept
  split <;> rfl

theorem dequeueAccept_newConnection :
    (server.dequeueAccept index target ec).newConnection = server.newConnection := by
  unfold dequeueAccept
  split <;> rfl

theorem dequeueAccept_connections :
    (server.dequeueAccept index target ec).connections = server.connections := by
  unfold dequeueAccept
  split <;> rfl

theorem dequeueAccept_accepts :
    (server.dequeueAccept index target ec).accepts = server.accepts.eraseIdx index := by
  unfold dequeueAccept
  split <;> rfl

theorem dequeueAccept_status :
    (server.dequeueAccept index target ec).status = server.status := by
  unfold dequeueAccept
  split <;> rfl

theorem dequeueAccept_connection_self (success : ec = .success) :
    (server.dequeueAccept index target ec).connection target =
      (server.connection target).assign := by
  rw [dequeueAccept, if_pos success]
  exact update_connection_self _ _ _

theorem dequeueAccept_connection_of_ne {id : Nat} (different : id ≠ target) :
    (server.dequeueAccept index target ec).connection id = server.connection id := by
  unfold dequeueAccept
  split
  · exact update_connection_of_ne _ _ _ different
  · rfl

end Server

/-- An accept concerns `new_connection_` and its successor. -/
theorem elsewhere_hanldeAccept {server : Server env} (invariant : Invariant server)
    {index target : Nat} {ec : ErrorCode} (endpointThrows : Bool)
    (listed : server.accepts[index]? = some { target := target, completion := some ec })
    (id : Nat) : Elsewhere server id
      (((server.dequeueAccept index target ec).hanldeAccept ec endpointThrows).connection id) := by
  have aimed : target = server.newConnection := invariant.target _ (List.mem_of_getElem? listed)
  have sameNew := server.dequeueAccept_newConnection index target ec
  have dequeued : Elsewhere server id ((server.dequeueAccept index target ec).connection id) := by
    by_cases same : id = target
    · subst same
      by_cases success : ec = .success
      · exact .accepted aimed (server.dequeueAccept_connection_self index id ec success)
      · refine .kept ?_
        rw [Server.dequeueAccept, if_neg success]
    · exact .kept (server.dequeueAccept_connection_of_ne index target ec same)
  by_cases next : id = server.newConnection + 1
  · have late : server.newConnection < id := next ▸ Nat.lt_succ_self _
    have different : id ≠ target := aimed ▸ Nat.ne_of_gt late
    rcases (server.dequeueAccept index target ec).hanldeAccept_cases ec endpointThrows with
      ⟨_, same⟩ | ⟨_, same⟩ | ⟨_, same⟩ | ⟨_, same⟩
    · rw [same]
      exact dequeued
    · rw [same, next, ← sameNew, Server.startAccept_connection_self]
      exact .created (sameNew ▸ Nat.lt_succ_self _) rfl
    · rw [same]
      exact dequeued
    · rw [same]
      have fresh := ((server.dequeueAccept index target ec).managerStart
        (server.dequeueAccept index target ec).newConnection).startAccept_connection_self
      rw [next, ← sameNew]
      exact .created (sameNew ▸ Nat.lt_succ_self _) fresh
  · have notNext : id ≠ (server.dequeueAccept index target ec).newConnection + 1 := sameNew ▸ next
    rcases (server.dequeueAccept index target ec).hanldeAccept_cases ec endpointThrows with
      ⟨_, same⟩ | ⟨_, same⟩ | ⟨_, same⟩ | ⟨success, same⟩
    · rw [same]
      exact dequeued
    · rw [same, Server.startAccept_connection_of_ne _ notNext]
      exact dequeued
    · rw [same]
      exact dequeued
    · have kept := ((server.dequeueAccept index target ec).managerStart
        (server.dequeueAccept index target ec).newConnection).startAccept_connection_of_ne notNext
      rw [same, kept]
      by_cases here : id = target
      · subst here
        refine .started aimed ?_
        rw [sameNew, ← aimed, Server.managerStart_connection_self,
          server.dequeueAccept_connection_self index id ec success]
      · refine .kept ?_
        rw [Server.managerStart_connection_of_ne _ _ (sameNew ▸ aimed ▸ here),
          server.dequeueAccept_connection_of_ne index target ec here]

/-- A step that belongs to no connection.  The handler of the signal closes the
acceptor and stops connections, all of them unless something throws. -/
inductive Shared (server : Server env) : Event → Server env → Prop where
  | acceptDone {index target : Nat} {ec : ErrorCode}
      (listed : server.accepts[index]? = some { target := target })
      (unaborted : ec ≠ .operationAborted) :
      Shared server (.acceptDone index ec)
        { server with
          accepts := server.accepts.set index { target := target, completion := some ec } }
  | signalRaised : Shared server .signalRaised { server with signalWait := .queued }
  | hanldeAccept {index target : Nat} {ec : ErrorCode} {endpointThrows : Bool}
      (listed : server.accepts[index]? = some { target := target, completion := some ec }) :
      Shared server (.hanldeAccept index endpointThrows)
        ((server.dequeueAccept index target ec).hanldeAccept ec endpointThrows)
  | hanldeStop {order ids : List Nat} {acceptorThrows : Bool} {throws : Nat → Bool}
      {next : Server env} (raised : server.signalWait = .queued)
      (stopped : next.connection = (server.stopEach ids).connection)
      (closed : next.acceptorOpen = false) (sameNew : next.newConnection = server.newConnection)
      (ends : next.connections = ∅ ∨
        next.status = .thrown ∧ next.connections = server.connections) :
      Shared server (.hanldeStop order acceptorThrows throws) next

/-- A step serves one connection or belongs to none. -/
theorem step_cases {server next : Server env} {event : Event}
    (step : (Server.machine env).step server event = some next) :
    (∃ id result, event.connection? = some id ∧
      (server.connection id).serve (server.held id) event = some result ∧
      next = server.install id result) ∨ Shared server event next := by
  rcases moves_of_step step with ⟨running, moved⟩
  cases concerned : event.connection? with
  | some id =>
      rw [server.step_serve id running concerned, Option.map_eq_some_iff] at step
      rcases step with ⟨result, served, rfl⟩
      exact Or.inl ⟨id, result, rfl, served, rfl⟩
  | none =>
      refine Or.inr ?_
      cases moved with
      | acceptDone listed =>
          refine .acceptDone listed fun aborted => ?_
          rw [Server.machine_step, if_pos running, Server.react, listed] at step
          dsimp only at step
          rw [if_pos aborted] at step
          cases step
      | signalRaised _ => exact .signalRaised
      | hanldeAccept listed => exact .hanldeAccept listed
      | @hanldeStop order acceptorThrows throws raised distinct listed =>
          rcases Server.hanldeStop_eq { server with signalWait := .handled } acceptorThrows throws
            distinct listed with ⟨_, same⟩ | ⟨_, prior, _, same⟩
          · rw [same]
            exact .hanldeStop raised rfl rfl rfl (Or.inl rfl)
          · rw [same]
            exact .hanldeStop raised rfl rfl rfl (Or.inr ⟨rfl, rfl⟩)
      | readDone _ _ => cases concerned
      | readFailed _ => cases concerned
      | writeDone _ _ _ => cases concerned
      | writeFailed _ => cases concerned
      | handleRead _ => cases concerned
      | handleWrite _ => cases concerned

/-- A step either is one of the connection's own or does one of the other things
to it. -/
theorem own_of_step {server next : Server env} {event : Event} (sound : Sound server)
    (step : (Server.machine env).step server event = some next) (id : Nat) :
    (∃ outcome, event.connection? = some id ∧
      Served (server.connection id) (server.held id) event (next.connection id) outcome) ∨
      Elsewhere server id (next.connection id) := by
  rcases step_cases step with ⟨other, ⟨after, outcome⟩, concerned, served, rfl⟩ | shared
  · by_cases same : id = other
    · subst same
      rw [Server.install_connection_self]
      exact Or.inl ⟨outcome, concerned, served_of_serve served⟩
    · exact Or.inr (.kept (server.install_connection_of_ne same _))
  · refine Or.inr ?_
    cases shared with
    | acceptDone _ _ => exact .kept rfl
    | signalRaised => exact .kept rfl
    | hanldeAccept listed =>
        exact elsewhere_hanldeAccept (sound (moves_of_step step).1) _ listed id
    | @hanldeStop _ ids _ _ _ _ stopped _ _ _ =>
        rw [stopped]
        by_cases among : id ∈ ids
        · exact .stopped (server.stopEach_of_mem id among)
        · exact .kept (server.stopEach_of_notMem id among)

theorem connection_of_step {server next : Server env} {event : Event} (sound : Sound server)
    (step : (Server.machine env).step server event = some next) (id : Nat) :
    (∃ outcome, Served (server.connection id) (server.held id) event (next.connection id) outcome) ∨
      Elsewhere server id (next.connection id) :=
  (own_of_step sound step id).imp_left fun ⟨outcome, _, served⟩ => ⟨outcome, served⟩

/-- What a step that handles a read without an error makes of its connection. -/
theorem received_of_step {server next : Server env} {id index : Nat} {date : Bytes}
    {throws : Bool} {completion : Completion}
    (step : (Server.machine env).step server (.handleRead id index date throws) = some next)
    (listed : (server.connection id).operations[index]? =
      some { kind := .readSome, completion := some completion })
    (unfailed : completion.ec ≠ .failure) :
    next.status = .running ∧ next.connection id =
      ((server.connection id).dequeue index).receive completion.bytesTransferred date := by
  rcases moves_of_step step with ⟨running, moved⟩
  cases moved with
  | handleRead found =>
      rw [listed] at found
      cases found
      rw [Server.handleRead_received _ _ unfailed]
      refine ⟨running, ?_⟩
      rw [Server.update_connection_self, Server.update_connection_self]

/-- What a fresh connection has, and every step keeps, holds of all connections
in every reachable state. -/
theorem forall_connection_of_reachable {property : Connection env → Prop} (fresh : property {})
    (served : ∀ {connection after held event outcome}, connection.operations.length ≤ 1 →
      property connection → Served connection held event after outcome → property after)
    (stopped : ∀ {connection}, property connection → property connection.stop)
    (accepted : ∀ {connection}, connection.operations = [] → connection.log = [] →
      property connection → property connection.assign ∧ property connection.assign.start)
    {server : Server env} (reached : (Server.machine env).Reachable server) (id : Nat) :
    property (server.connection id) := by
  have start : Sound (Server.machine env).initial ∧
      ∀ id, property ((Server.machine env).initial.connection id) :=
    ⟨sound_initial, fun _ => fresh⟩
  have preserved : ∀ (server : Server env) event next,
      (Sound server ∧ ∀ id, property (server.connection id)) →
      (Server.machine env).step server event = some next →
      Sound next ∧ ∀ id, property (next.connection id) := by
    rintro server event next ⟨sound, holds⟩ step
    refine ⟨sound_step server event next sound step, fun id => ?_⟩
    have invariant := sound (moves_of_step step).1
    rcases connection_of_step sound step id with ⟨_, serves⟩ | elsewhere
    · exact served (invariant.orderly id).single (holds id) serves
    · cases elsewhere with
      | kept same => exact same ▸ holds id
      | stopped same => exact same ▸ stopped (holds id)
      | created _ same => exact same ▸ fresh
      | accepted new same =>
          have unstarted := invariant.unstarted id (Nat.le_of_eq new.symm)
          exact same ▸ (accepted unstarted.1 unstarted.2.1 (holds id)).1
      | started new same =>
          have unstarted := invariant.unstarted id (Nat.le_of_eq new.symm)
          exact same ▸ (accepted unstarted.1 unstarted.2.1 (holds id)).2
  exact ((Server.machine env).reachable_induction start preserved reached).2 id

end Http
end LearnAsio
