import LearnAsio.Http.Ownership
import LearnAsio.Http.Serve
import LearnAsio.Transition.Projection

namespace LearnAsio
namespace Http

open Transition

/-!
# Connections do not influence each other

All connections are driven by one loop and share the manager's set and the
request handler.  A connection's own events are the accept it is the target of,
the completions of its operations and the handlers of these.  As long as no
signal arrives, what it does depends on them alone: the run that keeps only its
own events, in which it is the first connection, takes it through the same
states.

The proof is a simulation.  Before the accept of the connection the other run
waits in its initial state, while its accept is outstanding both runs have the
same one, and afterwards they agree on the connection and on whether it is in
the manager's set.
-/

variable {env : Env}

/-! ## A server that has not been asked to stop -/

/-- Every connection with an outstanding operation is in the manager's set. -/
def Kept (server : Server env) : Prop :=
  ∀ id, (server.connection id).operations ≠ [] → id ∈ server.connections

/-- What holds until the signal is raised. -/
structure Unsignalled (server : Server env) : Prop where
  sound : Sound server
  waiting : server.signalWait = .waiting
  isOpen : server.acceptorOpen = true
  kept : Kept server
  defined : server.status ≠ .undefined

namespace Server

variable (server : Server env)

/-- An accept is handled while the acceptor is open, and the peer is there. -/
def afterAccept (ec : ErrorCode) : Server env :=
  let dequeued := server.dequeueAccept 0 server.newConnection ec
  if ec = .success then (dequeued.managerStart dequeued.newConnection).startAccept
  else dequeued.startAccept

variable {server} {ec : ErrorCode}

theorem hanldeAccept_eq_afterAccept (isOpen : server.acceptorOpen = true) {endpointThrows : Bool}
    (answered : ec = .success → endpointThrows = false) :
    (server.dequeueAccept 0 server.newConnection ec).hanldeAccept ec endpointThrows =
      server.afterAccept ec := by
  have stillOpen := (server.dequeueAccept_acceptorOpen 0 server.newConnection ec).trans isOpen
  rw [hanldeAccept, stillOpen, Bool.not_true, if_neg Bool.false_ne_true, afterAccept]
  by_cases success : ec = .success
  · rw [if_neg (not_not.mpr success), answered success, if_neg Bool.false_ne_true, if_pos success]
  · rw [if_pos success, if_neg success]

theorem afterAccept_newConnection :
    (server.afterAccept ec).newConnection = server.newConnection + 1 := by
  have same := server.dequeueAccept_newConnection 0 server.newConnection ec
  unfold afterAccept
  split
  · exact congrArg Nat.succ same
  · exact congrArg Nat.succ same

theorem afterAccept_acceptorOpen : (server.afterAccept ec).acceptorOpen = server.acceptorOpen := by
  have same := server.dequeueAccept_acceptorOpen 0 server.newConnection ec
  unfold afterAccept
  split
  · exact same
  · exact same

theorem afterAccept_status : (server.afterAccept ec).status = server.status := by
  have same := server.dequeueAccept_status 0 server.newConnection ec
  unfold afterAccept
  split
  · exact same
  · exact same

theorem afterAccept_signalWait : (server.afterAccept ec).signalWait = server.signalWait := by
  unfold afterAccept dequeueAccept
  split
  · rfl
  · rfl

theorem afterAccept_connections : (server.afterAccept ec).connections =
    if ec = .success then insert server.newConnection server.connections
    else server.connections := by
  have members := server.dequeueAccept_connections 0 server.newConnection ec
  have same := server.dequeueAccept_newConnection 0 server.newConnection ec
  unfold afterAccept
  split
  · change insert (server.dequeueAccept 0 server.newConnection ec).newConnection
      (server.dequeueAccept 0 server.newConnection ec).connections = _
    rw [members, same]
  · exact members

theorem afterAccept_accepts (isOpen : server.acceptorOpen = true) {accept : Accept}
    (accepts : server.accepts = [accept]) :
    (server.afterAccept ec).accepts = [{ target := server.newConnection + 1 }] := by
  have same := server.dequeueAccept_newConnection 0 server.newConnection ec
  have stillOpen := server.dequeueAccept_acceptorOpen 0 server.newConnection ec
  have handled : (server.dequeueAccept 0 server.newConnection ec).accepts = [] := by
    rw [dequeueAccept_accepts, accepts]
    rfl
  have armed : (server.dequeueAccept 0 server.newConnection ec).startAccept.accepts =
      [{ target := server.newConnection + 1 }] := by
    rw [startAccept, handled, same, stillOpen, isOpen]
    rfl
  unfold afterAccept
  split
  · exact armed
  · exact armed

theorem afterAccept_connection_self : (server.afterAccept ec).connection server.newConnection =
    if ec = .success then (server.connection server.newConnection).assign.start
    else server.connection server.newConnection := by
  have same := server.dequeueAccept_newConnection 0 server.newConnection ec
  have notNext : server.newConnection ≠
      (server.dequeueAccept 0 server.newConnection ec).newConnection + 1 := by
    rw [same]
    exact Nat.ne_of_lt (Nat.lt_succ_self _)
  unfold afterAccept
  split
  · next success =>
      have kept := ((server.dequeueAccept 0 server.newConnection ec).managerStart
        (server.dequeueAccept 0 server.newConnection ec).newConnection).startAccept_connection_of_ne
          notNext
      rw [kept, same, managerStart_connection_self,
        server.dequeueAccept_connection_self 0 server.newConnection ec success]
  · next failed =>
      rw [startAccept_connection_of_ne _ notNext, dequeueAccept, if_neg failed]

theorem afterAccept_connection_next :
    (server.afterAccept ec).connection (server.newConnection + 1) = {} := by
  rw [← server.dequeueAccept_newConnection 0 server.newConnection ec]
  unfold afterAccept
  split
  · exact startAccept_connection_self _
  · exact startAccept_connection_self _

theorem afterAccept_connection_of_ne {id : Nat} (notThis : id ≠ server.newConnection)
    (notNext : id ≠ server.newConnection + 1) :
    (server.afterAccept ec).connection id = server.connection id := by
  have same := server.dequeueAccept_newConnection 0 server.newConnection ec
  have kept := server.dequeueAccept_connection_of_ne 0 server.newConnection ec notThis
  have notDequeued : id ≠ (server.dequeueAccept 0 server.newConnection ec).newConnection := by
    rw [same]
    exact notThis
  rw [← same] at notNext
  unfold afterAccept
  split
  · have started := ((server.dequeueAccept 0 server.newConnection ec).managerStart
      (server.dequeueAccept 0 server.newConnection ec).newConnection).startAccept_connection_of_ne
        notNext
    rw [started, managerStart_connection_of_ne _ _ notDequeued, kept]
  · rw [startAccept_connection_of_ne _ notNext, kept]

end Server

/-- A step that is taken before the signal is raised and does not throw. -/
inductive Takes (server : Server env) : Event → Server env → Prop where
  | serves {event : Event} {id : Nat} {after : Connection env} {outcome : Outcome}
      (concerns : event.connection? = some id)
      (served : (server.connection id).serve (server.held id) event = some (after, outcome)) :
      Takes server event (server.install id (after, outcome))
  | acceptDone {ec : ErrorCode} (pending : server.accepts = [{ target := server.newConnection }])
      (unaborted : ec ≠ .operationAborted) :
      Takes server (.acceptDone 0 ec)
        { server with accepts := [{ target := server.newConnection, completion := some ec }] }
  | hanldeAccept {ec : ErrorCode} {endpointThrows : Bool}
      (queued : server.accepts = [{ target := server.newConnection, completion := some ec }])
      (answered : ec = .success → endpointThrows = false) :
      Takes server (.hanldeAccept 0 endpointThrows) (server.afterAccept ec)

/-- Every step before the signal is of one of these kinds. -/
theorem takes_of_step {server next : Server env} {event : Event} (unsignalled : Unsignalled server)
    (step : (Server.machine env).step server event = some next) (quiet : event ≠ .signalRaised)
    (unthrown : next.status ≠ .thrown) : Takes server event next := by
  have invariant := unsignalled.sound (moves_of_step step).1
  -- What an event says about the accept is about the only one.
  have only : ∀ {index target completion}, server.accepts[index]? =
        some { target := target, completion := completion } →
      index = 0 ∧ target = server.newConnection ∧
        server.accepts = [{ target := server.newConnection, completion := completion }] := by
    intro index target completion listed
    rcases eq_singleton_of_listed invariant.oneAccept listed with ⟨alone, first⟩
    have aimed : target = server.newConnection :=
      invariant.target _ (List.mem_of_getElem? listed)
    exact ⟨first, aimed, aimed ▸ alone⟩
  rcases step_cases step with ⟨id, ⟨after, outcome⟩, concerned, served, rfl⟩ | shared
  · exact .serves concerned served
  · cases shared with
    | @acceptDone index target ec listed unaborted =>
        rcases only listed with ⟨rfl, rfl, alone⟩
        have replaced := set_of_listed invariant.oneAccept listed
          { target := server.newConnection, completion := some ec }
        rw [replaced]
        exact .acceptDone alone unaborted
    | signalRaised => exact absurd rfl quiet
    | @hanldeAccept index target ec endpointThrows listed =>
        rcases only listed with ⟨rfl, rfl, alone⟩
        have answered : ec = .success → endpointThrows = false := by
          intro success
          by_contra throws
          subst success
          rw [Bool.not_eq_false] at throws
          subst throws
          apply unthrown
          rw [Server.hanldeAccept, Server.dequeueAccept_acceptorOpen, unsignalled.isOpen]
          rfl
        rw [Server.hanldeAccept_eq_afterAccept unsignalled.isOpen answered]
        exact .hanldeAccept alone answered
    | hanldeStop raised _ _ _ _ =>
        rw [unsignalled.waiting] at raised
        cases raised

/-- And a running server takes every such step. -/
theorem Takes.step {server next : Server env} {event : Event} (takes : Takes server event next)
    (running : server.status = .running) (isOpen : server.acceptorOpen = true) :
    (Server.machine env).step server event = some next := by
  cases takes with
  | @serves _ id _ _ concerns served =>
      rw [server.step_serve id running concerns, served]
      rfl
  | acceptDone pending unaborted =>
      rw [Server.machine_step, if_pos running, Server.react, pending]
      dsimp only [List.getElem?_cons_zero]
      rw [if_neg unaborted]
      rfl
  | @hanldeAccept ec endpointThrows queued answered =>
      rw [Server.machine_step, if_pos running, Server.react, queued]
      dsimp only [List.getElem?_cons_zero]
      rw [Server.hanldeAccept_eq_afterAccept isOpen answered]

theorem Server.install_status (server : Server env) (id : Nat)
    (result : Connection env × Outcome) :
    (server.install id result).status = match result.2 with
      | .kept => server.status
      | .removed => server.status
      | .thrown => .thrown
      | .undefined => .undefined := by
  unfold install
  cases result.2 <;> rfl

/-- Only a connection with an outstanding operation is served, one that is held
does not lack an owner, and one that is taken out of the set has nothing
outstanding. -/
theorem Served.ends {connection after : Connection env} {held : Bool} {event : Event}
    {outcome : Outcome} (served : Served connection held event after outcome)
    (single : connection.operations.length ≤ 1) :
    connection.operations ≠ [] ∧ (outcome = .undefined → held = false) ∧
      (outcome = .removed → after.operations = []) := by
  have outstanding : ∀ {index operation}, connection.operations[index]? = some operation →
      connection.operations ≠ [] :=
    fun listed => List.ne_nil_of_mem (List.mem_of_getElem? listed)
  cases served with
  | completed listed _ _ _ _ =>
      exact ⟨outstanding listed, fun lost => absurd lost (by decide),
        fun removed => absurd removed (by decide)⟩
  | @halted _ index throws _ _ listed _ =>
      refine ⟨outstanding listed, fun impossible => ?_, fun _ => ?_⟩
      · unfold Connection.halt at impossible
        dsimp only at impossible
        split at impossible
        · cases impossible
        · cases impossible
      · have idle : (connection.dequeue index).operations = [] := eraseIdx_of_listed single listed
        rw [Connection.stop, idle]
        rfl
  | received listed _ =>
      exact ⟨outstanding listed, fun lost => absurd lost (by decide),
        fun removed => absurd removed (by decide)⟩
  | shutdown listed =>
      exact ⟨outstanding listed, fun lost => absurd lost (by decide),
        fun removed => absurd removed (by decide)⟩
  | dropped listed lost =>
      refine ⟨outstanding listed, fun _ => ?_, fun removed => absurd removed (by decide)⟩
      exact Bool.eq_false_of_not_eq_true fun held => lost (Or.inl held)

namespace Unsignalled

variable {server next : Server env}

/-- A connection with an outstanding operation is in the set and has been
started. -/
theorem member_of_served (unsignalled : Unsignalled server) (running : server.status = .running)
    {id : Nat} {event : Event} {after : Connection env} {outcome : Outcome}
    (served : (server.connection id).serve (server.held id) event = some (after, outcome)) :
    id ∈ server.connections ∧ id < server.newConnection ∧ outcome ≠ .undefined ∧
      (outcome = .removed → after.operations = []) := by
  have invariant := unsignalled.sound running
  rcases (served_of_serve served).ends (invariant.orderly id).single with
    ⟨outstanding, owned, ended⟩
  have member := unsignalled.kept id outstanding
  refine ⟨member, invariant.members id member, fun lost => ?_, ended⟩
  have unheld := owned lost
  rw [Server.held, decide_eq_false_iff_not] at unheld
  exact unheld (Or.inl member)

theorem kept_serves (unsignalled : Unsignalled server) (running : server.status = .running)
    {id : Nat} {event : Event} {after : Connection env} {outcome : Outcome}
    (served : (server.connection id).serve (server.held id) event = some (after, outcome)) :
    Kept (server.install id (after, outcome)) := by
  rcases unsignalled.member_of_served running served with ⟨member, _, _, ended⟩
  intro other outstanding
  rw [Server.mem_install_iff]
  by_cases same : other = id
  · subst same
    rw [Server.install_connection_self] at outstanding
    exact ⟨member, fun removed => absurd (ended removed) outstanding⟩
  · rw [Server.install_connection_of_ne _ same] at outstanding
    exact ⟨unsignalled.kept other outstanding, fun _ => same⟩

theorem kept_afterAccept (unsignalled : Unsignalled server) (running : server.status = .running)
    (ec : ErrorCode) : Kept (server.afterAccept ec) := by
  have unstarted := (unsignalled.sound running).unstarted server.newConnection (Nat.le_refl _)
  intro id outstanding
  rw [Server.afterAccept_connections]
  by_cases this : id = server.newConnection
  · subst this
    rw [Server.afterAccept_connection_self] at outstanding
    by_cases success : ec = .success
    · rw [if_pos success]
      exact Finset.mem_insert_self _ _
    · rw [if_neg success] at outstanding
      exact absurd unstarted.1 outstanding
  · have earlier : id ∈ server.connections := by
      by_cases next : id = server.newConnection + 1
      · subst next
        rw [Server.afterAccept_connection_next] at outstanding
        exact absurd rfl outstanding
      · rw [Server.afterAccept_connection_of_ne this next] at outstanding
        exact unsignalled.kept id outstanding
    split
    · exact Finset.mem_insert_of_mem earlier
    · exact earlier

/-- Without a signal the server stays open, and no handler ever lacks an owner. -/
theorem takes (unsignalled : Unsignalled server) (running : server.status = .running)
    {event : Event} (takes : Takes server event next) : Unsignalled next := by
  have sound := sound_step server event next unsignalled.sound
    (takes.step running unsignalled.isOpen)
  cases takes with
  | @serves _ id after outcome concerns served =>
      rcases server.install_frame id (after, outcome) with ⟨_, _, stillOpen, stillWaiting⟩
      refine ⟨sound, stillWaiting.trans unsignalled.waiting, stillOpen.trans unsignalled.isOpen,
        unsignalled.kept_serves running served, ?_⟩
      have defined := (unsignalled.member_of_served running served).2.2.1
      rw [Server.install_status]
      cases outcome with
      | kept => exact unsignalled.defined
      | removed => exact unsignalled.defined
      | thrown => exact nofun
      | undefined => exact absurd rfl defined
  | acceptDone _ _ =>
      exact ⟨sound, unsignalled.waiting, unsignalled.isOpen, unsignalled.kept,
        unsignalled.defined⟩
  | @hanldeAccept ec _ _ _ =>
      refine ⟨sound, ?_, ?_, unsignalled.kept_afterAccept running ec, ?_⟩
      · rw [Server.afterAccept_signalWait]
        exact unsignalled.waiting
      · rw [Server.afterAccept_acceptorOpen]
        exact unsignalled.isOpen
      · rw [Server.afterAccept_status]
        exact unsignalled.defined

theorem initial : Unsignalled (Server.machine env).initial where
  sound := sound_initial
  waiting := rfl
  isOpen := rfl
  kept := fun _ outstanding => absurd rfl outstanding
  defined := nofun

end Unsignalled

/-! ## The events of one connection -/

/-- The same event for a connection of another number. -/
def Event.renumber (id : Nat) : Event → Event
  | .readDone _ index data => .readDone id index data
  | .readFailed _ index => .readFailed id index
  | .writeDone _ index count memory => .writeDone id index count memory
  | .writeFailed _ index => .writeFailed id index
  | .handleRead _ index date throws => .handleRead id index date throws
  | .handleWrite _ index throws => .handleWrite id index throws
  | event => event

/-- The connection an event is about: the one it belongs to, or the target of
the accept. -/
def Server.subject? (server : Server env) : Event → Option Nat
  | .acceptDone index _ => server.accepts[index]?.map Accept.target
  | .hanldeAccept index _ => server.accepts[index]?.map Accept.target
  | event => event.connection?

/-- An event of the connection, as the first connection of a server. -/
def ownEvent? (id : Nat) (server : Server env) (event : Event) : Option Event :=
  if server.subject? event = some id then some (event.renumber 0) else none

/-- The run that keeps only the events of the connection. -/
def ownEvents (env : Env) (id : Nat) (events : List Event) : List Event :=
  (Server.machine env).project (ownEvent? id) (Server.machine env).initial events

theorem Event.connection?_renumber {event : Event} {id : Nat} (other : Nat)
    (concerns : event.connection? = some id) :
    (event.renumber other).connection? = some other := by
  cases event with
  | readDone _ _ _ => rfl
  | readFailed _ _ => rfl
  | writeDone _ _ _ _ => rfl
  | writeFailed _ _ => rfl
  | handleRead _ _ _ _ => rfl
  | handleWrite _ _ _ => rfl
  | acceptDone _ _ => cases concerns
  | signalRaised => cases concerns
  | hanldeAccept _ _ => cases concerns
  | hanldeStop _ _ _ => cases concerns

/-- A connection does not look at its number. -/
theorem Connection.serve_renumber (connection : Connection env) (held : Bool) (event : Event)
    (id : Nat) : connection.serve held (event.renumber id) = connection.serve held event := by
  cases event <;> rfl

theorem Server.subject?_of_connection? (server : Server env) {event : Event} {id : Nat}
    (concerns : event.connection? = some id) : server.subject? event = some id := by
  cases event with
  | acceptDone _ _ => cases concerns
  | hanldeAccept _ _ => cases concerns
  | _ => exact concerns

/-! ## The simulation -/

/-- How far the accept of the connection is, in the shared run and in its own. -/
inductive Phase (id : Nat) (server alone : Server env) : Prop where
  | before (early : server.newConnection < id) (fresh : alone.connection 0 = {})
      (untouched : alone.newConnection = 0) (waiting : alone.accepts = [{ target := 0 }])
  | accepting {completion : Option ErrorCode} (new : server.newConnection = id)
      (untouched : alone.newConnection = 0)
      (shared : server.accepts = [{ target := id, completion := completion }])
      (own : alone.accepts = [{ target := 0, completion := completion }])
  | after (late : id < server.newConnection) (taken : 0 < alone.newConnection)

/-- The second server is the first one as the connection sees it. -/
structure Mirrors (id : Nat) (server alone : Server env) : Prop where
  unsignalled : Unsignalled server
  running : server.status = .running
  aloneRunning : alone.status = .running
  aloneOpen : alone.acceptorOpen = true
  connection : alone.connection 0 = server.connection id
  member : 0 ∈ alone.connections ↔ id ∈ server.connections
  phase : Phase id server alone

namespace Mirrors

variable {id : Nat} {server next alone : Server env}

theorem taken (mirrors : Mirrors id server alone) (late : id < server.newConnection) :
    0 < alone.newConnection := by
  cases mirrors.phase with
  | before early _ _ _ => exact absurd late (Nat.lt_asymm early)
  | accepting new _ _ _ => exact absurd new (Nat.ne_of_gt late)
  | after _ taken => exact taken

/-- While its accept is outstanding, both runs have the same one. -/
theorem accepting (mirrors : Mirrors id server alone) (new : server.newConnection = id) :
    alone.newConnection = 0 ∧ ∃ completion,
      server.accepts = [{ target := id, completion := completion }] ∧
        alone.accepts = [{ target := 0, completion := completion }] := by
  cases mirrors.phase with
  | before early _ _ _ => exact absurd new (Nat.ne_of_lt early)
  | accepting _ untouched shared own => exact ⟨untouched, _, shared, own⟩
  | after late _ => exact absurd new (Nat.ne_of_gt late)

/-- Its own completion or handler does the same in both. -/
theorem own_serves (mirrors : Mirrors id server alone) {event : Event} {after : Connection env}
    {outcome : Outcome} (concerns : event.connection? = some id)
    (served : (server.connection id).serve (server.held id) event = some (after, outcome))
    (running : (server.install id (after, outcome)).status = .running) :
    (Server.machine env).step alone (event.renumber 0) = some (alone.install 0 (after, outcome)) ∧
      Mirrors id (server.install id (after, outcome)) (alone.install 0 (after, outcome)) := by
  rcases mirrors.unsignalled.member_of_served mirrors.running served with ⟨member, late, _, _⟩
  rcases server.install_frame id (after, outcome) with ⟨_, sameNew, _, _⟩
  rcases alone.install_frame 0 (after, outcome) with ⟨_, aloneNew, stillOpen, _⟩
  have sameHeld : alone.held 0 = server.held id := by
    have held : server.held id = true := decide_eq_true (Or.inl member)
    rw [held]
    exact decide_eq_true (Or.inl (mirrors.member.mpr member))
  have unthrown : outcome = .kept ∨ outcome = .removed := by
    rw [Server.install_status] at running
    cases outcome with
    | kept => exact Or.inl rfl
    | removed => exact Or.inr rfl
    | thrown => cases running
    | undefined => cases running
  constructor
  · rw [alone.step_serve 0 mirrors.aloneRunning (Event.connection?_renumber 0 concerns),
      mirrors.connection, sameHeld, Connection.serve_renumber, served]
    rfl
  · refine ⟨mirrors.unsignalled.takes mirrors.running (.serves concerns served), running, ?_,
      stillOpen.trans mirrors.aloneOpen, ?_, ?_, ?_⟩
    · rw [Server.install_status]
      rcases unthrown with rfl | rfl
      · exact mirrors.aloneRunning
      · exact mirrors.aloneRunning
    · rw [Server.install_connection_self, Server.install_connection_self]
    · rw [Server.mem_install_iff, Server.mem_install_iff]
      refine and_congr mirrors.member (imp_congr Iff.rfl ?_)
      exact not_congr (iff_of_true rfl rfl)
    · refine .after ?_ ?_
      · rw [sameNew]
        exact late
      · rw [aloneNew]
        exact mirrors.taken late

theorem own_acceptDone (mirrors : Mirrors id server alone) {ec : ErrorCode}
    (new : server.newConnection = id)
    (pending : server.accepts = [{ target := server.newConnection }])
    (unaborted : ec ≠ .operationAborted) :
    (Server.machine env).step alone (.acceptDone 0 ec) =
        some { alone with accepts := [{ target := 0, completion := some ec }] } ∧
      Mirrors id
        { server with accepts := [{ target := server.newConnection, completion := some ec }] }
        { alone with accepts := [{ target := 0, completion := some ec }] } := by
  rcases mirrors.accepting new with ⟨untouched, completion, shared, own⟩
  have incomplete : completion = none := by
    rw [shared] at pending
    cases pending
    rfl
  subst incomplete
  rw [← untouched] at own
  constructor
  · have step := (Takes.acceptDone own unaborted).step mirrors.aloneRunning mirrors.aloneOpen
    have aimed := congrArg (fun target => some
      { alone with accepts := [{ target := target, completion := some ec }] }) untouched
    exact step.trans aimed
  · refine ⟨mirrors.unsignalled.takes mirrors.running (.acceptDone pending unaborted),
      mirrors.running, mirrors.aloneRunning, mirrors.aloneOpen, mirrors.connection,
      mirrors.member, ?_⟩
    refine .accepting new untouched ?_ rfl
    rw [new]

theorem own_hanldeAccept (mirrors : Mirrors id server alone) {ec : ErrorCode}
    {endpointThrows : Bool} (new : server.newConnection = id)
    (queued : server.accepts = [{ target := server.newConnection, completion := some ec }])
    (answered : ec = .success → endpointThrows = false) :
    (Server.machine env).step alone (.hanldeAccept 0 endpointThrows) =
        some (alone.afterAccept ec) ∧
      Mirrors id (server.afterAccept ec) (alone.afterAccept ec) := by
  rcases mirrors.accepting new with ⟨untouched, completion, shared, own⟩
  have complete : completion = some ec := by
    rw [shared] at queued
    cases queued
    rfl
  subst complete
  rw [← untouched] at own
  refine ⟨(Takes.hanldeAccept own answered).step mirrors.aloneRunning mirrors.aloneOpen, ?_⟩
  refine ⟨mirrors.unsignalled.takes mirrors.running (.hanldeAccept queued answered),
    Server.afterAccept_status.trans mirrors.running,
    Server.afterAccept_status.trans mirrors.aloneRunning,
    Server.afterAccept_acceptorOpen.trans mirrors.aloneOpen, ?_, ?_, ?_⟩
  · have ofShared := @Server.afterAccept_connection_self _ server ec
    have ofOwn := @Server.afterAccept_connection_self _ alone ec
    rw [new] at ofShared
    rw [untouched, mirrors.connection] at ofOwn
    exact ofOwn.trans ofShared.symm
  · rw [Server.afterAccept_connections, Server.afterAccept_connections, new, untouched]
    split
    · exact iff_of_true (Finset.mem_insert_self _ _) (Finset.mem_insert_self _ _)
    · exact mirrors.member
  · refine .after ?_ ?_
    · rw [Server.afterAccept_newConnection, new]
      exact Nat.lt_succ_self id
    · rw [Server.afterAccept_newConnection]
      exact Nat.succ_pos _

/-- An event of the connection moves both runs alike. -/
theorem own_step (mirrors : Mirrors id server alone) {event : Event}
    (takes : Takes server event next) (running : next.status = .running)
    (about : server.subject? event = some id) :
    ∃ after, (Server.machine env).step alone (event.renumber 0) = some after ∧
      Mirrors id next after := by
  cases takes with
  | @serves _ other after outcome concerns served =>
      have same : other = id := by
        rw [server.subject?_of_connection? concerns] at about
        exact Option.some.inj about
      subst same
      exact ⟨_, mirrors.own_serves concerns served running⟩
  | acceptDone pending unaborted =>
      have new : server.newConnection = id := by
        rw [Server.subject?, pending] at about
        exact Option.some.inj about
      exact ⟨_, mirrors.own_acceptDone new pending unaborted⟩
  | hanldeAccept queued answered =>
      have new : server.newConnection = id := by
        rw [Server.subject?, queued] at about
        exact Option.some.inj about
      exact ⟨_, mirrors.own_hanldeAccept new queued answered⟩

/-- The completions and handlers of another connection leave it alone. -/
theorem other_serves (mirrors : Mirrors id server alone) {other : Nat} {event : Event}
    {after : Connection env} {outcome : Outcome} (concerns : event.connection? = some other)
    (served : (server.connection other).serve (server.held other) event = some (after, outcome))
    (running : (server.install other (after, outcome)).status = .running)
    (different : id ≠ other) : Mirrors id (server.install other (after, outcome)) alone := by
  rcases server.install_frame other (after, outcome) with ⟨sameAccepts, sameNew, _, _⟩
  refine ⟨mirrors.unsignalled.takes mirrors.running (.serves concerns served), running,
    mirrors.aloneRunning, mirrors.aloneOpen, ?_, ?_, ?_⟩
  · rw [Server.install_connection_of_ne _ different]
    exact mirrors.connection
  · rw [Server.mem_install_iff]
    exact mirrors.member.trans (and_iff_left fun _ => different).symm
  · cases mirrors.phase with
    | before early fresh untouched waiting =>
        exact .before (sameNew ▸ early) fresh untouched waiting
    | accepting new untouched shared own =>
        exact .accepting (sameNew.trans new) untouched (sameAccepts.trans shared) own
    | after late taken => exact .after (sameNew ▸ late) taken

/-- The accept of another connection can only make the next one the target. -/
theorem other_hanldeAccept (mirrors : Mirrors id server alone) {ec : ErrorCode}
    {endpointThrows : Bool} (different : id ≠ server.newConnection)
    (queued : server.accepts = [{ target := server.newConnection, completion := some ec }])
    (answered : ec = .success → endpointThrows = false) :
    Mirrors id (server.afterAccept ec) alone := by
  have sameNew := @Server.afterAccept_newConnection _ server ec
  refine ⟨mirrors.unsignalled.takes mirrors.running (.hanldeAccept queued answered),
    Server.afterAccept_status.trans mirrors.running, mirrors.aloneRunning, mirrors.aloneOpen,
    ?_, ?_, ?_⟩
  · by_cases next : id = server.newConnection + 1
    · cases mirrors.phase with
      | before _ fresh _ _ =>
          rw [fresh, next]
          exact Server.afterAccept_connection_next.symm
      | accepting new _ _ _ => exact absurd new.symm different
      | after late _ => exact absurd (next ▸ late) (Nat.lt_asymm (Nat.lt_succ_self _))
    · rw [Server.afterAccept_connection_of_ne different next]
      exact mirrors.connection
  · rw [Server.afterAccept_connections]
    split
    · rw [Finset.mem_insert]
      exact mirrors.member.trans (or_iff_right different).symm
    · exact mirrors.member
  · cases mirrors.phase with
    | before early fresh untouched waiting =>
        rcases Nat.lt_or_eq_of_le (Nat.succ_le_of_lt early) with still | now
        · exact .before (sameNew ▸ still) fresh untouched waiting
        · refine .accepting (sameNew.trans now) untouched ?_ waiting
          rw [Server.afterAccept_accepts mirrors.unsignalled.isOpen queued]
          exact congrArg (fun target => [({ target := target } : Accept)]) now
    | accepting new _ _ _ => exact absurd new.symm different
    | after late taken => exact .after (sameNew ▸ Nat.lt_succ_of_lt late) taken

/-- An event of another connection is invisible. -/
theorem other_step (mirrors : Mirrors id server alone) {event : Event}
    (takes : Takes server event next) (running : next.status = .running)
    (elsewhere : server.subject? event ≠ some id) : Mirrors id next alone := by
  cases takes with
  | @serves _ other after outcome concerns served =>
      have different : id ≠ other := by
        intro same
        exact elsewhere (same ▸ server.subject?_of_connection? concerns)
      exact mirrors.other_serves concerns served running different
  | @acceptDone ec pending unaborted =>
      have different : server.newConnection ≠ id := by
        intro new
        rw [Server.subject?, pending] at elsewhere
        exact elsewhere (congrArg some new)
      refine ⟨mirrors.unsignalled.takes mirrors.running (.acceptDone pending unaborted), running,
        mirrors.aloneRunning, mirrors.aloneOpen, mirrors.connection, mirrors.member, ?_⟩
      cases mirrors.phase with
      | before early fresh untouched waiting => exact .before early fresh untouched waiting
      | accepting new _ _ _ => exact absurd new different
      | after late taken => exact .after late taken
  | @hanldeAccept ec endpointThrows queued answered =>
      have different : id ≠ server.newConnection := by
        intro new
        rw [Server.subject?, queued] at elsewhere
        exact elsewhere (congrArg some new.symm)
      exact mirrors.other_hanldeAccept different queued answered

theorem initial (env : Env) (id : Nat) :
    Mirrors id (Server.machine env).initial (Server.machine env).initial where
  unsignalled := .initial
  running := rfl
  aloneRunning := rfl
  aloneOpen := rfl
  connection := rfl
  member := iff_of_false (Finset.notMem_empty 0) (Finset.notMem_empty id)
  phase := by
    rcases Nat.eq_zero_or_pos id with first | later
    · exact .accepting first.symm rfl (first ▸ rfl) rfl
    · exact .before later rfl rfl rfl

end Mirrors

/-! ## Runs without a signal -/

/-- No signal arrives, and the handler does not throw. -/
def Undisturbed (server : Server env) (event : Event) : Prop :=
  event ≠ .signalRaised ∧
    ∀ next, (Server.machine env).step server event = some next → next.status ≠ .thrown

/-- A handler that throws ends the run. -/
theorem unthrown_of_run {server final : Server env} {events : List Event}
    (steps : (Server.machine env).run server events = some final)
    (unthrown : final.status ≠ .thrown) : server.status ≠ .thrown := by
  cases events with
  | nil =>
      cases steps
      exact unthrown
  | cons event rest =>
      rcases (Server.machine env).run_cons_eq_some.mp steps with ⟨next, moved, _⟩
      rw [(moves_of_step moved).1]
      exact nofun

theorem undisturbed_along_run {server final : Server env} {events : List Event}
    (steps : (Server.machine env).run server events = some final)
    (quiet : ∀ event ∈ events, event ≠ .signalRaised) (unthrown : final.status ≠ .thrown) :
    (Server.machine env).Meets Undisturbed server events := by
  induction events generalizing server with
  | nil => trivial
  | cons event rest inductionHypothesis =>
      rcases (Server.machine env).run_cons_eq_some.mp steps with ⟨next, moved, arrived⟩
      refine ⟨⟨quiet event List.mem_cons_self, fun other same => ?_⟩, fun other same => ?_⟩
      · rw [moved, Option.some.injEq] at same
        exact same ▸ unthrown_of_run arrived unthrown
      · rw [moved, Option.some.injEq] at same
        subst same
        exact inductionHypothesis arrived fun later among =>
          quiet later (List.mem_cons_of_mem _ among)

/-- An undisturbed step is one of the three kinds, and the server goes on running. -/
theorem Mirrors.takes_of_undisturbed {id : Nat} {server next alone : Server env} {event : Event}
    (mirrors : Mirrors id server alone) (undisturbed : Undisturbed server event)
    (step : (Server.machine env).step server event = some next) :
    Takes server event next ∧ next.status = .running := by
  have takes := takes_of_step mirrors.unsignalled step undisturbed.1 (undisturbed.2 next step)
  have defined := (mirrors.unsignalled.takes mirrors.running takes).defined
  have unthrown := undisturbed.2 next step
  refine ⟨takes, ?_⟩
  cases status : next.status with
  | running => rfl
  | thrown => exact absurd status unthrown
  | undefined => exact absurd status defined

/-- An event of another connection changes neither the connection nor whether
the manager keeps it. -/
def LeavesAlone (id : Nat) (server : Server env) (event : Event) : Prop :=
  server.subject? event ≠ some id →
    ∀ next, (Server.machine env).step server event = some next →
      next.connection id = server.connection id ∧
        (id ∈ next.connections ↔ id ∈ server.connections)

/-- Without a signal and without an exception, a connection goes through the same
states as in the run that has only its own events, and no other event changes it
or takes it out of the manager's set. -/
theorem isolated_along_run (env : Env) (id : Nat) {events : List Event} {final : Server env}
    (steps : (Server.machine env).run (Server.machine env).initial events = some final)
    (quiet : ∀ event ∈ events, event ≠ .signalRaised) (unthrown : final.status ≠ .thrown) :
    (∃ alone, (Server.machine env).run (Server.machine env).initial (ownEvents env id events) =
        some alone ∧ alone.connection 0 = final.connection id ∧
          (0 ∈ alone.connections ↔ id ∈ final.connections)) ∧
      (Server.machine env).Meets (LeavesAlone id) (Server.machine env).initial events := by
  have undisturbed := undisturbed_along_run steps quiet unthrown
  have start := Mirrors.initial env id
  have own : ∀ server event next alone own, Mirrors id server alone →
      Undisturbed server event → (Server.machine env).step server event = some next →
      ownEvent? id server event = some own →
      ∃ after, (Server.machine env).step alone own = some after ∧ Mirrors id next after := by
    intro server event next alone own mirrors undisturbed step kept
    rcases mirrors.takes_of_undisturbed undisturbed step with ⟨takes, running⟩
    rcases Option.ite_some_none_eq_some.mp kept with ⟨about, rfl⟩
    exact mirrors.own_step takes running about
  have other : ∀ server event next alone, Mirrors id server alone → Undisturbed server event →
      (Server.machine env).step server event = some next →
      ownEvent? id server event = none → Mirrors id next alone := by
    intro server event next alone mirrors undisturbed step skipped
    rcases mirrors.takes_of_undisturbed undisturbed step with ⟨takes, running⟩
    refine mirrors.other_step takes running fun about => ?_
    rw [ownEvent?, if_pos about] at skipped
    cases skipped
  have traced : ∀ server event next, (∃ alone, Mirrors id server alone) →
      Undisturbed server event → (Server.machine env).step server event = some next →
      ∃ alone, Mirrors id next alone := by
    rintro server event next ⟨alone, mirrors⟩ undisturbed step
    cases kept : ownEvent? id server event with
    | none => exact ⟨alone, other _ _ _ _ mirrors undisturbed step kept⟩
    | some event =>
        rcases own _ _ _ _ _ mirrors undisturbed step kept with ⟨after, _, still⟩
        exact ⟨after, still⟩
  have isolated : ∀ (server : Server env) event, (∃ alone, Mirrors id server alone) →
      Undisturbed server event → LeavesAlone id server event := by
    rintro server event ⟨alone, mirrors⟩ undisturbed elsewhere next step
    have still := other _ _ _ _ mirrors undisturbed step (if_neg elsewhere)
    exact ⟨still.connection.symm.trans mirrors.connection,
      still.member.symm.trans mirrors.member⟩
  constructor
  · rcases System.run_project (Server.machine env) own other start undisturbed steps with
      ⟨alone, reached, mirrors⟩
    exact ⟨alone, reached, mirrors.connection, mirrors.member⟩
  · exact System.Meets.imp (Server.machine env) traced isolated ⟨_, start⟩ undisturbed

/-! ### Two clients -/

/-- A client resets its connection while the request of another is served. -/
def interleavedClients : List Event :=
  [.acceptDone 0 .success, .hanldeAccept 0 false, .acceptDone 0 .success, .hanldeAccept 0 false,
    .readDone 0 0 (bytes "GET"), .readDone 1 0 shortRequest, .handleRead 0 0 [] false,
    .readFailed 0 0, .handleRead 1 0 [] false, .handleRead 0 0 [] false]

theorem interleavedClients_isolated : ∃ final alone : Server shortRequestEnv,
    (Server.machine shortRequestEnv).run (Server.machine shortRequestEnv).initial
        interleavedClients = some final ∧
      0 ∉ final.connections ∧
      (Server.machine shortRequestEnv).run (Server.machine shortRequestEnv).initial
          (ownEvents shortRequestEnv 1 interleavedClients) = some alone ∧
      alone.connection 0 = final.connection 1 ∧
      (0 ∈ alone.connections ↔ 1 ∈ final.connections) := by
  have outcome : ((Server.machine shortRequestEnv).run (Server.machine shortRequestEnv).initial
      interleavedClients).map (fun final => decide (final.status ≠ .thrown ∧
        0 ∉ final.connections)) = some true := by decide +kernel
  rcases Option.map_eq_some_iff.mp outcome with ⟨final, steps, facts⟩
  rcases of_decide_eq_true facts with ⟨unthrown, removed⟩
  have quiet : ∀ event ∈ interleavedClients, event ≠ .signalRaised := by
    simp [interleavedClients]
  rcases (isolated_along_run shortRequestEnv 1 steps quiet unthrown).1 with
    ⟨alone, reached, same, member⟩
  exact ⟨final, alone, steps, removed, reached, same, member⟩

end Http
end LearnAsio
