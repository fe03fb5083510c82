import LearnAsio.Http.Acceptor
import LearnAsio.Transition.Draining
import Mathlib.Algebra.Order.BigOperators.Group.List
import Mathlib.Algebra.Order.Ring.Nat

namespace LearnAsio
namespace Http

open Transition

/-!
# The loop ends after the stop signal

Nothing that is left after `hanlde_stop` has returned waits for the world: every
operation and every accept has its outcome, and what is left are handlers.  A
handler may still begin an operation, on a closed socket, which fails at once.
So there are only so many more handlers, none of them throws, and none of them
moves a byte.  What can go wrong is the handler of a write: it has no connection
to work on any more.
-/

variable {env : Env}

/-- The event runs a completion handler. -/
def Event.IsHandler : Event → Prop
  | .hanldeAccept _ _ | .handleRead _ _ _ _ | .handleWrite _ _ _ => True
  | _ => False

def Event.IsHandleWrite : Event → Prop
  | .handleWrite _ _ _ => True
  | _ => False

/-- The handlers that an operation with an outcome still leads to: a read that
has not failed may begin another operation. -/
def Operation.remaining (operation : Operation) : Nat :=
  match operation.kind, operation.completion with
  | .readSome, some completion => if completion.ec = .failure then 1 else 2
  | _, _ => 1

def Connection.remaining (connection : Connection env) : Nat :=
  (connection.operations.map Operation.remaining).sum

namespace Server

/-- The handlers that are left. -/
def remaining (server : Server env) : Nat :=
  ((List.range server.newConnection).map fun id => (server.connection id).remaining).sum +
    server.accepts.length

/-- Nothing is outstanding, so that `io_context::run` returns. -/
def Finished (server : Server env) : Prop :=
  server.accepts = [] ∧ ∀ id, (server.connection id).operations = []

end Server

/-- `hanlde_stop` has returned. -/
structure Closing (server : Server env) : Prop where
  running : server.status = .running
  invariant : Invariant server
  shut : Shut server
  handled : server.signalWait = .handled
  answered : ∀ accept ∈ server.accepts, accept.completion ≠ none

namespace Closing

variable {server next : Server env}

/-- No socket that has been started is open. -/
theorem closed (closing : Closing server) {id : Nat} (started : id < server.newConnection) :
    (server.connection id).isOpen = false := by
  refine closing.invariant.closed id started fun member => ?_
  rw [closing.shut.2] at member
  exact absurd member (Finset.notMem_empty id)

/-- Every operation has its outcome. -/
theorem completed (closing : Closing server) {id index : Nat} {operation : Operation}
    (listed : (server.connection id).operations[index]? = some operation) :
    operation.completion ≠ none := by
  intro pending
  have isOpen := ((closing.invariant.orderly id).listed listed).2.1 pending
  rw [closing.closed (closing.invariant.started listed)] at isOpen
  cases isOpen

/-- The handler of a write has lost its connection. -/
theorem not_owned (closing : Closing server) {id index : Nat} {operation : Operation}
    (listed : (server.connection id).operations[index]? = some operation) :
    ¬ (server.update id fun connection => connection.dequeue index).Owned id := by
  have idle := eraseIdx_of_listed (closing.invariant.orderly id).single listed
  rintro (member | new | ⟨other, among, _⟩)
  · rw [Server.update_connections, closing.shut.2] at member
    exact absurd member (Finset.notMem_empty id)
  · exact absurd (closing.invariant.started listed) (new ▸ Nat.lt_irrefl _)
  · rw [Server.update_connection_self, Connection.dequeue, idle] at among
    cases among

end Closing

/-! ## One handler -/

namespace Server

variable {server : Server env}

/-- The handlers that are left after a change of one connection. -/
theorem remaining_update_lt {id : Nat} {change : Connection env → Connection env}
    (started : id < server.newConnection)
    (lower : (change (server.connection id)).remaining < (server.connection id).remaining) :
    (server.update id change).remaining < server.remaining := by
  refine Nat.add_lt_add_right (List.sum_lt_sum _ _ ?_ ⟨id, List.mem_range.mpr started, ?_⟩) _
  · intro other _
    by_cases same : other = id
    · subst same
      rw [update_connection_self]
      exact Nat.le_of_lt lower
    · rw [update_connection_of_ne _ _ _ same]
  · rw [update_connection_self]
    exact lower

end Server

namespace Connection

variable {connection : Connection env}

theorem remaining_of_operations {operation : Operation}
    (only : connection.operations = [operation]) : connection.remaining = operation.remaining := by
  rw [remaining, only, List.map_cons, List.map_nil, List.sum_singleton]

theorem remaining_of_idle (idle : connection.operations = []) : connection.remaining = 0 := by
  rw [remaining, idle]
  rfl

theorem remaining_pos {operation : Operation} : 0 < operation.remaining := by
  unfold Operation.remaining
  split
  · split
    · exact Nat.one_pos
    · exact Nat.two_pos
  · exact Nat.one_pos

/-- On a closed socket a handler begins an operation that has failed. -/
theorem remaining_receive (closed : connection.isOpen = false)
    (idle : connection.operations = []) (bytesTransferred : Nat) (date : Bytes) :
    (connection.receive bytesTransferred date).remaining = 1 := by
  rcases connection.receive_operations bytesTransferred date with ⟨kind, began, _⟩
  rw [idle, List.nil_append, initialCompletion, if_neg (closed ▸ Bool.false_ne_true)] at began
  rw [remaining_of_operations began]
  cases kind with
  | readSome => rfl
  | writeSome _ => rfl

end Connection

/-- What a handler leaves after the stop: less to do, and no byte moved. -/
structure Settles (server : Server env) (event : Event) (next : Server env) : Prop where
  handler : event.IsHandler
  fewer : next.remaining < server.remaining
  accepted : ∀ id, (next.connection id).accepted = (server.connection id).accepted
  unthrown : next.status ≠ .thrown
  defined_iff : next.status = .running ↔ ¬ event.IsHandleWrite
  still : next.status = .running → Closing next

namespace Closing

variable {server next : Server env}

/-- The accept that is left is ignored. -/
theorem settles_hanldeAccept (closing : Closing server) {index target : Nat} {ec : ErrorCode}
    {endpointThrows : Bool}
    (listed : server.accepts[index]? = some { target := target, completion := some ec })
    (step : (Server.machine env).step server (.hanldeAccept index endpointThrows) =
      some ((server.dequeueAccept index target ec).hanldeAccept ec endpointThrows)) :
    Settles server (.hanldeAccept index endpointThrows)
      ((server.dequeueAccept index target ec).hanldeAccept ec endpointThrows) := by
  have ignored : (server.dequeueAccept index target ec).hanldeAccept ec endpointThrows =
      server.dequeueAccept index target ec := by
    rw [Server.hanldeAccept, Server.dequeueAccept_acceptorOpen, closing.shut.1]
    rfl
  rw [ignored] at step ⊢
  have running := (server.dequeueAccept_status index target ec).trans closing.running
  have handled := (closing.invariant.acceptHandled listed).1
  have none := (server.dequeueAccept_accepts index target ec).trans handled
  have connections : ∀ id,
      ((server.dequeueAccept index target ec).connection id).operations =
          (server.connection id).operations ∧
        ((server.dequeueAccept index target ec).connection id).accepted =
          (server.connection id).accepted := by
    intro id
    unfold Server.dequeueAccept
    dsimp only
    split
    · exact Server.forall_update _ _ _ (fun other connection =>
        connection.operations = (server.connection other).operations ∧
          connection.accepted = (server.connection other).accepted) ⟨rfl, rfl⟩
        (fun _ _ => ⟨rfl, rfl⟩) id
    · exact ⟨rfl, rfl⟩
  refine ⟨trivial, ?_, fun id => (connections id).2, ?_, ?_, fun _ => ?_⟩
  · have same : (server.dequeueAccept index target ec).newConnection = server.newConnection :=
      server.dequeueAccept_newConnection index target ec
    have counts : ∀ id, ((server.dequeueAccept index target ec).connection id).remaining =
        (server.connection id).remaining := by
      intro id
      rw [Connection.remaining, (connections id).1]
      rfl
    have outstanding : 0 < server.accepts.length :=
      List.length_pos_of_mem (List.mem_of_getElem? listed)
    simp only [Server.remaining, same, counts, none, List.length_nil]
    omega
  · rw [running]
    decide
  · exact iff_of_true running fun impossible => impossible
  · refine ⟨running, sound_step _ _ _ (fun _ => closing.invariant) step running,
      shut_step _ _ _ closing.shut step, ?_, ?_⟩
    · unfold Server.dequeueAccept
      dsimp only
      split
      · exact closing.handled
      · exact closing.handled
    · intro accept member
      rw [none] at member
      cases member

/-- A read that has failed is the last operation of its connection, and any other
read begins one that has failed. -/
theorem settles_handleRead (closing : Closing server) {id index : Nat} {completion : Completion}
    {date : Bytes} {throws : Bool}
    (listed : (server.connection id).operations[index]? =
      some { kind := .readSome, completion := some completion })
    (step : (Server.machine env).step server (.handleRead id index date throws) =
      some ((server.update id fun connection => connection.dequeue index).handleRead
        id completion date throws)) :
    Settles server (.handleRead id index date throws)
      ((server.update id fun connection => connection.dequeue index).handleRead
        id completion date throws) := by
  have started := closing.invariant.started listed
  have only := ((closing.invariant.orderly id).listed listed).1
  have idle := eraseIdx_of_listed (closing.invariant.orderly id).single listed
  have before := Connection.remaining_of_operations only
  have closed := closing.closed started
  -- Either way one connection has changed, and the set at most.
  have change : ∃ after : Connection env → Connection env, ∃ connections,
      (server.update id fun connection => connection.dequeue index).handleRead id completion date
          throws = { server.update id after with connections := connections } ∧
        (after (server.connection id)).remaining < (server.connection id).remaining ∧
        (after (server.connection id)).accepted = (server.connection id).accepted := by
    by_cases failed : completion.ec = .failure
    · have quiet : (server.update id fun connection => connection.dequeue index).closeThrows id
          throws = false := by
        rw [Server.closeThrows, Server.update_connection_self, Connection.dequeue, closed]
        exact Bool.and_false _
      refine ⟨fun connection => (connection.dequeue index).stop, server.connections.erase id,
        ?_, ?_, rfl⟩
      · rw [Server.handleRead_failed _ _ failed, Server.managerStop_closed _ _ quiet,
          Server.update_update]
        rfl
      · have stopped : ((server.connection id).dequeue index).stop.operations = [] := by
          change ((server.connection id).operations.eraseIdx index).map Operation.cancel = []
          rw [idle]
          rfl
        rw [Connection.remaining_of_idle stopped, before]
        exact Connection.remaining_pos
    · refine ⟨fun connection =>
          (connection.dequeue index).receive completion.bytesTransferred date,
        server.connections, ?_, ?_, ?_⟩
      · rw [Server.handleRead_received _ _ failed, Server.update_update]
        rfl
      · have dequeued : ((server.connection id).dequeue index).operations = [] := idle
        have stillClosed : ((server.connection id).dequeue index).isOpen = false := closed
        rw [Connection.remaining_receive stillClosed dequeued, before]
        simp only [Operation.remaining, if_neg failed]
        decide
      · exact Connection.receive_accepted _ _ _
  rcases change with ⟨after, connections, same, lower, accepted⟩
  have running : ((server.update id fun connection => connection.dequeue index).handleRead
      id completion date throws).status = .running := by
    rw [same]
    exact closing.running
  refine ⟨trivial, ?_, ?_, ?_, ?_, fun _ => ?_⟩
  · rw [same]
    exact Server.remaining_update_lt started lower
  · rw [same]
    exact Server.forall_update _ _ _ (fun other connection =>
      connection.accepted = (server.connection other).accepted) accepted fun _ _ => rfl
  · rw [running]
    decide
  · exact iff_of_true running fun impossible => impossible
  · refine ⟨running, sound_step _ _ _ (fun _ => closing.invariant) step running,
      shut_step _ _ _ closing.shut step, ?_, ?_⟩
    · rw [same]
      exact closing.handled
    · rw [same]
      exact closing.answered

/-- The handler of a write finds its connection destroyed. -/
theorem settles_handleWrite (closing : Closing server) {id index : Nat} {buffers : Buffers}
    {completion : Completion} {throws : Bool}
    (listed : (server.connection id).operations[index]? =
      some { kind := .writeSome buffers, completion := some completion }) :
    Settles server (.handleWrite id index throws)
      ((server.update id fun connection => connection.dequeue index).handleWrite
        id completion throws) := by
  have started := closing.invariant.started listed
  have only := ((closing.invariant.orderly id).listed listed).1
  have idle := eraseIdx_of_listed (closing.invariant.orderly id).single listed
  have lost : (server.update id fun connection => connection.dequeue index).handleWrite
      id completion throws =
        { server.update id fun connection => connection.dequeue index with
          status := .undefined } := by
    rw [Server.handleWrite, if_pos (closing.not_owned listed)]
  rw [lost]
  have lower : ((server.connection id).dequeue index).remaining <
      (server.connection id).remaining := by
    have dequeued : ((server.connection id).dequeue index).operations = [] := idle
    rw [Connection.remaining_of_idle dequeued, Connection.remaining_of_operations only]
    exact Connection.remaining_pos
  have fewer : (server.update id fun connection => connection.dequeue index).remaining <
      server.remaining := Server.remaining_update_lt started lower
  refine ⟨trivial, fewer, ?_, ?_, ?_, ?_⟩
  · exact server.forall_update id (fun connection => connection.dequeue index)
      (fun other connection => connection.accepted = (server.connection other).accepted) rfl
      fun _ _ => rfl
  · intro impossible
    cases impossible
  · refine iff_of_false ?_ fun harmless => harmless trivial
    intro impossible
    cases impossible
  · intro impossible
    cases impossible

/-- Only handlers are left, and each of them settles something. -/
theorem settles (closing : Closing server) {event : Event}
    (step : (Server.machine env).step server event = some next) : Settles server event next := by
  have pending : ∀ {id index : Nat} {kind : OperationKind},
      (server.connection id).operations[index]? ≠ some { kind := kind } :=
    fun listed => closing.completed listed rfl
  rcases moves_of_step step with ⟨_, moves⟩
  cases moves with
  | acceptDone listed => exact absurd rfl (closing.answered _ (List.mem_of_getElem? listed))
  | readDone listed _ => exact absurd listed pending
  | readFailed listed => exact absurd listed pending
  | writeDone listed _ _ => exact absurd listed pending
  | writeFailed listed => exact absurd listed pending
  | signalRaised waiting =>
      rw [closing.handled] at waiting
      cases waiting
  | hanldeAccept listed => exact closing.settles_hanldeAccept listed step
  | handleRead listed => exact closing.settles_handleRead listed step
  | handleWrite listed => exact closing.settles_handleWrite listed
  | hanldeStop raised _ _ =>
      rw [closing.handled] at raised
      cases raised

end Closing
/-! ## All handlers -/

variable {server next : Server env}

/-- Closing, or beyond it. -/
def Ending (server : Server env) : Prop := server.status = .running → Closing server

theorem settles_of_ending (ending : Ending server) {event : Event}
    (step : (Server.machine env).step server event = some next) : Settles server event next :=
  (ending (moves_of_step step).1).settles step

theorem ending_drains : (Server.machine env).Drains Ending (fun _ _ => True) Server.remaining where
  preserved := fun _ _ _ ending _ step => (settles_of_ending ending step).still
  lowers := fun _ _ _ ending _ step => (settles_of_ending ending step).fewer

/-- The handlers that run after the stop are no more than what is left. -/
structure WindsDown (server : Server env) (events : List Event) (final : Server env) : Prop where
  bounded : events.length + final.remaining ≤ server.remaining
  handlers : ∀ event ∈ events, event.IsHandler
  accepted : ∀ id, (final.connection id).accepted = (server.connection id).accepted
  unthrown : final.status ≠ .thrown
  defined_iff : final.status = .running ↔ ∀ event ∈ events, ¬ event.IsHandleWrite
  finished : final.status = .running →
    (∀ event, (Server.machine env).step final event = none) → final.Finished

/-- While something is outstanding, its handler can run. -/
theorem exists_step_of_not_finished (closing : Closing server) (left : ¬ server.Finished) :
    ∃ event, (Server.machine env).step server event ≠ none := by
  by_cases accepts : server.accepts = []
  · have busy : ∃ id, (server.connection id).operations ≠ [] := by
      by_contra idle
      exact left ⟨accepts, fun id => not_not.mp fun busy => idle ⟨id, busy⟩⟩
    rcases busy with ⟨id, busy⟩
    cases operations : (server.connection id).operations with
    | nil => exact absurd operations busy
    | cons operation rest =>
        have listed : (server.connection id).operations[0]? = some operation := by
          rw [operations]
          rfl
        rcases operation with ⟨kind, completion⟩
        cases completion with
        | none => exact absurd rfl (closing.completed listed)
        | some completion =>
            cases kind with
            | readSome =>
                refine ⟨.handleRead id 0 [] false, ?_⟩
                rw [Server.machine_step, if_pos closing.running]
                simp only [Server.react, listed]
                exact Option.some_ne_none _
            | writeSome buffers =>
                refine ⟨.handleWrite id 0 false, ?_⟩
                rw [Server.machine_step, if_pos closing.running]
                simp only [Server.react, listed]
                exact Option.some_ne_none _
  · cases shape : server.accepts with
    | nil => exact absurd shape accepts
    | cons accept rest =>
        have listed : server.accepts[0]? = some accept := by
          rw [shape]
          rfl
        rcases accept with ⟨target, completion⟩
        cases completion with
        | none => exact absurd rfl (closing.answered _ (List.mem_of_getElem? listed))
        | some ec =>
            refine ⟨.hanldeAccept 0 false, ?_⟩
            rw [Server.machine_step, if_pos closing.running]
            simp only [Server.react, listed]
            exact Option.some_ne_none _

/-- A loop that has been left runs no handler. -/
theorem run_of_not_running (ended : server.status ≠ .running) {events : List Event}
    {final : Server env} (steps : (Server.machine env).run server events = some final) :
    events = [] ∧ final = server := by
  cases events with
  | nil =>
      rw [System.run_nil, Option.some.injEq] at steps
      exact ⟨rfl, steps.symm⟩
  | cons event rest =>
      rcases ((Server.machine env).run_cons_eq_some).mp steps with ⟨next, moved, _⟩
      exact absurd (moves_of_step moved).1 ended

theorem windsDown_of_closing (closing : Closing server) {events : List Event}
    {final : Server env} (steps : (Server.machine env).run server events = some final) :
    WindsDown server events final := by
  have bounded := ending_drains.length_add_le (fun _ => closing)
    ((Server.machine env).meets_true server events) steps
  induction events generalizing server with
  | nil =>
      rw [System.run_nil, Option.some.injEq] at steps
      subst steps
      refine ⟨bounded, List.forall_mem_nil _, fun _ => rfl, ?_, ?_, fun _ stuck => ?_⟩
      · rw [closing.running]
        decide
      · exact iff_of_true closing.running (List.forall_mem_nil _)
      · by_contra left
        rcases exists_step_of_not_finished closing left with ⟨event, possible⟩
        exact possible (stuck event)
  | cons event rest inductionHypothesis =>
      rcases ((Server.machine env).run_cons_eq_some).mp steps with ⟨next, moved, arrived⟩
      have settles := closing.settles moved
      by_cases running : next.status = .running
      · have still := settles.still running
        have later := inductionHypothesis still arrived
          (ending_drains.length_add_le (fun _ => still)
            ((Server.machine env).meets_true next rest) arrived)
        refine ⟨bounded, List.forall_mem_cons.mpr ⟨settles.handler, later.handlers⟩,
          fun id => (later.accepted id).trans (settles.accepted id), later.unthrown, ?_,
          later.finished⟩
        rw [List.forall_mem_cons, later.defined_iff]
        exact ⟨fun rest => ⟨settles.defined_iff.mp running, rest⟩, fun all => all.2⟩
      · rcases run_of_not_running running arrived with ⟨none, same⟩
        subst none same
        refine ⟨bounded, List.forall_mem_singleton.mpr settles.handler, settles.accepted,
          settles.unthrown, ?_, fun still => absurd still running⟩
        rw [List.forall_mem_singleton]
        exact settles.defined_iff

/-- `hanlde_stop` has returned. -/
theorem closing_of_hanldeStop {order : List Nat} {acceptorThrows : Bool} {throws : Nat → Bool}
    (reached : (Server.machine env).Reachable server)
    (step : (Server.machine env).step server (.hanldeStop order acceptorThrows throws) = some next)
    (returned : next.status = .running) : Closing next := by
  have left : next.signalWait = .handled ∧ next.accepts = server.accepts.map Accept.cancel := by
    rcases moves_of_step step with ⟨_, moves⟩
    cases moves with
    | hanldeStop raised distinct listed =>
        rcases Server.hanldeStop_eq ({ server with signalWait := .handled } : Server env)
          acceptorThrows throws distinct listed with ⟨_, same⟩ | ⟨_, prior, _, same⟩
        · rw [same]
          exact ⟨rfl, rfl⟩
        · rw [same] at returned
          cases returned
  refine ⟨returned, sound_step _ _ _ (sound_of_reachable reached) step returned,
    shut_of_hanldeStop step returned, left.1, ?_⟩
  rw [left.2]
  intro accept member
  rcases List.mem_map.mp member with ⟨before, _, rfl⟩
  exact Option.some_ne_none _

/-- After `hanlde_stop` has returned, whatever is left runs to an end: only
handlers that are left then, and those that they lead to, none of which throws or
moves a byte.  The loop is left with nothing outstanding, unless the handler of a
write runs. -/
theorem windsDown_after_hanldeStop {order : List Nat} {acceptorThrows : Bool}
    {throws : Nat → Bool} (reached : (Server.machine env).Reachable server)
    (step : (Server.machine env).step server (.hanldeStop order acceptorThrows throws) = some next)
    (returned : next.status = .running) {events : List Event} {final : Server env}
    (steps : (Server.machine env).run next events = some final) :
    WindsDown next events final :=
  windsDown_of_closing (closing_of_hanldeStop reached step returned) steps

/-- The three handlers that are left of the two clients run, and then nothing is
outstanding. -/
theorem acceptedBeforeStop_windsDown : ∃ server next final : Server shortRequestEnv,
    (Server.machine shortRequestEnv).run (Server.machine shortRequestEnv).initial
        acceptedBeforeStop = some server ∧
      (Server.machine shortRequestEnv).step server (.hanldeStop [0] false fun _ => false) =
        some next ∧
      next.remaining = 3 ∧ (Server.machine shortRequestEnv).run next lateHandlers = some final ∧
      final.remaining = 0 ∧ WindsDown next lateHandlers final := by
  have outcome : ((Server.machine shortRequestEnv).run (Server.machine shortRequestEnv).initial
      acceptedBeforeStop).bind (fun server =>
        ((Server.machine shortRequestEnv).step server
          (.hanldeStop [0] false fun _ => false)).bind fun next =>
            ((Server.machine shortRequestEnv).run next lateHandlers).map fun final =>
              decide (next.status = .running ∧ next.remaining = 3 ∧ final.remaining = 0)) =
                some true := by decide +kernel
  rcases Option.bind_eq_some_iff.mp outcome with ⟨server, arrived, stopping⟩
  rcases Option.bind_eq_some_iff.mp stopping with ⟨next, step, later⟩
  rcases Option.map_eq_some_iff.mp later with ⟨final, steps, facts⟩
  rcases of_decide_eq_true facts with ⟨running, three, none⟩
  exact ⟨server, next, final, arrived, step, three, steps, none,
    windsDown_after_hanldeStop ⟨_, arrived⟩ step running steps⟩

end Http
end LearnAsio
