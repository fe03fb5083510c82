import LearnAsio.Http.Serve
import LearnAsio.Http.Transmission

namespace LearnAsio
namespace Http

open Transition

/-!
# What a stopped connection still does

`stop` closes the socket, which aborts the outstanding operation.  Its handler
still runs, and `handle_read` takes an aborted read for one that delivered no
bytes: it feeds the parser, and what it does next depends on the parser's
state.  A read that had already completed is handled as if nothing had happened.

A stopped connection is to be quiet for the rest of the run, so the property below
quantifies over the continuations of the state in which it has been stopped.
-/

variable {env : Env}

/-! ## Silence between two states -/

/-- Between two states of a connection it has neither fed its parser nor
changed the request or the response nor begun an operation. -/
def Silent (before after : Connection env) : Prop :=
  after.request = before.request ∧ after.response = before.response ∧
    ∃ later, after.log = before.log ++ later ∧
      ∀ action ∈ later, action = .stop ∨ action = .shutdown

namespace Silent

theorem refl (connection : Connection env) : Silent connection connection :=
  ⟨rfl, rfl, [], (List.append_nil _).symm, fun _ member => absurd member List.not_mem_nil⟩

theorem trans {first second third : Connection env} (left : Silent first second)
    (right : Silent second third) : Silent first third := by
  rcases left with ⟨request, response, earlier, logged, quiet⟩
  rcases right with ⟨request', response', later, logged', quiet'⟩
  refine ⟨request'.trans request, response'.trans response, earlier ++ later, ?_, ?_⟩
  · rw [logged', logged, List.append_assoc]
  · intro action member
    rcases List.mem_append.mp member with before | after
    · exact quiet action before
    · exact quiet' action after

/-- A silent connection stays stopped. -/
theorem stopped {before after : Connection env} (silent : Silent before after)
    (stopped : .stop ∈ before.log) : .stop ∈ after.log := by
  rcases silent with ⟨_, _, later, logged, _⟩
  rw [logged]
  exact List.mem_append_left later stopped

end Silent

/-- No read of the connection is outstanding, apart from one that has failed. -/
def Unread (connection : Connection env) : Prop :=
  ∀ operation ∈ connection.operations, operation.kind = .readSome →
    ∃ completion, operation.completion = some completion ∧ completion.ec = .failure

theorem unread_of_idle {connection : Connection env} (idle : connection.operations = []) :
    Unread connection := by
  intro operation outstanding
  rw [idle] at outstanding
  cases outstanding

/-- The read that an unread connection handles has failed. -/
theorem Unread.failed {connection : Connection env} (unread : Unread connection) {index : Nat}
    {completion : Completion} (listed : connection.operations[index]? =
      some { kind := .readSome, completion := some completion }) : completion.ec = .failure := by
  rcases unread _ (List.mem_of_getElem? listed) rfl with ⟨found, queued, failed⟩
  cases queued
  exact failed

/-- Aborting a read does not make it a failed one. -/
theorem unread_stop_iff {connection : Connection env} :
    Unread connection.stop ↔ Unread connection := by
  constructor
  · intro unread operation outstanding reads
    have cancelled : operation.cancel ∈ connection.stop.operations :=
      List.mem_map_of_mem outstanding
    rcases unread operation.cancel cancelled reads with ⟨completion, queued, failed⟩
    cases before : operation.completion with
    | none =>
        rw [Operation.cancel, before] at queued
        cases queued
        cases failed
    | some known =>
        rw [Operation.cancel, before] at queued
        cases queued
        exact ⟨known, rfl, failed⟩
  · intro unread operation outstanding reads
    rcases List.mem_map.mp outstanding with ⟨before, among, cancelled⟩
    rw [← cancelled, Operation.cancel_kind] at reads
    rcases unread before among reads with ⟨completion, queued, failed⟩
    refine ⟨completion, ?_, failed⟩
    rw [← cancelled, Operation.cancel, queued]
    rfl

/-! ## A stopped connection -/

/-- What an unread connection does in its own step if nothing of it is pending. -/
theorem Served.silent {connection after : Connection env} {held : Bool} {event : Event}
    {outcome : Outcome} (served : Served connection held event after outcome)
    (single : connection.operations.length ≤ 1) (unread : Unread connection)
    (settled : ∀ (index : Nat) kind, connection.operations[index]? ≠ some { kind := kind }) :
    Silent connection after ∧ Unread after := by
  cases served with
  | completed listed _ _ _ _ => exact absurd listed (settled _ _)
  | @halted _ index throws _ _ listed _ =>
      have idle : (connection.dequeue index).operations = [] := eraseIdx_of_listed single listed
      refine ⟨⟨rfl, rfl, [.stop], rfl, ?_⟩, unread_stop_iff.mpr (unread_of_idle idle)⟩
      exact fun action member => Or.inl (List.mem_singleton.mp member)
  | received listed unfailed => exact absurd (unread.failed listed) unfailed
  | @shutdown _ index _ _ _ listed =>
      have idle : (connection.dequeue index).operations = [] := eraseIdx_of_listed single listed
      refine ⟨⟨rfl, rfl, [.shutdown], rfl, ?_⟩, unread_of_idle idle⟩
      exact fun action member => Or.inr (List.mem_singleton.mp member)
  | @dropped _ index _ _ _ listed _ =>
      have idle : (connection.dequeue index).operations = [] := eraseIdx_of_listed single listed
      exact ⟨Silent.refl connection, unread_of_idle idle⟩

/-- One step of the server leaves a stopped and unread connection silent and
unread. -/
theorem silent_step {server next : Server env} {event : Event} {id : Nat} (sound : Sound server)
    (stopped : .stop ∈ (server.connection id).log) (unread : Unread (server.connection id))
    (step : (Server.machine env).step server event = some next) :
    Silent (server.connection id) (next.connection id) ∧ Unread (next.connection id) := by
  have invariant := sound (moves_of_step step).1
  have removed := (invariant.stopped id stopped).2
  have isStarted : id < server.newConnection := by
    by_contra late
    rw [(invariant.unstarted id (Nat.le_of_not_lt late)).2.1] at stopped
    cases stopped
  rcases connection_of_step sound step id with ⟨_, served⟩ | elsewhere
  · refine served.silent (invariant.orderly id).single unread fun index kind listed => ?_
    -- A pending operation belongs to a connection of the manager.
    exact removed (invariant.member_of_pending listed)
  · cases elsewhere with
    | kept same =>
        rw [same]
        exact ⟨Silent.refl _, unread⟩
    | stopped same =>
        rw [same]
        refine ⟨⟨rfl, rfl, [.stop], rfl, ?_⟩, unread_stop_iff.mpr unread⟩
        exact fun action member => Or.inl (List.mem_singleton.mp member)
    | created late _ => exact absurd isStarted (Nat.lt_asymm late)
    | accepted new _ => exact absurd new (Nat.ne_of_lt isStarted)
    | started new _ => exact absurd new (Nat.ne_of_lt isStarted)

/-- A stopped and unread connection is silent in every continuation. -/
theorem silent_run {server final : Server env} {events : List Event} {id : Nat}
    (sound : Sound server) (stopped : .stop ∈ (server.connection id).log)
    (unread : Unread (server.connection id))
    (steps : (Server.machine env).run server events = some final) :
    Silent (server.connection id) (final.connection id) := by
  have preserved : ∀ (state : Server env) event next,
      (Sound state ∧ Silent (server.connection id) (state.connection id) ∧
        Unread (state.connection id)) →
      (Server.machine env).step state event = some next →
      Sound next ∧ Silent (server.connection id) (next.connection id) ∧
        Unread (next.connection id) := by
    rintro state event next ⟨sound, silent, unread⟩ step
    have further := silent_step sound (silent.stopped stopped) unread step
    exact ⟨sound_step state event next sound step, silent.trans further.1, further.2⟩
  exact ((Server.machine env).run_induction preserved ⟨sound, Silent.refl _, unread⟩ steps).2.1

/-! ## Silence in every continuation -/

/-- Every stopped connection stays silent, however the run goes on.  A run may go on
into undefined behaviour: a connection that is stopped with a write outstanding is
destroyed, and `handle_write` then runs on an object that is gone.  The run ends there
with the connection as it was, which counts as silent here; that the object is kept is
the subject of `Http.Ownership`. -/
def Muted (server : Server env) : Prop :=
  server.status = .running → ∀ id, .stop ∈ (server.connection id).log →
    ∀ events final, (Server.machine env).run server events = some final →
      Silent (server.connection id) (final.connection id)

/-- No stopped connection has a read outstanding, apart from failed ones. -/
def Calm (server : Server env) : Prop :=
  server.status = .running → ∀ id, .stop ∈ (server.connection id).log →
    Unread (server.connection id)

/-- The steps that stop no connection with a read outstanding, unless that read
has already failed. -/
def StopsUnread (server : Server env) : Event → Prop
  | .hanldeStop _ acceptorThrows throws => server.StopsQuietly acceptorThrows throws →
      ∀ id ∈ server.connections, Unread (server.connection id)
  | _ => True

/-- A read that has not failed is handled by feeding the parser. -/
theorem not_silent_of_read {server : Server env} (running : server.status = .running) {id : Nat}
    {index : Nat} {completion : Completion}
    (listed : (server.connection id).operations[index]? =
      some { kind := .readSome, completion := some completion })
    (unfailed : completion.ec ≠ .failure) :
    ∃ final, (Server.machine env).run server [.handleRead id index [] false] = some final ∧
      ¬ Silent (server.connection id) (final.connection id) := by
  have step : (Server.machine env).step server (.handleRead id index [] false) =
      some ((server.update id fun connection => connection.dequeue index).handleRead
        id completion [] false) := by
    rw [Server.machine_step, if_pos running]
    simp only [Server.react, listed]
  refine ⟨_, (Server.machine env).run_cons_eq_some.mpr ⟨_, step, rfl⟩, ?_⟩
  rw [Server.handleRead_received _ _ unfailed, Server.update_update,
    Server.update_connection_self]
  rintro ⟨_, _, later, logged, quiet⟩
  rcases ((server.connection id).dequeue index).receive_log completion.bytesTransferred [] with
    ⟨further, received⟩
  rw [received] at logged
  have first := List.append_cancel_left logged
  rcases quiet _ (first ▸ List.mem_cons_self) with impossible | impossible
  · cases impossible
  · cases impossible

/-- Being mute is having no read outstanding. -/
theorem muted_iff_calm {server : Server env} (sound : Sound server) :
    Muted server ↔ Calm server := by
  constructor
  · intro muted running id stopped operation outstanding reads
    have closed := ((sound running).stopped id stopped).1
    have awaits := (((sound running).orderly id).member outstanding).2
    rcases List.mem_iff_getElem?.mp outstanding with ⟨index, listed⟩
    rcases operation with ⟨kind, queued⟩
    have reads : kind = .readSome := reads
    subst reads
    cases queued with
    | none =>
        rw [awaits.1 rfl] at closed
        cases closed
    | some completion =>
        refine ⟨completion, rfl, ?_⟩
        by_contra unfailed
        rcases not_silent_of_read running listed unfailed with ⟨final, steps, noisy⟩
        exact noisy (muted running id stopped _ final steps)
  · intro calm running id stopped events final steps
    exact silent_run sound stopped (calm running id stopped) steps

/-! ## The steps that stop a connection -/

theorem dequeueAccept_log (server : Server env) (index target : Nat) (ec : ErrorCode) (id : Nat) :
    ((server.dequeueAccept index target ec).connection id).log = (server.connection id).log := by
  by_cases same : id = target
  · subst same
    by_cases success : ec = .success
    · rw [server.dequeueAccept_connection_self index id ec success]
      rfl
    · rw [Server.dequeueAccept, if_neg success]
  · rw [server.dequeueAccept_connection_of_ne index target ec same]

theorem stopped_before_startAccept {server : Server env} {id : Nat}
    (stopped : .stop ∈ (server.startAccept.connection id).log) :
    .stop ∈ (server.connection id).log := by
  by_cases same : id = server.newConnection + 1
  · rw [same, server.startAccept_connection_self] at stopped
    cases stopped
  · rw [server.startAccept_connection_of_ne same] at stopped
    exact stopped

theorem stopped_before_managerStart {server : Server env} {id started : Nat}
    (stopped : .stop ∈ ((server.managerStart started).connection id).log) :
    .stop ∈ (server.connection id).log := by
  by_cases same : id = started
  · subst same
    rw [server.managerStart_connection_self] at stopped
    rcases List.mem_append.mp stopped with before | new
    · exact before
    · cases List.mem_singleton.mp new
  · rw [server.managerStart_connection_of_ne started same] at stopped
    exact stopped

/-- In its own step a connection is stopped only with its last operation. -/
theorem Served.stopped_before {connection after : Connection env} {held : Bool} {event : Event}
    {outcome : Outcome} (served : Served connection held event after outcome)
    (single : connection.operations.length ≤ 1) (stopped : .stop ∈ after.log) :
    .stop ∈ connection.log ∨ Unread after := by
  cases served with
  | completed _ _ _ _ log => exact Or.inl (log ▸ stopped)
  | @halted _ index _ _ _ listed _ =>
      have idle : (connection.dequeue index).operations = [] := eraseIdx_of_listed single listed
      exact Or.inr (unread_stop_iff.mpr (unread_of_idle idle))
  | @received _ index _ _ _ _ _ =>
      exact Or.inl (((connection.dequeue index).stop_mem_receive_log _ _).mp stopped)
  | shutdown _ =>
      rcases List.mem_append.mp stopped with before | new
      · exact Or.inl before
      · cases List.mem_singleton.mp new
  | dropped _ _ => exact Or.inl stopped

/-- Outside a shutdown, a connection is stopped only after its last operation
has been handled. -/
theorem stopped_before {server next : Server env} {event : Event} (invariant : Invariant server)
    (step : (Server.machine env).step server event = some next)
    (notShutdown : ∀ order acceptorThrows throws,
      event ≠ .hanldeStop order acceptorThrows throws) {id : Nat}
    (stopped : .stop ∈ (next.connection id).log) :
    .stop ∈ (server.connection id).log ∨ Unread (next.connection id) := by
  rcases step_cases step with ⟨other, ⟨after, outcome⟩, _, served, rfl⟩ | shared
  · by_cases same : id = other
    · subst same
      rw [Server.install_connection_self] at stopped ⊢
      exact (served_of_serve served).stopped_before (invariant.orderly id).single stopped
    · rw [Server.install_connection_of_ne _ same] at stopped
      exact Or.inl stopped
  · cases shared with
    | acceptDone _ _ => exact Or.inl stopped
    | signalRaised => exact Or.inl stopped
    | @hanldeAccept index target ec endpointThrows listed =>
        refine Or.inl ?_
        have dequeued : .stop ∈ ((server.dequeueAccept index target ec).connection id).log →
            .stop ∈ (server.connection id).log := by
          rw [dequeueAccept_log]
          exact fun logged => logged
        rcases (server.dequeueAccept index target ec).hanldeAccept_cases ec endpointThrows with
          ⟨_, same⟩ | ⟨_, same⟩ | ⟨_, same⟩ | ⟨_, same⟩
        · rw [same] at stopped
          exact dequeued stopped
        · rw [same] at stopped
          exact dequeued (stopped_before_startAccept stopped)
        · rw [same] at stopped
          exact dequeued stopped
        · rw [same] at stopped
          exact dequeued (stopped_before_managerStart (stopped_before_startAccept stopped))
    | hanldeStop _ _ _ _ _ => exact absurd rfl (notShutdown _ _ _)

/-- One step leaves every stopped connection unread exactly when it stops none
that has a read outstanding. -/
theorem calm_step {server next : Server env} {event : Event} (sound : Sound server)
    (calm : Calm server) (step : (Server.machine env).step server event = some next) :
    Calm next ↔ StopsUnread server event := by
  rcases moves_of_step step with ⟨running, moved⟩
  have invariant := sound running
  have otherwise : (∀ order acceptorThrows throws,
      event ≠ .hanldeStop order acceptorThrows throws) → Calm next := by
    intro notShutdown _ id stopped
    rcases stopped_before invariant step notShutdown stopped with before | unread
    · exact (silent_step sound before (calm running id before) step).2
    · exact unread
  cases event with
  | hanldeStop order acceptorThrows throws =>
      cases moved with
      | hanldeStop raised distinct listed =>
          have same : ∀ id, id ∈ order ↔ id ∈ server.connections := by
            intro id
            rw [← listed, List.mem_toFinset]
          rcases Server.hanldeStop_eq { server with signalWait := .handled } acceptorThrows throws
            distinct listed with ⟨quiet, stopped⟩ | ⟨loud, prior, _, stopped⟩
          · rw [stopped]
            constructor
            · intro after _ id member
              have here := Server.stopEach_of_mem
                ({ server with signalWait := .handled } : Server env) id ((same id).mpr member)
              have unread := after running id (by
                dsimp only
                rw [here]
                exact List.mem_append_right _ (List.mem_singleton_self _))
              dsimp only at unread
              rw [here, unread_stop_iff] at unread
              exact unread
            · intro holds _ id logged
              dsimp only at logged ⊢
              by_cases member : id ∈ order
              · rw [Server.stopEach_of_mem _ _ member, unread_stop_iff]
                exact holds quiet id ((same id).mp member)
              · rw [Server.stopEach_of_notMem _ _ member] at logged ⊢
                exact calm running id logged
          · rw [stopped]
            refine ⟨fun _ quiet => absurd quiet loud, fun _ impossible => ?_⟩
            cases impossible
  | _ => exact ⟨fun _ => trivial, fun _ => otherwise (by intro _ _ _ same; cases same)⟩

theorem muted_step (server : Server env) (event : Event) (next : Server env)
    (sound : Sound server) (muted : Muted server)
    (step : (Server.machine env).step server event = some next) :
    Muted next ↔ StopsUnread server event := by
  rw [muted_iff_calm (sound_step server event next sound step)]
  exact calm_step sound ((muted_iff_calm sound).mp muted) step

theorem muted_initial : Muted (Server.machine env).initial := by
  rw [muted_iff_calm sound_initial]
  intro _ id stopped
  cases stopped

/-- In every state of a run, the connections stopped so far stay silent in every
continuation, exactly when no step of the run stops a connection that still has
a read to handle. -/
theorem muted_along_run {events : List Event} {final : Server env}
    (steps : (Server.machine env).run (Server.machine env).initial events = some final) :
    (Server.machine env).Always Muted (Server.machine env).initial events ↔
      (Server.machine env).Meets StopsUnread (Server.machine env).initial events :=
  (Server.machine env).always_iff_meets sound_step muted_step sound_initial muted_initial steps

/-! ### A shutdown before the first byte -/

/-- One client has connected and sent nothing when the signal arrives. -/
def stoppedBeforeRequest : List Event :=
  [.acceptDone 0 .success, .hanldeAccept 0 false, .signalRaised,
    .hanldeStop [0] false (fun _ => false)]

theorem stoppedBeforeRequest_noisy : ∃ server : Server shortRequestEnv,
    (Server.machine shortRequestEnv).run (Server.machine shortRequestEnv).initial
      stoppedBeforeRequest = some server ∧ ¬ Muted server := by
  have outcome : ((Server.machine shortRequestEnv).run (Server.machine shortRequestEnv).initial
      (stoppedBeforeRequest ++ [.handleRead 0 0 [] false])).map (fun final =>
        decide ((final.connection 0).log =
          [.asyncReadSome, .stop, .parse [], .asyncReadSome])) = some true := by decide +kernel
  have atStop : ((Server.machine shortRequestEnv).run (Server.machine shortRequestEnv).initial
      stoppedBeforeRequest).map (fun server => decide (server.status = .running ∧
        (server.connection 0).log = [.asyncReadSome, .stop])) = some true := by decide +kernel
  rcases Option.map_eq_some_iff.mp outcome with ⟨final, steps, logged⟩
  rcases (Server.machine shortRequestEnv).run_concat_eq_some.mp steps with ⟨server, arrived, step⟩
  rw [arrived, Option.map_some, Option.some.injEq] at atStop
  rcases of_decide_eq_true atStop with ⟨running, before⟩
  have logged := of_decide_eq_true logged
  refine ⟨server, arrived, fun muted => ?_⟩
  rcases muted running 0 (before ▸ List.mem_cons_of_mem _ List.mem_cons_self)
    [.handleRead 0 0 [] false] final
    ((Server.machine shortRequestEnv).run_cons_eq_some.mpr ⟨final, step, rfl⟩) with
    ⟨_, _, later, further, quiet⟩
  rw [before, logged] at further
  have added : [.parse [], .asyncReadSome] = later :=
    (List.append_right_inj [Action.asyncReadSome, .stop]).mp further
  rcases quiet (.parse []) (added ▸ List.mem_cons_self) with impossible | impossible
  · cases impossible
  · cases impossible

/-- The aborted read feeds the parser and reads again. -/
theorem stoppedBeforeRequest_not_muted : ∃ server : Server shortRequestEnv,
    (Server.machine shortRequestEnv).Reachable server ∧ ¬ Muted server := by
  rcases stoppedBeforeRequest_noisy with ⟨server, steps, noisy⟩
  exact ⟨server, ⟨stoppedBeforeRequest, steps⟩, noisy⟩

/-- The shutdown is the step that does not meet the condition. -/
theorem stoppedBeforeRequest_not_meets : ¬ (Server.machine shortRequestEnv).Meets StopsUnread
    (Server.machine shortRequestEnv).initial stoppedBeforeRequest := by
  rcases stoppedBeforeRequest_noisy with ⟨server, steps, noisy⟩
  intro meets
  exact noisy (((muted_along_run steps).mpr meets).last _ steps)

end Http
end LearnAsio
