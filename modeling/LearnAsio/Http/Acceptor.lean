import LearnAsio.Http.Ownership
import LearnAsio.Http.Serve

namespace LearnAsio
namespace Http

open Transition

/-!
# The accept chain and its end

`hanlde_accept` arms the acceptor again on every way it returns, for a new
connection each time.  There is one way on which it does not return: the peer
may be gone before its accept is handled, and then asking for its address
throws.  Nothing between the handler and `main` catches that.

After `hanlde_stop` the acceptor is closed and the chain ends.  What is still
queued then can no longer bring a connection into the manager's set.
-/

variable {env : Env}

/-! ## What the acceptor is waiting for -/

/-- The part of the server that accepts clients. -/
structure Accepting where
  acceptorOpen : Bool
  accepts : List Accept
  newConnection : Nat

namespace Server

variable (server : Server env) (id : Nat)

def accepting : Accepting where
  acceptorOpen := server.acceptorOpen
  accepts := server.accepts
  newConnection := server.newConnection

/-- What a handler does to its connection accepts nobody and only takes away. -/
theorem install_accepting (result : Connection env × Outcome) :
    (server.install id result).accepting = server.accepting ∧
      (server.install id result).connections ⊆ server.connections := by
  rcases server.install_frame id result with ⟨accepts, newConnection, acceptorOpen, _⟩
  constructor
  · rw [accepting, accepting, accepts, newConnection, acceptorOpen]
  · exact fun other member => ((server.mem_install_iff id result other).mp member).1

end Server

/-- The event concerns one connection, or raises the signal. -/
def Event.Serves : Event → Prop
  | .acceptDone _ _ | .hanldeAccept _ _ | .hanldeStop _ _ _ => False
  | _ => True

/-- Serving the connections accepts nobody and brings none into the set. -/
theorem serves_frame {server next : Server env} {event : Event} (serves : event.Serves)
    (step : (Server.machine env).step server event = some next) :
    next.accepting = server.accepting ∧ next.connections ⊆ server.connections := by
  rcases step_cases step with ⟨id, result, _, _, rfl⟩ | shared
  · exact server.install_accepting id result
  · cases shared with
    | signalRaised => exact ⟨rfl, Finset.Subset.refl _⟩
    | acceptDone _ _ => exact serves.elim
    | hanldeAccept _ => exact serves.elim
    | hanldeStop _ _ _ _ _ => exact serves.elim

/-- Any other step is about the acceptor. -/
theorem shared_of_not_serves {server next : Server env} {event : Event} (other : ¬ event.Serves)
    (step : (Server.machine env).step server event = some next) : Shared server event next := by
  rcases step_cases step with ⟨_, _, concerned, _, _⟩ | shared
  · cases event with
    | acceptDone _ _ => cases concerned
    | hanldeAccept _ _ => cases concerned
    | hanldeStop _ _ _ => cases concerned
    | _ => exact absurd trivial other
  · exact shared

/-! ## The chain -/

/-- One accept is outstanding, for `new_connection_`, which the manager does not
know and which has never been started. -/
structure AcceptChain (server : Server env) : Prop where
  one : ∃ completion,
    server.accepts = [{ target := server.newConnection, completion := completion }]
  unmanaged : server.newConnection ∉ server.connections
  unstarted : (server.connection server.newConnection).operations = [] ∧
    (server.connection server.newConnection).log = []

/-- The chain holds between two handlers as long as the acceptor is open. -/
def Chained (server : Server env) : Prop :=
  server.status = .running → server.acceptorOpen = true → AcceptChain server

/-- Some accept is outstanding. -/
def Armed (server : Server env) : Prop :=
  server.status = .running → server.acceptorOpen = true → server.accepts ≠ []

/-- What the chain adds to the invariant of the server. -/
theorem chained_of_armed {server : Server env} (sound : Sound server) (armed : Armed server) :
    Chained server := by
  intro running isOpen
  have invariant := sound running
  have fresh := invariant.unstarted server.newConnection (Nat.le_refl _)
  refine ⟨?_, ?_, fresh.1, fresh.2.1⟩
  · cases outstanding : server.accepts with
    | nil => exact absurd outstanding (armed running isOpen)
    | cons accept rest =>
        have member : accept ∈ server.accepts := outstanding ▸ List.mem_cons_self
        have alone := invariant.oneAccept
        rw [outstanding, List.length_cons] at alone
        have none : rest = [] := List.eq_nil_of_length_eq_zero (by omega)
        refine ⟨accept.completion, ?_⟩
        rw [none, ← invariant.target accept member]
  · intro member
    exact Nat.lt_irrefl _ (invariant.members _ member)

theorem armed_step {server next : Server env} {event : Event} (armed : Armed server)
    (step : (Server.machine env).step server event = some next) : Armed next := by
  have running := (moves_of_step step).1
  by_cases serves : event.Serves
  · have same := (serves_frame serves step).1
    intro _ isOpen
    have sameOpen : next.acceptorOpen = server.acceptorOpen := congrArg Accepting.acceptorOpen same
    have sameAccepts : next.accepts = server.accepts := congrArg Accepting.accepts same
    rw [sameAccepts]
    exact armed running (sameOpen ▸ isOpen)
  · cases shared_of_not_serves serves step with
    | acceptDone listed _ =>
        intro _ _ none
        dsimp only at none
        rw [List.set_eq_nil_iff] at none
        rw [none] at listed
        cases listed
    | signalRaised => exact absurd trivial serves
    | @hanldeAccept index target ec endpointThrows listed =>
        intro stillRunning isOpen
        rcases (server.dequeueAccept index target ec).hanldeAccept_cases ec endpointThrows with
          ⟨closed, same⟩ | ⟨_, same⟩ | ⟨_, same⟩ | ⟨_, same⟩
        · rw [same, closed] at isOpen
          cases isOpen
        · rw [same]
          exact List.append_ne_nil_of_right_ne_nil _ (List.cons_ne_nil _ _)
        · rw [same] at stillRunning
          cases stillRunning
        · rw [same]
          exact List.append_ne_nil_of_right_ne_nil _ (List.cons_ne_nil _ _)
    | hanldeStop _ _ closed _ _ =>
        intro _ isOpen
        rw [closed] at isOpen
        cases isOpen

/-! ## Runs -/

/-- The handler of an accept does not let an exception out. -/
def AcceptReturns (server : Server env) : Event → Prop
  | .hanldeAccept index endpointThrows => ∀ next,
      (Server.machine env).step server (.hanldeAccept index endpointThrows) = some next →
        next.status ≠ .thrown
  | _ => True

/-- Where the handler asks for the peer's address, the peer is still there. -/
def PeerPresent (server : Server env) : Event → Prop
  | .hanldeAccept index endpointThrows =>
      endpointThrows = true → server.acceptorOpen = true →
        ∀ target ec, server.accepts[index]? = some { target := target, completion := some ec } →
          ec ≠ .success
  | _ => True

namespace Server

/-- `hanlde_accept` throws exactly if it asks a peer that is gone for its
address. -/
theorem hanldeAccept_thrown_iff {server : Server env} (running : server.status = .running)
    (ec : ErrorCode) (endpointThrows : Bool) :
    (server.hanldeAccept ec endpointThrows).status = .thrown ↔
      endpointThrows = true ∧ server.acceptorOpen = true ∧ ec = .success := by
  have calm : server.status ≠ .thrown := by
    rw [running]
    intro impossible
    cases impossible
  unfold hanldeAccept
  cases server.acceptorOpen with
  | false =>
      exact ⟨fun thrown => absurd thrown calm, fun gone => absurd gone.2.1 Bool.false_ne_true⟩
  | true =>
      by_cases success : ec = .success
      · subst success
        cases endpointThrows with
        | false =>
            exact ⟨fun thrown => absurd thrown calm, fun gone => absurd gone.1 Bool.false_ne_true⟩
        | true => exact ⟨fun _ => ⟨rfl, rfl, rfl⟩, fun _ => rfl⟩
      · rw [Bool.not_true, if_neg Bool.false_ne_true, if_pos success]
        exact ⟨fun thrown => absurd thrown calm, fun gone => absurd gone.2.2 success⟩

end Server

theorem acceptReturns_iff {server next : Server env} {event : Event}
    (step : (Server.machine env).step server event = some next) :
    AcceptReturns server event ↔ PeerPresent server event := by
  cases event with
  | hanldeAccept index endpointThrows =>
      rcases moves_of_step step with ⟨running, moved⟩
      cases moved with
      | @hanldeAccept _ target ec _ listed =>
          have stillRunning : (server.dequeueAccept index target ec).status = .running :=
            (server.dequeueAccept_status index target ec).trans running
          have thrown_iff := Server.hanldeAccept_thrown_iff stillRunning ec endpointThrows
          rw [Server.dequeueAccept_acceptorOpen] at thrown_iff
          constructor
          · intro returns throws isOpen other result found success
            rw [listed] at found
            cases found
            exact returns _ step (thrown_iff.mpr ⟨throws, isOpen, success⟩)
          · intro present other same thrown
            rw [step] at same
            cases same
            rcases thrown_iff.mp thrown with ⟨throws, isOpen, success⟩
            exact present throws isOpen target ec listed success
  | _ => exact Iff.rfl

/-- The chain holds throughout every run. -/
theorem always_chained (events : List Event) :
    (Server.machine env).Always Chained (Server.machine env).initial events := by
  have preserved : ∀ (server : Server env) event next, Sound server ∧ Armed server →
      (Server.machine env).step server event = some next → Sound next ∧ Armed next := by
    rintro server event next ⟨sound, armed⟩ step
    exact ⟨sound_step server event next sound step, armed_step armed step⟩
  have start : Armed (Server.machine env).initial :=
    fun _ _ => List.cons_ne_nil _ _
  have always := (Server.machine env).always_of_preserved preserved ⟨sound_initial, start⟩ events
  exact always.imp _ fun _ both => chained_of_armed both.1 both.2

/-- Between two handlers of a run exactly one accept is outstanding as long as the
acceptor is open, and no accept handler of the run throws, exactly if none of
them finds its peer gone. -/
theorem acceptChain_along_run {events : List Event} {final : Server env}
    (steps : (Server.machine env).run (Server.machine env).initial events = some final) :
    ((Server.machine env).Always Chained (Server.machine env).initial events ∧
        (Server.machine env).Meets AcceptReturns (Server.machine env).initial events) ↔
      (Server.machine env).Meets PeerPresent (Server.machine env).initial events := by
  have same := (Server.machine env).meets_congr (fun _ _ _ trivially _ => trivially)
    (fun _ _ _ (_ : True) step => acceptReturns_iff step) trivial steps
  exact ⟨fun both => same.mp both.2, fun present => ⟨always_chained events, same.mpr present⟩⟩

/-! ### A peer that is gone -/

/-- A client connects and resets the connection before its accept is handled. -/
def resetBeforeAccept : List Event :=
  [.acceptDone 0 .success, .hanldeAccept 0 true]

private theorem resetBeforeAccept_outcome :
    ∃ server next : Server shortRequestEnv,
      (Server.machine shortRequestEnv).run (Server.machine shortRequestEnv).initial
        [.acceptDone 0 .success] = some server ∧
      (Server.machine shortRequestEnv).step server (.hanldeAccept 0 true) = some next ∧
      next.status = .thrown ∧ next.accepts = [] := by
  have outcome : ((Server.machine shortRequestEnv).run (Server.machine shortRequestEnv).initial
      [.acceptDone 0 .success]).bind (fun server =>
        ((Server.machine shortRequestEnv).step server (.hanldeAccept 0 true)).map fun next =>
          decide (next.status = .thrown ∧ next.accepts = [])) = some true := by decide +kernel
  rcases Option.bind_eq_some_iff.mp outcome with ⟨server, arrived, handled⟩
  rcases Option.map_eq_some_iff.mp handled with ⟨next, step, facts⟩
  exact ⟨server, next, arrived, step, of_decide_eq_true facts⟩

/-- The handler of that accept throws, and no accept is outstanding any more. -/
theorem resetBeforeAccept_throws : ∃ server next : Server shortRequestEnv,
    (Server.machine shortRequestEnv).Reachable server ∧
      (Server.machine shortRequestEnv).step server (.hanldeAccept 0 true) = some next ∧
      next.status = .thrown ∧ next.accepts = [] := by
  rcases resetBeforeAccept_outcome with ⟨server, next, arrived, step, facts⟩
  exact ⟨server, next, ⟨_, arrived⟩, step, facts⟩

/-- Handling that accept is the step that does not meet the condition. -/
theorem resetBeforeAccept_not_meets :
    ¬ (Server.machine shortRequestEnv).Meets PeerPresent
      (Server.machine shortRequestEnv).initial resetBeforeAccept := by
  rcases resetBeforeAccept_outcome with ⟨server, next, arrived, step, thrown, _⟩
  have steps : (Server.machine shortRequestEnv).run (Server.machine shortRequestEnv).initial
      resetBeforeAccept = some next :=
    (Server.machine shortRequestEnv).run_concat_eq_some.mpr ⟨server, arrived, step⟩
  intro present
  have returns := ((acceptChain_along_run steps).mpr present).2
  rcases (Server.machine shortRequestEnv).run_cons_eq_some.mp arrived with ⟨first, moved, same⟩
  rw [System.run_nil, Option.some.injEq] at same
  subst same
  exact (returns.2 first moved).1 next step thrown

/-! ## After the shutdown -/

/-- `hanlde_accept` reaches `start_accept`. -/
def StartsAccept (server : Server env) (event : Event) : Prop :=
  ∃ index endpointThrows target ec, event = .hanldeAccept index endpointThrows ∧
    server.accepts[index]? = some { target := target, completion := some ec } ∧
    server.acceptorOpen = true ∧ (ec = .success → endpointThrows = false)

/-- `hanlde_accept` reaches `connection_manager::start`. -/
def StartsConnection (server : Server env) (event : Event) : Prop :=
  ∃ index target, event = .hanldeAccept index false ∧
    server.accepts[index]? = some { target := target, completion := some .success } ∧
    server.acceptorOpen = true

namespace Server

/-- `start_accept` is called on the ways that return with the acceptor open. -/
theorem hanldeAccept_newConnection (server : Server env) (ec : ErrorCode) (endpointThrows : Bool) :
    (server.hanldeAccept ec endpointThrows).newConnection ≠ server.newConnection ↔
      server.acceptorOpen = true ∧ (ec = .success → endpointThrows = false) := by
  have next : server.newConnection + 1 ≠ server.newConnection := Nat.succ_ne_self _
  unfold hanldeAccept
  cases server.acceptorOpen with
  | false =>
      exact ⟨fun changed => absurd rfl changed, fun ready => absurd ready.1 Bool.false_ne_true⟩
  | true =>
      by_cases success : ec = .success
      · subst success
        cases endpointThrows with
        | false => exact ⟨fun _ => ⟨rfl, fun _ => rfl⟩, fun _ => next⟩
        | true => exact ⟨fun changed => absurd rfl changed, fun ready => nomatch ready.2 rfl⟩
      · rw [Bool.not_true, if_neg Bool.false_ne_true, if_pos success]
        exact ⟨fun _ => ⟨rfl, fun worked => absurd worked success⟩, fun _ => next⟩

/-- The manager gets a connection on one of these ways only. -/
theorem hanldeAccept_connections (server : Server env) (ec : ErrorCode) (endpointThrows : Bool) :
    (server.hanldeAccept ec endpointThrows).connections =
      if server.acceptorOpen = true ∧ ec = .success ∧ endpointThrows = false then
        insert server.newConnection server.connections
      else server.connections := by
  unfold hanldeAccept
  cases server.acceptorOpen with
  | false => rfl
  | true =>
      by_cases success : ec = .success
      · subst success
        cases endpointThrows with
        | false => rfl
        | true => rfl
      · rw [Bool.not_true, if_neg Bool.false_ne_true, if_pos success,
          if_neg fun ready => success ready.2.1]
        rfl

end Server

/-- Only `hanlde_accept` does either. -/
theorem frame_of_not_hanldeAccept {server next : Server env} {event : Event}
    (step : (Server.machine env).step server event = some next)
    (other : ∀ index endpointThrows, event ≠ .hanldeAccept index endpointThrows) :
    next.newConnection = server.newConnection ∧ next.connections ⊆ server.connections := by
  by_cases serves : event.Serves
  · have frame := serves_frame serves step
    exact ⟨congrArg Accepting.newConnection frame.1, frame.2⟩
  · cases shared_of_not_serves serves step with
    | acceptDone _ _ => exact ⟨rfl, Finset.Subset.refl _⟩
    | signalRaised => exact ⟨rfl, Finset.Subset.refl _⟩
    | hanldeAccept _ => exact absurd rfl (other _ _)
    | hanldeStop _ _ _ sameNew ends =>
        refine ⟨sameNew, ?_⟩
        rcases ends with empty | ⟨_, same⟩
        · exact empty ▸ Finset.empty_subset _
        · exact same ▸ Finset.Subset.refl _

/-- The event starts an accept exactly if `new_connection_` has been replaced
after it. -/
theorem startsAccept_iff {server next : Server env} {event : Event}
    (step : (Server.machine env).step server event = some next) :
    StartsAccept server event ↔ next.newConnection ≠ server.newConnection := by
  have moved := (moves_of_step step).2
  constructor
  · rintro ⟨index, endpointThrows, target, ec, rfl, listed, isOpen, answered⟩
    cases moved with
    | @hanldeAccept _ other result _ found =>
        rw [listed] at found
        cases found
        rw [← Server.dequeueAccept_newConnection server index target ec]
        apply (Server.hanldeAccept_newConnection _ _ _).mpr
        exact ⟨(server.dequeueAccept_acceptorOpen index target ec).trans isOpen, answered⟩
  · intro changed
    by_contra starts
    refine changed ?_
    by_cases accepts : ∃ index endpointThrows, event = .hanldeAccept index endpointThrows
    · rcases accepts with ⟨index, endpointThrows, rfl⟩
      cases moved with
      | @hanldeAccept _ target ec _ listed =>
          have kept := (Server.hanldeAccept_newConnection
            (server.dequeueAccept index target ec) ec endpointThrows).not.mpr
          rw [Server.dequeueAccept_acceptorOpen, Server.dequeueAccept_newConnection] at kept
          refine not_not.mp (kept fun ready => starts ?_)
          exact ⟨index, endpointThrows, target, ec, rfl, listed, ready⟩
    · refine (frame_of_not_hanldeAccept step fun index endpointThrows same => ?_).1
      exact accepts ⟨index, endpointThrows, same⟩

/-- The event starts a connection exactly if there is a new one in the set after
it. -/
theorem startsConnection_iff {server next : Server env} {event : Event}
    (unmanaged : server.newConnection ∉ server.connections)
    (step : (Server.machine env).step server event = some next) :
    StartsConnection server event ↔ ¬ next.connections ⊆ server.connections := by
  have moved := (moves_of_step step).2
  have connections : ∀ {index target ec endpointThrows},
      ((server.dequeueAccept index target ec).hanldeAccept ec endpointThrows).connections =
        if server.acceptorOpen = true ∧ ec = .success ∧ endpointThrows = false then
          insert server.newConnection server.connections
        else server.connections := by
    intro index target ec endpointThrows
    rw [Server.hanldeAccept_connections, Server.dequeueAccept_acceptorOpen,
      Server.dequeueAccept_newConnection, Server.dequeueAccept_connections]
  constructor
  · rintro ⟨index, target, rfl, listed, isOpen⟩ smaller
    cases moved with
    | @hanldeAccept _ other result _ found =>
        rw [listed] at found
        cases found
        rw [connections, if_pos ⟨isOpen, rfl, rfl⟩] at smaller
        exact unmanaged (smaller (Finset.mem_insert_self _ _))
  · intro grown
    by_contra starts
    refine grown ?_
    by_cases accepts : ∃ index endpointThrows, event = .hanldeAccept index endpointThrows
    · rcases accepts with ⟨index, endpointThrows, rfl⟩
      cases moved with
      | @hanldeAccept _ target ec _ listed =>
          rw [connections, if_neg]
          rintro ⟨isOpen, rfl, rfl⟩
          exact starts ⟨index, target, rfl, listed, isOpen⟩
    · refine (frame_of_not_hanldeAccept step fun index endpointThrows same => ?_).2
      exact accepts ⟨index, endpointThrows, same⟩

/-- No client can be accepted any more, and no connection is kept. -/
def Shut (server : Server env) : Prop :=
  server.acceptorOpen = false ∧ server.connections = ∅

/-- What `hanlde_stop` leaves behind when it returns. -/
theorem shut_of_hanldeStop {server next : Server env} {order : List Nat} {acceptorThrows : Bool}
    {throws : Nat → Bool}
    (step : (Server.machine env).step server (.hanldeStop order acceptorThrows throws) = some next)
    (returned : next.status = .running) : Shut next := by
  have other : ¬ Event.Serves (.hanldeStop order acceptorThrows throws) := not_false
  cases shared_of_not_serves other step with
  | hanldeStop _ _ closed _ ends =>
      rcases ends with empty | ⟨thrown, _⟩
      · exact ⟨closed, empty⟩
      · rw [returned] at thrown
        cases thrown

/-- Every handler that is still queued leaves it so. -/
theorem shut_step (server : Server env) (event : Event) (next : Server env) (shut : Shut server)
    (step : (Server.machine env).step server event = some next) : Shut next := by
  by_cases serves : event.Serves
  · rcases serves_frame serves step with ⟨same, smaller⟩
    refine ⟨(congrArg Accepting.acceptorOpen same).trans shut.1, ?_⟩
    rw [shut.2] at smaller
    exact Finset.subset_empty.mp smaller
  · cases shared_of_not_serves serves step with
    | acceptDone _ _ => exact shut
    | signalRaised => exact shut
    | @hanldeAccept index target ec endpointThrows _ =>
        have kept : Shut (server.dequeueAccept index target ec) := by
          exact ⟨(server.dequeueAccept_acceptorOpen index target ec).trans shut.1,
            (server.dequeueAccept_connections index target ec).trans shut.2⟩
        have ignored : (server.dequeueAccept index target ec).hanldeAccept ec endpointThrows =
            server.dequeueAccept index target ec := by
          rw [Server.hanldeAccept, kept.1]
          rfl
        rw [ignored]
        exact kept
    | hanldeStop _ _ closed _ ends =>
        refine ⟨closed, ?_⟩
        rcases ends with empty | ⟨_, same⟩
        · exact empty
        · exact same.trans shut.2

/-- A handler that starts nobody leaves `new_connection_` alone and adds nothing to
`connections_`. -/
def StartsNobody (server : Server env) (event : Event) : Prop :=
  ∀ next, (Server.machine env).step server event = some next →
    next.newConnection = server.newConnection ∧ next.connections ⊆ server.connections

theorem startsNobody_of_not_starts {server : Server env} {event : Event}
    (unmanaged : server.newConnection ∉ server.connections)
    (noAccept : ¬ StartsAccept server event) (noConnection : ¬ StartsConnection server event) :
    StartsNobody server event := by
  intro next step
  constructor
  · exact not_not.mp ((startsAccept_iff step).not.mp noAccept)
  · exact not_not.mp ((startsConnection_iff unmanaged step).not.mp noConnection)

theorem Shut.not_starts {server : Server env} (shut : Shut server) (event : Event) :
    ¬ StartsAccept server event ∧ ¬ StartsConnection server event := by
  constructor
  · rintro ⟨_, _, _, _, _, _, isOpen, _⟩
    rw [shut.1] at isOpen
    cases isOpen
  · rintro ⟨_, _, _, _, isOpen⟩
    rw [shut.1] at isOpen
    cases isOpen

theorem Shut.startsNobody {server : Server env} (shut : Shut server) (event : Event) :
    StartsNobody server event := by
  have unmanaged : server.newConnection ∉ server.connections := by
    rw [shut.2]
    exact Finset.notMem_empty _
  rcases shut.not_starts event with ⟨noAccept, noConnection⟩
  exact startsNobody_of_not_starts unmanaged noAccept noConnection

/-- Once `hanlde_stop` has returned, no later handler issues an accept or calls
`connection_manager::start`, `new_connection_` is never replaced, and `connections_`
stays empty. -/
theorem shutdown_final {server next : Server env} {order : List Nat} {acceptorThrows : Bool}
    {throws : Nat → Bool}
    (step : (Server.machine env).step server (.hanldeStop order acceptorThrows throws) = some next)
    (returned : next.status = .running) (events : List Event) :
    (Server.machine env).Always (fun later => later.connections = ∅) next events ∧
      (Server.machine env).Meets (fun later event =>
        ¬ StartsAccept later event ∧ ¬ StartsConnection later event) next events ∧
      (Server.machine env).Meets StartsNobody next events := by
  have always := (Server.machine env).always_of_preserved shut_step
    (shut_of_hanldeStop step returned) events
  exact ⟨always.imp _ fun _ shut => shut.2,
    always.meets _ fun _ event shut => shut.not_starts event,
    always.meets _ fun _ event shut => shut.startsNobody event⟩

/-- One client is served and another one has just been accepted when the signal
arrives. -/
def acceptedBeforeStop : List Event :=
  [.acceptDone 0 .success, .hanldeAccept 0 false, .acceptDone 0 .success, .signalRaised]

/-- The handlers that are still queued then: the accept, the aborted read, which
begins another one, and the failure of that. -/
def lateHandlers : List Event :=
  [.hanldeAccept 0 false, .handleRead 0 0 [] false, .handleRead 0 0 [] false]

/-- These handlers start nobody. -/
theorem acceptedBeforeStop_shut : ∃ server next final : Server shortRequestEnv,
    (Server.machine shortRequestEnv).run (Server.machine shortRequestEnv).initial
        acceptedBeforeStop = some server ∧
      (Server.machine shortRequestEnv).step server (.hanldeStop [0] false fun _ => false) =
        some next ∧
      (Server.machine shortRequestEnv).run next lateHandlers = some final ∧
      (Server.machine shortRequestEnv).Always (fun later => later.connections = ∅) next
        lateHandlers ∧
      (Server.machine shortRequestEnv).Meets (fun later event =>
        ¬ StartsAccept later event ∧ ¬ StartsConnection later event) next lateHandlers ∧
      (Server.machine shortRequestEnv).Meets StartsNobody next lateHandlers := by
  have outcome : ((Server.machine shortRequestEnv).run (Server.machine shortRequestEnv).initial
      acceptedBeforeStop).bind (fun server =>
        ((Server.machine shortRequestEnv).step server
          (.hanldeStop [0] false fun _ => false)).bind fun next =>
            ((Server.machine shortRequestEnv).run next lateHandlers).map fun _ =>
              decide (next.status = .running)) = some true := by decide +kernel
  rcases Option.bind_eq_some_iff.mp outcome with ⟨server, arrived, stopping⟩
  rcases Option.bind_eq_some_iff.mp stopping with ⟨next, step, later⟩
  rcases Option.map_eq_some_iff.mp later with ⟨final, steps, running⟩
  exact ⟨server, next, final, arrived, step, steps,
    shutdown_final step (of_decide_eq_true running) lateHandlers⟩

end Http
end LearnAsio
