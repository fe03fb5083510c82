import LearnAsio.Streambuf.Lifecycle

namespace LearnAsio
namespace Streambuf

open Transition

/-!
# Errors of one session

Both completion handlers of a session hand an error to `on_error`, which prints
the name of the session and closes its socket.  The name of a session with an
open socket is the address of its peer, and asking for that address throws when
the peer has gone, as it has after a reset.  The exception leaves the handler
before the socket is closed and ends the loop for all sessions.
-/

/-- The event runs a handler of the session with an error code.  The flags say
whether the peer has gone and whether closing the socket throws. -/
inductive HandlesError (server : Server) (id : Nat) : Event → Bool → Bool → Prop
  | read {index : Nat} {gone closeThrows : Bool} {completion : Chat.Completion}
      (listed : (server.session id).reads[index]? = some { completion := some completion })
      (failed : completion.error ≠ .success) :
      HandlesError server id (.onRead id index gone closeThrows) gone closeThrows
  | write {index : Nat} {gone closeThrows : Bool} {written : Bytes}
      {completion : Chat.Completion}
      (listed : (server.session id).writes[index]? =
        some { message := written, completion := some completion })
      (failed : completion.error ≠ .success) :
      HandlesError server id (.onWrite id index gone closeThrows) gone closeThrows

/-- The session has been closed, nothing else has changed and nothing has been
thrown. -/
structure Isolated (server : Server) (id : Nat) (next : Server) : Prop where
  closed : (next.session id).isOpen = false
  others : ∀ other, other ≠ id → next.session other = server.session other
  accepts : next.accepts = server.accepts
  returned : next.thrown = false

/-- Whatever handler the event runs with an error, the error stays with its
session. -/
def ErrorsIsolated (server : Server) (event : Event) : Prop :=
  ∀ id gone closeThrows, HandlesError server id event gone closeThrows →
    ∀ next, Server.machine.step server event = some next → Isolated server id next

/-- Where the event runs a handler with an error, the socket is closed already,
or the peer is still there and closing does not throw. -/
def PeersPresent (server : Server) (event : Event) : Prop :=
  ∀ id gone closeThrows, HandlesError server id event gone closeThrows →
    (server.session id).isOpen = true → gone = false ∧ closeThrows = false

/-- What `on_error` needs in order to close the socket and return. -/
theorem Session.onError_returns_iff (session : Session) (gone closeThrows : Bool) :
    ((session.onError gone closeThrows).1.isOpen = false ∧
        (session.onError gone closeThrows).2 = false) ↔
      (session.isOpen = true → gone = false ∧ closeThrows = false) := by
  rcases session.onError_cases gone closeThrows with ⟨threw, result⟩ | ⟨named, result⟩
  · rw [nameThrows, Bool.and_eq_true] at threw
    rw [result]
    simp [threw.1, threw.2]
  · rw [nameThrows] at named
    rw [result]
    simp only [close, true_and]
    cases isOpen : session.isOpen with
    | false => simp
    | true =>
        rw [isOpen, Bool.true_and] at named
        simp [named]

/-- The changed session decides whether a turn is isolated. -/
theorem isolated_turn_iff {server : Server} {id : Nat} {after : Session} {raised : Bool} :
    Isolated server id { server.update id fun _ => after with thrown := raised } ↔
      after.isOpen = false ∧ raised = false := by
  have here : (server.update id fun _ => after).session id = after :=
    Server.update_session_self id _
  constructor
  · intro isolated
    have closed : ((server.update id fun _ => after).session id).isOpen = false := isolated.closed
    exact ⟨here ▸ closed, isolated.returned⟩
  · rintro ⟨closed, returned⟩
    refine ⟨?_, ?_, rfl, returned⟩
    · change ((server.update id fun _ => after).session id).isOpen = false
      rw [here]
      exact closed
    · intro other different
      change (server.update id fun _ => after).session other = server.session other
      exact Server.update_session_of_ne different _

/-- A handler that is run with an error isolates it exactly when `on_error`
comes to its end. -/
theorem isolated_iff {server next : Server} {event : Event} {id : Nat} {gone closeThrows : Bool}
    (handles : HandlesError server id event gone closeThrows)
    (moved : Server.machine.step server event = some next) :
    Isolated server id next ↔
      ((server.session id).isOpen = true → gone = false ∧ closeThrows = false) := by
  have moves := (moves_of_step moved).2
  cases handles with
  | read listed failed =>
      cases moves with
      | turn turn =>
          cases turn with
          | readError _ _ =>
              rw [isolated_turn_iff, Session.onError_returns_iff]
              rfl
          | lineLost found success _ =>
              rw [listed] at found
              cases found
              exact absurd success failed
          | lineRead found success _ =>
              rw [listed] at found
              cases found
              exact absurd success failed
  | write listed failed =>
      cases moves with
      | turn turn =>
          cases turn with
          | written found success =>
              rw [listed] at found
              cases found
              exact absurd success failed
          | writeError _ _ =>
              rw [isolated_turn_iff, Session.onError_returns_iff]
              rfl

theorem errorsIsolated_step (server : Server) (event : Event) (next : Server)
    (moved : Server.machine.step server event = some next) :
    ErrorsIsolated server event ↔ PeersPresent server event := by
  constructor
  · intro isolated id gone closeThrows handles
    exact (isolated_iff handles moved).mp (isolated id gone closeThrows handles next moved)
  · intro present id gone closeThrows handles after arrived
    exact (isolated_iff handles arrived).mpr (present id gone closeThrows handles)

/-- All errors of a run stay with their sessions exactly when every handler that
is run with an error on an open socket finds the peer there. -/
theorem errorsIsolated_along_run {events : List Event} {final : Server}
    (steps : Server.machine.run Server.machine.initial events = some final) :
    Server.machine.Meets ErrorsIsolated Server.machine.initial events ↔
      Server.machine.Meets PeersPresent Server.machine.initial events := by
  refine Server.machine.meets_congr (fun _ _ _ (_ : True) _ => trivial) ?_ trivial steps
  exact fun server event next _ moved => errorsIsolated_step server event next moved

/-! ### A reset -/

/-- A client connects and resets its connection. -/
def resetByPeer : List Event :=
  [.acceptDone 0 .success, .onAccept 0 false, .readFailed 0 0, .onRead 0 0 true false]

/-- The handler of the failed read throws. -/
private theorem resetByPeer_throws
    (meets : Server.machine.Meets ErrorsIsolated Server.machine.initial resetByPeer) : False := by
  have last := (((meets.2 _ rfl).2 _ rfl).2 _ rfl).1
  have isolated := last 0 true false (.read rfl (by decide)) _ rfl
  cases isolated.returned

theorem resetByPeer_not_isolated :
    ¬ Server.machine.Meets ErrorsIsolated Server.machine.initial resetByPeer :=
  resetByPeer_throws

/-- Handling the failed read is the step that does not meet the condition. -/
theorem resetByPeer_not_present :
    ¬ Server.machine.Meets PeersPresent Server.machine.initial resetByPeer := by
  intro present
  have isolated := (errorsIsolated_along_run rfl).mpr present
  exact resetByPeer_throws isolated

end Streambuf
end LearnAsio
