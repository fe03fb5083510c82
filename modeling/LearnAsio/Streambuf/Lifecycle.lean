import LearnAsio.Streambuf.Server

namespace LearnAsio
namespace Streambuf

open Chat (Completion Read newline)
open Delivery Queue Transition

/-!
# The steps of the streambuf server

An event that concerns a session changes this session and, if its handler throws,
ends the loop.  `Turn` says what it can do to the session, with one constructor
for each way through the handlers, and `Moves` is the inversion of a whole step.
The laws of a session are then proved once for a turn.
-/

namespace Server

variable {server : Server}

@[simp] theorem update_session_self (id : Nat) (change : Session → Session) :
    (server.update id change).session id = change (server.session id) :=
  Function.update_self _ _ _

theorem update_session_of_ne {id other : Nat} (different : other ≠ id)
    (change : Session → Session) :
    (server.update id change).session other = server.session other :=
  Function.update_of_ne different _ _

/-- What holds of the changed session and of the others holds of all. -/
theorem forall_update (property : Nat → Session → Prop) {id : Nat} {change : Session → Session}
    (changed : property id (change (server.session id)))
    (others : ∀ other, property other (server.session other)) (other : Nat) :
    property other ((server.update id change).session other) :=
  (Function.forall_update_iff _ property).mpr ⟨changed, fun other _ => others other⟩ other

theorem forall_accept (property : Nat → Session → Prop) (fresh : property server.newSession {})
    (others : ∀ other, property other (server.session other)) (other : Nat) :
    property other (server.accept.session other) :=
  (Function.forall_update_iff _ property).mpr ⟨fresh, fun other _ => others other⟩ other

theorem accept_session_of_ne {id : Nat} (different : id ≠ server.newSession) :
    server.accept.session id = server.session id :=
  Function.update_of_ne different _ _

end Server

/-! ## What an event does to a session -/

namespace Session

variable {session : Session}

/-- The two ways through `on_error`. -/
theorem onError_cases (session : Session) (gone closeThrows : Bool) :
    (session.nameThrows gone = true ∧
        session.onError gone closeThrows = ({ session with hasFailed := true }, true)) ∨
      (session.nameThrows gone = false ∧
        session.onError gone closeThrows =
          (({ session with hasFailed := true } : Session).close,
            session.isOpen && closeThrows)) := by
  unfold onError
  cases threw : session.nameThrows gone with
  | true => exact Or.inl ⟨rfl, rfl⟩
  | false => exact Or.inr ⟨rfl, rfl⟩

/-- A line has been found: push it and read on. -/
def lineRead (session : Session) (index : Nat) (completion : Completion) : Session :=
  ((((session.dequeueRead index).getline.2).consume completion.bytesTransferred).pushBack
    (firstLine newline session.buffer)).read

/-- A line has been found, but the peer is gone. -/
def lineLost (session : Session) (index : Nat) : Session :=
  { (session.dequeueRead index).getline.2 with hasFailed := true }

end Session

/-- What an event makes of a session, and whether its handler throws. -/
inductive Turn (id : Nat) (session : Session) : Event → Session → Bool → Prop
  | arrive {index : Nat} {data : Bytes} (listed : session.reads[index]? = some {})
      (filled : data ≠ []) :
      Turn id session (.arrive id index data) (session.arrive index data) false
  | readFailed {index : Nat} (listed : session.reads[index]? = some {}) :
      Turn id session (.readFailed id index) (session.failRead index) false
  | writeDone {index : Nat} {written : Bytes}
      (listed : session.writes[index]? = some { message := written }) :
      Turn id session (.writeDone id index) (session.completeWrite index written .success) false
  | writeFailed {index : Nat} {written : Bytes}
      (listed : session.writes[index]? = some { message := written }) :
      Turn id session (.writeFailed id index) (session.completeWrite index written .failure) false
  | readError {index : Nat} {completion : Completion} {gone closeThrows : Bool}
      (listed : session.reads[index]? = some { completion := some completion })
      (failed : completion.error ≠ .success) :
      Turn id session (.onRead id index gone closeThrows)
        ((session.dequeueRead index).onError gone closeThrows).1
        ((session.dequeueRead index).onError gone closeThrows).2
  | lineLost {index : Nat} {completion : Completion} {gone closeThrows : Bool}
      (listed : session.reads[index]? = some { completion := some completion })
      (success : completion.error = .success) (threw : session.nameThrows gone = true) :
      Turn id session (.onRead id index gone closeThrows) (session.lineLost index) true
  | lineRead {index : Nat} {completion : Completion} {gone closeThrows : Bool}
      (listed : session.reads[index]? = some { completion := some completion })
      (success : completion.error = .success) (named : session.nameThrows gone = false) :
      Turn id session (.onRead id index gone closeThrows) (session.lineRead index completion) false
  | written {index : Nat} {written : Bytes} {completion : Completion} {gone closeThrows : Bool}
      (listed : session.writes[index]? =
        some { message := written, completion := some completion })
      (success : completion.error = .success) :
      Turn id session (.onWrite id index gone closeThrows)
        ((session.dequeueWrite index).popFront written) false
  | writeError {index : Nat} {written : Bytes} {completion : Completion} {gone closeThrows : Bool}
      (listed : session.writes[index]? =
        some { message := written, completion := some completion })
      (failed : completion.error ≠ .success) :
      Turn id session (.onWrite id index gone closeThrows)
        (({ session.dequeueWrite index with writeFailed := true } : Session).onError
          gone closeThrows).1
        (({ session.dequeueWrite index with writeFailed := true } : Session).onError
          gone closeThrows).2

/-- The effect of a step. -/
inductive Moves (server : Server) : Event → Server → Prop
  | acceptDone {index target : Nat} {ec : ErrorCode}
      (listed : server.accepts[index]? = some { target := target })
      (unaborted : ec ≠ .operationAborted) :
      Moves server (.acceptDone index ec) { server with
        accepts := server.accepts.set index { target := target, completion := some ec } }
  | turn {id : Nat} {event : Event} {after : Session} {raised : Bool}
      (turn : Turn id (server.session id) event after raised) :
      Moves server event { server.update id fun _ => after with thrown := raised }
  | acceptFailed {index target : Nat} {ec : ErrorCode} {gone : Bool}
      (listed : server.accepts[index]? = some { target := target, completion := some ec })
      (failed : ec ≠ .success) :
      Moves server (.onAccept index gone)
        { server with accepts := server.accepts.eraseIdx index }
  | acceptThrew {index target : Nat}
      (listed : server.accepts[index]? = some { target := target, completion := some .success }) :
      Moves server (.onAccept index true)
        { server.dequeueAccept index target .success with thrown := true }
  | accepted {index target : Nat}
      (listed : server.accepts[index]? = some { target := target, completion := some .success }) :
      Moves server (.onAccept index false)
        (((server.dequeueAccept index target .success).update target Session.start).accept)

private theorem turn_onRead {session : Session} {id index : Nat} {completion : Completion}
    (listed : session.reads[index]? = some { completion := some completion })
    (gone closeThrows : Bool) :
    Turn id session (.onRead id index gone closeThrows)
      ((session.dequeueRead index).onRead completion gone closeThrows).1
      ((session.dequeueRead index).onRead completion gone closeThrows).2 := by
  by_cases success : completion.error = .success
  · rw [Session.onRead, if_neg (fun failed => failed success)]
    cases threw : session.nameThrows gone with
    | true =>
        have here : ((session.dequeueRead index).getline.2).nameThrows gone = true := threw
        dsimp only
        rw [if_pos here]
        exact .lineLost listed success threw
    | false =>
        have here : ((session.dequeueRead index).getline.2).nameThrows gone = false := threw
        dsimp only
        rw [if_neg (by rw [here]; exact Bool.false_ne_true)]
        exact .lineRead listed success threw
  · rw [Session.onRead, if_pos success]
    exact .readError listed success

private theorem turn_onWrite {session : Session} {id index : Nat} {written : Bytes}
    {completion : Completion}
    (listed : session.writes[index]? = some { message := written, completion := some completion })
    (gone closeThrows : Bool) :
    Turn id session (.onWrite id index gone closeThrows)
      ((session.dequeueWrite index).onWrite written completion.error gone closeThrows).1
      ((session.dequeueWrite index).onWrite written completion.error gone closeThrows).2 := by
  by_cases success : completion.error = .success
  · rw [Session.onWrite, if_neg (fun failed => failed success)]
    exact .written listed success
  · rw [Session.onWrite, if_pos success]
    exact .writeError listed success

/-- An event of the operating system does not end the loop. -/
private theorem moves_of_quiet {server : Server} (running : server.thrown = false) {id : Nat}
    {event : Event} {change : Session → Session}
    (turn : Turn id (server.session id) event (change (server.session id)) false) :
    Moves server event (server.update id change) := by
  have same : server.update id change =
      { server.update id fun _ => change (server.session id) with thrown := false } := by
    rw [Server.update, Server.update, ← running]
  rw [same]
  exact .turn turn

private theorem moves_onAccept {server : Server} {index target : Nat} {ec : ErrorCode}
    (listed : server.accepts[index]? = some { target := target, completion := some ec })
    (gone : Bool) :
    Moves server (.onAccept index gone)
      ((server.dequeueAccept index target ec).onAccept ec target gone) := by
  by_cases success : ec = .success
  · subst success
    rw [Server.onAccept, if_neg (fun failed => failed rfl)]
    cases gone with
    | true =>
        rw [if_pos rfl]
        exact .acceptThrew listed
    | false =>
        rw [if_neg Bool.false_ne_true]
        exact .accepted listed
  · rw [Server.onAccept, if_pos success, Server.dequeueAccept, if_neg success]
    exact .acceptFailed listed success

theorem moves_of_react {server next : Server} (running : server.thrown = false) {event : Event}
    (moved : server.react event = some next) : Moves server event next := by
  unfold Server.react at moved
  cases event with
  | acceptDone index ec =>
      dsimp only at moved
      split at moved
      · next target listed =>
          split at moved
          · cases moved
          · next unaborted =>
              cases moved
              exact .acceptDone listed unaborted
      · cases moved
  | arrive id index data =>
      dsimp only at moved
      split at moved
      · next listed =>
          split at moved
          · cases moved
          · next filled =>
              cases moved
              exact moves_of_quiet running (.arrive listed filled)
      · cases moved
  | readFailed id index =>
      dsimp only at moved
      split at moved
      · next listed =>
          cases moved
          exact moves_of_quiet running (.readFailed listed)
      · cases moved
  | writeDone id index =>
      dsimp only at moved
      split at moved
      · next message listed =>
          cases moved
          exact moves_of_quiet running (.writeDone listed)
      · cases moved
  | writeFailed id index =>
      dsimp only at moved
      split at moved
      · next message listed =>
          cases moved
          exact moves_of_quiet running (.writeFailed listed)
      · cases moved
  | onAccept index gone =>
      dsimp only at moved
      split at moved
      · next target ec listed =>
          cases moved
          exact moves_onAccept listed gone
      · cases moved
  | onRead id index gone closeThrows =>
      dsimp only at moved
      split at moved
      · next completion listed =>
          cases moved
          exact .turn (turn_onRead listed gone closeThrows)
      · cases moved
  | onWrite id index gone closeThrows =>
      dsimp only at moved
      split at moved
      · next message completion listed =>
          cases moved
          exact .turn (turn_onWrite listed gone closeThrows)
      · cases moved

/-- A step is taken in a running loop. -/
theorem moves_of_step {server next : Server} {event : Event}
    (moved : Server.machine.step server event = some next) :
    server.thrown = false ∧ Moves server event next := by
  rw [Server.machine_step] at moved
  cases stopped : server.thrown with
  | true =>
      rw [if_pos stopped] at moved
      cases moved
  | false =>
      rw [if_neg (by rw [stopped]; exact Bool.false_ne_true)] at moved
      exact ⟨rfl, moves_of_react stopped moved⟩

end Streambuf
end LearnAsio
