import LearnAsio.Chat.WriteQueue
import LearnAsio.Streambuf.Invariant

namespace LearnAsio
namespace Streambuf

open Queue Transition

/-!
# The write queue of a streambuf session

The lines of a client are pushed by `on_read`, whether or not a write is
outstanding, has failed or has been aborted by a read error.  The queue is the
one of the chat session, and its laws hold for the same reasons.
-/

/-- The event runs the session's `on_write`. -/
def Event.IsOnWrite (id : Nat) : Event → Prop
  | .onWrite other _ _ _ => other = id
  | _ => False

variable {server : Server}

/-- Every turn but `on_write` leaves the session's write alone. -/
theorem Turn.writing_subset {id : Nat} {session after : Session} {event : Event} {raised : Bool}
    (turn : Turn id session event after raised) (lawful : session.writer.Lawful)
    (other : ¬ event.IsOnWrite id) : session.writer.writing ⊆ after.writer.writing := by
  cases turn with
  | arrive _ _ => exact List.Subset.refl _
  | readFailed _ => exact List.Subset.refl _
  | writeDone listed =>
      rw [Session.writer_completeWrite lawful listed]
      exact List.Subset.refl _
  | writeFailed listed =>
      rw [Session.writer_completeWrite lawful listed]
      exact List.Subset.refl _
  | readError _ _ =>
      rw [Session.writer_onError]
      exact List.Subset.refl _
  | lineLost _ _ _ => exact List.Subset.refl _
  | lineRead _ _ _ =>
      rw [Session.lineRead, Session.writer_read, Session.writer_pushBack]
      exact Writer.writing_subset_post _ _
  | written _ _ => exact absurd rfl other
  | writeError _ _ => exact absurd rfl other

/-- Every step but the session's own `on_write` leaves its write alone. -/
theorem writing_subset_of_moves {next : Server} {event : Event} {id : Nat}
    (invariant : Invariant server) (moves : Moves server event next)
    (other : ¬ event.IsOnWrite id) :
    (server.session id).writer.writing ⊆ (next.session id).writer.writing := by
  by_cases fresh : server.session id = {}
  · rw [fresh]
    exact List.nil_subset _
  · have assigned : ∀ {index target : Nat} {completion : Option ErrorCode},
        server.accepts[index]? = some { target := target, completion := completion } →
          id ≠ target := by
      intro index target completion listed same
      exact fresh (same ▸ invariant.unassigned _ (List.mem_of_getElem? listed))
    cases moves with
    | acceptDone _ _ => exact List.Subset.refl _
    | @turn target _ after _ turn =>
        change _ ⊆ ((server.update target fun _ => after).session id).writer.writing
        by_cases same : target = id
        · subst same
          rw [Server.update_session_self]
          exact turn.writing_subset (invariant.writing target) other
        · rw [Server.update_session_of_ne (Ne.symm same)]
          exact List.Subset.refl _
    | acceptFailed _ _ => exact List.Subset.refl _
    | acceptThrew listed =>
        rw [Server.dequeueAccept, if_pos rfl]
        dsimp only
        rw [Server.update_session_of_ne (assigned listed)]
        exact List.Subset.refl _
    | accepted listed =>
        have older : id ≠ server.newSession :=
          fun same => fresh (invariant.future id (Nat.le_of_eq same.symm))
        have different := assigned listed
        rw [Server.dequeueAccept, if_pos rfl, Server.accept_session_of_ne,
          Server.update_session_of_ne different, Server.update_session_of_ne different]
        · exact List.Subset.refl _
        · exact older

/-- The laws of a session's queue, now and in every run from here on. -/
def QueueLaw (server : Server) (id : Nat) : Prop :=
  (server.session id).writer.Law ∧
    ∀ events final, Server.machine.run server events = some final →
      (∀ event ∈ events, ¬ event.IsOnWrite id) →
        (server.session id).writer.StillWriting (final.session id).writer

theorem queueLaw_of_reachable (reached : Server.machine.Reachable server) (id : Nat) :
    QueueLaw server id := by
  have invariant := invariant_of_reachable reached
  refine ⟨(invariant.writing id).law, fun events final steps others => ?_⟩
  have lawful := (invariant_of_reachable (reached.run _ steps)).writing id
  refine Writer.stillWriting_of_subset lawful ?_
  refine Server.machine.run_relates (fun before after =>
    (before.session id).writer.writing ⊆ (after.session id).writer.writing) ?_ ?_ ?_ ?_
    invariant steps others
  · exact fun _ => List.Subset.refl _
  · exact List.Subset.trans
  · exact fun _ _ _ before moved => before.of_step moved
  · exact fun _ _ _ before other moved =>
      writing_subset_of_moves before (moves_of_step moved).2 other

/-- A line that `on_read` has taken is the next of those that were ever enqueued. -/
theorem pushed_onRead {session : Session} {completion : Chat.Completion} {gone : Bool}
    (success : completion.error = .success) (named : session.nameThrows gone = false)
    (closeThrows : Bool) : (session.onRead completion gone closeThrows).1.pushed =
      session.pushed ++ [Delivery.firstLine Chat.newline session.buffer] := by
  have failed : ¬ completion.error ≠ .success := not_not.mpr success
  have throws : ¬ session.getline.2.nameThrows gone = true := by
    rw [Bool.not_eq_true]
    exact named
  have pushed : ∀ (consumed : Session) (line : Bytes),
      (consumed.pushBack line).pushed = consumed.pushed ++ [line] := fun consumed line =>
    congrArg Writer.posted (Session.writer_pushBack consumed line)
  rw [Session.onRead, if_neg failed]
  dsimp only
  rw [if_neg throws]
  exact pushed _ _

/-- The histories hold whatever was ever enqueued: every post of a chat session is
appended to its own, and so is every line of `on_read` in a streambuf session. -/
structure EnqueuedRecorded : Prop where
  post : ∀ (session : Chat.Session) (message : Chat.Post),
    (session.post message).posted = session.posted ++ [message]
  onRead : ∀ (session : Session) (completion : Chat.Completion) (gone closeThrows : Bool),
    completion.error = .success → session.nameThrows gone = false →
      (session.onRead completion gone closeThrows).1.pushed =
        session.pushed ++ [Delivery.firstLine Chat.newline session.buffer]

/-- In both programs every session's queue obeys its laws in every reachable
state and in every continuation, and its history holds whatever was enqueued. -/
theorem queueLaw_everywhere :
    (∀ server, Chat.Server.machine.Reachable server → ∀ id, Chat.QueueLaw server id) ∧
      (∀ server, Server.machine.Reachable server → ∀ id, QueueLaw server id) ∧
      EnqueuedRecorded :=
  ⟨fun _ reached id => Chat.queueLaw_of_reachable reached id,
    fun _ reached id => queueLaw_of_reachable reached id,
    { post := Chat.Session.posted_post
      onRead := fun _ _ _ closeThrows success named => pushed_onRead success named closeThrows }⟩

/-- A client has joined the chat, and its welcome is being written. -/
def welcoming : List Chat.Event :=
  [.acceptDone 0 .success, .onAccept 0 (bytes "10.0.0.1:1024") false false]

/-- A client has sent a line, which is being written back. -/
def echoing : List Event :=
  [.acceptDone 0 .success, .onAccept 0 false, .arrive 0 0 (bytes "a\n"), .onRead 0 0 false false]

theorem echoing_queueLaw :
    (∃ server, Chat.Server.machine.run Chat.Server.machine.initial welcoming = some server ∧
      (server.session 0).writer.writing = [{ message := bytes "Welcome to the chat server\n" }] ∧
      Chat.QueueLaw server 0) ∧
    ∃ server, Server.machine.run Server.machine.initial echoing = some server ∧
      (server.session 0).writer.writing = [bytes "a"] ∧ QueueLaw server 0 := by
  constructor
  · have outcome : (Chat.Server.machine.run Chat.Server.machine.initial welcoming).map
        (fun server => decide ((server.session 0).writer.writing =
          [{ message := bytes "Welcome to the chat server\n" }])) = some true := by
      decide +kernel
    rcases Option.map_eq_some_iff.mp outcome with ⟨server, steps, writing⟩
    exact ⟨server, steps, of_decide_eq_true writing,
      queueLaw_everywhere.1 server ⟨welcoming, steps⟩ 0⟩
  · have outcome : (Server.machine.run Server.machine.initial echoing).map (fun server =>
        decide ((server.session 0).writer.writing = [bytes "a"])) = some true := by decide +kernel
    rcases Option.map_eq_some_iff.mp outcome with ⟨server, steps, writing⟩
    exact ⟨server, steps, of_decide_eq_true writing,
      queueLaw_everywhere.2.1 server ⟨echoing, steps⟩ 0⟩

end Streambuf
end LearnAsio
