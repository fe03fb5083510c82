import LearnAsio.Chat.Room
import LearnAsio.Transition.Draining
import Mathlib.Algebra.Order.BigOperators.Group.List
import Mathlib.Algebra.Order.Ring.Nat

namespace LearnAsio
namespace Chat

open Queue Transition

/-!
# Every message can be delivered

The queues of the server are written one message at a time, and a message waits
for the ones before it.  From every state of a running loop the sockets and the
handlers `on_write` alone can empty all of them: no queue waits for anything
else, least of all for another client.  A client whose socket is open and whose
writes have all succeeded has then been sent all that the room has for it.
-/

/-- A socket accepts a message, or `on_write` runs and `close` returns. -/
def Event.Delivers : Event → Prop
  | .writeDone _ _ => True
  | .onWrite _ _ throws => throws = false
  | _ => False

namespace Session

/-- No write of the session has failed, and none is bound to. -/
structure Healthy (session : Session) : Prop where
  isOpen : session.isOpen = true
  unfailed : session.writeFailed = false
  succeeding : ∀ write ∈ session.writes, ∀ completion, write.completion = some completion →
    completion.error = .success

/-- The events it takes to empty the queue: two for each message, one less if the
first message has been written and its handler has not run. -/
def backlog (session : Session) : Nat :=
  match session.writes with
  | [] => 0
  | write :: _ =>
      2 * session.outgoingMessages.length - if write.completion.isSome then 1 else 0

/-- The session has got further with its queue. -/
structure Advances (before after : Session) : Prop where
  posted : after.posted = before.posted
  healthy : before.Healthy → after.Healthy
  backlog : after.backlog < before.backlog

variable {session : Session}

theorem length_outgoingMessages_pos (lawful : session.writer.Lawful) {index : Nat}
    {write : Write} (listed : session.writes[index]? = some write) :
    0 < session.outgoingMessages.length := by
  have front := lawful.front _ (post_mem_writing listed)
  refine List.length_pos_iff.mpr fun none => ?_
  rw [show session.writer.queue = [] from none] at front
  cases front

theorem backlog_of_listed (lawful : session.writer.Lawful) {index : Nat} {write : Write}
    (listed : session.writes[index]? = some write) :
    session.backlog =
      2 * session.outgoingMessages.length - if write.completion.isSome then 1 else 0 := by
  rw [backlog, (eq_singleton_of_listed (length_writes_le_one lawful) listed).1]

/-- A socket has accepted a message. -/
theorem advances_writeDone (lawful : session.writer.Lawful) {index : Nat} {written : Post}
    (listed : session.writes[index]? = some { post := written }) :
    session.Advances (session.completeWrite index written .success) where
  posted := rfl
  healthy := by
    intro healthy
    refine ⟨healthy.isOpen, healthy.unfailed, ?_⟩
    rw [completeWrite, set_of_listed (length_writes_le_one lawful) listed]
    rintro write among completion outcome
    cases List.mem_singleton.mp among
    cases outcome
    rfl
  backlog := by
    have filled := length_outgoingMessages_pos lawful listed
    have after : (session.completeWrite index written .success).backlog =
        2 * session.outgoingMessages.length - 1 := by
      rw [backlog, completeWrite, set_of_listed (length_writes_le_one lawful) listed]
      rfl
    rw [after, backlog_of_listed lawful listed]
    exact Nat.sub_lt (Nat.mul_pos (by decide) filled) Nat.one_pos

/-- `on_write` begins the next write, if there is one. -/
theorem advances_written (lawful : session.writer.Lawful) {index : Nat} {written : Post}
    {completion : Completion}
    (listed : session.writes[index]? =
      some { post := written, completion := some completion }) :
    session.Advances ((session.dequeueWrite index).popFront written) := by
  have filled := length_outgoingMessages_pos lawful listed
  have before := backlog_of_listed lawful listed
  have none := eraseIdx_of_listed (length_writes_le_one lawful) listed
  have shorter : session.outgoingMessages.tail.length = session.outgoingMessages.length - 1 :=
    List.length_tail
  rw [Option.isSome_some, if_pos rfl] at before
  refine ⟨?_, ?_, ?_⟩
  · unfold popFront
    dsimp only
    split <;> rfl
  · intro healthy
    unfold popFront
    dsimp only
    split
    · refine ⟨healthy.isOpen, healthy.unfailed, fun write among => ?_⟩
      change write ∈ session.writes.eraseIdx index at among
      rw [none] at among
      cases among
    · refine ⟨healthy.isOpen, healthy.unfailed, fun write among completion outcome => ?_⟩
      change write ∈ session.writes.eraseIdx index ++ _ at among
      rw [none, List.nil_append] at among
      rcases List.mem_map.mp among with ⟨post, _, rfl⟩
      have pending : initialCompletion { session.dequeueWrite index with
          outgoingMessages := session.outgoingMessages.tail
          sent := session.sent ++ [written] } = Option.none := if_pos healthy.isOpen
      exact absurd (pending.symm.trans outcome) (by simp)
  · rw [before]
    cases shape : session.outgoingMessages.tail with
    | nil =>
        have quiet : ((session.dequeueWrite index).popFront written).backlog = 0 := by
          simp only [popFront, dequeueWrite, shape, List.isEmpty_nil, if_true, backlog, none]
        omega
    | cons next later =>
        have bound : ((session.dequeueWrite index).popFront written).backlog ≤
            2 * (next :: later).length := by
          simp only [popFront, dequeueWrite, shape, List.isEmpty_cons, Bool.false_eq_true,
            if_false, backlog, asyncWrite, none]
          exact Nat.sub_le _ _
        rw [shape] at shorter
        omega

/-- A failed write is the last one. -/
theorem advances_writeError (lawful : session.writer.Lawful) {index : Nat} {written : Post}
    {completion : Completion}
    (listed : session.writes[index]? =
      some { post := written, completion := some completion })
    (failed : completion.error ≠ .success) :
    session.Advances (session.dequeueWrite index).writeError where
  posted := rfl
  healthy := fun healthy =>
    absurd (healthy.succeeding _ (List.mem_of_getElem? listed) completion rfl) failed
  backlog := by
    have filled := length_outgoingMessages_pos lawful listed
    have before := backlog_of_listed lawful listed
    rw [Option.isSome_some, if_pos rfl] at before
    have quiet : (session.dequeueWrite index).writeError.backlog = 0 := by
      simp only [writeError, onError, close, dequeueWrite,
        eraseIdx_of_listed (length_writes_le_one lawful) listed, List.map_nil, backlog]
    omega

end Session
variable {server next : Server}

/-! ## One delivery -/

/-- What a delivery does: one member gets on with its queue. -/
theorem advances_of_moves (invariant : Invariant server) (unused : Unused server)
    (running : server.thrown = false) {event : Event} (delivers : event.Delivers)
    (moves : Moves server event next) :
    ∃ id ∈ server.sessions, ∃ after, (server.session id).Advances after ∧
      next = server.update id fun _ => after := by
  cases moves with
  | acceptDone _ _ => cases delivers
  | lineRead _ _ => cases delivers
  | acceptFailed _ _ => cases delivers
  | joinedThrew _ => cases delivers
  | startThrew _ _ => cases delivers
  | joined _ _ => cases delivers
  | @completes id _ after completes =>
      refine ⟨id, unused.member_of_completes completes, after, ?_, rfl⟩
      cases completes with
      | arrive _ _ => cases delivers
      | readFailed _ => cases delivers
      | writeDone listed => exact Session.advances_writeDone (invariant.writing id) listed
      | writeFailed _ => cases delivers
  | @handles id _ after raised handles =>
      have member := unused.member_of_handles handles
      have silent : ∀ {after : Session},
          ({ server.update id fun _ => after with thrown := false } : Server).release id =
            server.update id fun _ => after := by
        intro after
        have same : ({ server.update id fun _ => after with thrown := false } : Server) =
            server.update id fun _ => after := by
          rw [← running]
          rfl
        rw [same]
        exact Server.release_of_mem _ member
      cases handles with
      | readError _ _ => cases delivers
      | written listed _ =>
          exact ⟨id, member, _, Session.advances_written (invariant.writing id) listed, silent⟩
      | writeError listed failed =>
          cases delivers
          exact ⟨id, member, _, Session.advances_writeError (invariant.writing id) listed failed,
            silent⟩

/-! ## All deliveries -/

namespace Server

/-- The events it takes to empty all queues. -/
def backlog (server : Server) : Nat :=
  (server.sessions.map fun id => (server.session id).backlog).sum

/-- Nothing is being written. -/
def Quiet (server : Server) : Prop := ∀ id, (server.session id).writes = []

theorem backlog_update_lt {id : Nat} (member : id ∈ server.sessions) {after : Session}
    (lower : after.backlog < (server.session id).backlog) :
    (server.update id fun _ => after).backlog < server.backlog := by
  refine List.sum_lt_sum _ _ ?_ ⟨id, member, ?_⟩
  · intro other _
    by_cases same : other = id
    · subst same
      rw [update_session_self]
      exact Nat.le_of_lt lower
    · rw [update_session_of_ne same]
  · rw [update_session_self]
    exact lower

end Server

/-- What the deliveries since a state have left of it. -/
structure Delivering (start server : Server) : Prop where
  lawful : Invariant server ∧ Vacant server
  running : server.thrown = false
  told : server.broadcasts = start.broadcasts
  posted : ∀ id, (server.session id).posted = (start.session id).posted
  healthy : ∀ id, (start.session id).Healthy → (server.session id).Healthy

theorem delivering_drains (start : Server) : Server.machine.Drains (Delivering start)
    (fun _ event => event.Delivers) Server.backlog := by
  have step : ∀ server event next, Delivering start server → event.Delivers →
      Server.machine.step server event = some next →
        Delivering start next ∧ next.backlog < server.backlog := by
    intro server event next delivering delivers moved
    have lawful := vacant_step server event next delivering.lawful moved
    rcases moves_of_step moved with ⟨running, moves⟩
    rcases advances_of_moves delivering.lawful.1 (delivering.lawful.2 running) running delivers
      moves with ⟨id, member, after, advances, rfl⟩
    refine ⟨⟨lawful, running, delivering.told, ?_, ?_⟩,
      Server.backlog_update_lt member advances.backlog⟩
    · exact Server.forall_update
        (fun other session => session.posted = (start.session other).posted)
        (advances.posted.trans (delivering.posted id)) delivering.posted
    · exact Server.forall_update
        (fun other session => (start.session other).Healthy → session.Healthy)
        (fun healthy => advances.healthy (delivering.healthy id healthy)) delivering.healthy
  exact ⟨fun server event next delivering delivers moved =>
      (step server event next delivering delivers moved).1,
    fun server event next delivering delivers moved =>
      (step server event next delivering delivers moved).2⟩

/-- While something is being written, a delivery is possible. -/
theorem delivers_of_not_quiet (running : server.thrown = false) (busy : ¬ server.Quiet) :
    ∃ event next, event.Delivers ∧ Server.machine.step server event = some next := by
  rcases not_forall.mp busy with ⟨id, writing⟩
  have going : ¬ server.thrown = true := fun stopped => by
    rw [running] at stopped
    cases stopped
  cases writes : (server.session id).writes with
  | nil => exact absurd writes writing
  | cons write rest =>
      have listed : (server.session id).writes[0]? = some write := by
        rw [writes]
        rfl
      rcases write with ⟨post, completion⟩
      cases completion with
      | none =>
          refine ⟨.writeDone id 0,
            server.update id fun session => session.completeWrite 0 post .success, trivial, ?_⟩
          rw [Server.machine_step, if_neg going]
          simp only [Server.react, listed]
      | some completion =>
          refine ⟨.onWrite id 0 false,
            ((server.update id fun session => session.dequeueWrite 0).onWrite id post
              completion.error false).release id, rfl, ?_⟩
          rw [Server.machine_step, if_neg going]
          simp only [Server.react, listed]

/-- A healthy session that is writing nothing has sent everything. -/
theorem sent_of_quiet {session : Session} (lawful : session.writer.Lawful)
    (healthy : session.Healthy) (quiet : session.writes = []) : session.sent = session.posted := by
  have silent : session.writer.writing = [] := by
    rw [Session.writer, quiet]
    rfl
  have idle : session.outgoingMessages = [] := lawful.idle healthy.unfailed silent
  have history : session.sent ++ session.outgoingMessages = session.posted := lawful.history
  rw [← history, idle, List.append_nil]

/-- Nothing is being written, the room has not changed, and every client whose
session was healthy has been sent all that had been posted to it, which is all that
there is for it in the room. -/
structure CaughtUp (server final : Server) (board : Audience.Board Notice Nat) : Prop where
  quiet : final.Quiet
  told : final.broadcasts = server.broadcasts
  posted : ∀ id, (final.session id).posted = (server.session id).posted
  shows : Shows final board
  seen : ∀ id, (server.session id).Healthy → room.seen board id = room.feed id board.log
  sent : ∀ id, (server.session id).Healthy →
    (final.session id).sent = (server.session id).posted

/-- Every run of a loop that has not been ended can be continued by deliveries
alone, at most as many as the backlog, until the clients have caught up. -/
theorem caughtUp_after_run {events : List Event}
    (steps : Server.machine.run Server.machine.initial events = some server)
    (running : server.thrown = false) :
    ∃ more final board, Server.machine.run server more = some final ∧
      (∀ event ∈ more, event.Delivers) ∧ more.length ≤ server.backlog ∧
      room.board.run {} (Server.machine.project Server.act Server.machine.initial
        (events ++ more)) = some board ∧
      CaughtUp server final board := by
  have lawful : Invariant server ∧ Vacant server :=
    Server.machine.reachable_induction vacant_initial vacant_step ⟨events, steps⟩
  have start : Delivering server server :=
    ⟨lawful, running, rfl, fun _ => rfl, fun _ healthy => healthy⟩
  have enabled : ∀ state, Delivering server state → ¬ state.Quiet → ∃ event next,
      event.Delivers ∧ Server.machine.step state event = some next :=
    fun state delivering busy => delivers_of_not_quiet delivering.running busy
  rcases (delivering_drains server).exists_finished enabled start with
    ⟨more, final, continued, meets, delivering, quiet⟩
  have bound := (delivering_drains server).length_add_le start meets continued
  have whole : Server.machine.run Server.machine.initial (events ++ more) = some final := by
    rw [Server.machine.run_append, steps]
    exact continued
  rcases follows_of_run whole with ⟨board, reached, invariant, follows⟩
  have sent : ∀ id, (server.session id).Healthy →
      (final.session id).sent = (final.session id).posted :=
    fun id healthy =>
      sent_of_quiet (invariant.writing id) (delivering.healthy id healthy) (quiet id)
  have shows := follows.shows invariant
  refine ⟨more, final, board, continued, System.forall_of_meets meets continued,
    Nat.le_of_add_right_le bound, reached, quiet, delivering.told, delivering.posted, shows, ?_,
    fun id healthy => (sent id healthy).trans (delivering.posted id)⟩
  intro id healthy
  rw [← shows.sent id, sent id healthy]
  exact follows.posted id

/-- Two clients, of whom the second one has still to be welcomed and the first
one to be told of it. -/
theorem hello_caughtUp : ∃ server, Server.machine.run Server.machine.initial hello =
    some server ∧ (server.session 0).sent.length = 3 ∧ (server.session 1).sent = [] ∧
      ∃ more final board, Server.machine.run server more = some final ∧
        (∀ event ∈ more, event.Delivers) ∧ more.length ≤ server.backlog ∧
        room.board.run {} (Server.machine.project Server.act Server.machine.initial
          (hello ++ more)) = some board ∧
        CaughtUp server final board := by
  have outcome : (Server.machine.run Server.machine.initial hello).map (fun server =>
      decide ((server.session 0).sent.length = 3 ∧ (server.session 1).sent = [] ∧
        server.thrown = false)) = some true := by decide +kernel
  rcases Option.map_eq_some_iff.mp outcome with ⟨server, steps, facts⟩
  rcases of_decide_eq_true facts with ⟨three, none, running⟩
  exact ⟨server, steps, three, none, caughtUp_after_run steps running⟩

end Chat
end LearnAsio
