import LearnAsio.Streambuf.Invariant

namespace LearnAsio
namespace Streambuf

open Chat (Completion Read newline)
open Delivery Transition

/-!
# What becomes of a client's lines

`std::getline` takes a line and its newline out of the buffer, and `consume`
then takes the same number of bytes out once more.  With one line in the buffer
there is nothing left for it to take.  Otherwise it takes the beginning of the
next line, or whole lines.

The bytes received from a client are compared with what has been pushed and what
is still in the buffer.  As long as both together are the stream, no line has
been lost, and one read can only break this by finding bytes behind its line.
-/

namespace Session

/-- What has been pushed are the first lines of the stream, and the buffer holds
the lines that have not been read and the beginning of the next one. -/
structure LinesKept (session : Session) : Prop where
  lines : session.pushed ++ completeLines newline session.buffer =
    completeLines newline session.received
  whole : ofLines newline session.pushed ++ session.buffer = session.received

/-- Nothing that has been received is missing. -/
theorem linesKept_iff {session : Session} (clean : ∀ line ∈ session.pushed, newline ∉ line) :
    session.LinesKept ↔ ofLines newline session.pushed ++ session.buffer = session.received := by
  constructor
  · exact LinesKept.whole
  · intro whole
    refine ⟨?_, whole⟩
    rw [← whole, completeLines_ofLines clean]

/-- Only an empty remainder loses nothing to `consume`. -/
theorem drop_eq_self_iff (rest : Bytes) (count : Nat) :
    rest.drop (count + 1) = rest ↔ rest = [] := by
  constructor
  · intro same
    have lengths := congrArg List.length same
    rw [List.length_drop] at lengths
    exact List.eq_nil_of_length_eq_zero (by omega)
  · rintro rfl
    rfl

/-- No bytes lie behind the line that a read has found. -/
def LastLine (session : Session) : Event → Prop
  | .onRead _ index gone _ => ∀ completion,
      session.reads[index]? = some { completion := some completion } →
        completion.error = .success → session.nameThrows gone = false →
          session.hasFailed = false → afterLine newline session.buffer = []
  | _ => True

theorem onError_hasFailed (session : Session) (gone closeThrows : Bool) :
    (session.onError gone closeThrows).1.hasFailed = true := by
  rcases session.onError_cases gone closeThrows with ⟨_, same⟩ | ⟨_, same⟩
  · rw [same]
  · rw [same]
    rfl

theorem pushBack_hasFailed (session : Session) (line : Bytes) :
    (session.pushBack line).hasFailed = session.hasFailed := by
  unfold pushBack
  dsimp only
  split <;> rfl

/-- Taking a line keeps the stream exactly if `consume` finds nothing. -/
theorem linesKept_lineRead_iff {session : Session} (reading : session.Reading)
    (kept : session.LinesKept) {index : Nat} {completion : Completion}
    (listed : session.reads[index]? = some { completion := some completion })
    (success : completion.error = .success) :
    (session.lineRead index completion).LinesKept ↔ afterLine newline session.buffer = [] := by
  have found := reading.found _ (List.mem_of_getElem? listed) completion rfl success
  rcases of_lineCompletion found with ⟨ended, count⟩
  have pushed : (session.lineRead index completion).pushed =
      session.pushed ++ [firstLine newline session.buffer] := pushBack_pushed _ _
  have buffer : (session.lineRead index completion).buffer =
      (afterLine newline session.buffer).drop completion.bytesTransferred := pushBack_buffer _ _
  have received : (session.lineRead index completion).received = session.received :=
    pushBack_received _ _
  have clean : ∀ line ∈ (session.lineRead index completion).pushed, newline ∉ line := by
    rw [pushed, List.forall_mem_append, List.forall_mem_singleton]
    exact ⟨reading.clean, notMem_firstLine _⟩
  rw [linesKept_iff clean, pushed, buffer, received, ofLines_concat, ← kept.whole, count]
  -- Both sides begin with what has been pushed and go on with the same line.
  have line := firstLine_append_afterLine ended
  constructor
  · intro same
    have rest := List.append_cancel_left same
    rw [← line, firstLine_append (notMem_firstLine _), afterLine_append (notMem_firstLine _)]
      at rest
    have tails := List.append_cancel_left rest
    rw [List.cons.injEq] at tails
    exact (drop_eq_self_iff _ _).mp tails.2
  · intro nothing
    rw [(drop_eq_self_iff _ _).mpr nothing, line]

end Session

/-- A turn of an unfailed session keeps its stream exactly if it does not find
bytes behind the line it reads. -/
theorem Turn.linesKept_iff {id : Nat} {session after : Session} {event : Event} {raised : Bool}
    (turn : Turn id session event after raised) (reading : session.Reading)
    (kept : session.hasFailed = false → session.LinesKept) :
    (after.hasFailed = false → after.LinesKept) ↔ session.LastLine event := by
  cases turn with
  | arrive _ _ =>
      refine ⟨fun _ => trivial, fun _ healthy => ?_⟩
      have before := kept healthy
      refine (Session.linesKept_iff ?_).mpr ?_
      · exact reading.clean
      · change ofLines newline session.pushed ++ (session.buffer ++ _) = session.received ++ _
        rw [← List.append_assoc, before.whole]
  | readFailed _ => exact ⟨fun _ => trivial, fun _ healthy => ⟨(kept healthy).1, (kept healthy).2⟩⟩
  | writeDone _ => exact ⟨fun _ => trivial, fun _ healthy => ⟨(kept healthy).1, (kept healthy).2⟩⟩
  | writeFailed _ =>
      exact ⟨fun _ => trivial, fun _ healthy => ⟨(kept healthy).1, (kept healthy).2⟩⟩
  | readError listed failed =>
      constructor
      · intro _ completion found success
        rw [listed] at found
        cases found
        exact absurd success failed
      · intro _ healthy
        rw [Session.onError_hasFailed] at healthy
        cases healthy
  | lineLost _ _ threw =>
      constructor
      · intro _ _ _ _ named
        rw [threw] at named
        cases named
      · intro _ healthy
        cases healthy
  | @lineRead index completion _ _ listed success named =>
      have same : (session.lineRead index completion).hasFailed = session.hasFailed :=
        Session.pushBack_hasFailed _ _
      rw [same]
      constructor
      · intro after other found _ _ healthy
        exact (Session.linesKept_lineRead_iff reading (kept healthy) listed success).mp
          (after healthy)
      · intro last healthy
        have nothing := last completion listed success named healthy
        exact (Session.linesKept_lineRead_iff reading (kept healthy) listed success).mpr nothing
  | written _ _ =>
      refine ⟨fun _ => trivial, ?_⟩
      intro _
      unfold Session.popFront
      dsimp only
      split
      · exact fun healthy => ⟨(kept healthy).1, (kept healthy).2⟩
      · exact fun healthy => ⟨(kept healthy).1, (kept healthy).2⟩
  | writeError _ _ =>
      refine ⟨fun _ => trivial, fun _ healthy => ?_⟩
      rw [Session.onError_hasFailed] at healthy
      cases healthy

/-! ## Runs -/

/-- As long as a session has met no error, its lines are kept. -/
def LinesKept (id : Nat) (server : Server) : Prop :=
  (server.session id).hasFailed = false → (server.session id).LinesKept

/-- When the event is a handler of the session's read, no bytes lie behind the
line. -/
def ReadsLastLine (id : Nat) (server : Server) : Event → Prop
  | .onRead other index gone closeThrows =>
      other = id → (server.session id).LastLine (.onRead other index gone closeThrows)
  | _ => True

namespace LinesKept

variable {id : Nat} {server : Server}

/-- Changing one session keeps the lines of all if it keeps its own. -/
theorem update (kept : LinesKept id server) {other : Nat} {change : Session → Session}
    (changed : (change (server.session other)).LinesKept) :
    LinesKept id (server.update other change) := by
  refine Server.forall_update (fun each session => each = id → session.hasFailed = false →
    session.LinesKept) ?_ ?_ id rfl
  · exact fun _ _ => changed
  · intro each same
    exact same ▸ kept

theorem accept (kept : LinesKept id server) : LinesKept id server.accept := by
  refine Server.forall_accept (fun each session => each = id → session.hasFailed = false →
    session.LinesKept) ?_ ?_ id rfl
  · exact fun _ _ => ⟨rfl, rfl⟩
  · intro each same
    exact same ▸ kept

/-- The accept of a session that has begun nothing. -/
theorem dequeueAccept (kept : LinesKept id server) {target : Nat}
    (fresh : server.session target = {}) (index : Nat) :
    LinesKept id (server.dequeueAccept index target .success) := by
  rw [Server.dequeueAccept, if_pos rfl]
  have dequeued : LinesKept id { server with accepts := server.accepts.eraseIdx index } := kept
  apply dequeued.update
  change ({ server.session target with isOpen := true } : Session).LinesKept
  rw [fresh]
  exact ⟨rfl, rfl⟩

end LinesKept

/-- The turn of another session says nothing about this one. -/
private theorem readsLastLine_of_turn {id other : Nat} {server : Server} {event : Event}
    {after : Session} {raised : Bool}
    (turn : Turn other (server.session other) event after raised) :
    ReadsLastLine id server event ↔ (other = id → (server.session id).LastLine event) := by
  cases turn with
  | readError _ _ => exact Iff.rfl
  | lineLost _ _ _ => exact Iff.rfl
  | lineRead _ _ _ => exact Iff.rfl
  | arrive _ _ => exact ⟨fun _ _ => trivial, fun _ => trivial⟩
  | readFailed _ => exact ⟨fun _ _ => trivial, fun _ => trivial⟩
  | writeDone _ => exact ⟨fun _ _ => trivial, fun _ => trivial⟩
  | writeFailed _ => exact ⟨fun _ _ => trivial, fun _ => trivial⟩
  | written _ _ => exact ⟨fun _ _ => trivial, fun _ => trivial⟩
  | writeError _ _ => exact ⟨fun _ _ => trivial, fun _ => trivial⟩

theorem linesKept_step (id : Nat) (server : Server) (event : Event) (next : Server)
    (invariant : Invariant server) (kept : LinesKept id server)
    (moved : Server.machine.step server event = some next) :
    LinesKept id next ↔ ReadsLastLine id server event := by
  have moves := (moves_of_step moved).2
  cases moves with
  | acceptDone _ _ => exact ⟨fun _ => trivial, fun _ => kept⟩
  | @turn other _ after _ turn =>
      rw [readsLastLine_of_turn turn]
      by_cases same : other = id
      · subst same
        have here : (server.update other fun _ => after).session other = after :=
          Server.update_session_self _ _
        have exactly := turn.linesKept_iff (invariant.reading other) kept
        rw [LinesKept]
        change (((server.update other fun _ => after).session other).hasFailed = false →
          ((server.update other fun _ => after).session other).LinesKept) ↔ _
        rw [here, exactly]
        exact ⟨fun last _ => last, fun last => last rfl⟩
      · have elsewhere : (server.update other fun _ => after).session id = server.session id :=
          Server.update_session_of_ne (Ne.symm same) _
        refine ⟨fun _ equal => absurd equal same, fun _ => ?_⟩
        change ((server.update other fun _ => after).session id).hasFailed = false →
          ((server.update other fun _ => after).session id).LinesKept
        rw [elsewhere]
        exact kept
  | acceptFailed _ _ => exact ⟨fun _ => trivial, fun _ => kept⟩
  | @acceptThrew index target listed =>
      have fresh := invariant.unassigned _ (List.mem_of_getElem? listed)
      exact ⟨fun _ => trivial, fun _ => kept.dequeueAccept fresh index⟩
  | @accepted index target listed =>
      refine ⟨fun _ => trivial, fun _ => ?_⟩
      have fresh : server.session target = {} :=
        invariant.unassigned _ (List.mem_of_getElem? listed)
      refine ((kept.dequeueAccept fresh index).update ?_).accept
      rw [Server.dequeueAccept, if_pos rfl, Server.update_session_self]
      change ({ server.session target with isOpen := true } : Session).start.LinesKept
      rw [fresh]
      exact ⟨rfl, rfl⟩

theorem linesKept_initial (id : Nat) : LinesKept id Server.machine.initial := by
  have empty : LinesKept id {} := fun _ => ⟨rfl, rfl⟩
  exact empty.accept

/-- The lines of a client are kept throughout a run exactly when no read of its
session finds bytes behind its line. -/
theorem linesKept_along_run (id : Nat) {events : List Event} {final : Server}
    (steps : Server.machine.run Server.machine.initial events = some final) :
    Server.machine.Always (LinesKept id) Server.machine.initial events ↔
      Server.machine.Meets (ReadsLastLine id) Server.machine.initial events :=
  Server.machine.always_iff_meets (fun _ _ _ invariant moved => invariant.of_step moved)
    (linesKept_step id) Invariant.initial (linesKept_initial id) steps

/-! ### Two lines in one piece -/

/-- A client sends two lines at once. -/
def twoLines : List Event :=
  [.acceptDone 0 .success, .onAccept 0 false, .arrive 0 0 (bytes "a\nb\n"),
    .onRead 0 0 false false]

private theorem twoLines_dropped : ∃ server, Server.machine.run Server.machine.initial twoLines =
    some server ∧ (server.session 0).hasFailed = false ∧
      (server.session 0).received = bytes "a\nb\n" ∧ (server.session 0).pushed = [bytes "a"] ∧
      (server.session 0).buffer = [] := by
  have outcome : (Server.machine.run Server.machine.initial twoLines).map (fun server =>
      decide ((server.session 0).hasFailed = false ∧
        (server.session 0).received = bytes "a\nb\n" ∧ (server.session 0).pushed = [bytes "a"] ∧
        (server.session 0).buffer = [])) = some true := by decide +kernel
  rcases Option.map_eq_some_iff.mp outcome with ⟨server, steps, facts⟩
  exact ⟨server, steps, of_decide_eq_true facts⟩

/-- The second line is neither pushed nor in the buffer. -/
theorem twoLines_not_linesKept : ∃ server, Server.machine.Reachable server ∧
    ¬ LinesKept 0 server := by
  rcases twoLines_dropped with ⟨server, steps, healthy, received, pushed, buffer⟩
  refine ⟨server, ⟨twoLines, steps⟩, fun kept => ?_⟩
  have whole := (kept healthy).whole
  rw [received, pushed, buffer] at whole
  exact absurd whole (by decide)

/-- Reading the first line is the step that does not meet the condition. -/
theorem twoLines_not_meets :
    ¬ Server.machine.Meets (ReadsLastLine 0) Server.machine.initial twoLines := by
  rcases twoLines_dropped with ⟨server, steps, healthy, received, pushed, buffer⟩
  intro meets
  have whole := (((linesKept_along_run 0 steps).mpr meets).last _ steps healthy).whole
  rw [received, pushed, buffer] at whole
  exact absurd whole (by decide)

end Streambuf
end LearnAsio
