import LearnAsio.Streambuf.Lines
import LearnAsio.Transition.Draining

namespace LearnAsio
namespace Streambuf

open Chat (Completion Read newline)
open Delivery Queue Transition

/-!
# What comes back to a client

From every state of a running loop the handlers of one session, and the socket taking
what it writes, bring the session to rest: no line is left in its buffer, nothing is
left in its queue, and it waits for more.  No other session is needed for that and none
is touched.

`consume` takes nothing away from a client that keeps in step with the server, so that
no piece of what arrives has bytes behind its first newline.  To such a client all its
lines come back.
-/

/-- The piece that arrives for a session ends with its first newline. -/
def InStep (id : Nat) (_server : Server) : Event → Prop
  | .arrive other _ data => other = id → afterLine newline data = []
  | _ => True

instance (id : Nat) (server : Server) (event : Event) : Decidable (InStep id server event) := by
  unfold InStep
  split <;> infer_instance

/-- The handlers of a session run while its peer is there, and its socket takes a
message. -/
def Event.Serves (id : Nat) : Event → Prop
  | .writeDone other _ => other = id
  | .onRead other _ gone closeThrows => other = id ∧ gone = false ∧ closeThrows = false
  | .onWrite other _ gone closeThrows => other = id ∧ gone = false ∧ closeThrows = false
  | _ => False

/-- Behind the first newline of two pieces is what is behind that of the second one, if
the first one has none. -/
theorem afterLine_append_of_notMem {first : Bytes} (absent : newline ∉ first) (second : Bytes) :
    afterLine newline (first ++ second) = afterLine newline second := by
  have passes : ∀ byte ∈ first, decide (byte ≠ newline) = true := fun byte among =>
    decide_eq_true fun same => absent (same ▸ among)
  rw [afterLine, List.dropWhile_append_of_pos passes]
  rfl

namespace Session

/-- A session that waits for a line has none, and an open one is reading. -/
structure Armed (session : Session) : Prop where
  waiting : ∀ read ∈ session.reads, read.completion = none → newline ∉ session.buffer
  reading : session.isOpen = true → session.reads ≠ []

/-- No operation of the session has failed. -/
structure Healthy (session : Session) : Prop where
  isOpen : session.isOpen = true
  unfailed : session.hasFailed = false ∧ session.writeFailed = false
  reading : ∀ read ∈ session.reads, ∀ completion, read.completion = some completion →
    completion.error = .success
  writing : ∀ write ∈ session.writes, ∀ completion, write.completion = some completion →
    completion.error = .success

/-- Nothing is being written, and no completion waits for its handler. -/
structure AtRest (session : Session) : Prop where
  writes : session.writes = []
  reads : ∀ read ∈ session.reads, read.completion = none

/-- The events that it takes to bring the session to rest: three for each line, two for
each message, one less if the first message has been written and its handler has not
run. -/
def work (session : Session) : Nat :=
  3 * session.buffer.count newline + 2 * session.messages.length -
    session.writes.countP fun write => write.completion.isSome

variable {session : Session}

theorem Armed.empty : Armed {} where
  waiting := List.forall_mem_nil _
  reading := fun impossible => absurd impossible Bool.false_ne_true

/-- A closed session waits for nothing. -/
theorem Armed.close (session : Session) : session.close.Armed where
  waiting := by
    intro read among
    rcases List.mem_map.mp among with ⟨before, _, rfl⟩
    exact fun impossible => absurd impossible (Option.some_ne_none _)
  reading := fun impossible => absurd impossible Bool.false_ne_true

theorem pushBack_initialCompletion (session : Session) (line : Bytes) :
    (session.pushBack line).initialCompletion = session.initialCompletion := by
  unfold pushBack
  dsimp only
  split <;> rfl

/-- After the handler of a line the next read is outstanding. -/
theorem lineRead_reads (reading : session.Reading) {index : Nat} {completion : Completion}
    (listed : session.reads[index]? = some { completion := some completion }) :
    (session.lineRead index completion).reads =
      [{ completion := (Chat.Session.lineCompletion
          (session.lineRead index completion).buffer).or session.initialCompletion }] := by
  have none := eraseIdx_of_listed reading.single listed
  let consumed := (session.dequeueRead index).getline.2.consume completion.bytesTransferred
  let pushed := consumed.pushBack (firstLine newline session.buffer)
  have before : pushed.reads = [] := (pushBack_reads _ _).trans none
  have same : pushed.initialCompletion = session.initialCompletion :=
    pushBack_initialCompletion consumed _
  have begun : pushed.read.reads = pushed.reads ++ [{ completion :=
      (Chat.Session.lineCompletion pushed.read.buffer).or pushed.initialCompletion }] := rfl
  rw [before, same, List.nil_append] at begun
  exact begun

theorem lineRead_buffer (session : Session) (index : Nat) (completion : Completion) :
    (session.lineRead index completion).buffer =
      (afterLine newline session.buffer).drop completion.bytesTransferred :=
  pushBack_buffer _ _

theorem lineRead_isOpen (session : Session) (index : Nat) (completion : Completion) :
    (session.lineRead index completion).isOpen = session.isOpen := by
  rw [lineRead, read, pushBack]
  dsimp only
  split <;> rfl

end Session

/-! ## A session stays armed -/

namespace Turn

variable {id : Nat} {session after : Session} {event : Event} {raised : Bool}

theorem armed (turn : Turn id session event after raised) (reading : session.Reading)
    (armed : session.Armed) (quiet : raised = false) : after.Armed := by
  have failed : ∀ {session : Session} {gone closeThrows : Bool},
      (session.onError gone closeThrows).2 = false →
        (session.onError gone closeThrows).1.Armed := by
    intro session gone closeThrows quiet
    rcases session.onError_cases gone closeThrows with ⟨_, same⟩ | ⟨_, same⟩
    · rw [same] at quiet
      cases quiet
    · rw [same]
      exact .close _
  cases turn with
  | @arrive index data listed _ =>
      have only := set_of_listed reading.single listed
        ({ completion := Chat.Session.lineCompletion (session.buffer ++ data) } : Read)
      constructor
      · intro read among unfound
        change read ∈ session.reads.set index _ at among
        rw [only, List.mem_singleton] at among
        subst among
        intro found
        have arrived : newline ∈ session.buffer ++ data := found
        rw [Chat.Session.lineCompletion, if_pos arrived] at unfound
        cases unfound
      · intro _ none
        change session.reads.set index _ = [] at none
        rw [only] at none
        cases none
  | @readFailed index listed =>
      have only := set_of_listed reading.single listed
        ({ completion := some { error := .failure } } : Read)
      constructor
      · intro read among unfound
        change read ∈ session.reads.set index _ at among
        rw [only, List.mem_singleton] at among
        subst among
        cases unfound
      · intro _ none
        change session.reads.set index _ = [] at none
        rw [only] at none
        cases none
  | writeDone _ => exact ⟨armed.waiting, armed.reading⟩
  | writeFailed _ => exact ⟨armed.waiting, armed.reading⟩
  | readError _ _ => exact failed quiet
  | lineLost _ _ _ => cases quiet
  | @lineRead index completion _ _ listed _ _ =>
      have reads := Session.lineRead_reads reading listed
      constructor
      · intro read among unfound found
        rw [reads, List.mem_singleton] at among
        subst among
        rw [Chat.Session.lineCompletion, if_pos found] at unfound
        cases unfound
      · intro _ none
        rw [reads] at none
        cases none
  | written _ _ =>
      unfold Session.popFront
      dsimp only
      split
      · exact ⟨armed.waiting, armed.reading⟩
      · exact ⟨armed.waiting, armed.reading⟩
  | writeError _ _ => exact failed quiet

end Turn

/-- As long as the loop runs, every session is armed. -/
def AllArmed (server : Server) : Prop :=
  server.thrown = false → ∀ id, (server.session id).Armed

theorem allArmed_step (server : Server) (event : Event) (next : Server)
    (lawful : Invariant server ∧ AllArmed server)
    (moved : Server.machine.step server event = some next) : Invariant next ∧ AllArmed next := by
  rcases lawful with ⟨invariant, all⟩
  refine ⟨invariant.of_step moved, fun quiet => ?_⟩
  rcases moves_of_step moved with ⟨running, moves⟩
  have armed := all running
  cases moves with
  | acceptDone _ _ => exact armed
  | @turn id _ after _ turn =>
      change ∀ other, ((server.update id fun _ => after).session other).Armed
      refine Server.forall_update (fun _ session => session.Armed) ?_ armed
      exact turn.armed (invariant.reading id) (armed id) quiet
  | acceptFailed _ _ => exact armed
  | acceptThrew _ => cases quiet
  | @accepted index target listed =>
      have fresh : server.session target = {} :=
        invariant.unassigned _ (List.mem_of_getElem? listed)
      have started : ({ server.session target with isOpen := true } : Session).start.Armed := by
        rw [fresh]
        refine ⟨fun _ _ _ => List.not_mem_nil, fun _ none => ?_⟩
        cases none
      refine Server.forall_accept (fun _ session => session.Armed) .empty ?_
      intro other
      by_cases same : other = target
      · subst same
        rw [Server.update_session_self, Server.dequeueAccept, if_pos rfl,
          Server.update_session_self]
        exact started
      · rw [Server.update_session_of_ne same, Server.dequeueAccept, if_pos rfl,
          Server.update_session_of_ne same]
        exact armed other

/-! ## One event of a session that is served -/

namespace Session

/-- The session has got on without meeting an error. -/
structure Advances (before after : Session) : Prop where
  healthy : after.Healthy
  received : after.received = before.received
  work : after.work < before.work

variable {session : Session}

theorem length_messages_pos (lawful : session.writer.Lawful) {index : Nat} {write : Write}
    (listed : session.writes[index]? = some write) : 0 < session.messages.length := by
  have front := lawful.front _ (message_mem_writing listed)
  refine List.length_pos_iff.mpr fun none => ?_
  rw [show session.writer.queue = [] from none] at front
  cases front

theorem initialCompletion_of_open (isOpen : session.isOpen = true) :
    session.initialCompletion = none := if_pos isOpen

/-- The socket has taken a message. -/
theorem advances_writeDone (lawful : session.writer.Lawful) (healthy : session.Healthy)
    {index : Nat} {written : Bytes}
    (listed : session.writes[index]? = some { message := written }) :
    session.Advances (session.completeWrite index written .success) := by
  have single := length_writes_le_one lawful
  have before := (eq_singleton_of_listed single listed).1
  have after : (session.completeWrite index written .success).writes =
      [{ message := written, completion := some { error := .success } }] :=
    set_of_listed single listed _
  have filled := length_messages_pos lawful listed
  refine ⟨⟨healthy.isOpen, healthy.unfailed, healthy.reading, ?_⟩, rfl, ?_⟩
  · intro write among completion outcome
    rw [after, List.mem_singleton] at among
    subst among
    cases outcome
    rfl
  · rw [work, work, after, before]
    change 3 * session.buffer.count newline + 2 * session.messages.length - 1 <
      3 * session.buffer.count newline + 2 * session.messages.length - 0
    omega

theorem pushBack_messages (session : Session) (line : Bytes) :
    (session.pushBack line).messages = session.messages ++ [line] := by
  unfold pushBack
  dsimp only
  split <;> rfl

theorem pushBack_writes (session : Session) (line : Bytes) :
    (session.pushBack line).writes = session.writes ++
      if session.messages = [] then
        [{ message := line, completion := session.initialCompletion }]
      else [] := by
  by_cases none : session.messages = []
  · rw [if_pos none]
    simp [pushBack, write, none, initialCompletion]
  · rw [if_neg none, List.append_nil]
    simp [pushBack, none]

/-- Nothing that `on_read` does fails, so the session stays healthy. -/
theorem healthy_lineRead (reading : session.Reading) (healthy : session.Healthy) {index : Nat}
    {completion : Completion}
    (listed : session.reads[index]? = some { completion := some completion }) :
    (session.lineRead index completion).Healthy := by
  have pending := initialCompletion_of_open healthy.isOpen
  have kept : (session.lineRead index completion).hasFailed = session.hasFailed ∧
      (session.lineRead index completion).writeFailed = session.writeFailed := by
    rw [lineRead, read, pushBack]
    dsimp only
    split <;> exact ⟨rfl, rfl⟩
  have writes : (session.lineRead index completion).writes = session.writes ++ _ :=
    pushBack_writes _ _
  refine ⟨(lineRead_isOpen _ _ _).trans healthy.isOpen, ?_, ?_, ?_⟩
  · rw [kept.1, kept.2]
    exact healthy.unfailed
  · intro read among outcome ended
    rw [lineRead_reads reading listed, List.mem_singleton, pending, Option.or_none] at among
    subst among
    change Chat.Session.lineCompletion _ = some outcome at ended
    rw [Chat.Session.lineCompletion] at ended
    split at ended
    · cases ended
      rfl
    · cases ended
  · intro write among outcome ended
    rw [writes] at among
    rcases List.mem_append.mp among with earlier | new
    · exact healthy.writing write earlier outcome ended
    · split at new
      · rw [List.mem_singleton] at new
        subst new
        exact absurd (pending.symm.trans ended) (Option.some_ne_none _).symm
      · cases new

/-- The handler of a line takes it off the buffer and queues it. -/
theorem advances_lineRead (reading : session.Reading) (lawful : session.writer.Lawful)
    (healthy : session.Healthy) {index : Nat} {completion : Completion}
    (listed : session.reads[index]? = some { completion := some completion })
    (success : completion.error = .success) :
    session.Advances (session.lineRead index completion) := by
  have reads := lineRead_reads reading listed
  have found := reading.found _ (List.mem_of_getElem? listed) completion rfl success
  have ended := (of_lineCompletion found).1
  have lines : session.buffer.count newline =
      (afterLine newline session.buffer).count newline + 1 := by
    have split := congrArg (List.count newline) (firstLine_append_afterLine ended)
    rw [List.count_append, List.count_cons_self,
      List.count_eq_zero_of_not_mem (notMem_firstLine session.buffer), Nat.zero_add] at split
    exact split.symm
  have fewer : (session.lineRead index completion).buffer.count newline ≤
      (afterLine newline session.buffer).count newline := by
    rw [lineRead_buffer]
    exact (List.drop_sublist _ _).count_le _
  have messages : (session.lineRead index completion).messages =
      session.messages ++ [firstLine newline session.buffer] := pushBack_messages _ _
  have writes : (session.lineRead index completion).writes = session.writes ++ _ :=
    pushBack_writes _ _
  refine ⟨healthy_lineRead reading healthy listed, pushBack_received _ _, ?_⟩
  have settled : session.writes.countP (fun write => write.completion.isSome) ≤
      (session.lineRead index completion).writes.countP fun write => write.completion.isSome := by
    rw [writes, List.countP_append]
    exact Nat.le_add_right _ _
  have bound : session.writes.countP (fun write => write.completion.isSome) ≤ 1 :=
    Nat.le_trans List.countP_le_length (length_writes_le_one lawful)
  rw [work, work, messages, List.length_append, List.length_singleton]
  omega

/-- The handler of a write takes the message off the queue. -/
theorem advances_written (lawful : session.writer.Lawful) (healthy : session.Healthy)
    {index : Nat} {written : Bytes} {completion : Completion}
    (listed : session.writes[index]? =
      some { message := written, completion := some completion }) :
    session.Advances ((session.dequeueWrite index).popFront written) := by
  have single := length_writes_le_one lawful
  have before := (eq_singleton_of_listed single listed).1
  have none := eraseIdx_of_listed single listed
  have filled := length_messages_pos lawful listed
  have shorter : session.messages.tail.length = session.messages.length - 1 := List.length_tail
  have pending := initialCompletion_of_open healthy.isOpen
  have writes : ∀ write ∈ ((session.dequeueWrite index).popFront written).writes,
      write.completion = Option.none := by
    unfold popFront
    dsimp only
    split
    · intro write among
      change write ∈ session.writes.eraseIdx index at among
      rw [none] at among
      cases among
    · intro write among
      change write ∈ session.writes.eraseIdx index ++ _ at among
      rw [none, List.nil_append] at among
      rcases List.mem_map.mp among with ⟨message, _, rfl⟩
      exact pending
  have same : ((session.dequeueWrite index).popFront written).isOpen = session.isOpen ∧
      ((session.dequeueWrite index).popFront written).hasFailed = session.hasFailed ∧
      ((session.dequeueWrite index).popFront written).writeFailed = session.writeFailed ∧
      ((session.dequeueWrite index).popFront written).reads = session.reads ∧
      ((session.dequeueWrite index).popFront written).received = session.received ∧
      ((session.dequeueWrite index).popFront written).buffer = session.buffer ∧
      ((session.dequeueWrite index).popFront written).messages = session.messages.tail := by
    unfold popFront
    dsimp only
    split <;> exact ⟨rfl, rfl, rfl, rfl, rfl, rfl, rfl⟩
  rcases same with ⟨isOpen, hasFailed, writeFailed, reads, received, buffer, messages⟩
  refine ⟨⟨isOpen.trans healthy.isOpen, ?_, reads ▸ healthy.reading, ?_⟩, received, ?_⟩
  · rw [hasFailed, writeFailed]
    exact healthy.unfailed
  · intro write among outcome ended
    exact absurd ((writes write among).symm.trans ended) (Option.some_ne_none _).symm
  · rw [work, work, buffer, messages, before]
    change _ < 3 * session.buffer.count newline + 2 * session.messages.length - 1
    omega

end Session

/-- A session that is served without errors gets on. -/
theorem Turn.advances {id other : Nat} {session after : Session} {event : Event} {raised : Bool}
    (turn : Turn other session event after raised) (serves : event.Serves id)
    (reading : session.Reading) (lawful : session.writer.Lawful) (healthy : session.Healthy) :
    other = id ∧ raised = false ∧ session.Advances after := by
  cases turn with
  | arrive _ _ => cases serves
  | readFailed _ => cases serves
  | writeFailed _ => cases serves
  | writeDone listed => exact ⟨serves, rfl, Session.advances_writeDone lawful healthy listed⟩
  | readError listed failed =>
      exact absurd (healthy.reading _ (List.mem_of_getElem? listed) _ rfl) failed
  | lineLost _ _ threw =>
      rw [serves.2.1, Session.nameThrows, Bool.and_false] at threw
      cases threw
  | lineRead listed success _ =>
      exact ⟨serves.1, rfl, Session.advances_lineRead reading lawful healthy listed success⟩
  | written listed _ => exact ⟨serves.1, rfl, Session.advances_written lawful healthy listed⟩
  | writeError listed failed =>
      exact absurd (healthy.writing _ (List.mem_of_getElem? listed) _ rfl) failed

/-! ## A client in step -/

/-- The lines of the session are kept, and its buffer holds nothing behind a
newline. -/
structure Kept (id : Nat) (server : Server) : Prop where
  lines : LinesKept id server
  behind : afterLine newline (server.session id).buffer = []

/-- With one line at a time in the buffer there is nothing for `consume` to take. -/
theorem Turn.behind {id : Nat} {session after : Session} {event : Event} {raised : Bool}
    (turn : Turn id session event after raised) (armed : session.Armed)
    (behind : afterLine newline session.buffer = [])
    (piece : ∀ index data, event = .arrive id index data → afterLine newline data = []) :
    afterLine newline after.buffer = [] := by
  have failed : ∀ {session : Session} {gone closeThrows : Bool},
      (session.onError gone closeThrows).1.buffer = session.buffer := by
    intro session gone closeThrows
    rcases session.onError_cases gone closeThrows with ⟨_, same⟩ | ⟨_, same⟩
    · rw [same]
    · rw [same]
      rfl
  cases turn with
  | @arrive index data listed _ =>
      have absent := armed.waiting _ (List.mem_of_getElem? listed) rfl
      exact (afterLine_append_of_notMem absent data).trans (piece index data rfl)
  | readFailed _ => exact behind
  | writeDone _ => exact behind
  | writeFailed _ => exact behind
  | readError _ _ =>
      rw [failed]
      exact behind
  | lineLost _ _ _ =>
      change afterLine newline (afterLine newline session.buffer) = []
      rw [behind]
      rfl
  | lineRead _ _ _ =>
      rw [Session.lineRead_buffer, behind, List.drop_nil]
      rfl
  | written _ _ =>
      unfold Session.popFront
      dsimp only
      split <;> exact behind
  | writeError _ _ =>
      rw [failed]
      exact behind

/-- An accept receives nothing. -/
theorem dequeueAccept_buffer {server : Server} (index target : Nat) (ec : ErrorCode) (id : Nat) :
    ((server.dequeueAccept index target ec).session id).buffer = (server.session id).buffer := by
  unfold Server.dequeueAccept
  dsimp only
  split
  · by_cases same : id = target
    · subst same
      rw [Server.update_session_self]
    · rw [Server.update_session_of_ne same]
  · rfl

theorem kept_step (id : Nat) (server : Server) (event : Event) (next : Server)
    (lawful : (Invariant server ∧ AllArmed server) ∧ Kept id server)
    (inStep : InStep id server event) (moved : Server.machine.step server event = some next) :
    (Invariant next ∧ AllArmed next) ∧ Kept id next := by
  rcases lawful with ⟨⟨invariant, armed⟩, kept⟩
  refine ⟨allArmed_step server event next ⟨invariant, armed⟩ moved, ?_, ?_⟩
  · -- Every read finds the last line of the buffer, whatever it does with it.
    refine (linesKept_step id server event next invariant kept.lines moved).mpr ?_
    cases event with
    | onRead other index gone closeThrows => exact fun _ _ _ _ _ _ => kept.behind
    | _ => trivial
  · rcases moves_of_step moved with ⟨running, moves⟩
    cases moves with
    | acceptDone _ _ => exact kept.behind
    | @turn other _ after _ turn =>
        change afterLine newline ((server.update other fun _ => after).session id).buffer = []
        by_cases same : other = id
        · subst same
          rw [Server.update_session_self]
          refine turn.behind (armed running other) kept.behind ?_
          rintro index data rfl
          exact inStep rfl
        · rw [Server.update_session_of_ne (Ne.symm same)]
          exact kept.behind
    | acceptFailed _ _ => exact kept.behind
    | @acceptThrew index target _ =>
        rw [dequeueAccept_buffer]
        exact kept.behind
    | @accepted index target _ =>
        refine Server.forall_accept (fun each session => each = id →
          afterLine newline session.buffer = []) (fun _ => rfl) ?_ id rfl
        refine Server.forall_update (fun each session => each = id →
          afterLine newline session.buffer = []) ?_ ?_
        · rintro rfl
          refine (congrArg (afterLine newline) ?_).trans kept.behind
          exact dequeueAccept_buffer index target .success target
        · rintro each rfl
          rw [dequeueAccept_buffer]
          exact kept.behind

/-! ## Service -/

/-- What service of one session leaves of a state. -/
structure Serving (start : Server) (id : Nat) (server : Server) : Prop where
  lawful : Invariant server ∧ AllArmed server
  running : server.thrown = false
  healthy : (server.session id).Healthy
  received : (server.session id).received = (start.session id).received
  elsewhere : ∀ other, other ≠ id → server.session other = start.session other
  accepts : server.accepts = start.accepts
  kept : Kept id start → Kept id server

theorem serving_drains (start : Server) (id : Nat) : Server.machine.Drains (Serving start id)
    (fun _ event => event.Serves id) fun server => (server.session id).work := by
  have step : ∀ server event next, Serving start id server → event.Serves id →
      Server.machine.step server event = some next →
        Serving start id next ∧ (next.session id).work < (server.session id).work := by
    intro server event next serving serves moved
    have lawful := allArmed_step server event next serving.lawful moved
    have inStep : InStep id server event := by
      cases event with
      | arrive _ _ _ => cases serves
      | _ => trivial
    have kept : Kept id start → Kept id next := fun before =>
      (kept_step id server event next ⟨serving.lawful, serving.kept before⟩ inStep moved).2
    rcases moves_of_step moved with ⟨running, moves⟩
    cases moves with
    | acceptDone _ _ => cases serves
    | acceptFailed _ _ => cases serves
    | acceptThrew _ => cases serves
    | accepted _ => cases serves
    | @turn other _ after _ turn =>
        have known : other = id := by
          cases turn with
          | arrive _ _ => cases serves
          | readFailed _ => cases serves
          | writeFailed _ => cases serves
          | writeDone _ => exact serves
          | readError _ _ => exact serves.1
          | lineLost _ _ _ => exact serves.1
          | lineRead _ _ _ => exact serves.1
          | written _ _ => exact serves.1
          | writeError _ _ => exact serves.1
        subst known
        have invariant := serving.lawful.1
        rcases turn.advances serves (invariant.reading other) (invariant.writing other)
          serving.healthy with ⟨_, quiet, advances⟩
        have here : (server.update other fun _ => after).session other = after :=
          Server.update_session_self _ _
        subst quiet
        refine ⟨⟨lawful, rfl, ?_, ?_, ?_, serving.accepts, kept⟩, ?_⟩
        · exact here.symm ▸ advances.healthy
        · exact (congrArg Session.received here).trans
            (advances.received.trans serving.received)
        · intro another different
          have same : (server.update other fun _ => after).session another =
              server.session another := Server.update_session_of_ne different _
          exact same.trans (serving.elsewhere another different)
        · exact (congrArg Session.work here).symm ▸ advances.work
  exact ⟨fun server event next serving serves moved =>
      (step server event next serving serves moved).1,
    fun server event next serving serves moved =>
      (step server event next serving serves moved).2⟩

/-- A session that is not at rest can be served. -/
theorem serves_of_not_atRest {server : Server} (running : server.thrown = false) {id : Nat}
    (busy : ¬ (server.session id).AtRest) :
    ∃ event next, event.Serves id ∧ Server.machine.step server event = some next := by
  have going : ¬ server.thrown = true := fun stopped =>
    Bool.false_ne_true (running.symm.trans stopped)
  cases writes : (server.session id).writes with
  | cons write rest =>
      have listed : (server.session id).writes[0]? = some write := by
        rw [writes]
        rfl
      rcases write with ⟨message, completion⟩
      cases completion with
      | none =>
          refine ⟨.writeDone id 0,
            server.update id fun session => session.completeWrite 0 message .success, rfl, ?_⟩
          rw [Server.machine_step, if_neg going]
          simp only [Server.react, listed]
      | some completion =>
          refine ⟨.onWrite id 0 false false, server.handle id fun session =>
            (session.dequeueWrite 0).onWrite message completion.error false false,
            ⟨rfl, rfl, rfl⟩, ?_⟩
          rw [Server.machine_step, if_neg going]
          simp only [Server.react, listed]
  | nil =>
      have unread : ∃ read ∈ (server.session id).reads, read.completion ≠ none := by
        by_contra all
        push Not at all
        exact busy ⟨writes, all⟩
      rcases unread with ⟨⟨completion⟩, among, complete⟩
      rcases Option.ne_none_iff_exists'.mp complete with ⟨outcome, same⟩
      change completion = some outcome at same
      subst same
      rcases List.mem_iff_getElem?.mp among with ⟨index, listed⟩
      refine ⟨.onRead id index false false, server.handle id fun session =>
        (session.dequeueRead index).onRead outcome false false, ⟨rfl, rfl, rfl⟩, ?_⟩
      rw [Server.machine_step, if_neg going]
      simp only [Server.react, listed]

/-- At rest a healthy session has one read outstanding, and no line for it. -/
theorem waits_of_atRest {session : Session} (reading : session.Reading)
    (armed : session.Armed) (healthy : session.Healthy) (rest : session.AtRest) :
    session.reads = [{ completion := none }] ∧ newline ∉ session.buffer := by
  rcases List.exists_mem_of_ne_nil _ (armed.reading healthy.isOpen) with ⟨read, among⟩
  have pending := rest.reads read among
  rcases List.mem_iff_getElem?.mp among with ⟨index, listed⟩
  refine ⟨?_, armed.waiting read among pending⟩
  rw [(eq_singleton_of_listed reading.single listed).1, ← pending]

/-- It has written back all that it has pushed. -/
theorem sent_of_atRest {session : Session} (lawful : session.writer.Lawful)
    (healthy : session.Healthy) (rest : session.AtRest) : session.sent = session.pushed := by
  have silent : session.writer.writing = [] := by
    rw [Session.writer, rest.writes]
    rfl
  have idle : session.messages = [] := lawful.idle healthy.unfailed.2 silent
  have history : session.sent ++ session.messages = session.pushed := lawful.history
  rw [idle, List.append_nil] at history
  exact history

/-- The session is at rest and waits for a line that has not come, the loop still runs,
nothing else has changed, and what comes back to the client is what has been pushed: all
the lines it has sent if it has kept in step. -/
structure Echoed (events : List Event) (server : Server) (id : Nat) (final : Server) :
    Prop where
  running : final.thrown = false
  rest : (final.session id).AtRest
  waits : (final.session id).reads = [{ completion := none }]
  noLine : newline ∉ (final.session id).buffer
  healthy : (final.session id).Healthy
  sent : (final.session id).sent = (final.session id).pushed
  inStep : Server.machine.Meets (InStep id) Server.machine.initial events →
    (final.session id).sent = completeLines newline (server.session id).received
  elsewhere : ∀ other, other ≠ id → final.session other = server.session other
  accepts : final.accepts = server.accepts

/-- Every run that has left the loop running and a session healthy can be continued by
serving that session alone, at most as often as it has work, until it is at rest. -/
theorem echoed_after_run {events : List Event} {server : Server}
    (steps : Server.machine.run Server.machine.initial events = some server)
    (running : server.thrown = false) {id : Nat} (healthy : (server.session id).Healthy) :
    ∃ more final, Server.machine.run server more = some final ∧
      (∀ event ∈ more, event.Serves id) ∧ more.length ≤ (server.session id).work ∧
      Echoed events server id final := by
  have first : (Invariant Server.machine.initial ∧ AllArmed Server.machine.initial) ∧
      Kept id Server.machine.initial := by
    refine ⟨⟨Invariant.initial, fun _ => ?_⟩, linesKept_initial id, ?_⟩
    · exact Server.forall_accept (fun _ session => session.Armed) .empty fun _ => .empty
    · exact Server.forall_accept (fun _ session => afterLine newline session.buffer = []) rfl
        (fun _ => rfl) id
  have lawful : Invariant server ∧ AllArmed server :=
    Server.machine.run_induction allArmed_step first.1 steps
  have start : Serving server id server :=
    ⟨lawful, running, healthy, rfl, fun _ _ => rfl, rfl, fun kept => kept⟩
  have enabled : ∀ state, Serving server id state → ¬ (state.session id).AtRest →
      ∃ event next, event.Serves id ∧ Server.machine.step state event = some next :=
    fun state serving busy => serves_of_not_atRest serving.running busy
  rcases (serving_drains server id).exists_finished enabled start with
    ⟨more, final, continued, meets, serving, rest⟩
  have bound := (serving_drains server id).length_add_le start meets continued
  rcases waits_of_atRest (serving.lawful.1.reading id) (serving.lawful.2 serving.running id)
    serving.healthy rest with ⟨waits, noLine⟩
  have sent := sent_of_atRest (serving.lawful.1.writing id) serving.healthy rest
  refine ⟨more, final, continued, System.forall_of_meets meets continued,
    Nat.le_of_add_right_le bound, serving.running, rest, waits, noLine, serving.healthy, sent, ?_,
    serving.elsewhere, serving.accepts⟩
  intro inStep
  have kept := (Server.machine.meets_induction (kept_step id) first inStep steps).2
  have lines := ((serving.kept kept).lines serving.healthy.unfailed.1).lines
  rw [completeLines_of_notMem noLine, List.append_nil, serving.received] at lines
  rw [sent, lines]

/-- A client has sent two lines one after the other, and the server has done nothing
about them but to read the first. -/
def twoPieces : List Event :=
  [.acceptDone 0 .success, .onAccept 0 false, .arrive 0 0 (bytes "a"), .arrive 0 0 (bytes "b\n"),
    .onRead 0 0 false false, .arrive 0 0 (bytes "c\n")]

theorem twoPieces_echoed : ∃ server, Server.machine.run Server.machine.initial twoPieces =
    some server ∧ (server.session 0).sent = [] ∧
      ∃ more final, Server.machine.run server more = some final ∧
        (∀ event ∈ more, event.Serves 0) ∧ more.length ≤ (server.session 0).work ∧
        (final.session 0).sent = [bytes "ab", bytes "c"] ∧
        (final.session 0).reads = [{ completion := none }] := by
  have outcome : (Server.machine.run Server.machine.initial twoPieces).map (fun server =>
      decide (server.thrown = false ∧ (server.session 0).isOpen = true ∧
        (server.session 0).hasFailed = false ∧ (server.session 0).writeFailed = false ∧
        (server.session 0).reads =
          [{ completion := some { error := .success, bytesTransferred := 2 } }] ∧
        (server.session 0).writes = [{ message := bytes "ab" }] ∧
        (server.session 0).received = bytes "ab\nc\n" ∧
        (server.session 0).sent = [])) = some true := by decide +kernel
  rcases Option.map_eq_some_iff.mp outcome with ⟨server, steps, facts⟩
  rcases of_decide_eq_true facts with
    ⟨running, isOpen, unfailed, unbroken, reads, writes, received, sent⟩
  have healthy : (server.session 0).Healthy := by
    refine ⟨isOpen, ⟨unfailed, unbroken⟩, ?_, ?_⟩
    · rw [reads, List.forall_mem_singleton]
      rintro _ ⟨⟩
      rfl
    · rw [writes, List.forall_mem_singleton]
      rintro _ ⟨⟩
  rcases echoed_after_run steps running healthy with ⟨more, final, continued, serves, bound, echoed⟩
  refine ⟨server, steps, sent, more, final, continued, serves, bound, ?_, echoed.waits⟩
  have inStep : Server.machine.Meets (InStep 0) Server.machine.initial twoPieces := by
    decide +kernel
  rw [echoed.inStep inStep, received]
  decide

end Streambuf
end LearnAsio
