import LearnAsio.Streambuf.Lifecycle

namespace LearnAsio
namespace Streambuf

open Chat (Completion Read newline)
open Delivery Queue Transition

/-!
# What every reachable streambuf server satisfies

A session has one read at a time, and the completion of that read is about the
first line of the buffer.  Its queue obeys the single-writer discipline.  Both
are kept by every turn of the session, whichever errors it meets.
-/

namespace Session

/-- The completion of a read that has found a line fits the buffer, and what has
been pushed are lines. -/
structure Reading (session : Session) : Prop where
  single : session.reads.length ≤ 1
  found : ∀ read ∈ session.reads, ∀ completion, read.completion = some completion →
    completion.error = .success → Chat.Session.lineCompletion session.buffer = some completion
  clean : ∀ line ∈ session.pushed, newline ∉ line

/-- `async_read_until` has found a line and reports its length with the
delimiter. -/
theorem of_lineCompletion {buffer : Bytes} {completion : Completion}
    (found : Chat.Session.lineCompletion buffer = some completion) :
    newline ∈ buffer ∧ completion.bytesTransferred = (firstLine newline buffer).length + 1 := by
  refine ⟨Chat.Session.lineCompletion_success found, ?_⟩
  rw [Chat.Session.lineCompletion, if_pos (Chat.Session.lineCompletion_success found)] at found
  cases found
  rfl

theorem initialCompletion_error {session : Session} {completion : Completion}
    (failed : session.initialCompletion = some completion) : completion.error ≠ .success := by
  unfold initialCompletion at failed
  split at failed
  · cases failed
  · cases failed
    intro impossible
    cases impossible

namespace Reading

variable {session : Session}

theorem empty : Reading {} where
  single := Nat.zero_le 1
  found := fun _ listed => absurd listed List.not_mem_nil
  clean := fun _ listed => absurd listed List.not_mem_nil

/-- Beginning to read where no read is outstanding. -/
theorem read (none : session.reads = []) (clean : ∀ line ∈ session.pushed, newline ∉ line) :
    session.read.Reading where
  single := by
    simp only [Session.read, none, List.nil_append, List.length_singleton]
    exact Nat.le_refl 1
  found := by
    simp only [Session.read, none, List.nil_append, List.mem_singleton]
    rintro read rfl completion outcome success
    cases found : Chat.Session.lineCompletion session.buffer with
    | some _ =>
        rw [found, Option.some_or] at outcome
        exact outcome
    | none =>
        rw [found, Option.none_or] at outcome
        exact absurd success (initialCompletion_error outcome)
  clean := clean

theorem arrive (reading : session.Reading) {index : Nat} {read : Read}
    (listed : session.reads[index]? = some read) (data : Bytes) :
    (session.arrive index data).Reading where
  single := by
    rw [Session.arrive, List.length_set]
    exact reading.single
  found := by
    simp only [Session.arrive, set_of_listed reading.single listed, List.mem_singleton]
    rintro _ rfl completion outcome _
    exact outcome
  clean := reading.clean

theorem failRead (reading : session.Reading) {index : Nat} {read : Read}
    (listed : session.reads[index]? = some read) : (session.failRead index).Reading where
  single := by
    rw [Session.failRead, List.length_set]
    exact reading.single
  found := by
    simp only [Session.failRead, set_of_listed reading.single listed, List.mem_singleton]
    rintro _ rfl completion outcome success
    cases outcome
    cases success
  clean := reading.clean

/-- A queued completion survives the closing of the socket, and an aborted read
does not find a line. -/
theorem close (reading : session.Reading) : session.close.Reading where
  single := by
    rw [Session.close, List.length_map]
    exact reading.single
  found := by
    intro read listed completion outcome success
    rcases List.mem_map.mp listed with ⟨before, known, rfl⟩
    cases queued : before.completion with
    | some earlier =>
        rw [queued] at outcome
        cases outcome
        exact reading.found before known earlier queued success
    | none =>
        rw [queued] at outcome
        cases outcome
        cases success
  clean := reading.clean

theorem onError (reading : session.Reading) (gone closeThrows : Bool) :
    (session.onError gone closeThrows).1.Reading := by
  have marked : ({ session with hasFailed := true } : Session).Reading :=
    ⟨reading.single, reading.found, reading.clean⟩
  rcases session.onError_cases gone closeThrows with ⟨_, same⟩ | ⟨_, same⟩
  · rw [same]
    exact marked
  · rw [same]
    exact marked.close

theorem dequeueRead (reading : session.Reading) (index : Nat) :
    (session.dequeueRead index).Reading where
  single := Nat.le_trans (List.length_eraseIdx_le _ _) reading.single
  found := fun read listed => reading.found read (List.mem_of_mem_eraseIdx listed)
  clean := reading.clean

end Reading

/-! ### Frames -/

theorem pushBack_reads (session : Session) (line : Bytes) :
    (session.pushBack line).reads = session.reads := by
  unfold pushBack
  dsimp only
  split <;> rfl

theorem pushBack_pushed (session : Session) (line : Bytes) :
    (session.pushBack line).pushed = session.pushed ++ [line] := by
  unfold pushBack
  dsimp only
  split <;> rfl

theorem pushBack_buffer (session : Session) (line : Bytes) :
    (session.pushBack line).buffer = session.buffer := by
  unfold pushBack
  dsimp only
  split <;> rfl

theorem pushBack_received (session : Session) (line : Bytes) :
    (session.pushBack line).received = session.received := by
  unfold pushBack
  dsimp only
  split <;> rfl

end Session

/-! ## A turn keeps the laws of its session -/

namespace Turn

variable {id : Nat} {session after : Session} {event : Event} {raised : Bool}

theorem reading (turn : Turn id session event after raised) (reading : session.Reading) :
    after.Reading := by
  cases turn with
  | arrive listed _ => exact reading.arrive listed _
  | readFailed listed => exact reading.failRead listed
  | writeDone _ => exact ⟨reading.single, reading.found, reading.clean⟩
  | writeFailed _ => exact ⟨reading.single, reading.found, reading.clean⟩
  | @readError index _ _ _ _ _ => exact (reading.dequeueRead index).onError _ _
  | lineLost listed _ _ =>
      have none := eraseIdx_of_listed reading.single listed
      refine ⟨Nat.le_trans (List.length_eraseIdx_le _ _) reading.single, ?_, reading.clean⟩
      intro read pending
      change read ∈ session.reads.eraseIdx _ at pending
      rw [none] at pending
      cases pending
  | lineRead listed _ _ =>
      apply Session.Reading.read
      · rw [Session.pushBack_reads]
        exact eraseIdx_of_listed reading.single listed
      · rw [Session.pushBack_pushed, List.forall_mem_append, List.forall_mem_singleton]
        exact ⟨reading.clean, notMem_firstLine _⟩
  | @written index written _ _ _ _ _ =>
      have same : ((session.dequeueWrite index).popFront written).Reading := by
        unfold Session.popFront
        dsimp only
        split
        · exact ⟨reading.single, reading.found, reading.clean⟩
        · exact ⟨reading.single, reading.found, reading.clean⟩
      exact same
  | writeError _ _ =>
      apply Session.Reading.onError
      exact ⟨reading.single, reading.found, reading.clean⟩

/-- What a turn does to the queue of its session: it posts, pops the front, fails
or leaves it. -/
theorem writing (turn : Turn id session event after raised) (lawful : session.writer.Lawful) :
    after.writer.Lawful := by
  cases turn with
  | arrive _ _ => exact lawful
  | readFailed _ => exact lawful
  | writeDone listed => exact (Session.writer_completeWrite lawful listed .success).symm ▸ lawful
  | writeFailed listed => exact (Session.writer_completeWrite lawful listed .failure).symm ▸ lawful
  | readError _ _ =>
      rw [Session.writer_onError]
      exact lawful
  | lineLost _ _ _ => exact lawful
  | lineRead _ _ _ =>
      rw [Session.lineRead, Session.writer_read, Session.writer_pushBack]
      exact lawful.post _
  | written listed _ =>
      rw [Session.writer_popFront lawful listed]
      exact lawful.wrote (Session.message_mem_writing listed)
  | writeError listed _ =>
      rw [Session.writer_onError, Session.writer_writeFailed lawful listed]
      exact lawful.fail (Session.message_mem_writing listed)

/-- A session that has begun nothing has no turn. -/
theorem not_fresh : ¬ Turn id {} event after raised := by
  intro turn
  cases turn with
  | arrive listed _ => cases listed
  | readFailed listed => cases listed
  | writeDone listed => cases listed
  | writeFailed listed => cases listed
  | readError listed _ => cases listed
  | lineLost listed _ _ => cases listed
  | lineRead listed _ _ => cases listed
  | written listed _ => cases listed
  | writeError listed _ => cases listed

end Turn

/-! ## The invariant -/

structure Invariant (server : Server) : Prop where
  oneAccept : server.accepts.length ≤ 1
  target : ∀ accept ∈ server.accepts, accept.target < server.newSession
  unassigned : ∀ accept ∈ server.accepts, server.session accept.target = {}
  future : ∀ id, server.newSession ≤ id → server.session id = {}
  reading : ∀ id, (server.session id).Reading
  writing : ∀ id, (server.session id).writer.Lawful

namespace Invariant

variable {server : Server}

/-- An exception changes nothing else. -/
theorem threw (invariant : Invariant server) (raised : Bool) :
    Invariant { server with thrown := raised } :=
  ⟨invariant.oneAccept, invariant.target, invariant.unassigned, invariant.future,
    invariant.reading, invariant.writing⟩

theorem turn (invariant : Invariant server) {id : Nat} {event : Event} {after : Session}
    {raised : Bool} (turn : Turn id (server.session id) event after raised) :
    Invariant (server.update id fun _ => after) := by
  have untouched : ∀ other, server.session other = {} →
      (server.update id fun _ => after).session other = {} := by
    intro other fresh
    have different : other ≠ id := by
      intro same
      rw [← same, fresh] at turn
      exact turn.not_fresh
    exact (Server.update_session_of_ne different _).trans fresh
  refine ⟨invariant.oneAccept, invariant.target, ?_, ?_, ?_, ?_⟩
  · exact fun accept listed => untouched _ (invariant.unassigned accept listed)
  · exact fun other late => untouched other (invariant.future other late)
  · refine Server.forall_update (fun _ session => session.Reading) ?_ invariant.reading
    exact turn.reading (invariant.reading id)
  · refine Server.forall_update (fun _ session => session.writer.Lawful) ?_ invariant.writing
    exact turn.writing (invariant.writing id)

/-- The next session replaces nothing that has been used. -/
theorem accept (invariant : Invariant server) (unaccepted : server.accepts = []) :
    Invariant server.accept := by
  have one : server.accept.accepts = [{ target := server.newSession }] := by
    rw [Server.accept, unaccepted]
    rfl
  refine ⟨?_, ?_, ?_, ?_, ?_, ?_⟩
  · rw [one]
    exact Nat.le_refl 1
  · rw [one, List.forall_mem_singleton]
    exact Nat.lt_succ_self _
  · rw [one, List.forall_mem_singleton]
    exact Function.update_self _ _ _
  · intro id late
    have different : id ≠ server.newSession := Nat.ne_of_gt late
    rw [Server.accept_session_of_ne different]
    exact invariant.future id (Nat.le_of_lt late)
  · exact Server.forall_accept (fun _ session => session.Reading) .empty invariant.reading
  · exact Server.forall_accept (fun _ session => session.writer.Lawful) Writer.Lawful.empty
      invariant.writing

/-- Nothing is required of the accepts once none is outstanding. -/
theorem acceptDequeued (invariant : Invariant server) :
    Invariant { server with accepts := [] } where
  oneAccept := Nat.zero_le 1
  target := fun _ listed => absurd listed List.not_mem_nil
  unassigned := fun _ listed => absurd listed List.not_mem_nil
  future := invariant.future
  reading := invariant.reading
  writing := invariant.writing

/-- A session that has begun nothing may be changed into one that obeys the
laws. -/
theorem assigned (invariant : Invariant server) (unaccepted : server.accepts = []) {id : Nat}
    (created : id < server.newSession) {change : Session → Session}
    (reading : (change (server.session id)).Reading)
    (writing : (change (server.session id)).writer.Lawful) :
    Invariant (server.update id change) := by
  refine ⟨invariant.oneAccept, invariant.target, ?_, ?_, ?_, ?_⟩
  · intro accept listed
    change accept ∈ server.accepts at listed
    rw [unaccepted] at listed
    cases listed
  · intro other late
    have different : other ≠ id := fun same => Nat.not_lt_of_le late (same ▸ created)
    rw [Server.update_session_of_ne different]
    exact invariant.future other late
  · exact Server.forall_update (fun _ session => session.Reading) reading invariant.reading
  · exact Server.forall_update (fun _ session => session.writer.Lawful) writing invariant.writing

theorem dequeueAccept (invariant : Invariant server) {index target : Nat}
    {completion : Option ErrorCode}
    (listed : server.accepts[index]? = some { target := target, completion := completion })
    (ec : ErrorCode) :
    Invariant (server.dequeueAccept index target ec) ∧
      (server.dequeueAccept index target ec).accepts = [] ∧
      target < (server.dequeueAccept index target ec).newSession := by
  have handled := eraseIdx_of_listed invariant.oneAccept listed
  have created := invariant.target _ (List.mem_of_getElem? listed)
  have fresh : server.session target = {} := invariant.unassigned _ (List.mem_of_getElem? listed)
  unfold Server.dequeueAccept
  rw [handled]
  by_cases success : ec = .success
  · rw [if_pos success]
    refine ⟨invariant.acceptDequeued.assigned rfl created ?_ ?_, rfl, created⟩
    · rw [fresh]
      exact ⟨Nat.zero_le 1, fun _ listed => absurd listed List.not_mem_nil,
        fun _ listed => absurd listed List.not_mem_nil⟩
    · rw [fresh]
      exact Writer.Lawful.empty
  · rw [if_neg success]
    exact ⟨invariant.acceptDequeued, rfl, created⟩

/-- The invariant survives every step. -/
theorem moves (invariant : Invariant server) {event : Event} {next : Server}
    (moves : Moves server event next) : Invariant next := by
  cases moves with
  | acceptDone listed _ =>
      have only := set_of_listed invariant.oneAccept listed
      refine ⟨?_, ?_, ?_, invariant.future, invariant.reading, invariant.writing⟩
      · rw [List.length_set]
        exact invariant.oneAccept
      · have created := invariant.target _ (List.mem_of_getElem? listed)
        rw [only, List.forall_mem_singleton]
        exact created
      · have fresh := invariant.unassigned _ (List.mem_of_getElem? listed)
        rw [only, List.forall_mem_singleton]
        exact fresh
  | turn turn => exact (invariant.turn turn).threw _
  | @acceptFailed _ target ec _ listed failed =>
      have dequeued := (invariant.dequeueAccept listed ec).1
      rw [Server.dequeueAccept, if_neg failed] at dequeued
      exact dequeued
  | acceptThrew listed =>
      exact (invariant.dequeueAccept listed .success).1.threw true
  | @accepted index target listed =>
      have fresh := invariant.unassigned _ (List.mem_of_getElem? listed)
      rcases invariant.dequeueAccept listed .success with ⟨dequeued, none, created⟩
      refine (dequeued.assigned none created ?_ ?_).accept none
      · refine Session.Reading.read ?_ (dequeued.reading target).clean
        rw [Server.dequeueAccept, if_pos rfl, Server.update_session_self]
        exact congrArg Session.reads fresh
      · exact dequeued.writing target

theorem initial : Invariant Server.machine.initial := by
  have empty : Invariant {} := by
    refine ⟨Nat.zero_le 1, ?_, ?_, fun _ _ => rfl, fun _ => .empty, fun _ => Writer.Lawful.empty⟩
    · intro accept listed
      cases listed
    · intro accept listed
      cases listed
  exact empty.accept rfl

theorem of_step (invariant : Invariant server) {event : Event} {next : Server}
    (moved : Server.machine.step server event = some next) : Invariant next :=
  invariant.moves (moves_of_step moved).2

end Invariant

theorem invariant_of_reachable {server : Server} (reached : Server.machine.Reachable server) :
    Invariant server :=
  Server.machine.reachable_induction Invariant.initial
    (fun _ _ _ invariant moved => invariant.of_step moved) reached

end Streambuf
end LearnAsio
