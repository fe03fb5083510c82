import LearnAsio.Chat.Lifecycle

namespace LearnAsio
namespace Chat

open Queue Transition

/-!
# What every reachable chat server satisfies

The invariant combines the discipline of each queue with the broadcasts: what a
member of `sessions_` has been posted is, apart from its own lines and its
welcome, exactly what has been broadcast since it was added.  It is proved for
what a session does alone, for a broadcast, for a new member and for the next
accept, and put together for a step at the end.
-/

/-! ## What a session keeps -/

/-- The posts of a session that are broadcasts. -/
def Session.heard (session : Session) : List Post :=
  session.posted.filter (logged Post.broadcast)

theorem Session.heard_post (session : Session) (message : Post) :
    (session.post message).heard = session.heard ++ [message].filter (logged Post.broadcast) := by
  rw [heard, posted_post, List.filter_append]
  rfl

/-- A session has changed on its own: its read and its queue obey their laws, it
has not begun to read and no broadcast has been posted to it. -/
structure Keeps (before after : Session) : Prop where
  reading : after.Reading
  writing : after.writer.Lawful
  unread : before.reads = [] → before.linesRead = 0 → after.reads = [] ∧ after.linesRead = 0
  heard : after.heard = before.heard

namespace Keeps

variable {session : Session}

/-- The queue moves and the input stays. -/
theorem of_input {after : Session} (reading : session.Reading)
    (writing : after.writer.Lawful) (same : after.input = session.input)
    (heard : after.heard = session.heard) : Keeps session after where
  reading := reading.congr same
  writing := writing
  unread := fun none fresh =>
    ⟨(congrArg Session.Input.reads same).trans none,
      (congrArg Session.Input.linesRead same).trans fresh⟩
  heard := heard

/-- A message of the session's own. -/
theorem post (reading : session.Reading) (writing : session.writer.Lawful) (message : Bytes) :
    Keeps session (session.post { message := message }) := by
  refine of_input reading ?_ (Session.post_input _ _) ?_
  · rw [Session.writer_post]
    exact writing.post _
  · rw [Session.heard_post]
    exact List.append_nil _

theorem assign (reading : session.Reading) (writing : session.writer.Lawful) :
    Keeps session { session with isOpen := true } where
  reading := ⟨reading.single, reading.first, reading.whole, reading.ended⟩
  writing := writing
  unread := fun none fresh => ⟨none, fresh⟩
  heard := rfl

theorem completes {id : Nat} {event : Event} {after : Session} (reading : session.Reading)
    (writing : session.writer.Lawful) (completes : Completes id session event after) :
    Keeps session after := by
  cases completes with
  | arrive listed _ =>
      refine ⟨reading.arrive listed _, writing, ?_, rfl⟩
      intro none
      rw [none] at listed
      cases listed
  | readFailed listed =>
      refine ⟨reading.failRead listed, writing, ?_, rfl⟩
      intro none
      rw [none] at listed
      cases listed
  | writeDone listed =>
      refine of_input reading ?_ rfl rfl
      exact (Session.writer_completeWrite writing listed .success).symm ▸ writing
  | writeFailed listed =>
      refine of_input reading ?_ rfl rfl
      exact (Session.writer_completeWrite writing listed .failure).symm ▸ writing

theorem handles {id : Nat} {event : Event} {after : Session} {raised : Bool}
    (reading : session.Reading) (writing : session.writer.Lawful)
    (handles : Handles id session event after raised) : Keeps session after := by
  cases handles with
  | @readError index _ _ listed _ =>
      refine ⟨(reading.dequeueRead index).onError, ?_, ?_, rfl⟩
      · rw [Session.writer_onError]
        exact writing
      · intro none
        rw [none] at listed
        cases listed
  | written listed _ =>
      refine of_input reading ?_ (Session.popFront_input _ _) ?_
      · have wrote := writing.wrote (Session.post_mem_writing listed)
        exact (Session.writer_popFront writing listed).symm ▸ wrote
      · unfold Session.heard Session.popFront
        dsimp only
        split <;> rfl
  | writeError listed _ =>
      refine ⟨Session.Reading.close (reading.congr rfl), ?_, ?_, rfl⟩
      · rw [Session.writer_writeError writing listed]
        exact writing.fail (Session.post_mem_writing listed)
      · intro none fresh
        exact ⟨Session.close_reads none, fresh⟩

/-- Taking a line ends the only read. -/
theorem takeLine (reading : session.Reading) (writing : session.writer.Lawful) {index : Nat}
    {read : Read} (listed : session.reads[index]? = some read) (bytesTransferred : Nat) :
    Keeps session ((session.dequeueRead index).takeLine bytesTransferred).2 where
  reading := reading.takeLine listed bytesTransferred
  writing := writing
  unread := by
    intro none
    rw [none] at listed
    cases listed
  heard := rfl

end Keeps

/-! ## The invariant -/

structure Invariant (server : Server) : Prop where
  distinct : server.sessions.Nodup
  created : ∀ id ∈ server.sessions, id < server.newSession
  oneAccept : server.accepts.length ≤ 1
  target : ∀ accept ∈ server.accepts,
    accept.target < server.newSession ∧ accept.target ∉ server.sessions
  reading : ∀ id, (server.session id).Reading
  writing : ∀ id, (server.session id).writer.Lawful
  outside : ∀ id, id ∉ server.sessions →
    (server.session id).reads = [] ∧ (server.session id).linesRead = 0 ∧
      (server.session id).heard = []
  numbered : Numbered Post.broadcast (server.broadcasts.map Broadcast.post)
  added : ∀ id ∈ server.sessions, server.addedAt id ≤ server.broadcasts.length
  heard : ∀ id ∈ server.sessions,
    (server.session id).heard = (server.broadcasts.map Broadcast.post).drop (server.addedAt id)
  ordered : server.sessions.Pairwise fun first second =>
    server.addedAt first ≤ server.addedAt second

namespace Invariant

variable {server : Server}

theorem update (invariant : Invariant server) {id : Nat} {after : Session}
    (keeps : Keeps (server.session id) after) : Invariant (server.update id fun _ => after) where
  distinct := invariant.distinct
  created := invariant.created
  oneAccept := invariant.oneAccept
  target := invariant.target
  reading := Server.forall_update (fun _ session => session.Reading) keeps.reading
    invariant.reading
  writing := Server.forall_update (fun _ session => session.writer.Lawful) keeps.writing
    invariant.writing
  outside := by
    apply Server.forall_update (fun other session => other ∉ server.sessions →
      session.reads = [] ∧ session.linesRead = 0 ∧ session.heard = []) _ invariant.outside
    intro absent
    rcases invariant.outside id absent with ⟨none, fresh, heard⟩
    exact ⟨(keeps.unread none fresh).1, (keeps.unread none fresh).2, keeps.heard.trans heard⟩
  numbered := invariant.numbered
  added := invariant.added
  heard := by
    apply Server.forall_update (fun other session => other ∈ server.sessions →
      session.heard = (server.broadcasts.map Broadcast.post).drop (server.addedAt other)) _
      invariant.heard
    intro member
    exact keeps.heard.trans (invariant.heard id member)
  ordered := invariant.ordered

/-- The invariant says nothing about exceptions. -/
theorem threw (invariant : Invariant server) (thrown : Bool) :
    Invariant { server with thrown := thrown } :=
  ⟨invariant.distinct, invariant.created, invariant.oneAccept, invariant.target,
    invariant.reading, invariant.writing, invariant.outside, invariant.numbered,
    invariant.added, invariant.heard, invariant.ordered⟩

theorem withAccepts (invariant : Invariant server) {accepts : List Accept}
    (one : accepts.length ≤ 1)
    (target : ∀ accept ∈ accepts,
      accept.target < server.newSession ∧ accept.target ∉ server.sessions) :
    Invariant { server with accepts := accepts } :=
  ⟨invariant.distinct, invariant.created, one, target, invariant.reading, invariant.writing,
    invariant.outside, invariant.numbered, invariant.added, invariant.heard, invariant.ordered⟩

/-- A broadcast reaches every member, and every member has heard all of them
since it was added. -/
theorem broadcast (invariant : Invariant server) (origin : Origin) (message : Bytes) :
    Invariant (server.broadcast origin message) := by
  rw [Server.broadcast_eq invariant.distinct]
  refine ⟨invariant.distinct, invariant.created, invariant.oneAccept, invariant.target, ?_, ?_,
    ?_, ?_, ?_, ?_, invariant.ordered⟩
  · intro id
    dsimp only
    split
    · exact (invariant.reading id).post _
    · exact invariant.reading id
  · intro id
    dsimp only
    split
    · rw [Session.writer_post]
      exact (invariant.writing id).post _
    · exact invariant.writing id
  · intro id absent
    dsimp only
    rw [if_neg absent]
    exact invariant.outside id absent
  · rw [List.map_append]
    exact invariant.numbered.concat (congrArg some (List.length_map _).symm)
  · intro id member
    rw [List.length_append]
    exact Nat.le_add_right_of_le (invariant.added id member)
  · intro id member
    have inside : server.addedAt id ≤ (server.broadcasts.map Broadcast.post).length :=
      (List.length_map _).symm ▸ invariant.added id member
    dsimp only
    rw [if_pos member, Session.heard_post, invariant.heard id member, List.map_append,
      List.drop_append_of_le_length inside]
    rfl

theorem release (invariant : Invariant server) (id : Nat) : Invariant (server.release id) := by
  rcases server.release_cases id with kept | ⟨message, left⟩
  · rw [kept]
    exact invariant
  · rw [left]
    exact invariant.broadcast _ _

/-- A new session has heard nothing. -/
theorem join (invariant : Invariant server) {id : Nat} (created : id < server.newSession)
    (absent : id ∉ server.sessions) (unaccepted : server.accepts = []) (endpoint : Bytes) :
    Invariant ((server.update id fun session => session.start endpoint).pushBack id) := by
  have earlier : ∀ other ∈ server.sessions, other ≠ id :=
    fun other member same => absent (same ▸ member)
  rcases invariant.outside id absent with ⟨none, unread, silent⟩
  refine ⟨?_, ?_, invariant.oneAccept, ?_, ?_, ?_, ?_, invariant.numbered, ?_, ?_, ?_⟩
  · apply List.nodup_append.mpr
    refine ⟨invariant.distinct, List.pairwise_singleton _ id, ?_⟩
    intro other member last listed
    rw [List.mem_singleton.mp listed]
    exact earlier other member
  · simp only [Server.pushBack_sessions, List.forall_mem_append, List.forall_mem_singleton]
    exact ⟨invariant.created, created⟩
  · intro accept listed
    change accept ∈ server.accepts at listed
    rw [unaccepted] at listed
    cases listed
  · rw [Server.pushBack_session]
    refine Server.forall_update (fun _ session => session.Reading) ?_ invariant.reading
    exact (invariant.reading id).start none unread endpoint
  · rw [Server.pushBack_session]
    refine Server.forall_update (fun _ session => session.writer.Lawful) ?_ invariant.writing
    exact invariant.writing id
  · intro other away
    have different : other ≠ id :=
      fun same => away (List.mem_append_right _ (same ▸ List.mem_singleton_self id))
    rw [Server.pushBack_session, Server.update_session_of_ne different]
    exact invariant.outside other fun member => away (List.mem_append_left _ member)
  · simp only [Server.pushBack_sessions, List.forall_mem_append, List.forall_mem_singleton]
    constructor
    · intro other member
      rw [Server.pushBack_addedAt_of_ne (earlier other member)]
      exact invariant.added other member
    · exact Nat.le_of_eq (Server.pushBack_addedAt_self _ id)
  · simp only [Server.pushBack_sessions, List.forall_mem_append, List.forall_mem_singleton]
    constructor
    · intro other member
      rw [Server.pushBack_session, Server.update_session_of_ne (earlier other member),
        Server.pushBack_addedAt_of_ne (earlier other member)]
      exact invariant.heard other member
    · have all : (server.broadcasts.map Broadcast.post).drop server.broadcasts.length = [] :=
        List.drop_eq_nil_of_le (Nat.le_of_eq (List.length_map _))
      rw [Server.pushBack_session, Server.update_session_self, Server.pushBack_addedAt_self]
      exact silent.trans all.symm
  · apply List.pairwise_append.mpr
    refine ⟨?_, List.pairwise_singleton _ _, ?_⟩
    · refine invariant.ordered.imp_of_mem ?_
      intro first second firstMember secondMember order
      rw [Server.pushBack_addedAt_of_ne (earlier first firstMember),
        Server.pushBack_addedAt_of_ne (earlier second secondMember)]
      exact order
    · intro other member last listed
      rw [List.mem_singleton.mp listed, Server.pushBack_addedAt_self,
        Server.pushBack_addedAt_of_ne (earlier other member)]
      exact invariant.added other member

/-- The next session replaces nothing that has been used. -/
theorem accept (invariant : Invariant server) (unaccepted : server.accepts = []) :
    Invariant server.accept := by
  have absent : server.newSession ∉ server.sessions :=
    fun member => absurd (invariant.created _ member) (Nat.lt_irrefl _)
  refine ⟨invariant.distinct, ?_, ?_, ?_, ?_, ?_, ?_, invariant.numbered, invariant.added, ?_,
    invariant.ordered⟩
  · intro id member
    exact Nat.lt_succ_of_lt (invariant.created id member)
  · rw [Server.accept_accepts, unaccepted]
    exact Nat.le_of_eq rfl
  · simp only [Server.accept_accepts, unaccepted, List.nil_append, List.forall_mem_singleton]
    exact ⟨Nat.lt_succ_self _, absent⟩
  · exact Server.forall_accept (fun _ session => session.Reading) .empty invariant.reading
  · exact Server.forall_accept (fun _ session => session.writer.Lawful) Writer.Lawful.empty
      invariant.writing
  · exact Server.forall_accept (fun other session => other ∉ server.sessions →
      session.reads = [] ∧ session.linesRead = 0 ∧ session.heard = [])
      (fun _ => ⟨rfl, rfl, rfl⟩) invariant.outside
  · intro id member
    have different : id ≠ server.newSession := fun same => absent (same ▸ member)
    rw [Server.accept_session_of_ne different]
    exact invariant.heard id member

theorem post (invariant : Invariant server) (id : Nat) (message : Bytes) :
    Invariant (server.update id fun session => session.post { message := message }) :=
  invariant.update (Keeps.post (invariant.reading id) (invariant.writing id) message)

theorem lineRead (invariant : Invariant server) {id index : Nat} {read : Read}
    (listed : (server.session id).reads[index]? = some read) (bytesTransferred : Nat) :
    Invariant (server.lineRead id index bytesTransferred) := by
  have taken := invariant.update
    (Keeps.takeLine (invariant.reading id) (invariant.writing id) listed bytesTransferred)
  exact (taken.broadcast _ _).post id _

theorem dequeueAccept (invariant : Invariant server) {index : Nat} {accept : Accept}
    (listed : server.accepts[index]? = some accept) (target : Nat) (ec : ErrorCode) :
    Invariant (server.dequeueAccept index target ec) := by
  have handled := eraseIdx_of_listed invariant.oneAccept listed
  have dequeued : Invariant { server with accepts := server.accepts.eraseIdx index } := by
    rw [handled]
    exact invariant.withAccepts (Nat.zero_le 1) fun _ absurdity =>
      absurd absurdity List.not_mem_nil
  unfold Server.dequeueAccept
  dsimp only
  split
  · exact dequeued.update (Keeps.assign (dequeued.reading target) (dequeued.writing target))
  · exact dequeued

theorem welcome (invariant : Invariant server) (id : Nat) (endpoint : Bytes) :
    Invariant (server.welcome id endpoint) :=
  (invariant.broadcast _ _).post id _

/-- A successful accept adds the session that it was for and leaves no other
accept. -/
theorem pushed (invariant : Invariant server) {index target : Nat} {completion : Option ErrorCode}
    (listed : server.accepts[index]? = some { target := target, completion := completion })
    (endpoint : Bytes) :
    let pushed := (((server.dequeueAccept index target .success).welcome target endpoint).update
      target fun session => session.start endpoint).pushBack target
    Invariant pushed ∧ pushed.accepts = [] := by
  have handled := eraseIdx_of_listed invariant.oneAccept listed
  rcases invariant.target _ (List.mem_of_getElem? listed) with ⟨created, absent⟩
  have dequeued := invariant.dequeueAccept listed target .success
  have welcomed := dequeued.welcome target endpoint
  have frame : ((server.dequeueAccept index target .success).welcome target endpoint).accepts =
      server.accepts.eraseIdx index ∧
      ((server.dequeueAccept index target .success).welcome target endpoint).newSession =
        server.newSession ∧
      ((server.dequeueAccept index target .success).welcome target endpoint).sessions =
        server.sessions := by
    rw [Server.welcome, Server.broadcast_eq dequeued.distinct]
    exact ⟨rfl, rfl, rfl⟩
  rcases frame with ⟨accepts, newSession, sessions⟩
  have none := accepts.trans handled
  refine ⟨welcomed.join ?_ ?_ none endpoint, none⟩
  · exact newSession ▸ created
  · exact sessions ▸ absent

/-- The invariant survives every step. -/
theorem moves (invariant : Invariant server) {event : Event} {next : Server}
    (moves : Moves server event next) : Invariant next := by
  cases moves with
  | @acceptDone index target ec listed _ =>
      refine invariant.withAccepts ?_ ?_
      · rw [List.length_set]
        exact invariant.oneAccept
      · intro accept member
        rw [set_of_listed invariant.oneAccept listed, List.mem_singleton] at member
        subst member
        have pending := invariant.target _ (List.mem_of_getElem? listed)
        exact pending
  | @completes id _ _ completes =>
      exact invariant.update
        (Keeps.completes (invariant.reading id) (invariant.writing id) completes)
  | @handles id _ _ raised handles =>
      have handled := invariant.update
        (Keeps.handles (invariant.reading id) (invariant.writing id) handles)
      exact (handled.threw raised).release id
  | lineRead listed _ =>
      exact (invariant.lineRead listed _).release _
  | @acceptFailed _ target ec _ _ _ listed failed =>
      have dequeued := invariant.dequeueAccept listed target ec
      rw [Server.dequeueAccept, if_neg failed] at dequeued
      exact dequeued.release _
  | joinedThrew listed =>
      exact (invariant.dequeueAccept listed _ .success).threw true
  | startThrew listed _ =>
      exact ((invariant.dequeueAccept listed _ .success).welcome _ _).threw true
  | joined listed _ =>
      rcases invariant.pushed listed _ with ⟨pushed, none⟩
      exact (pushed.accept none).release _

theorem initial : Invariant Server.machine.initial := by
  have empty : Invariant {} := by
    refine ⟨List.nodup_nil, ?_, Nat.zero_le 1, ?_, fun _ => .empty, fun _ => .empty,
      fun _ _ => ⟨rfl, rfl, rfl⟩, .nil, ?_, ?_, List.Pairwise.nil⟩
    · intro id member
      cases member
    · intro accept listed
      cases listed
    · intro id member
      cases member
    · intro id member
      cases member
  exact empty.accept rfl

theorem of_step (invariant : Invariant server) {event : Event} {next : Server}
    (moved : Server.machine.step server event = some next) : Invariant next :=
  invariant.moves (moves_of_step moved).2

end Invariant

theorem invariant_of_reachable {server : Server} (reached : Server.machine.Reachable server) :
    Invariant server :=
  Server.machine.reachable_induction Invariant.initial
    (fun _ _ _ invariant moved => invariant.of_step moved) reached

end Chat
end LearnAsio
