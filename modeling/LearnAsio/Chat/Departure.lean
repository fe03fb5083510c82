import LearnAsio.Chat.Membership

namespace LearnAsio
namespace Chat

open Queue Transition

/-!
# Sessions that stay behind

`on_error` closes the socket of a session and leaves it in `sessions_`.  Once
its last operation has been handled nothing of its own happens to it any more,
and every broadcast still makes its queue longer.

A session dies in the handler of its last operation, and the condition for this
can be read off the operations and the queue before the handler runs.
-/

namespace Session

/-- `on_error` has closed the socket and no handler is outstanding. -/
def Dead (session : Session) : Prop :=
  session.hasFailed = true ∧ session.isOpen = false ∧ session.reads = [] ∧ session.writes = []

instance (session : Session) : Decidable session.Dead :=
  inferInstanceAs (Decidable (_ ∧ _ ∧ _ ∧ _))

theorem outgoingMessages_post (session : Session) (message : Post) :
    (session.post message).outgoingMessages = session.outgoingMessages ++ [message] := by
  unfold post
  dsimp only
  split <;> rfl

/-- A post wakes a session up whose queue is empty, and no other. -/
theorem dead_post_iff {session : Session} {message : Post} :
    (session.post message).Dead ↔ session.Dead ∧ session.outgoingMessages ≠ [] := by
  by_cases none : session.outgoingMessages = []
  · have writing : (session.post message).writes ≠ [] := by
      simp only [post, none, List.isEmpty_nil, if_true, asyncWrite, List.nil_append,
        List.head?_cons, Option.toList_some, List.map_cons, List.map_nil]
      exact List.append_ne_nil_of_right_ne_nil _ (List.cons_ne_nil _ _)
    exact ⟨fun dead => absurd dead.2.2.2 writing, fun dead => absurd none dead.2⟩
  · have filled : ¬ session.outgoingMessages.isEmpty = true := by
      simpa only [List.isEmpty_iff] using none
    rw [post, if_neg filled]
    exact ⟨fun dead => ⟨dead, none⟩, fun dead => dead.1⟩

/-- After its read has been handled, a session that has failed still has an
operation outstanding.  A read that fails leaves only a write that is
outstanding already; the echo of a line begins one if the queue is empty. -/
def SurvivesRead (session : Session) (index : Nat) (throws : Bool) : Prop :=
  ∀ completion, session.reads[index]? = some { completion := some completion } →
    if completion.error = .success then
      ¬ (session.hasFailed = true ∧ session.isOpen = false ∧ session.writes = [] ∧
        session.outgoingMessages ≠ [])
    else (throws && session.isOpen) = true ∨ session.writes ≠ []

/-- The same for a write.  One that succeeds begins the next if more than its
own message is queued. -/
def SurvivesWrite (session : Session) (index : Nat) (throws : Bool) : Prop :=
  ∀ post completion,
    session.writes[index]? = some { post := post, completion := some completion } →
      if completion.error = .success then
        ¬ (session.hasFailed = true ∧ session.isOpen = false ∧ session.reads = [] ∧
          session.outgoingMessages.tail = [])
      else (throws && session.isOpen) = true ∨ session.reads ≠ []

variable {session : Session}

theorem survivesRead_iff {index : Nat} {completion : Completion} {throws : Bool}
    (listed : session.reads[index]? = some { completion := some completion }) :
    session.SurvivesRead index throws ↔
      if completion.error = .success then
        ¬ (session.hasFailed = true ∧ session.isOpen = false ∧ session.writes = [] ∧
          session.outgoingMessages ≠ [])
      else (throws && session.isOpen) = true ∨ session.writes ≠ [] := by
  constructor
  · exact fun survives => survives completion listed
  · intro holds other found
    rw [listed] at found
    cases found
    exact holds

theorem survivesWrite_iff {index : Nat} {post : Post} {completion : Completion} {throws : Bool}
    (listed : session.writes[index]? = some { post := post, completion := some completion }) :
    session.SurvivesWrite index throws ↔
      if completion.error = .success then
        ¬ (session.hasFailed = true ∧ session.isOpen = false ∧ session.reads = [] ∧
          session.outgoingMessages.tail = [])
      else (throws && session.isOpen) = true ∨ session.reads ≠ [] := by
  constructor
  · exact fun survives => survives post completion listed
  · intro holds other result found
    rw [listed] at found
    cases found
    exact holds

/-- A read that has failed is the last operation unless a write is outstanding. -/
theorem dead_readError_iff (reading : session.Reading) {index : Nat} {read : Read}
    (listed : session.reads[index]? = some read) :
    (session.dequeueRead index).onError.Dead ↔ session.writes = [] := by
  have quiet : (session.dequeueRead index).onError.reads = [] :=
    close_reads (eraseIdx_of_listed reading.single listed)
  have writes : (session.dequeueRead index).onError.writes = [] ↔ session.writes = [] :=
    List.map_eq_nil_iff
  exact ⟨fun dead => writes.mp dead.2.2.2, fun none => ⟨rfl, rfl, quiet, writes.mpr none⟩⟩

theorem dead_writeError_iff (lawful : session.writer.Lawful) {index : Nat} {write : Write}
    (listed : session.writes[index]? = some write) :
    (session.dequeueWrite index).writeError.Dead ↔ session.reads = [] := by
  have quiet : (session.dequeueWrite index).writeError.writes = [] :=
    List.map_eq_nil_iff.mpr (eraseIdx_of_listed (length_writes_le_one lawful) listed)
  have reads : (session.dequeueWrite index).writeError.reads = [] ↔ session.reads = [] :=
    List.map_eq_nil_iff
  exact ⟨fun dead => reads.mp dead.2.2.1, fun none => ⟨rfl, rfl, reads.mpr none, quiet⟩⟩

theorem dead_popFront_iff (lawful : session.writer.Lawful) {index : Nat} {write : Write}
    (listed : session.writes[index]? = some write) (written : Post) :
    ((session.dequeueWrite index).popFront written).Dead ↔
      session.hasFailed = true ∧ session.isOpen = false ∧ session.reads = [] ∧
        session.outgoingMessages.tail = [] := by
  have handled := eraseIdx_of_listed (length_writes_le_one lawful) listed
  cases shape : session.outgoingMessages.tail with
  | nil =>
      simp only [popFront, dequeueWrite, handled, shape, List.isEmpty_nil, if_true, Dead, and_true]
  | cons next later =>
      simp only [popFront, dequeueWrite, handled, shape, List.isEmpty_cons, Bool.false_eq_true,
        if_false, Dead, asyncWrite, List.head?_cons, Option.toList_some, List.map_cons,
        List.map_nil, List.nil_append, reduceCtorEq, and_false]

/-- A completion that is queued does not end the operation. -/
theorem not_dead_completes {id : Nat} {event : Event} {after : Session}
    (completes : Completes id session event after) : ¬ after.Dead := by
  rintro ⟨_, _, reads, writes⟩
  cases completes with
  | arrive listed _ =>
      rw [arrive, List.set_eq_nil_iff] at reads
      rw [reads] at listed
      cases listed
  | readFailed listed =>
      rw [failRead, List.set_eq_nil_iff] at reads
      rw [reads] at listed
      cases listed
  | writeDone listed =>
      rw [completeWrite, List.set_eq_nil_iff] at writes
      rw [writes] at listed
      cases listed
  | writeFailed listed =>
      rw [completeWrite, List.set_eq_nil_iff] at writes
      rw [writes] at listed
      cases listed

/-- A session begins to read when it is started. -/
theorem not_dead_start (session : Session) (endpoint : Bytes) : ¬ (session.start endpoint).Dead :=
  fun dead => List.append_ne_nil_of_right_ne_nil _ (List.cons_ne_nil _ _) dead.2.2.1

end Session

variable {server : Server}

/-! ## The members -/

/-- No member is dead, the given one perhaps apart. -/
def AliveBut (server : Server) (id : Nat) : Prop :=
  ∀ other ∈ server.sessions, other ≠ id → ¬ (server.session other).Dead

/-- No member is dead. -/
def Alive (server : Server) : Prop :=
  ∀ id ∈ server.sessions, ¬ (server.session id).Dead

namespace AliveBut

variable {id : Nat}

theorem update (alive : AliveBut server id) (change : Session → Session) :
    AliveBut (server.update id change) id := by
  intro other member different
  rw [Server.update_session_of_ne different]
  exact alive other member different

/-- A broadcast kills nobody. -/
theorem broadcast (alive : AliveBut server id) (distinct : server.sessions.Nodup)
    (origin : Origin) (message : Bytes) : AliveBut (server.broadcast origin message) id := by
  rw [Server.broadcast_eq distinct]
  intro other member different
  dsimp only at member ⊢
  rw [if_pos member]
  exact fun dead => alive other member different (Session.dead_post_iff.mp dead).1

/-- Changing the excepted member leaves it to that one. -/
theorem alive_update_iff (alive : AliveBut server id) (member : id ∈ server.sessions)
    (change : Session → Session) :
    Alive (server.update id change) ↔ ¬ (change (server.session id)).Dead := by
  constructor
  · intro after
    have here := after id member
    rwa [Server.update_session_self] at here
  · intro survives other among
    by_cases same : other = id
    · subst same
      rwa [Server.update_session_self]
    · rw [Server.update_session_of_ne same]
      exact alive other among same

end AliveBut

namespace Alive

theorem but (alive : Alive server) (id : Nat) : AliveBut server id :=
  fun other member _ => alive other member

/-- A session that is not a member may change. -/
theorem update (alive : Alive server) {id : Nat} (absent : id ∉ server.sessions)
    (change : Session → Session) : Alive (server.update id change) := by
  intro other member
  have different : other ≠ id := fun same => absent (same ▸ member)
  rw [Server.update_session_of_ne different]
  exact alive other member

theorem broadcast (alive : Alive server) (distinct : server.sessions.Nodup) (origin : Origin)
    (message : Bytes) : Alive (server.broadcast origin message) := by
  rw [Server.broadcast_eq distinct]
  intro id member
  dsimp only at member ⊢
  rw [if_pos member]
  exact fun dead => alive id member (Session.dead_post_iff.mp dead).1

theorem release (alive : Alive server) (distinct : server.sessions.Nodup) (id : Nat) :
    Alive (server.release id) := by
  rcases server.release_cases id with kept | ⟨message, left⟩
  · rw [kept]
    exact alive
  · rw [left]
    exact alive.broadcast distinct _ _

end Alive

/-- Reading a line throws nothing. -/
theorem Server.lineRead_thrown (server : Server) (id index bytesTransferred : Nat) :
    (server.lineRead id index bytesTransferred).thrown = server.thrown := by
  rw [Server.lineRead]
  exact Server.broadcast_thrown _ _ _

namespace Alive

/-- A line is posted to its own session twice, so the queue is not empty the
second time. -/
theorem lineRead_iff (invariant : Invariant server) (alive : Alive server) {id index : Nat}
    {read : Read} (listed : (server.session id).reads[index]? = some read)
    (member : id ∈ server.sessions) (bytesTransferred : Nat) :
    Alive (server.lineRead id index bytesTransferred) ↔
      ¬ ((server.session id).hasFailed = true ∧ (server.session id).isOpen = false ∧
        (server.session id).writes = [] ∧ (server.session id).outgoingMessages ≠ []) := by
  have handled : ((server.session id).dequeueRead index).reads = [] :=
    eraseIdx_of_listed (invariant.reading id).single listed
  unfold Server.lineRead
  dsimp only
  generalize taken : (((server.session id).dequeueRead index).takeLine bytesTransferred).2 = after
  have dead_iff : after.Dead ↔ (server.session id).hasFailed = true ∧
      (server.session id).isOpen = false ∧ (server.session id).writes = [] := by
    subst taken
    change (_ ∧ _ ∧ ((server.session id).dequeueRead index).reads = [] ∧ _) ↔ _
    rw [handled]
    simp only [true_and, Session.dequeueRead, Session.takeLine]
  have queue : after.outgoingMessages = (server.session id).outgoingMessages := by
    subst taken
    rfl
  have distinct : (server.update id fun _ => after).sessions.Nodup := invariant.distinct
  have others := ((alive.but id).update fun _ => after).broadcast distinct (.line id)
  rw [(others _).alive_update_iff (by rwa [Server.broadcast_sessions]),
    Server.broadcast_eq distinct]
  dsimp only
  rw [if_pos (show id ∈ (server.update id fun _ => after).sessions from member),
    Server.update_session_self, Session.dead_post_iff, Session.dead_post_iff,
    Session.outgoingMessages_post, queue, dead_iff]
  refine not_congr ⟨?_, ?_⟩
  · rintro ⟨⟨⟨failed, closed, quiet⟩, filled⟩, _⟩
    exact ⟨failed, closed, quiet, filled⟩
  · rintro ⟨failed, closed, quiet, filled⟩
    exact ⟨⟨⟨failed, closed, quiet⟩, filled⟩,
      List.append_ne_nil_of_right_ne_nil _ (List.cons_ne_nil _ _)⟩

end Alive

/-! ## Steps -/

/-- The session that the handler belongs to survives it. -/
def Survives (server : Server) : Event → Prop
  | .onRead id index throws => (server.session id).SurvivesRead index throws
  | .onWrite id index throws => (server.session id).SurvivesWrite index throws
  | _ => True

/-- A handler that concerns its own session leaves it alive exactly as the
condition says, unless it throws. -/
theorem handles_alive_iff (invariant : Invariant server) (alive : Alive server) {id : Nat}
    {event : Event} {after : Session} {raised : Bool} (member : id ∈ server.sessions)
    (handles : Handles id (server.session id) event after raised) :
    (raised = false → Alive (server.update id fun _ => after)) ↔ Survives server event := by
  rw [(alive.but id).alive_update_iff member]
  cases handles with
  | @readError index throws completion listed failed =>
      rw [Survives, Session.survivesRead_iff listed, if_neg failed,
        Session.dead_readError_iff (invariant.reading id) listed, ← Bool.not_eq_true,
        imp_iff_not_or, not_not]
  | @written index throws post completion listed success =>
      rw [Survives, Session.survivesWrite_iff listed, if_pos success,
        Session.dead_popFront_iff (invariant.writing id) listed]
      exact ⟨fun survives => survives rfl, fun survives _ => survives⟩
  | @writeError index throws post completion listed failed =>
      rw [Survives, Session.survivesWrite_iff listed, if_neg failed,
        Session.dead_writeError_iff (invariant.writing id) listed, ← Bool.not_eq_true,
        imp_iff_not_or, not_not]

private theorem survives_of_completes {id : Nat} {event : Event} {after : Session}
    (completes : Completes id (server.session id) event after) : Survives server event := by
  cases completes with
  | arrive _ _ => trivial
  | readFailed _ => trivial
  | writeDone _ => trivial
  | writeFailed _ => trivial

theorem Alive.dequeueAccept (alive : Alive server) {target : Nat}
    (absent : target ∉ server.sessions) (index : Nat) :
    Alive (server.dequeueAccept index target .success) := by
  have dequeued : Alive { server with accepts := server.accepts.eraseIdx index } := alive
  rw [Server.dequeueAccept, if_pos rfl]
  exact dequeued.update absent _

/-- A new member has begun to read. -/
theorem Alive.joined (invariant : Invariant server) (unused : Unused server) (alive : Alive server)
    {index target : Nat} {endpoint : Bytes}
    (listed : server.accepts[index]? = some { target := target, completion := some .success }) :
    Alive ((((server.dequeueAccept index target .success).welcome target endpoint).update target
      fun session => session.start endpoint).pushBack target).accept := by
  have absent := (unused.target invariant listed).1
  have dequeued := invariant.dequeueAccept listed target .success
  have told := (alive.dequeueAccept absent index).broadcast dequeued.distinct (.joined target)
    (endpoint ++ bytes " joined\n")
  have outside : target ∉ ((server.dequeueAccept index target .success).broadcast (.joined target)
      (endpoint ++ bytes " joined\n")).sessions := by
    rwa [Server.broadcast_sessions]
  have started := (told.update outside fun session =>
    session.post { message := bytes "Welcome to the chat server\n" }).update outside
      fun session => session.start endpoint
  have pushed : Alive ((((server.dequeueAccept index target .success).welcome target
      endpoint).update target fun session => session.start endpoint).pushBack target) := by
    intro id member
    rcases List.mem_append.mp member with earlier | new
    · exact started id earlier
    · cases List.mem_singleton.mp new
      rw [Server.pushBack_session, Server.update_session_self]
      exact Session.not_dead_start _ _
  refine Server.forall_accept (fun id session => id ∈ _ → ¬ session.Dead) ?_ pushed
  intro _ dead
  exact absurd dead.1 Bool.false_ne_true

/-! ## Runs -/

/-- Between two handlers `sessions_` contains no dead session, and a broadcast leaves
the queue of every dead one alone. -/
structure DeadRemoved (server : Server) : Prop where
  removed : ∀ id ∈ server.sessions, ¬ (server.session id).Dead
  unposted : ∀ id, (server.session id).Dead → ∀ origin message,
    ((server.broadcast origin message).session id).outgoingMessages =
      (server.session id).outgoingMessages

theorem deadRemoved_iff (distinct : server.sessions.Nodup) : DeadRemoved server ↔ Alive server := by
  constructor
  · exact fun gone => gone.removed
  · intro alive
    refine ⟨alive, fun id dead origin message => ?_⟩
    have absent : id ∉ server.sessions := fun member => alive id member dead
    rw [Server.broadcast_eq distinct]
    dsimp only
    rw [if_neg absent]

/-- The loop has been left by an exception, or every dead session is gone. -/
def Clean (server : Server) : Prop :=
  server.thrown = false → DeadRemoved server

theorem clean_iff (invariant : Invariant server) :
    Clean server ↔ (server.thrown = false → Alive server) := by
  rw [Clean, deadRemoved_iff invariant.distinct]

/-- While the loop runs, a step leaves no dead member behind exactly if the
session of its handler survives. -/
theorem alive_iff_of_moves {next : Server} {event : Event} (running : server.thrown = false)
    (invariant : Invariant server) (unused : Unused server) (alive : Alive server)
    (moves : Moves server event next) :
    (next.thrown = false → Alive next) ↔ Survives server event := by
  cases moves with
  | acceptDone _ _ => exact ⟨fun _ => trivial, fun _ _ => alive⟩
  | @completes id _ _ completes =>
      have member := unused.member_of_completes completes
      refine ⟨fun _ => survives_of_completes completes, fun _ _ => ?_⟩
      exact ((alive.but id).alive_update_iff member _).mpr (Session.not_dead_completes completes)
  | @handles id _ after raised handles =>
      have member := unused.member_of_handles handles
      have kept : ({ server.update id fun _ => after with thrown := raised } : Server).release id =
          { server.update id fun _ => after with thrown := raised } :=
        Server.release_of_mem _ member
      rw [kept]
      exact handles_alive_iff invariant alive member handles
  | @lineRead id index throws completion listed success =>
      have member := unused.member_of_read listed
      rw [Server.release_of_mem _ (by rwa [Server.lineRead_sessions]), Survives,
        Session.survivesRead_iff listed, if_pos success,
        ← alive.lineRead_iff invariant listed member completion.bytesTransferred]
      refine ⟨fun kept => kept ?_, fun kept _ => kept⟩
      rw [Server.lineRead_thrown]
      exact running
  | @acceptFailed index target _ _ _ _ _ _ =>
      refine ⟨fun _ => trivial, fun _ _ => ?_⟩
      have dequeued : Alive { server with accepts := server.accepts.eraseIdx index } := alive
      exact dequeued.release invariant.distinct target
  | joinedThrew _ => exact ⟨fun _ => trivial, fun _ still => by cases still⟩
  | startThrew _ _ => exact ⟨fun _ => trivial, fun _ still => by cases still⟩
  | @joined index target endpoint listed _ =>
      have members := Server.joined_sessions server index target endpoint
      rw [Server.release_of_mem _ (members ▸ List.mem_append_right _ (List.mem_singleton_self _))]
      exact ⟨fun _ => trivial, fun _ _ => alive.joined invariant unused listed⟩

theorem clean_step (server : Server) (event : Event) (next : Server)
    (before : Invariant server ∧ Vacant server) (clean : Clean server)
    (moved : Server.machine.step server event = some next) :
    Clean next ↔ Survives server event := by
  have after := (vacant_step server event next before moved).1
  rcases moves_of_step moved with ⟨running, moves⟩
  rw [clean_iff after]
  exact alive_iff_of_moves running before.1 (before.2 running)
    ((clean_iff before.1).mp clean running) moves

/-- Throughout a run no dead session stays in `sessions_` and no broadcast is
queued for one, exactly if every session survives the handlers of the run. -/
theorem clean_along_run {events : List Event} {final : Server}
    (steps : Server.machine.run Server.machine.initial events = some final) :
    Server.machine.Always Clean Server.machine.initial events ↔
      Server.machine.Meets Survives Server.machine.initial events := by
  have empty : Clean Server.machine.initial := by
    refine (clean_iff vacant_initial.1).mpr fun _ id member => ?_
    cases member
  exact Server.machine.always_iff_meets vacant_step clean_step vacant_initial empty steps

/-! ### A client that is gone -/

/-- A client joins and resets its connection. -/
def resetClient : List Event :=
  [.acceptDone 0 .success, .onAccept 0 (bytes "10.0.0.1:1024") false false,
    .readFailed 0 0, .onRead 0 0 false, .onWrite 0 0 false]

/-- Another client joins. -/
def nextClient : List Event :=
  [.acceptDone 0 .success, .onAccept 0 (bytes "10.0.0.2:1024") false false]

private theorem resetClient_dead : ∃ server, Server.machine.run Server.machine.initial resetClient =
    some server ∧ server.thrown = false ∧ server.sessions = [0] ∧ (server.session 0).Dead ∧
      ∃ later, Server.machine.run server nextClient = some later ∧
        (server.session 0).outgoingMessages.length = 1 ∧
          (later.session 0).outgoingMessages.length = 2 := by
  have outcome : ((Server.machine.run Server.machine.initial resetClient).bind fun server =>
      (Server.machine.run server nextClient).map fun later =>
        decide (server.thrown = false ∧ server.sessions = [0] ∧ (server.session 0).Dead ∧
          (server.session 0).outgoingMessages.length = 1 ∧
            (later.session 0).outgoingMessages.length = 2)) = some true := by decide +kernel
  rcases Option.bind_eq_some_iff.mp outcome with ⟨server, steps, grown⟩
  rcases Option.map_eq_some_iff.mp grown with ⟨later, further, facts⟩
  rcases of_decide_eq_true facts with ⟨running, members, dead, before, after⟩
  exact ⟨server, steps, running, members, dead, later, further, before, after⟩

/-- The session of the client that is gone is still in `sessions_`, and the
notice that another client has joined is queued for it. -/
theorem resetClient_not_clean : ∃ server, Server.machine.Reachable server ∧ ¬ Clean server ∧
    ∃ later, Server.machine.run server nextClient = some later ∧
      (server.session 0).outgoingMessages.length <
        (later.session 0).outgoingMessages.length := by
  rcases resetClient_dead with ⟨server, steps, running, members, dead, later, further, one, two⟩
  refine ⟨server, ⟨resetClient, steps⟩, fun clean => ?_, later, further, ?_⟩
  · have member : 0 ∈ server.sessions := members ▸ List.mem_singleton_self 0
    exact (clean running).removed 0 member dead
  · rw [one, two]
    exact Nat.lt_succ_self 1

/-- Some handler of the session is the step that does not meet the condition. -/
theorem resetClient_not_meets :
    ¬ Server.machine.Meets Survives Server.machine.initial resetClient := by
  rcases resetClient_dead with ⟨server, steps, running, members, dead, _⟩
  intro meets
  have clean := ((clean_along_run steps).mpr meets).last _ steps
  have member : 0 ∈ server.sessions := members ▸ List.mem_singleton_self 0
  exact (clean running).removed 0 member dead

end Chat
end LearnAsio
