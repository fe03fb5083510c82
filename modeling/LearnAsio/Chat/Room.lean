import LearnAsio.Chat.Framing
import LearnAsio.Queue.SharedLog
import LearnAsio.Transition.Projection

namespace LearnAsio
namespace Chat

open Delivery Queue Transition

/-!
# The chat room

What the server is for can be said without sessions, queues and operations: there
is one log of notices, and a client is given the notices from its own arrival on,
after a welcome.  The server keeps no such log.  It copies every notice into the
queue of every session there is at that moment, and each queue is written at the
speed of its socket.  Here the server is shown to follow the room in every run,
whatever the order of its handlers.

Two things of the source show in the room.  A client is given its own line twice,
once under its name and once bare, and a session that was never announced can
take leave.
-/

/-- What is said in the room. -/
inductive Notice where
  | joined (id : Nat) (endpoint : Bytes)
  | said (id : Nat) (name line : Bytes)
  | left (id : Nat) (name : Bytes)
  deriving DecidableEq, Repr

/-- The name under which a client is shown. -/
def prompt (endpoint : Bytes) : Bytes := bytes "[" ++ endpoint ++ bytes "]: "

namespace Notice

def origin : Notice → Origin
  | .joined id _ => .joined id
  | .said id _ _ => .line id
  | .left id _ => .left id

def text : Notice → Bytes
  | .joined _ endpoint => endpoint ++ bytes " joined\n"
  | .said _ name line => name ++ line
  | .left _ name => name ++ bytes " has left the chat"

def joins (id : Nat) : Notice → Bool
  | .joined other _ => other = id
  | _ => false

/-- The messages in which the notice is shown to a client. -/
def shown (id : Nat) : Notice → List Bytes
  | .said speaker name line => if speaker = id then [name ++ line, line] else [name ++ line]
  | notice => [notice.text]

/-- The notice makes a client known under a name. -/
def introduces (id : Nat) (name : Bytes) : Notice → Bool
  | .joined other endpoint => other = id ∧ prompt endpoint = name
  | _ => false

/-- A client joins once, it speaks after that and under its own name, and only a
client that has not joined takes leave. -/
def permitted (log : List Notice) : Notice → Bool
  | .joined id endpoint => newline ∉ endpoint ∧ ∀ notice ∈ log, notice.joins id = false
  | .said id name line => newline ∉ line ∧ ∃ notice ∈ log, notice.introduces id name = true
  | .left id _ => ∀ notice ∈ log, notice.joins id = false

end Notice

/-- The room: its clients are welcomed, and shown what is said from then on. -/
def room : Audience Notice Nat Bytes where
  permits := Notice.permitted
  joins := Notice.joins
  opening := [bytes "Welcome to the chat server\n"]
  shown := Notice.shown

theorem joined_iff {log : List Notice} {id : Nat} :
    room.Joined log id ↔ ∃ endpoint, .joined id endpoint ∈ log := by
  constructor
  · rintro ⟨notice, listed, joins⟩
    cases notice with
    | joined other endpoint =>
        have same : other = id := of_decide_eq_true joins
        exact ⟨endpoint, same ▸ listed⟩
    | said _ _ _ => cases joins
    | left _ _ => cases joins
  · rintro ⟨endpoint, listed⟩
    exact ⟨_, listed, decide_eq_true rfl⟩

theorem forall_joins_eq_false {log : List Notice} {id : Nat} (absent : ¬ room.Joined log id) :
    ∀ notice ∈ log, notice.joins id = false :=
  fun notice listed => Bool.eq_false_iff.mpr fun joins => absent ⟨notice, listed, joins⟩

/-! ## What the server does in the room -/

namespace Server

/-- The act that an event amounts to, if the room notices it at all. -/
def act (server : Server) : Event → Option (Audience.Act Notice Nat)
  | .onAccept index endpoint joinedThrows _ =>
      match server.accepts[index]? with
      | some { target, completion := some ec } =>
          if ec ≠ .success then some (.publish (.left target (server.session target).name))
          else if joinedThrows then none
          else some (.publish (.joined target endpoint))
      | _ => none
  | .onRead id index _ =>
      match (server.session id).reads[index]? with
      | some { completion := some completion } =>
          if completion.error ≠ .success then none
          else some (.publish (.said id (server.session id).name
            (firstLine newline (server.session id).buffer)))
      | _ => none
  | .onWrite id index _ =>
      match (server.session id).writes[index]? with
      | some { completion := some completion, .. } =>
          if completion.error ≠ .success then none else some (.take id)
      | _ => none
  | _ => none

end Server

/-- The server is where the room is: it has broadcast the log, posted to every
session what its client is to be given, and sent as much of it as the client has
taken.  The vector `sessions_` tells who has joined as long as the loop runs. -/
structure Follows (server : Server) (board : Audience.Board Notice Nat) : Prop where
  told : server.broadcasts.map (fun broadcast => (broadcast.origin, broadcast.post.message)) =
    board.log.map fun notice => (notice.origin, notice.text)
  posted : ∀ id, (server.session id).posted.map Post.message = room.feed id board.log
  taken : ∀ id, (server.session id).sent.length = board.taken id
  members : server.thrown = false → ∀ id, id ∈ server.sessions ↔ room.Joined board.log id
  named : server.thrown = false → ∀ id endpoint, .joined id endpoint ∈ board.log →
    (server.session id).name = prompt endpoint

/-! ### What a broadcast leaves -/

namespace Session

/-- The part of a session that the room concerns. -/
structure Account where
  posted : List Bytes
  sent : Nat
  name : Bytes

def account (session : Session) : Account where
  posted := session.posted.map Post.message
  sent := session.sent.length
  name := session.name

theorem account_post (session : Session) (message : Post) : (session.post message).account =
    { session.account with posted := session.account.posted ++ [message.message] } := by
  unfold post
  dsimp only
  split <;> simp only [account, asyncWrite, List.map_append, List.map_cons, List.map_nil]

theorem account_popFront (session : Session) (written : Post) :
    (session.popFront written).account =
      { session.account with sent := session.account.sent + 1 } := by
  unfold popFront
  dsimp only
  split <;> simp only [account, asyncWrite, List.length_append, List.length_singleton]

theorem account_completes {id : Nat} {session after : Session} {event : Event}
    (completes : Completes id session event after) : after.account = session.account := by
  cases completes with
  | arrive _ _ => rfl
  | readFailed _ => rfl
  | writeDone _ => rfl
  | writeFailed _ => rfl

end Session

variable {server next : Server} {board : Audience.Board Notice Nat}

theorem account_broadcast (distinct : server.sessions.Nodup) (origin : Origin) (message : Bytes)
    (id : Nat) : ((server.broadcast origin message).session id).account =
      { (server.session id).account with
        posted := (server.session id).account.posted ++
          if id ∈ server.sessions then [message] else [] } := by
  rw [Server.broadcast_eq distinct]
  dsimp only
  split
  · exact Session.account_post _ _
  · rw [List.append_nil]

/-- The destructor of a session whose accept has failed. -/
theorem release_target (running : server.thrown = false) (invariant : Invariant server)
    (unused : Unused server) {index target : Nat} {ec : ErrorCode}
    (listed : server.accepts[index]? = some { target := target, completion := some ec }) :
    ({ server with accepts := server.accepts.eraseIdx index } : Server).release target =
      ({ server with accepts := server.accepts.eraseIdx index } : Server).broadcast (.left target)
        ((server.session target).name ++ bytes " has left the chat") := by
  rcases unused.target invariant listed with ⟨absent, fresh, handled⟩
  refine if_neg ?_
  rintro (stopped | member | ⟨accept, among, _⟩ | reads | writes)
  · exact Bool.false_ne_true (running.symm.trans stopped)
  · exact absent member
  · rw [handled] at among
    cases among
  · exact reads (congrArg Session.reads fresh)
  · exact writes (congrArg Session.writes fresh)

namespace Follows

/-- Nothing has been said. -/
theorem initial : Follows Server.machine.initial {} := by
  refine ⟨rfl, ?_, ?_, ?_, ?_⟩
  · exact Server.forall_accept (fun _ session => session.posted.map Post.message = []) rfl
      fun _ => rfl
  · exact Server.forall_accept (fun _ session => session.sent.length = 0) rfl fun _ => rfl
  · intro _ id
    refine iff_of_false List.not_mem_nil ?_
    rintro ⟨_, impossible, _⟩
    cases impossible
  · intro _ _ _ impossible
    cases impossible

/-- A step of which the room sees nothing. -/
theorem congr (follows : Follows server board) (told : next.broadcasts = server.broadcasts)
    (account : ∀ id, (next.session id).account = (server.session id).account)
    (running : next.thrown = false → server.thrown = false)
    (members : next.thrown = false → next.sessions = server.sessions) : Follows next board where
  told := told ▸ follows.told
  posted := fun id => (congrArg Session.Account.posted (account id)).trans (follows.posted id)
  taken := fun id => (congrArg Session.Account.sent (account id)).trans (follows.taken id)
  members := fun still id => members still ▸ follows.members (running still) id
  named := fun still id endpoint listed =>
    (congrArg Session.Account.name (account id)).trans
      (follows.named (running still) id endpoint listed)

/-- A session alone changes, and nothing that the room sees. -/
theorem update (follows : Follows server board) {id : Nat} {after : Session}
    (account : after.account = (server.session id).account) :
    Follows (server.update id fun _ => after) board :=
  follows.congr rfl
    (Server.forall_update (fun other session => session.account = (server.session other).account)
      account fun _ => rfl)
    (fun running => running) fun _ => rfl

/-- A client takes a message. -/
theorem take (follows : Follows server board) {id : Nat} {after : Session}
    (account : after.account =
      { (server.session id).account with sent := (server.session id).account.sent + 1 }) :
    Follows (server.update id fun _ => after)
      { board with taken := Function.update board.taken id (board.taken id + 1) } where
  told := follows.told
  posted := Server.forall_update
    (fun other session => session.posted.map Post.message = room.feed other board.log)
    ((congrArg Session.Account.posted account).trans (follows.posted id)) follows.posted
  taken := by
    intro other
    by_cases same : other = id
    · subst same
      dsimp only
      rw [Server.update_session_self, Function.update_self, ← follows.taken other]
      exact congrArg Session.Account.sent account
    · dsimp only
      rw [Server.update_session_of_ne same, Function.update_of_ne same]
      exact follows.taken other
  members := follows.members
  named := fun running => Server.forall_update
    (fun other session => ∀ endpoint, .joined other endpoint ∈ board.log →
      session.name = prompt endpoint)
    (fun endpoint listed => (congrArg Session.Account.name account).trans
      (follows.named running id endpoint listed))
    (follows.named running)

/-- Something is said.  Every member is shown it, and a client that joins with it
is welcomed. -/
theorem publish (follows : Follows server board) (running : server.thrown = false)
    {notice : Notice} {post : Post}
    (told : next.broadcasts = server.broadcasts ++ [⟨notice.origin, post⟩])
    (message : post.message = notice.text)
    (account : ∀ id, (next.session id).account.posted =
      (server.session id).account.posted ++
        if id ∈ server.sessions then notice.shown id
        else if notice.joins id = true then room.opening else [])
    (sent : ∀ id, (next.session id).account.sent = (server.session id).account.sent)
    (members : next.thrown = false →
      ∀ id, id ∈ next.sessions ↔ id ∈ server.sessions ∨ notice.joins id = true)
    (named : next.thrown = false → ∀ id endpoint,
      .joined id endpoint ∈ board.log ++ [notice] → (next.session id).name = prompt endpoint) :
    Follows next { board with log := board.log ++ [notice] } where
  told := by
    rw [told, List.map_append, List.map_append, follows.told]
    simp only [List.map_cons, List.map_nil, message]
  posted := by
    intro id
    have before := follows.posted id
    have after : (next.session id).posted.map Post.message = _ := account id
    rw [after, show (server.session id).account.posted = room.feed id board.log from before]
    dsimp only
    by_cases member : id ∈ server.sessions
    · rw [if_pos member]
      exact (Audience.feed_concat_of_joined ((follows.members running id).mp member)).symm
    · have absent : ¬ room.Joined board.log id :=
        fun joined => member ((follows.members running id).mpr joined)
      rw [if_neg member]
      by_cases joins : notice.joins id = true
      · rw [if_pos joins, Audience.feed_of_not_joined absent]
        exact (Audience.feed_concat_of_joins absent joins).symm
      · rw [if_neg joins, List.append_nil]
        refine (Audience.feed_concat_of_not_joined fun joined => ?_).symm
        exact (Audience.joined_concat.mp joined).elim absent joins
  taken := fun id => (sent id).trans (follows.taken id)
  members := by
    intro still id
    rw [members still, follows.members running]
    exact Audience.joined_concat.symm
  named := named

end Follows

/-! ## Every step -/

/-- The room does what the event amounts to, and the server follows. -/
inductive Accounts (server : Server) (event : Event) (next : Server)
    (board : Audience.Board Notice Nat) : Prop
  | silent (unnoticed : server.act event = none) (follows : Follows next board)
  | acts (act : Audience.Act Notice Nat) (after : Audience.Board Notice Nat)
      (noticed : server.act event = some act) (moved : room.board.step board act = some after)
      (follows : Follows next after)

theorem act_of_completes {id : Nat} {event : Event} {after : Session}
    (completes : Completes id (server.session id) event after) : server.act event = none := by
  cases completes with
  | arrive _ _ => rfl
  | readFailed _ => rfl
  | writeDone _ => rfl
  | writeFailed _ => rfl

/-- A queue that is being written is not empty. -/
theorem sent_lt_posted {session : Session} (lawful : session.writer.Lawful) {index : Nat}
    {write : Write} (listed : session.writes[index]? = some write) :
    session.sent.length < session.posted.length := by
  have history : session.sent ++ session.outgoingMessages = session.posted := lawful.history
  have front := lawful.front _ (Session.post_mem_writing listed)
  have filled : session.outgoingMessages ≠ [] := by
    intro none
    rw [show session.writer.queue = [] from none] at front
    cases front
  rw [← history, List.length_append]
  exact Nat.lt_add_of_pos_right (List.length_pos_iff.mpr filled)

/-- A handler that concerns its own session only. -/
theorem accounts_handles (invariant : Invariant server) (unused : Unused server)
    (follows : Follows server board) {id : Nat} {event : Event} {after : Session} {raised : Bool}
    (running : server.thrown = false)
    (handles : Handles id (server.session id) event after raised) :
    Accounts server event ({ server.update id fun _ => after with thrown := raised }.release id)
      board := by
  have kept : ({ server.update id fun _ => after with thrown := raised } : Server).release id =
      { server.update id fun _ => after with thrown := raised } :=
    Server.release_of_mem _ (unused.member_of_handles handles)
  rw [kept]
  have threw : ∀ {after : Session} {raised : Bool} {other : Audience.Board Notice Nat},
      Follows (server.update id fun _ => after) other →
        Follows { server.update id fun _ => after with thrown := raised } other :=
    fun follows => follows.congr rfl (fun _ => rfl) (fun _ => running) fun _ => rfl
  cases handles with
  | readError listed failed =>
      refine .silent ?_ (threw (follows.update rfl))
      simp only [Server.act, listed, if_pos failed]
  | written listed success =>
      have more := sent_lt_posted (invariant.writing id) listed
      have bound : board.taken id < (room.feed id board.log).length := by
        rw [← follows.taken id, ← follows.posted id, List.length_map]
        exact more
      refine .acts (.take id) _ ?_ (Audience.board_take bound) (threw (follows.take ?_))
      · have healthy : ¬ (_ ≠ ErrorCode.success) := fun failed => failed success
        simp only [Server.act, listed, if_neg healthy]
      · exact Session.account_popFront _ _
  | writeError listed failed =>
      refine .silent ?_ (threw (follows.update rfl))
      simp only [Server.act, listed, if_pos failed]

/-- Which joined notices a log has after another notice. -/
theorem joined_mem_concat {log : List Notice} {notice : Notice} {id : Nat} {endpoint : Bytes}
    (silent : notice.joins id = false) (listed : .joined id endpoint ∈ log ++ [notice]) :
    .joined id endpoint ∈ log := by
  rcases List.mem_append.mp listed with earlier | last
  · exact earlier
  · rw [← List.mem_singleton.mp last] at silent
    exact absurd (decide_eq_true rfl) (Bool.eq_false_iff.mp silent)

/-- A line is said, and the speaker is given it once more. -/
theorem accounts_lineRead (invariant : Invariant server) (unused : Unused server)
    (follows : Follows server board) (running : server.thrown = false) {id index : Nat}
    {throws : Bool} {completion : Completion}
    (listed : (server.session id).reads[index]? = some { completion := some completion })
    (success : completion.error = .success) :
    Accounts server (.onRead id index throws)
      ((server.lineRead id index completion.bytesTransferred).release id) board := by
  have member := unused.member_of_read listed
  have sessions := server.lineRead_sessions id index completion.bytesTransferred
  rw [Server.release_of_mem _ (sessions.symm ▸ member)]
  let line := firstLine newline (server.session id).buffer
  let name := (server.session id).name
  let after := (((server.session id).dequeueRead index).takeLine completion.bytesTransferred).2
  have account : ∀ other,
      ((server.lineRead id index completion.bytesTransferred).session other).account =
        { (server.session other).account with
          posted := (server.session other).account.posted ++
            if other ∈ server.sessions then Notice.shown other (.said id name line)
            else [] } := by
    intro other
    have taken : ((server.update id fun _ => after).session other).account =
        (server.session other).account :=
      Server.forall_update (fun other session => session.account = (server.session other).account)
        rfl (fun _ => rfl) other
    have told : (((server.update id fun _ => after).broadcast (.line id)
        (name ++ line)).session other).account =
          { (server.session other).account with
            posted := (server.session other).account.posted ++
              if other ∈ server.sessions then [name ++ line] else [] } := by
      have distinct : (server.update id fun _ => after).sessions.Nodup := invariant.distinct
      rw [account_broadcast distinct, taken]
      rfl
    by_cases same : other = id
    · subst same
      change ((((server.update other fun _ => after).broadcast (.line other)
        (name ++ line)).update other fun session => session.post { message := line }).session
          other).account = _
      rw [Server.update_session_self, Session.account_post, told]
      simp only [Notice.shown, if_pos member, if_true, List.append_assoc]
      rfl
    · change ((((server.update id fun _ => after).broadcast (.line id)
        (name ++ line)).update id fun session => session.post { message := line }).session
          other).account = _
      have listener : ¬ id = other := fun speaker => same speaker.symm
      rw [Server.update_session_of_ne same, told]
      simp only [Notice.shown, if_neg listener]
  have permitted : room.permits board.log (.said id name line) = true := by
    rcases joined_iff.mp ((follows.members running id).mp member) with ⟨endpoint, told⟩
    refine decide_eq_true ⟨notMem_firstLine _, _, told, decide_eq_true ⟨rfl, ?_⟩⟩
    exact (follows.named running id endpoint told).symm
  refine .acts (.publish (.said id name line)) _ ?_ (Audience.board_publish permitted) ?_
  · have healthy : ¬ completion.error ≠ .success := fun failed => failed success
    simp only [Server.act, listed, if_neg healthy]
    rfl
  · have told : (server.lineRead id index completion.bytesTransferred).broadcasts =
        server.broadcasts ++ [⟨.line id, ⟨name ++ line, some server.broadcasts.length⟩⟩] :=
      Server.broadcast_broadcasts (server.update id fun _ => after) (.line id) (name ++ line)
    refine follows.publish running told rfl ?_ ?_ ?_ ?_
    · intro other
      rw [account]
      rfl
    · intro other
      rw [account]
    · intro _ other
      rw [sessions]
      exact ⟨Or.inl, fun known => known.elim (fun member => member) Bool.noConfusion⟩
    · intro _ other endpoint among
      have same := congrArg Session.Account.name (account other)
      exact same.trans (follows.named running other endpoint (joined_mem_concat rfl among))

/-- The session of a failed accept takes leave without a name. -/
theorem accounts_acceptFailed (invariant : Invariant server) (unused : Unused server)
    (follows : Follows server board) (running : server.thrown = false) {index target : Nat}
    {ec : ErrorCode} {endpoint : Bytes} {joinedThrows startThrows : Bool}
    (listed : server.accepts[index]? = some { target := target, completion := some ec })
    (failed : ec ≠ .success) :
    Accounts server (.onAccept index endpoint joinedThrows startThrows)
      (({ server with accepts := server.accepts.eraseIdx index } : Server).release target)
      board := by
  rw [release_target running invariant unused listed]
  have distinct :
      ({ server with accepts := server.accepts.eraseIdx index } : Server).sessions.Nodup :=
    invariant.distinct
  have account := account_broadcast distinct (.left target)
    ((server.session target).name ++ bytes " has left the chat")
  have absent : ¬ room.Joined board.log target :=
    fun joined => (unused.target invariant listed).1 ((follows.members running target).mpr joined)
  have permitted : room.permits board.log (.left target (server.session target).name) = true :=
    decide_eq_true (forall_joins_eq_false absent)
  refine .acts (.publish (.left target (server.session target).name)) _ ?_
    (Audience.board_publish permitted) ?_
  · simp only [Server.act, listed, if_pos failed]
  · refine follows.publish running (Server.broadcast_broadcasts _ _ _) rfl ?_ ?_ ?_ ?_
    · intro id
      rw [account]
      rfl
    · intro id
      rw [account]
    · intro _ id
      rw [Server.broadcast_sessions]
      exact ⟨Or.inl, fun known => known.elim (fun member => member) Bool.noConfusion⟩
    · intro _ id endpoint among
      have same := congrArg Session.Account.name (account id)
      exact same.trans (follows.named running id endpoint (joined_mem_concat rfl among))

theorem account_assigned (server : Server) (index target id : Nat) :
    ((server.dequeueAccept index target .success).session id).account =
      (server.session id).account := by
  rw [Server.dequeueAccept, if_pos rfl]
  by_cases same : id = target
  · subst same
    rw [Server.update_session_self]
    rfl
  · rw [Server.update_session_of_ne same]

/-- A session is welcomed, and every member is told. -/
theorem account_welcome (invariant : Invariant server) (unused : Unused server)
    {index target : Nat} {completion : Option ErrorCode}
    (listed : server.accepts[index]? = some { target := target, completion := completion })
    (endpoint : Bytes) (id : Nat) :
    (((server.dequeueAccept index target .success).welcome target endpoint).session id).account =
      { (server.session id).account with
        posted := (server.session id).account.posted ++
          if id ∈ server.sessions then Notice.shown id (.joined target endpoint)
          else if Notice.joins id (.joined target endpoint) = true then room.opening else [] } := by
  have absent := (unused.target invariant listed).1
  have told : (((server.dequeueAccept index target .success).broadcast (.joined target)
      (endpoint ++ bytes " joined\n")).session id).account =
        { (server.session id).account with
          posted := (server.session id).account.posted ++
            if id ∈ server.sessions then [endpoint ++ bytes " joined\n"] else [] } := by
    have distinct := (invariant.dequeueAccept listed target .success).distinct
    rw [account_broadcast distinct, account_assigned]
    rfl
  by_cases same : id = target
  · subst same
    rw [Server.welcome, Server.update_session_self, Session.account_post, told]
    have joins : Notice.joins id (.joined id endpoint) = true := decide_eq_true rfl
    simp only [if_neg absent, if_pos joins, List.append_nil]
    rfl
  · have other : ¬ Notice.joins id (.joined target endpoint) = true :=
      fun joins => same (of_decide_eq_true joins).symm
    rw [Server.welcome, Server.update_session_of_ne same, told]
    simp only [if_neg other]
    rfl

/-- The target of an accept may join. -/
theorem permits_joined (invariant : Invariant server) (unused : Unused server)
    (follows : Follows server board) (running : server.thrown = false) {index target : Nat}
    {completion : Option ErrorCode}
    (listed : server.accepts[index]? = some { target := target, completion := completion })
    {endpoint : Bytes} (oneLine : newline ∉ endpoint) :
    room.permits board.log (.joined target endpoint) = true := by
  have absent : ¬ room.Joined board.log target :=
    fun joined => (unused.target invariant listed).1 ((follows.members running target).mpr joined)
  exact decide_eq_true ⟨oneLine, forall_joins_eq_false absent⟩

theorem act_joined {index target : Nat} {endpoint : Bytes} {startThrows : Bool}
    (listed : server.accepts[index]? = some { target := target, completion := some .success }) :
    server.act (.onAccept index endpoint false startThrows) =
      some (.publish (.joined target endpoint)) := by
  simp only [Server.act, listed]
  rfl

/-- A session that has been welcomed throws when it is started. -/
theorem accounts_startThrew (invariant : Invariant server) (unused : Unused server)
    (follows : Follows server board) (running : server.thrown = false) {index target : Nat}
    {endpoint : Bytes}
    (listed : server.accepts[index]? = some { target := target, completion := some .success })
    (oneLine : newline ∉ endpoint) :
    Accounts server (.onAccept index endpoint false true)
      { (server.dequeueAccept index target .success).welcome target endpoint with thrown := true }
      board := by
  have account := account_welcome invariant unused listed endpoint
  refine .acts (.publish (.joined target endpoint)) _ (act_joined listed)
    (Audience.board_publish (permits_joined invariant unused follows running listed oneLine)) ?_
  have told := Server.broadcast_broadcasts (server.dequeueAccept index target .success)
    (.joined target) (endpoint ++ bytes " joined\n")
  refine follows.publish running told rfl ?_ ?_ Bool.noConfusion Bool.noConfusion
  · intro id
    exact congrArg Session.Account.posted (account id)
  · intro id
    have same := congrArg Session.Account.sent (account id)
    exact same

/-- What a session that joins and the others have got by then.  Starting a session
names it. -/
theorem account_joined (invariant : Invariant server) (unused : Unused server)
    {index target : Nat} {completion : Option ErrorCode}
    (listed : server.accepts[index]? = some { target := target, completion := completion })
    (endpoint : Bytes) (id : Nat) :
    (((((server.dequeueAccept index target .success).welcome target endpoint).update target
      fun session => session.start endpoint).pushBack target).accept.session id).account =
      { posted := (server.session id).account.posted ++
          if id ∈ server.sessions then Notice.shown id (.joined target endpoint)
          else if Notice.joins id (.joined target endpoint) = true then room.opening else []
        sent := (server.session id).account.sent
        name := if id = target then prompt endpoint else (server.session id).account.name } := by
  have welcomed := account_welcome invariant unused listed endpoint id
  have created := (invariant.target _ (List.mem_of_getElem? listed)).1
  have count : ((((server.dequeueAccept index target .success).welcome target endpoint).update
      target fun session => session.start endpoint).pushBack target).newSession =
        server.newSession :=
    Server.broadcast_newSession (server.dequeueAccept index target .success) _ _
  by_cases last : id = server.newSession
  · -- The next session is a new one, and nothing was known of it.
    have absent : id ∉ server.sessions :=
      fun member => absurd (invariant.created id member) (last ▸ Nat.lt_irrefl _)
    have different : id ≠ target :=
      fun same => absurd created (last ▸ same ▸ Nat.lt_irrefl _)
    have silent : ¬ Notice.joins id (.joined target endpoint) = true :=
      fun joins => different (of_decide_eq_true joins).symm
    rw [show id = _ from last.trans count.symm, Server.accept_session_self, count, ← last,
      unused id absent, if_neg absent, if_neg silent, if_neg different]
    rfl
  · rw [Server.accept_session_of_ne (count.symm ▸ last), Server.pushBack_session]
    by_cases same : id = target
    · subst same
      have started := congrArg
        (fun account : Session.Account => { account with name := prompt endpoint }) welcomed
      rw [Server.update_session_self, if_pos rfl]
      exact started
    · rw [Server.update_session_of_ne same, if_neg same]
      exact welcomed

/-- A session is welcomed, started and added, and the next accept is begun. -/
theorem accounts_joined (invariant : Invariant server) (unused : Unused server)
    (follows : Follows server board) (running : server.thrown = false) {index target : Nat}
    {endpoint : Bytes}
    (listed : server.accepts[index]? = some { target := target, completion := some .success })
    (oneLine : newline ∉ endpoint) :
    Accounts server (.onAccept index endpoint false false)
      (((((server.dequeueAccept index target .success).welcome target endpoint).update target
        fun session => session.start endpoint).pushBack target).accept.release target) board := by
  have members := Server.joined_sessions server index target endpoint
  rw [Server.release_of_mem _ (members ▸ List.mem_append_right _ (List.mem_singleton_self _))]
  have absent := (unused.target invariant listed).1
  have account := account_joined invariant unused listed endpoint
  refine .acts (.publish (.joined target endpoint)) _ (act_joined listed)
    (Audience.board_publish (permits_joined invariant unused follows running listed oneLine)) ?_
  have told := Server.broadcast_broadcasts (server.dequeueAccept index target .success)
    (.joined target) (endpoint ++ bytes " joined\n")
  refine follows.publish running told rfl ?_ ?_ ?_ ?_
  · intro id
    exact congrArg Session.Account.posted (account id)
  · intro id
    have same := congrArg Session.Account.sent (account id)
    exact same
  · intro _ id
    rw [members, List.mem_append, List.mem_singleton]
    exact or_congr_right ⟨fun same => decide_eq_true same.symm,
      fun joins => (of_decide_eq_true joins).symm⟩
  · intro _ id other among
    refine (congrArg Session.Account.name (account id)).trans ?_
    rcases List.mem_append.mp among with earlier | last
    · have member := (follows.members running id).mpr (joined_iff.mpr ⟨other, earlier⟩)
      have different : id ≠ target := fun same => absent (same ▸ member)
      dsimp only
      rw [if_neg different]
      exact follows.named running id other earlier
    · cases List.mem_singleton.mp last
      exact if_pos rfl

theorem accounts_of_moves (invariant : Invariant server) (unused : Unused server)
    (follows : Follows server board) (running : server.thrown = false) {event : Event}
    (moves : Moves server event next) : Accounts server event next board := by
  cases moves with
  | acceptDone _ _ =>
      exact .silent rfl (follows.congr rfl (fun _ => rfl) (fun _ => running) fun _ => rfl)
  | completes completes =>
      exact .silent (act_of_completes completes)
        (follows.update (Session.account_completes completes))
  | handles handles => exact accounts_handles invariant unused follows running handles
  | lineRead listed success =>
      exact accounts_lineRead invariant unused follows running listed success
  | acceptFailed listed failed =>
      exact accounts_acceptFailed invariant unused follows running listed failed
  | @joinedThrew index target endpoint startThrows listed =>
      have unnoticed : server.act (.onAccept index endpoint true startThrows) = none := by
        simp only [Server.act, listed]
        rfl
      exact .silent unnoticed (follows.congr rfl (account_assigned server index target)
        (fun _ => running) Bool.noConfusion)
  | startThrew listed oneLine =>
      exact accounts_startThrew invariant unused follows running listed oneLine
  | joined listed oneLine => exact accounts_joined invariant unused follows running listed oneLine

/-! ## Every run -/

/-- The acts of a run are a run of the room, in which the server follows. -/
theorem follows_of_run {events : List Event} {final : Server}
    (steps : Server.machine.run Server.machine.initial events = some final) :
    ∃ board, room.board.run {} (Server.machine.project Server.act Server.machine.initial events) =
      some board ∧ Invariant final ∧ Follows final board := by
  let related := fun server board => (Invariant server ∧ Vacant server) ∧ Follows server board
  have kept_step : ∀ state event next board act, related state board → True →
      Server.machine.step state event = some next → state.act event = some act →
        ∃ after, room.board.step board act = some after ∧ related next after := by
    rintro state event next board act ⟨before, follows⟩ _ moved kept
    rcases moves_of_step moved with ⟨running, moves⟩
    cases accounts_of_moves before.1 (before.2 running) follows running moves with
    | silent unnoticed _ => cases unnoticed.symm.trans kept
    | acts same after noticed stepped still =>
        cases noticed.symm.trans kept
        exact ⟨after, stepped, vacant_step state event next before moved, still⟩
  have skipped_step : ∀ state event next board, related state board → True →
      Server.machine.step state event = some next → state.act event = none →
        related next board := by
    rintro state event next board ⟨before, follows⟩ _ moved skipped
    rcases moves_of_step moved with ⟨running, moves⟩
    cases accounts_of_moves before.1 (before.2 running) follows running moves with
    | silent _ still => exact ⟨vacant_step state event next before moved, still⟩
    | acts same after noticed _ _ => cases noticed.symm.trans skipped
  rcases System.run_project room.board kept_step skipped_step ⟨vacant_initial, .initial⟩
    (Server.machine.meets_true Server.machine.initial events) steps with
    ⟨board, reached, lawful, follows⟩
  exact ⟨board, reached, lawful.1, follows⟩

/-- The server shows what the room shows: every client has been sent, message by
message, what it has seen in the room. -/
structure Shows (server : Server) (board : Audience.Board Notice Nat) : Prop where
  follows : Follows server board
  sent : ∀ id, (server.session id).sent.map Post.message = room.seen board id

/-- A queue is sent from the front. -/
theorem Follows.shows (follows : Follows server board) (invariant : Invariant server) :
    Shows server board where
  follows := follows
  sent := by
    intro id
    have sent : (server.session id).sent <+: (server.session id).posted :=
      Writer.Lawful.sent_prefix (invariant.writing id)
    have whole := List.prefix_iff_eq_take.mp (sent.map Post.message)
    rw [List.length_map, follows.taken id, follows.posted id] at whole
    exact whole

/-- The acts of a run are a run of the room, and the server shows in the end what the
room shows. -/
theorem follows_room {events : List Event} {final : Server}
    (steps : Server.machine.run Server.machine.initial events = some final) :
    ∃ board, room.board.run {} (Server.machine.project Server.act Server.machine.initial events) =
      some board ∧ Shows final board := by
  rcases follows_of_run steps with ⟨board, reached, invariant, follows⟩
  exact ⟨board, reached, follows.shows invariant⟩

/-- A client says hello, and the room has seen three things in the end. -/
theorem hello_follows : ∃ server board, Server.machine.run Server.machine.initial hello =
    some server ∧ room.board.run {} (Server.machine.project Server.act Server.machine.initial
      hello) = some board ∧ Shows server board ∧
      board.log = [.joined 0 (bytes "10.0.0.1:1024"),
        .said 0 (bytes "[10.0.0.1:1024]: ") (bytes "hello"),
        .joined 1 (bytes "10.0.0.2:1025")] := by
  have completed : (Server.machine.run Server.machine.initial hello).isSome = true := by
    decide +kernel
  have outcome : (room.board.run {} (Server.machine.project Server.act Server.machine.initial
      hello)).map Audience.Board.log = some [.joined 0 (bytes "10.0.0.1:1024"),
        .said 0 (bytes "[10.0.0.1:1024]: ") (bytes "hello"),
        .joined 1 (bytes "10.0.0.2:1025")] := by decide +kernel
  rcases Option.isSome_iff_exists.mp completed with ⟨server, steps⟩
  rcases follows_room steps with ⟨board, reached, shows⟩
  rw [reached, Option.map_some, Option.some.injEq] at outcome
  exact ⟨server, board, steps, reached, shows, outcome⟩

end Chat
end LearnAsio
