import LearnAsio.Chat.Membership

namespace LearnAsio
namespace Chat

open Delivery Transition

/-!
# What a chat client makes of its stream

A client knows the messages of the server by their newlines, as the server knows
those of the client.  The welcome and the notice that a session has joined end
with one.  The line that `std::getline` has taken off the buffer has lost its
newline, so neither the echo nor the broadcast of it ends with one, and the leave
notice is made without.

The kind of a message is known from the log of the broadcasts.  That it decides
whether the message ends with a newline is the invariant of this module.
-/

/-- The line that a message is to be read as. -/
def Post.text (post : Post) : Bytes := firstLine newline post.message

/-- The whole message has been handed to the operating system. -/
def Write.IsDone (write : Write) : Prop :=
  write.completion.map Completion.error = some .success

instance : DecidablePred Write.IsDone :=
  fun _ => inferInstanceAs (Decidable (_ = _))

namespace Session

/-- The messages that have been sent completely, whether or not the last `on_write`
has run. -/
def delivered (session : Session) : List Post :=
  session.sent ++ (session.writes.filter Write.IsDone).map Write.post

/-- All messages whose write has begun. -/
def begun (session : Session) : List Post := session.sent ++ session.writes.map Write.post

/-- What the client may have received: some of the messages, and of the next one
a part. -/
structure Receives (session : Session) (whole : List Post) (part : Bytes) : Prop where
  delivered : whole <+: session.delivered
  unfinished : part = [] ∨ ∃ next, whole ++ [next] <+: session.begun ∧
    part <+: next.message ∧ part ≠ next.message

/-- The lines in what the client has received are the messages that it has
received completely. -/
def Framed (session : Session) : Prop :=
  ∀ whole part, session.Receives whole part →
    completeLines newline (whole.flatMap Post.message ++ part) = whole.map Post.text

/-! ## Delivered messages -/

variable {session : Session}

theorem delivered_subset_begun : session.delivered ⊆ session.begun := by
  intro post listed
  rcases List.mem_append.mp listed with sent | done
  · exact List.mem_append_left _ sent
  · rcases List.mem_map.mp done with ⟨write, among, same⟩
    exact List.mem_append_right _ (List.mem_map.mpr ⟨write, (List.mem_filter.mp among).1, same⟩)

/-- What is written has been posted. -/
theorem begun_subset_posted (lawful : session.writer.Lawful) : session.begun ⊆ session.posted := by
  intro post listed
  have history : session.sent ++ session.outgoingMessages = session.posted := lawful.history
  rw [← history]
  rcases List.mem_append.mp listed with sent | writing
  · exact List.mem_append_left _ sent
  · exact List.mem_append_right _ (List.mem_of_mem_head? (lawful.front post writing))

/-- A session delimits its messages if each of them ends with the newline. -/
theorem framed_iff_newline_mem
    (trailing : ∀ post ∈ session.begun, newline ∉ post.message.dropLast) :
    session.Framed ↔ ∀ post ∈ session.delivered, newline ∈ post.message := by
  have clean : ∀ message ∈ session.delivered.map Post.message, newline ∉ message.dropLast :=
    List.forall_mem_map.mpr fun post listed => trailing post (delivered_subset_begun listed)
  constructor
  · intro framed
    refine List.forall_mem_map.mp (forall_mem_of_completeLines clean ?_)
    intro arrived begins
    rcases List.prefix_map_iff.mp begins with ⟨whole, earlier, same⟩
    subst same
    have lines := framed whole [] ⟨earlier, Or.inl rfl⟩
    rw [List.append_nil, List.flatMap_def] at lines
    rw [lines, List.map_map]
    rfl
  · intro ended whole part receives
    have absent : newline ∉ part := by
      rcases receives.unfinished with none | ⟨next, begun, begins, more⟩
      · rw [none]
        exact List.not_mem_nil
      · have listed := begun.subset (List.mem_append_right _ (List.mem_singleton_self next))
        exact notMem_of_proper_prefix (trailing next listed) begins more
    have lines : ∀ message ∈ whole.map Post.message,
        firstLine newline message ++ [newline] = message := by
      refine List.forall_mem_map.mpr fun post listed => ?_
      have known := receives.delivered.subset listed
      exact firstLine_concat (trailing post (delivered_subset_begun known)) (ended post known)
    rw [List.flatMap_def, completeLines_flatten lines, completeLines_of_notMem absent,
      List.append_nil, List.map_map]
    rfl

/-! ## What a member function delivers -/

theorem delivered_of_writes {write : Write} (writes : session.writes = [write]) :
    session.delivered = session.sent ++ if write.IsDone then [write.post] else [] := by
  rw [delivered, writes, List.filter_cons]
  simp only [decide_eq_true_eq]
  split <;> rfl

/-- A write that has just begun has not succeeded. -/
theorem delivered_asyncWrite (session : Session) :
    session.asyncWrite.delivered = session.delivered := by
  have none : ∀ write ∈ session.outgoingMessages.head?.toList.map fun post =>
      ({ post := post, completion := session.initialCompletion } : Write), ¬ write.IsDone := by
    refine List.forall_mem_map.mpr fun post _ done => ?_
    rcases Option.map_eq_some_iff.mp done with ⟨completion, outcome, success⟩
    exact initialCompletion_error outcome success
  have quiet := List.filter_eq_nil_iff.mpr fun write listed done =>
    none write listed (of_decide_eq_true done)
  rw [delivered, asyncWrite, List.filter_append, quiet, List.append_nil]
  rfl

theorem delivered_post (session : Session) (message : Post) :
    (session.post message).delivered = session.delivered := by
  unfold post
  dsimp only
  split
  · exact delivered_asyncWrite _
  · rfl

theorem hasFailed_post (session : Session) (message : Post) :
    (session.post message).hasFailed = session.hasFailed := by
  unfold post
  dsimp only
  split <;> rfl

/-- `on_write` finds its message delivered. -/
theorem delivered_popFront (lawful : session.writer.Lawful) {index : Nat} {written : Post}
    {completion : Completion}
    (listed : session.writes[index]? = some { post := written, completion := some completion })
    (success : completion.error = .success) :
    ((session.dequeueWrite index).popFront written).delivered = session.delivered := by
  have single := length_writes_le_one lawful
  have done : Write.IsDone { post := written, completion := some completion } :=
    congrArg some success
  rw [delivered_of_writes (eq_singleton_of_listed single listed).1, if_pos done]
  have moved : ∀ queue : List Post, delivered { session.dequeueWrite index with
      outgoingMessages := queue
      sent := session.sent ++ [written] } = session.sent ++ [written] := by
    intro queue
    rw [delivered, dequeueWrite, eraseIdx_of_listed single listed]
    exact List.append_nil _
  unfold popFront
  dsimp only
  split
  · exact moved _
  · rw [delivered_asyncWrite]
    exact moved _

theorem delivered_completeWrite (lawful : session.writer.Lawful) {index : Nat} {written : Post}
    (listed : session.writes[index]? = some { post := written }) (error : ErrorCode) :
    (session.completeWrite index written error).delivered =
      session.delivered ++ if error = .success then [written] else [] := by
  have single := length_writes_le_one lawful
  have writes : (session.completeWrite index written error).writes =
      [{ post := written, completion := some { error := error } }] :=
    set_of_listed single listed _
  have pending : ¬ Write.IsDone { post := written } := by
    intro impossible
    cases impossible
  have outcome : Write.IsDone { post := written, completion := some { error := error } } ↔
      error = .success := Option.some_inj
  rw [delivered_of_writes writes, delivered_of_writes (eq_singleton_of_listed single listed).1,
    if_neg pending, List.append_nil, if_congr outcome rfl rfl]
  rfl

/-- Every message that a session without errors has delivered ends with the
newline. -/
def Delimited (session : Session) : Prop :=
  session.hasFailed = false → ∀ post ∈ session.delivered, newline ∈ post.message

namespace Delimited

theorem empty : Delimited {} := fun _ _ listed => absurd listed List.not_mem_nil

theorem congr {after : Session} (delimited : session.Delimited)
    (failed : after.hasFailed = session.hasFailed) (same : after.delivered = session.delivered) :
    after.Delimited := by
  intro healthy
  rw [same]
  exact delimited (failed ▸ healthy)

theorem post (delimited : session.Delimited) (message : Post) : (session.post message).Delimited :=
  delimited.congr (hasFailed_post session message) (delivered_post session message)

/-- Nothing is said about a session with an error. -/
theorem of_hasFailed (failed : session.hasFailed = true) : session.Delimited :=
  fun healthy => absurd (failed.symm.trans healthy) (by decide)

end Delimited
end Session

/-! ## The kinds of messages -/

/-- What `on_accept` posts to the new session. -/
def welcomePost : Post := { message := bytes "Welcome to the chat server\n" }

/-- The welcome, or the notice that a session has joined. -/
def IsNotice (server : Server) (post : Post) : Prop :=
  post = welcomePost ∨ ∃ id, { origin := .joined id, post := post } ∈ server.broadcasts

/-- One line together with its newline. -/
structure OneLine (message : Bytes) : Prop where
  ended : newline ∈ message
  trailing : newline ∉ message.dropLast

/-- How the messages to `broadcast` are worded. -/
def Origin.Words (message : Bytes) : Origin → Prop
  | .joined _ => OneLine message
  | .line _ => newline ∉ message
  | .left _ => newline ∉ message

/-- The newline tells the notices from the other messages. -/
structure Wording (server : Server) : Prop where
  name : ∀ id, newline ∉ (server.session id).name
  broadcasts : ∀ broadcast ∈ server.broadcasts, broadcast.origin.Words broadcast.post.message
  posted : ∀ id, ∀ post ∈ (server.session id).posted,
    newline ∉ post.message ∨ IsNotice server post

namespace Wording

variable {server : Server}

theorem oneLine (wording : Wording server) {post : Post} (notice : IsNotice server post) :
    OneLine post.message := by
  rcases notice with welcome | ⟨id, told⟩
  · subst welcome
    exact ⟨by decide, by decide⟩
  · exact wording.broadcasts _ told

/-- No message has a newline before its end. -/
theorem trailing (wording : Wording server) {id : Nat} {post : Post}
    (listed : post ∈ (server.session id).posted) : newline ∉ post.message.dropLast := by
  rcases wording.posted id post listed with absent | notice
  · exact fun found => absent (List.dropLast_subset _ found)
  · exact (wording.oneLine notice).trailing

theorem newline_mem_iff (wording : Wording server) {id : Nat} {post : Post}
    (listed : post ∈ (server.session id).posted) :
    newline ∈ post.message ↔ IsNotice server post := by
  constructor
  · exact (wording.posted id post listed).resolve_left ∘ not_not_intro
  · exact fun notice => (wording.oneLine notice).ended

/-! ### The wording is kept -/

theorem update (wording : Wording server) {id : Nat} {after : Session}
    (name : after.name = (server.session id).name)
    (posted : after.posted = (server.session id).posted) :
    Wording (server.update id fun _ => after) where
  name := Server.forall_update (fun _ session => newline ∉ session.name)
    (name ▸ wording.name id) wording.name
  broadcasts := wording.broadcasts
  posted := Server.forall_update (fun _ session => ∀ post ∈ session.posted,
    newline ∉ post.message ∨ IsNotice server post) (posted ▸ wording.posted id) wording.posted

theorem post (wording : Wording server) (id : Nat) {message : Post}
    (known : newline ∉ message.message ∨ IsNotice server message) :
    Wording (server.update id fun session => session.post message) where
  name := by
    refine Server.forall_update (fun _ session => newline ∉ session.name) ?_ wording.name
    rw [show (Session.post _ message).name = (server.session id).name from
      congrArg Session.Input.name (Session.post_input _ message)]
    exact wording.name id
  broadcasts := wording.broadcasts
  posted := by
    refine Server.forall_update (fun _ session => ∀ post ∈ session.posted,
      newline ∉ post.message ∨ IsNotice server post) ?_ wording.posted
    rw [Session.posted_post, List.forall_mem_append]
    exact ⟨wording.posted id, List.forall_mem_singleton.mpr known⟩

theorem broadcast (wording : Wording server) {origin : Origin} {message : Bytes}
    (words : origin.Words message) : Wording (server.broadcast origin message) where
  name := by
    refine Server.forall_broadcast (fun _ session => newline ∉ session.name) origin message ?_
      wording.name
    intro _ session absent
    rwa [show (Session.post _ _).name = session.name from
      congrArg Session.Input.name (Session.post_input session _)]
  broadcasts := by
    rw [Server.broadcast_broadcasts, List.forall_mem_append]
    exact ⟨wording.broadcasts, List.forall_mem_singleton.mpr words⟩
  posted := by
    have log := server.broadcast_broadcasts origin message
    have earlier : ∀ post, IsNotice server post →
        IsNotice (server.broadcast origin message) post := by
      rintro post (welcome | ⟨id, told⟩)
      · exact Or.inl welcome
      · exact Or.inr ⟨id, log ▸ List.mem_append_left _ told⟩
    have last : newline ∉ message ∨ IsNotice (server.broadcast origin message)
        ⟨message, some server.broadcasts.length⟩ := by
      cases origin with
      | joined id =>
          exact Or.inr (Or.inr ⟨id, log ▸ List.mem_append_right _ (List.mem_singleton_self _)⟩)
      | line _ => exact Or.inl words
      | left _ => exact Or.inl words
    refine Server.forall_broadcast (fun _ session => ∀ post ∈ session.posted,
      newline ∉ post.message ∨ IsNotice (server.broadcast origin message) post) origin message ?_ ?_
    · intro _ session known
      rw [Session.posted_post, List.forall_mem_append]
      exact ⟨known, List.forall_mem_singleton.mpr last⟩
    · exact fun id post listed => (wording.posted id post listed).imp_right (earlier post)

/-- The leave notice has no newline. -/
theorem release (wording : Wording server) (id : Nat) : Wording (server.release id) := by
  unfold Server.release
  split
  · exact wording
  · exact wording.broadcast (List.not_mem_append (wording.name id) (by decide))

/-- Both messages of `on_accept` are one line. -/
theorem welcome (wording : Wording server) (id : Nat) {endpoint : Bytes}
    (oneLine : newline ∉ endpoint) : Wording (server.welcome id endpoint) := by
  have told : OneLine (endpoint ++ bytes " joined\n") := by
    refine ⟨List.mem_append_right _ (by decide), ?_⟩
    rw [List.dropLast_append_of_ne_nil (by decide)]
    exact List.not_mem_append oneLine (by decide)
  have joined : Wording (server.broadcast (.joined id) (endpoint ++ bytes " joined\n")) :=
    wording.broadcast told
  exact joined.post id (Or.inr (Or.inl rfl))

/-- A line has no newline, and neither has a broadcast of it. -/
theorem lineRead (wording : Wording server) (id index bytesTransferred : Nat) :
    Wording (server.lineRead id index bytesTransferred) := by
  have line : newline ∉ (((server.session id).dequeueRead index).takeLine bytesTransferred).1 :=
    notMem_firstLine _
  have taken : Wording (server.update id fun _ =>
      (((server.session id).dequeueRead index).takeLine bytesTransferred).2) :=
    wording.update rfl rfl
  have words : (Origin.line id).Words ((((server.session id).dequeueRead index).takeLine
      bytesTransferred).2.name ++ (((server.session id).dequeueRead index).takeLine
      bytesTransferred).1) := List.not_mem_append (wording.name id) line
  exact (taken.broadcast words).post id (Or.inl line)

theorem dequeueAccept (wording : Wording server) (index target : Nat) (ec : ErrorCode) :
    Wording (server.dequeueAccept index target ec) := by
  have dequeued : Wording { server with accepts := server.accepts.eraseIdx index } :=
    ⟨wording.name, wording.broadcasts, wording.posted⟩
  unfold Server.dequeueAccept
  dsimp only
  split
  · exact dequeued.update rfl rfl
  · exact dequeued

/-- The name of a session is one line, as the endpoint is. -/
theorem start (wording : Wording server) (id : Nat) {endpoint : Bytes}
    (oneLine : newline ∉ endpoint) :
    Wording (server.update id fun session => session.start endpoint) where
  name := by
    refine Server.forall_update (fun _ session => newline ∉ session.name) ?_ wording.name
    exact List.not_mem_append (List.not_mem_append (by decide) oneLine) (by decide)
  broadcasts := wording.broadcasts
  posted := Server.forall_update (fun _ session => ∀ post ∈ session.posted,
    newline ∉ post.message ∨ IsNotice server post) (wording.posted id) wording.posted

theorem accept (wording : Wording server) : Wording server.accept where
  name := Server.forall_accept (fun _ session => newline ∉ session.name) List.not_mem_nil
    wording.name
  broadcasts := wording.broadcasts
  posted := Server.forall_accept (fun _ session => ∀ post ∈ session.posted,
    newline ∉ post.message ∨ IsNotice server post)
    (fun _ listed => absurd listed List.not_mem_nil) wording.posted

theorem completes {id : Nat} {event : Event} {after : Session} (wording : Wording server)
    (completes : Completes id (server.session id) event after) :
    Wording (server.update id fun _ => after) := by
  cases completes with
  | arrive _ _ => exact wording.update rfl rfl
  | readFailed _ => exact wording.update rfl rfl
  | writeDone _ => exact wording.update rfl rfl
  | writeFailed _ => exact wording.update rfl rfl

theorem handles {id : Nat} {event : Event} {after : Session} {raised : Bool}
    (wording : Wording server) (handles : Handles id (server.session id) event after raised) :
    Wording (server.update id fun _ => after) := by
  cases handles with
  | readError _ _ => exact wording.update rfl rfl
  | @written index _ written _ _ _ =>
      refine wording.update (congrArg Session.Input.name (Session.popFront_input _ written)) ?_
      unfold Session.popFront
      dsimp only
      split <;> rfl
  | writeError _ _ => exact wording.update rfl rfl

/-- The invariant of the messages survives every step. -/
theorem moves (wording : Wording server) {event : Event} {next : Server}
    (moves : Moves server event next) : Wording next := by
  cases moves with
  | acceptDone _ _ => exact ⟨wording.name, wording.broadcasts, wording.posted⟩
  | completes completes => exact wording.completes completes
  | @handles id _ after raised handles =>
      have handled := wording.handles handles
      have updated : Wording { server.update id fun _ => after with thrown := raised } :=
        ⟨handled.name, handled.broadcasts, handled.posted⟩
      exact updated.release id
  | @lineRead id index _ completion _ _ =>
      exact (wording.lineRead id index completion.bytesTransferred).release id
  | @acceptFailed index target _ _ _ _ _ _ =>
      have dequeued : Wording { server with accepts := server.accepts.eraseIdx index } :=
        ⟨wording.name, wording.broadcasts, wording.posted⟩
      exact dequeued.release target
  | @joinedThrew index target _ _ _ =>
      have dequeued := wording.dequeueAccept index target .success
      exact ⟨dequeued.name, dequeued.broadcasts, dequeued.posted⟩
  | @startThrew index target _ _ oneLine =>
      have welcomed := (wording.dequeueAccept index target .success).welcome target oneLine
      exact ⟨welcomed.name, welcomed.broadcasts, welcomed.posted⟩
  | @joined index target endpoint _ oneLine =>
      have welcomed := (wording.dequeueAccept index target .success).welcome target oneLine
      have started := welcomed.start target oneLine
      have pushed : Wording ((((server.dequeueAccept index target .success).welcome target
          endpoint).update target fun session => session.start endpoint).pushBack target) :=
        ⟨started.name, started.broadcasts, started.posted⟩
      exact pushed.accept.release target

theorem initial : Wording Server.machine.initial := by
  have empty : Wording {} := by
    refine ⟨fun _ => List.not_mem_nil, ?_, ?_⟩
    · intro broadcast listed
      cases listed
    · intro id post listed
      cases listed
  exact empty.accept

end Wording

/-! ## The steps -/

/-- In a session without errors, only a notice is written completely. -/
def OnlyNotices (server : Server) : Event → Prop
  | .writeDone id index => (server.session id).hasFailed = false →
      ∀ write, (server.session id).writes[index]? = some write → IsNotice server write.post
  | _ => True

variable {server : Server}

/-- What a session must have delivered for its client to find the messages. -/
theorem framed_iff_delimited (wording : Wording server) (invariant : Invariant server) (id : Nat) :
    ((server.session id).hasFailed = false → (server.session id).Framed) ↔
      (server.session id).Delimited := by
  refine imp_congr_right fun _ => Session.framed_iff_newline_mem fun post listed => ?_
  exact wording.trailing (Session.begun_subset_posted (invariant.writing id) listed)

/-- Only the completion of a write delivers anything. -/
theorem delimited_completes {id : Nat} {session after : Session} {event : Event}
    (lawful : session.writer.Lawful) (delimited : session.Delimited)
    (completes : Completes id session event after) (undone : ∀ index, event ≠ .writeDone id index) :
    after.Delimited := by
  cases completes with
  | arrive _ _ => exact delimited.congr rfl rfl
  | readFailed _ => exact delimited.congr rfl rfl
  | writeDone _ => exact absurd rfl (undone _)
  | writeFailed listed =>
      refine delimited.congr rfl ?_
      rw [Session.delivered_completeWrite lawful listed]
      exact List.append_nil _

theorem delimited_handles {id : Nat} {session after : Session} {event : Event} {raised : Bool}
    (lawful : session.writer.Lawful) (delimited : session.Delimited)
    (handles : Handles id session event after raised) : after.Delimited := by
  cases handles with
  | readError _ _ => exact .of_hasFailed rfl
  | @written index _ written _ listed success =>
      refine delimited.congr ?_ (Session.delivered_popFront lawful listed success)
      unfold Session.popFront
      dsimp only
      split <;> rfl
  | writeError _ _ => exact .of_hasFailed rfl

/-- Every session delimits its messages. -/
def Delimiting (server : Server) : Prop := ∀ id, (server.session id).Delimited

namespace Delimiting

theorem update (delimiting : Delimiting server) {id : Nat} {change : Session → Session}
    (changed : (change (server.session id)).Delimited) : Delimiting (server.update id change) :=
  Server.forall_update (fun _ session => session.Delimited) changed delimiting

/-- Every step but the completion of a write delivers nothing. -/
theorem maintained (invariant : Invariant server) {event : Event}
    (undone : ∀ id index, event ≠ .writeDone id index) :
    Maintains server event fun _ session => session.Delimited where
  fresh := .empty
  posted := fun _ _ message delimited => delimited.post message
  assigned := fun _ _ delimited => delimited.congr rfl rfl
  started := fun _ _ _ delimited => delimited.congr rfl rfl
  taken := fun _ _ _ delimited => delimited.congr rfl rfl
  completed := fun id _ completes delimited =>
    delimited_completes (invariant.writing id) delimited completes (undone id)
  handled := fun id _ _ handles delimited =>
    delimited_handles (invariant.writing id) delimited handles

end Delimiting

/-- The completion of a write changes its session only. -/
theorem writeDone_of_moves {next : Server} {id index : Nat}
    (moves : Moves server (.writeDone id index) next) : ∃ written,
      (server.session id).writes[index]? = some { post := written } ∧
        next = server.update id fun session => session.completeWrite index written .success := by
  cases moves with
  | completes completes =>
      cases completes with
      | writeDone listed => exact ⟨_, listed, rfl⟩
  | handles handles => cases handles

/-- Completing a write keeps the messages apart exactly if it is a notice. -/
theorem delimiting_writeDone {next : Server} {id index : Nat} (wording : Wording server)
    (invariant : Invariant server) (delimiting : Delimiting server)
    (moves : Moves server (.writeDone id index) next) :
    Delimiting next ↔ OnlyNotices server (.writeDone id index) := by
  rcases writeDone_of_moves moves with ⟨written, listed, same⟩
  subst same
  have lawful := invariant.writing id
  have posted : written ∈ (server.session id).posted :=
    Session.begun_subset_posted lawful
      (List.mem_append_right _ (Session.post_mem_writing listed))
  have delivered := Session.delivered_completeWrite lawful listed .success
  constructor
  · intro kept healthy write found
    rw [listed] at found
    cases found
    have ended := kept id
    rw [Server.update_session_self, Session.Delimited, delivered] at ended
    exact (wording.newline_mem_iff posted).mp
      (ended healthy written (List.mem_append_right _ (List.mem_singleton_self _)))
  · intro only
    refine delimiting.update fun healthy => ?_
    have notice := only healthy _ listed
    rw [delivered, List.forall_mem_append]
    exact ⟨delimiting id healthy,
      List.forall_mem_singleton.mpr ((wording.newline_mem_iff posted).mpr notice)⟩

/-! ## Runs -/

/-- Every session without errors lets its client find the messages. -/
def AllFramed (server : Server) : Prop :=
  ∀ id, (server.session id).hasFailed = false → (server.session id).Framed

theorem allFramed_iff (wording : Wording server) (invariant : Invariant server) :
    AllFramed server ↔ Delimiting server :=
  forall_congr' fun id => framed_iff_delimited wording invariant id

theorem allFramed_step (server : Server) (event : Event) (next : Server)
    (before : Invariant server ∧ Wording server) (framed : AllFramed server)
    (moved : Server.machine.step server event = some next) :
    AllFramed next ↔ OnlyNotices server event := by
  have moves := (moves_of_step moved).2
  rw [allFramed_iff before.2 before.1] at framed
  rw [allFramed_iff (before.2.moves moves) (before.1.moves moves)]
  by_cases done : ∃ id index, event = .writeDone id index
  · rcases done with ⟨id, index, same⟩
    subst same
    exact delimiting_writeDone before.2 before.1 framed moves
  · have undone : ∀ id index, event ≠ .writeDone id index :=
      fun id index same => done ⟨id, index, same⟩
    refine iff_of_true ((Delimiting.maintained before.1 undone).moves framed moves) ?_
    cases event with
    | writeDone id index => exact absurd rfl (undone id index)
    | _ => trivial

/-- Throughout a run the clients of all sessions without errors find the messages
in their streams exactly if nothing but notices is ever sent to them. -/
theorem allFramed_along_run {events : List Event} {final : Server}
    (steps : Server.machine.run Server.machine.initial events = some final) :
    Server.machine.Always AllFramed Server.machine.initial events ↔
      Server.machine.Meets OnlyNotices Server.machine.initial events := by
  have empty : AllFramed Server.machine.initial := by
    rw [allFramed_iff .initial .initial]
    exact Server.forall_accept (fun _ session => session.Delimited) .empty fun _ => .empty
  refine Server.machine.always_iff_meets ?_ allFramed_step ⟨.initial, .initial⟩ empty steps
  exact fun _ _ _ before moved =>
    ⟨before.1.of_step moved, before.2.moves (moves_of_step moved).2⟩

/-! ### A line and its echo -/

/-- A client says hello, and after that another one joins. -/
def hello : List Event :=
  [.acceptDone 0 .success, .onAccept 0 (bytes "10.0.0.1:1024") false false,
    .writeDone 0 0, .onWrite 0 0 false,
    .arrive 0 0 (bytes "hello\n"), .onRead 0 0 false,
    .writeDone 0 0, .onWrite 0 0 false, .writeDone 0 0, .onWrite 0 0 false,
    .acceptDone 0 .success, .onAccept 0 (bytes "10.0.0.2:1025") false false, .writeDone 0 0]

private theorem hello_delivered : ∃ server, Server.machine.run Server.machine.initial hello =
    some server ∧ (server.session 0).hasFailed = false ∧
      (server.session 0).delivered.length = 4 ∧
      completeLines newline ((server.session 0).delivered.flatMap Post.message) =
        [bytes "Welcome to the chat server",
          bytes "[10.0.0.1:1024]: hellohello10.0.0.2:1025 joined"] := by
  have outcome : (Server.machine.run Server.machine.initial hello).map (fun server =>
      decide ((server.session 0).hasFailed = false ∧ (server.session 0).delivered.length = 4 ∧
        completeLines newline ((server.session 0).delivered.flatMap Post.message) =
          [bytes "Welcome to the chat server",
            bytes "[10.0.0.1:1024]: hellohello10.0.0.2:1025 joined"])) = some true := by
    decide +kernel
  rcases Option.map_eq_some_iff.mp outcome with ⟨server, steps, facts⟩
  exact ⟨server, steps, of_decide_eq_true facts⟩

/-- Two lines are not four messages. -/
private theorem not_allFramed_of_lines {server : Server} {first second : Bytes}
    (healthy : (server.session 0).hasFailed = false)
    (four : (server.session 0).delivered.length = 4)
    (two : completeLines newline ((server.session 0).delivered.flatMap Post.message) =
      [first, second]) : ¬ AllFramed server := by
  intro framed
  have lines := framed 0 healthy _ [] ⟨List.prefix_rfl, Or.inl rfl⟩
  rw [List.append_nil, two] at lines
  have count := congrArg List.length lines
  rw [List.length_map, four] at count
  cases count

/-- The client finds the broadcast of its line, the echo and the notice as one
line. -/
theorem hello_not_framed : ∃ server, Server.machine.Reachable server ∧
    (server.session 0).hasFailed = false ∧
      completeLines newline ((server.session 0).delivered.flatMap Post.message) =
        [bytes "Welcome to the chat server",
          bytes "[10.0.0.1:1024]: hellohello10.0.0.2:1025 joined"] ∧
      ¬ AllFramed server := by
  rcases hello_delivered with ⟨server, steps, healthy, four, lines⟩
  exact ⟨server, ⟨hello, steps⟩, healthy, lines, not_allFramed_of_lines healthy four lines⟩

theorem hello_not_meets :
    ¬ Server.machine.Meets OnlyNotices Server.machine.initial hello := by
  rcases hello_delivered with ⟨server, steps, healthy, four, lines⟩
  intro meets
  have framed := ((allFramed_along_run steps).mpr meets).last _ steps
  exact not_allFramed_of_lines healthy four lines framed

end Chat
end LearnAsio
