import LearnAsio.Chat.Server

namespace LearnAsio
namespace Chat

open Transition

/-!
# The steps of the chat server

A step changes one session on its own, or it passes a message to `broadcast`, or
it adds a session.  The first kind is collected in `Completes` and `Handles`,
and `Moves` is the inversion of a whole step.  The lemmas before it say what a
call of `broadcast` and the end of a handler amount to.
-/

namespace Server

variable {server : Server}

@[simp] theorem update_session_self (id : Nat) (change : Session → Session) :
    (server.update id change).session id = change (server.session id) :=
  Function.update_self _ _ _

@[simp] theorem update_sessions (id : Nat) (change : Session → Session) :
    (server.update id change).sessions = server.sessions := rfl

theorem update_session_of_ne {id other : Nat} (different : other ≠ id)
    (change : Session → Session) :
    (server.update id change).session other = server.session other :=
  Function.update_of_ne different _ _

/-- What holds of the changed session and of the others holds of all. -/
theorem forall_update (property : Nat → Session → Prop) {id : Nat} {change : Session → Session}
    (changed : property id (change (server.session id)))
    (others : ∀ other, property other (server.session other)) (other : Nat) :
    property other ((server.update id change).session other) :=
  (Function.forall_update_iff _ property).mpr ⟨changed, fun other _ => others other⟩ other

@[simp] theorem pushBack_sessions (id : Nat) :
    (server.pushBack id).sessions = server.sessions ++ [id] := rfl

@[simp] theorem pushBack_session (id : Nat) : (server.pushBack id).session = server.session := rfl

@[simp] theorem pushBack_addedAt_self (server : Server) (id : Nat) :
    (server.pushBack id).addedAt id = server.broadcasts.length :=
  Function.update_self _ _ _

theorem pushBack_addedAt_of_ne {id other : Nat} (different : other ≠ id) :
    (server.pushBack id).addedAt other = server.addedAt other :=
  Function.update_of_ne different _ _

@[simp] theorem accept_accepts :
    server.accept.accepts = server.accepts ++ [{ target := server.newSession }] := rfl

@[simp] theorem accept_session_self : server.accept.session server.newSession = {} :=
  Function.update_self _ _ _

theorem forall_accept (property : Nat → Session → Prop) (fresh : property server.newSession {})
    (others : ∀ other, property other (server.session other)) (other : Nat) :
    property other (server.accept.session other) :=
  (Function.forall_update_iff _ property).mpr ⟨fresh, fun other _ => others other⟩ other

theorem accept_session_of_ne {id : Nat} (different : id ≠ server.newSession) :
    server.accept.session id = server.session id :=
  Function.update_of_ne different _ _

/-- The loop posts once to every session of a list without repetitions. -/
theorem postEach_eq (message : Post) {ids : List Nat} (distinct : ids.Nodup) :
    server.postEach message ids =
      { server with
        session := fun id =>
          if id ∈ ids then (server.session id).post message else server.session id } := by
  induction ids generalizing server with
  | nil => rfl
  | cons head rest inductionHypothesis =>
      rcases List.nodup_cons.mp distinct with ⟨new, distinctRest⟩
      rw [postEach, inductionHypothesis distinctRest, update]
      congr 1
      funext id
      by_cases first : id = head
      · subst first
        simp only [new, if_false, Function.update_self, List.mem_cons_self, if_true]
      · simp only [Function.update_of_ne first, List.mem_cons, first, false_or]

/-- A broadcast is logged and posted to every member. -/
theorem broadcast_eq (distinct : server.sessions.Nodup) (origin : Origin) (message : Bytes) :
    server.broadcast origin message =
      { server with
        session := fun id =>
          if id ∈ server.sessions then
            (server.session id).post ⟨message, some server.broadcasts.length⟩
          else server.session id
        broadcasts :=
          server.broadcasts ++ [⟨origin, ⟨message, some server.broadcasts.length⟩⟩] } :=
  postEach_eq _ distinct

/-- The loop of `broadcast` changes sessions only. -/
theorem postEach_frame (server : Server) (message : Post) (ids : List Nat) :
    server.postEach message ids =
      { server with session := (server.postEach message ids).session } := by
  induction ids generalizing server with
  | nil => rfl
  | cons id rest inductionHypothesis =>
      exact inductionHypothesis (server.update id fun session => session.post message)

/-- What a post keeps of a session, a broadcast keeps of all of them. -/
theorem forall_postEach (property : Nat → Session → Prop) {message : Post}
    (posted : ∀ id session, property id session → property id (session.post message))
    (ids : List Nat) (all : ∀ id, property id (server.session id)) (id : Nat) :
    property id ((server.postEach message ids).session id) := by
  induction ids generalizing server with
  | nil => exact all id
  | cons first rest inductionHypothesis =>
      exact inductionHypothesis (forall_update property (posted first _ (all first)) all)

theorem forall_broadcast (property : Nat → Session → Prop) (origin : Origin) (message : Bytes)
    (posted : ∀ id session, property id session →
      property id (session.post ⟨message, some server.broadcasts.length⟩))
    (all : ∀ id, property id (server.session id)) (id : Nat) :
    property id ((server.broadcast origin message).session id) := by
  have logged : ∀ id, property id (({ server with broadcasts := server.broadcasts ++
      [⟨origin, ⟨message, some server.broadcasts.length⟩⟩] } : Server).session id) := all
  exact forall_postEach property posted server.sessions logged id

theorem broadcast_broadcasts (server : Server) (origin : Origin) (message : Bytes) :
    (server.broadcast origin message).broadcasts =
      server.broadcasts ++ [⟨origin, ⟨message, some server.broadcasts.length⟩⟩] := by
  rw [broadcast, postEach_frame]

@[simp] theorem broadcast_sessions (server : Server) (origin : Origin) (message : Bytes) :
    (server.broadcast origin message).sessions = server.sessions := by
  rw [broadcast, postEach_frame]

@[simp] theorem broadcast_newSession (server : Server) (origin : Origin) (message : Bytes) :
    (server.broadcast origin message).newSession = server.newSession := by
  rw [broadcast, postEach_frame]

@[simp] theorem broadcast_accepts (server : Server) (origin : Origin) (message : Bytes) :
    (server.broadcast origin message).accepts = server.accepts := by
  rw [broadcast, postEach_frame]

@[simp] theorem broadcast_thrown (server : Server) (origin : Origin) (message : Bytes) :
    (server.broadcast origin message).thrown = server.thrown := by
  rw [broadcast, postEach_frame]

theorem release_cases (id : Nat) : server.release id = server ∨
    ∃ message, server.release id = server.broadcast (.left id) message := by
  unfold release
  split
  · exact Or.inl rfl
  · exact Or.inr ⟨_, rfl⟩

/-- A destructor broadcasts, and broadcasting begins no accept. -/
theorem release_accepts (server : Server) (id : Nat) :
    (server.release id).accepts = server.accepts := by
  rcases server.release_cases id with kept | ⟨message, left⟩
  · rw [kept]
  · rw [left, broadcast_accepts]

theorem release_thrown (server : Server) (id : Nat) :
    (server.release id).thrown = server.thrown := by
  rcases server.release_cases id with kept | ⟨message, left⟩
  · rw [kept]
  · rw [left, broadcast_thrown]

end Server

/-! ## Steps -/

/-- The operating system completes an operation of a session, or brings bytes for
its read. -/
inductive Completes (id : Nat) (session : Session) : Event → Session → Prop
  | arrive {index : Nat} {data : Bytes} (listed : session.reads[index]? = some {})
      (filled : data ≠ []) :
      Completes id session (.arrive id index data) (session.arrive index data)
  | readFailed {index : Nat} (listed : session.reads[index]? = some {}) :
      Completes id session (.readFailed id index) (session.failRead index)
  | writeDone {index : Nat} {written : Post}
      (listed : session.writes[index]? = some { post := written }) :
      Completes id session (.writeDone id index) (session.completeWrite index written .success)
  | writeFailed {index : Nat} {written : Post}
      (listed : session.writes[index]? = some { post := written }) :
      Completes id session (.writeFailed id index) (session.completeWrite index written .failure)

/-- A handler that concerns its own session only, and whether it throws. -/
inductive Handles (id : Nat) (session : Session) : Event → Session → Bool → Prop
  | readError {index : Nat} {throws : Bool} {completion : Completion}
      (listed : session.reads[index]? = some { completion := some completion })
      (failed : completion.error ≠ .success) :
      Handles id session (.onRead id index throws) (session.dequeueRead index).onError
        (throws && session.isOpen)
  | written {index : Nat} {throws : Bool} {written : Post} {completion : Completion}
      (listed : session.writes[index]? = some { post := written, completion := some completion })
      (success : completion.error = .success) :
      Handles id session (.onWrite id index throws)
        ((session.dequeueWrite index).popFront written) false
  | writeError {index : Nat} {throws : Bool} {written : Post} {completion : Completion}
      (listed : session.writes[index]? = some { post := written, completion := some completion })
      (failed : completion.error ≠ .success) :
      Handles id session (.onWrite id index throws) (session.dequeueWrite index).writeError
        (throws && session.isOpen)

namespace Server

/-- A read that has found a line: take it, broadcast it and echo it. -/
def lineRead (server : Server) (id index bytesTransferred : Nat) : Server :=
  let (line, session) := ((server.session id).dequeueRead index).takeLine bytesTransferred
  ((server.update id fun _ => session).broadcast (.line id) (session.name ++ line)).update id
    fun session => session.post { message := line }

end Server

/-- The effect of a step. -/
inductive Moves (server : Server) : Event → Server → Prop
  | acceptDone {index target : Nat} {ec : ErrorCode}
      (listed : server.accepts[index]? = some { target := target })
      (unaborted : ec ≠ .operationAborted) :
      Moves server (.acceptDone index ec) { server with
        accepts := server.accepts.set index { target := target, completion := some ec } }
  | completes {id : Nat} {event : Event} {after : Session}
      (completes : Completes id (server.session id) event after) :
      Moves server event (server.update id fun _ => after)
  | handles {id : Nat} {event : Event} {after : Session} {raised : Bool}
      (handles : Handles id (server.session id) event after raised) :
      Moves server event ({ server.update id fun _ => after with thrown := raised }.release id)
  | lineRead {id index : Nat} {throws : Bool} {completion : Completion}
      (listed : (server.session id).reads[index]? = some { completion := some completion })
      (success : completion.error = .success) :
      Moves server (.onRead id index throws)
        ((server.lineRead id index completion.bytesTransferred).release id)
  | acceptFailed {index target : Nat} {ec : ErrorCode} {endpoint : Bytes}
      {joinedThrows startThrows : Bool}
      (listed : server.accepts[index]? = some { target := target, completion := some ec })
      (failed : ec ≠ .success) :
      Moves server (.onAccept index endpoint joinedThrows startThrows)
        ({ server with accepts := server.accepts.eraseIdx index }.release target)
  | joinedThrew {index target : Nat} {endpoint : Bytes} {startThrows : Bool}
      (listed : server.accepts[index]? = some { target := target, completion := some .success }) :
      Moves server (.onAccept index endpoint true startThrows)
        { server.dequeueAccept index target .success with thrown := true }
  | startThrew {index target : Nat} {endpoint : Bytes}
      (listed : server.accepts[index]? = some { target := target, completion := some .success })
      (oneLine : newline ∉ endpoint) :
      Moves server (.onAccept index endpoint false true)
        { (server.dequeueAccept index target .success).welcome target endpoint with thrown := true }
  | joined {index target : Nat} {endpoint : Bytes}
      (listed : server.accepts[index]? = some { target := target, completion := some .success })
      (oneLine : newline ∉ endpoint) :
      Moves server (.onAccept index endpoint false false)
        (((((server.dequeueAccept index target .success).welcome target endpoint).update target
          fun session => session.start endpoint).pushBack target).accept.release target)

/-- The handler of a session's read. -/
private theorem moves_onRead {server : Server} {id index : Nat} {throws : Bool}
    {completion : Completion}
    (listed : (server.session id).reads[index]? = some { completion := some completion }) :
    Moves server (.onRead id index throws)
      (((server.update id fun session => session.dequeueRead index).onRead id completion
        throws).release id) := by
  by_cases success : completion.error = .success
  · have handled : (server.update id fun session => session.dequeueRead index).onRead id
        completion throws = server.lineRead id index completion.bytesTransferred := by
      rw [Server.onRead, if_neg (fun failed => failed success), Server.update_session_self]
      simp only [Server.lineRead, Server.update, Function.update_idem]
    rw [handled]
    exact .lineRead listed success
  · rw [Server.onRead, if_pos success, Server.onError, Server.update_session_self]
    simp only [Server.update, Function.update_self, Function.update_idem]
    exact .handles (.readError listed success)

private theorem moves_onWrite {server : Server} (running : server.thrown = false)
    {id index : Nat} {throws : Bool} {written : Post} {completion : Completion}
    (listed : (server.session id).writes[index]? =
      some { post := written, completion := some completion }) :
    Moves server (.onWrite id index throws)
      (((server.update id fun session => session.dequeueWrite index).onWrite id written
        completion.error throws).release id) := by
  by_cases success : completion.error = .success
  · rw [Server.onWrite, if_neg (fun failed => failed success)]
    simp only [Server.update, Function.update_self, Function.update_idem, running]
    exact .handles (.written listed success)
  · rw [Server.onWrite, if_pos success, Server.onError, Server.update_session_self]
    simp only [Server.update, Function.update_self, Function.update_idem]
    exact .handles (.writeError listed success)

private theorem moves_onAccept {server : Server} {index target : Nat} {ec : ErrorCode}
    (listed : server.accepts[index]? = some { target := target, completion := some ec })
    {endpoint : Bytes} (oneLine : newline ∉ endpoint) (joinedThrows startThrows : Bool) :
    Moves server (.onAccept index endpoint joinedThrows startThrows)
      (((server.dequeueAccept index target ec).onAccept ec target endpoint joinedThrows
        startThrows).release target) := by
  by_cases success : ec = .success
  · subst success
    rw [Server.onAccept, if_neg (fun failed => failed rfl)]
    cases joinedThrows with
    | true =>
        rw [if_pos rfl, Server.release, if_pos (Or.inl rfl)]
        exact .joinedThrew listed
    | false =>
        rw [if_neg Bool.false_ne_true]
        cases startThrows with
        | true =>
            rw [if_pos rfl, Server.release, if_pos (Or.inl rfl)]
            exact .startThrew listed oneLine
        | false =>
            rw [if_neg Bool.false_ne_true]
            exact .joined listed oneLine
  · rw [Server.onAccept, if_pos success, Server.dequeueAccept, if_neg success]
    exact .acceptFailed listed success

theorem moves_of_react {server next : Server} (running : server.thrown = false) {event : Event}
    (moved : server.react event = some next) : Moves server event next := by
  unfold Server.react at moved
  cases event with
  | acceptDone index ec =>
      dsimp only at moved
      split at moved
      · next target listed =>
          split at moved
          · cases moved
          · next unaborted =>
              cases moved
              exact .acceptDone listed unaborted
      · cases moved
  | arrive id index data =>
      dsimp only at moved
      split at moved
      · next listed =>
          split at moved
          · cases moved
          · next filled =>
              cases moved
              exact .completes (.arrive listed filled)
      · cases moved
  | readFailed id index =>
      dsimp only at moved
      split at moved
      · next listed =>
          cases moved
          exact .completes (.readFailed listed)
      · cases moved
  | writeDone id index =>
      dsimp only at moved
      split at moved
      · next post listed =>
          cases moved
          exact .completes (.writeDone listed)
      · cases moved
  | writeFailed id index =>
      dsimp only at moved
      split at moved
      · next post listed =>
          cases moved
          exact .completes (.writeFailed listed)
      · cases moved
  | onAccept index endpoint joinedThrows startThrows =>
      dsimp only at moved
      split at moved
      · next target ec listed =>
          split at moved
          · cases moved
          · next oneLine =>
              cases moved
              exact moves_onAccept listed oneLine joinedThrows startThrows
      · cases moved
  | onRead id index throws =>
      dsimp only at moved
      split at moved
      · next completion listed =>
          cases moved
          exact moves_onRead listed
      · cases moved
  | onWrite id index throws =>
      dsimp only at moved
      split at moved
      · next post completion listed =>
          cases moved
          exact moves_onWrite running listed
      · cases moved

/-! ## What a step keeps of the sessions -/

/-- Whatever the event runs on a session, a property of the session is kept. -/
structure Maintains (server : Server) (event : Event) (property : Nat → Session → Prop) :
    Prop where
  fresh : property server.newSession {}
  posted : ∀ id session message, property id session → property id (session.post message)
  assigned : ∀ id session, property id session → property id { session with isOpen := true }
  started : ∀ id session endpoint, property id session → property id (session.start endpoint)
  taken : ∀ id index bytesTransferred, property id (server.session id) →
    property id (((server.session id).dequeueRead index).takeLine bytesTransferred).2
  completed : ∀ id after, Completes id (server.session id) event after →
    property id (server.session id) → property id after
  handled : ∀ id after raised, Handles id (server.session id) event after raised →
    property id (server.session id) → property id after

namespace Maintains

variable {server other : Server} {event : Event} {property : Nat → Session → Prop}

theorem broadcast (maintains : Maintains server event property)
    (all : ∀ id, property id (other.session id)) (origin : Origin) (message : Bytes) :
    ∀ id, property id ((other.broadcast origin message).session id) :=
  Server.forall_broadcast property origin message
    (fun id session => maintains.posted id session _) all

theorem post (maintains : Maintains server event property)
    (all : ∀ id, property id (other.session id)) (target : Nat) (message : Post) :
    ∀ id, property id ((other.update target fun session => session.post message).session id) :=
  Server.forall_update property (maintains.posted _ _ message (all target)) all

theorem release (maintains : Maintains server event property)
    (all : ∀ id, property id (other.session id)) (target : Nat) :
    ∀ id, property id ((other.release target).session id) := by
  rcases other.release_cases target with kept | ⟨message, left⟩
  · rw [kept]
    exact all
  · rw [left]
    exact maintains.broadcast all _ _

theorem dequeueAccept (maintains : Maintains server event property)
    (all : ∀ id, property id (server.session id)) (index target : Nat) (ec : ErrorCode) :
    ∀ id, property id ((server.dequeueAccept index target ec).session id) := by
  unfold Server.dequeueAccept
  dsimp only
  split
  · exact Server.forall_update property (maintains.assigned _ _ (all target)) all
  · exact all

theorem welcome (maintains : Maintains server event property)
    (all : ∀ id, property id (other.session id)) (target : Nat) (endpoint : Bytes) :
    ∀ id, property id ((other.welcome target endpoint).session id) :=
  maintains.post (maintains.broadcast all _ _) target _

/-- What its own functions keep of a session, a step keeps of all sessions. -/
theorem moves {next : Server} (maintains : Maintains server event property)
    (all : ∀ id, property id (server.session id)) (moves : Moves server event next) :
    ∀ id, property id (next.session id) := by
  cases moves with
  | acceptDone _ _ => exact all
  | @completes target _ after completes =>
      exact Server.forall_update property
        (maintains.completed target after completes (all target)) all
  | @handles target _ after raised handles =>
      have handled : ∀ id, property id ((server.update target fun _ => after).session id) :=
        Server.forall_update property
          (maintains.handled target after raised handles (all target)) all
      have updated : ∀ id, property id
          ({ server.update target fun _ => after with thrown := raised }.session id) := handled
      exact maintains.release updated target
  | @lineRead target index _ completion _ _ =>
      have taken : ∀ id, property id ((server.update target fun _ =>
          (((server.session target).dequeueRead index).takeLine
            completion.bytesTransferred).2).session id) :=
        Server.forall_update property (maintains.taken target _ _ (all target)) all
      have echoed : ∀ id, property id
          ((server.lineRead target index completion.bytesTransferred).session id) :=
        maintains.post (maintains.broadcast taken _ _) target _
      exact maintains.release echoed target
  | @acceptFailed index target _ _ _ _ _ _ =>
      have dequeued : ∀ id, property id
          ({ server with accepts := server.accepts.eraseIdx index }.session id) := all
      exact maintains.release dequeued target
  | @joinedThrew index target _ _ _ => exact maintains.dequeueAccept all index target .success
  | @startThrew index target endpoint _ _ =>
      exact maintains.welcome (maintains.dequeueAccept all index target .success) target endpoint
  | @joined index target endpoint _ _ =>
      have welcomed :=
        maintains.welcome (maintains.dequeueAccept all index target .success) target endpoint
      have started : ∀ id, property id ((((server.dequeueAccept index target .success).welcome
          target endpoint).update target fun session => session.start endpoint).session id) :=
        Server.forall_update property (maintains.started _ _ endpoint (welcomed target)) welcomed
      have pushed : ∀ id, property id (((((server.dequeueAccept index target .success).welcome
          target endpoint).update target fun session => session.start endpoint).pushBack
            target).session id) := started
      refine maintains.release (Server.forall_accept property ?_ pushed) target
      change property ((server.dequeueAccept index target .success).broadcast _ _).newSession {}
      rw [Server.broadcast_newSession]
      exact maintains.fresh

end Maintains

/-- A step is taken in a running loop. -/
theorem moves_of_step {server next : Server} {event : Event}
    (moved : Server.machine.step server event = some next) :
    server.thrown = false ∧ Moves server event next := by
  rw [Server.machine_step] at moved
  cases stopped : server.thrown with
  | true =>
      rw [if_pos stopped] at moved
      cases moved
  | false =>
      rw [if_neg (by rw [stopped]; exact Bool.false_ne_true)] at moved
      exact ⟨rfl, moves_of_react stopped moved⟩

end Chat
end LearnAsio
