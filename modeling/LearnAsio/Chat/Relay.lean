import LearnAsio.Chat.Invariant

namespace LearnAsio
namespace Chat

open Delivery Transition

/-!
# What the server relays of its clients' input

A session broadcasts each line that it reads under its own name.  The lines that
have been broadcast are always the first ones of the stream, one for each read
that has been handled.  But `on_read` begins no further read, so an open session
that has handled a line reads nothing any more.  The last section shows that
this is the only way in which an open session loses its read.
-/

namespace Session

/-- What has been broadcast for a session with this input. -/
def Input.relayed (input : Input) : List Bytes :=
  ((completeLines newline input.received).take input.linesRead).map fun line =>
    input.name ++ line

/-- An open session has one read, pending or completed. -/
def Input.Armed (input : Input) : Prop :=
  input.isOpen = true → input.reads.length = 1

theorem relayed_of_unread {session : Session} (unread : session.linesRead = 0) :
    session.input.relayed = [] := by
  rw [Input.relayed, show session.input.linesRead = 0 from unread, List.take_zero]
  rfl

/-- The line that is taken is the first one of the stream. -/
theorem relayed_takeLine {session : Session} (reading : session.Reading) {index : Nat}
    {completion : Completion}
    (listed : session.reads[index]? = some { completion := some completion })
    (success : completion.error = .success) (bytesTransferred : Nat) :
    ((session.dequeueRead index).takeLine bytesTransferred).2.input.relayed =
      [session.name ++ firstLine newline session.buffer] := by
  have pending := List.mem_of_getElem? listed
  have unread := reading.first (List.ne_nil_of_mem pending)
  have ended := reading.ended _ pending completion rfl success
  have whole := reading.whole unread
  have once : ((session.dequeueRead index).takeLine bytesTransferred).2.input.linesRead = 1 :=
    congrArg Nat.succ unread
  have stream : ((session.dequeueRead index).takeLine bytesTransferred).2.input.received =
      session.buffer := whole.symm
  rw [Input.relayed, once, stream, completeLines_of_mem ended, List.take_succ_cons,
    List.take_zero]
  rfl

/-- A completion makes a session relay no line and leaves it its read. -/
theorem completes_input {id : Nat} {session after : Session} {event : Event}
    (reading : session.Reading) (completes : Completes id session event after) :
    after.input.relayed = session.input.relayed ∧
      (session.input.Armed → after.input.Armed) := by
  cases completes with
  | arrive listed _ =>
      have unread := reading.first (List.ne_nil_of_mem (List.mem_of_getElem? listed))
      refine ⟨?_, fun armed isOpen => ?_⟩
      · rw [relayed_of_unread unread, relayed_of_unread]
        exact unread
      · exact (List.length_set ..).trans (armed isOpen)
  | readFailed _ => exact ⟨rfl, fun armed isOpen => (List.length_set ..).trans (armed isOpen)⟩
  | writeDone _ => exact ⟨rfl, fun armed => armed⟩
  | writeFailed _ => exact ⟨rfl, fun armed => armed⟩

/-- A handler without a line relays nothing either, and takes the read away only
with the socket. -/
theorem handles_input {id : Nat} {session after : Session} {event : Event} {raised : Bool}
    (handles : Handles id session event after raised) :
    after.input.relayed = session.input.relayed ∧
      (session.input.Armed → after.input.Armed) := by
  cases handles with
  | readError _ _ =>
      refine ⟨rfl, fun _ closed => ?_⟩
      cases closed
  | @written index _ written _ _ _ =>
      rw [popFront_input]
      exact ⟨rfl, fun armed => armed⟩
  | writeError _ _ =>
      refine ⟨rfl, fun _ closed => ?_⟩
      cases closed

end Session

namespace Server

variable {server : Server}

/-- The messages that have been broadcast on behalf of a session. -/
def lines (server : Server) (id : Nat) : List Bytes :=
  (server.broadcasts.filter fun broadcast => broadcast.origin = .line id).map fun broadcast =>
    broadcast.post.message

theorem lines_broadcast (distinct : server.sessions.Nodup) (origin : Origin) (message : Bytes)
    (id : Nat) : (server.broadcast origin message).lines id =
      server.lines id ++ if origin = .line id then [message] else [] := by
  rw [broadcast_eq distinct, lines, List.filter_append, List.map_append]
  congr 1
  by_cases same : origin = .line id
  · simp only [List.filter_cons, same, decide_true, if_true, List.filter_nil, List.map_cons,
      List.map_nil]
  · simp only [List.filter_cons, same, decide_false, Bool.false_eq_true, if_false,
      List.filter_nil, List.map_nil]

/-- A broadcast concerns the queues only. -/
theorem broadcast_input (server : Server) (origin : Origin) (message : Bytes) (id : Nat) :
    ((server.broadcast origin message).session id).input = (server.session id).input := by
  refine forall_broadcast (fun other session => session.input = (server.session other).input)
    origin message ?_ (fun _ => rfl) id
  exact fun other session same => (Session.post_input session _).trans same

end Server

/-! ## Servers with the same input and the same lines -/

structure Alike (first second : Server) : Prop where
  lines : ∀ id, second.lines id = first.lines id
  input : ∀ id, (second.session id).input = (first.session id).input
  sessions : second.sessions = first.sessions

/-- The broadcasts for every session are the first lines of its stream. -/
def Relays (server : Server) : Prop :=
  ∀ id, server.lines id = (server.session id).input.relayed

/-- Every open member has its read. -/
def Armed (server : Server) : Prop :=
  ∀ id ∈ server.sessions, (server.session id).input.Armed

namespace Alike

variable {first second third : Server}

theorem trans (start : Alike first second) (rest : Alike second third) : Alike first third where
  lines := fun id => (rest.lines id).trans (start.lines id)
  input := fun id => (rest.input id).trans (start.input id)
  sessions := rest.sessions.trans start.sessions

theorem relays (alike : Alike first second) (relays : Relays first) : Relays second := by
  intro id
  rw [alike.lines id, alike.input id]
  exact relays id

theorem armed_iff (alike : Alike first second) : Armed second ↔ Armed first := by
  unfold Armed
  rw [alike.sessions]
  constructor
  · intro armed id member
    exact alike.input id ▸ armed id member
  · intro armed id member
    exact (alike.input id).symm ▸ armed id member

theorem threw (server : Server) (thrown : Bool) : Alike server { server with thrown := thrown } :=
  ⟨fun _ => rfl, fun _ => rfl, rfl⟩

theorem withAccepts (server : Server) (accepts : List Accept) :
    Alike server { server with accepts := accepts } :=
  ⟨fun _ => rfl, fun _ => rfl, rfl⟩

theorem post (server : Server) (id : Nat) (message : Post) :
    Alike server (server.update id fun session => session.post message) where
  lines := fun _ => rfl
  input := Server.forall_update
    (fun other session => session.input = (server.session other).input)
    (Session.post_input _ _) fun _ => rfl
  sessions := rfl

/-- A notice is not a line. -/
theorem broadcast {server : Server} (distinct : server.sessions.Nodup) {origin : Origin}
    (notice : ∀ id, origin ≠ .line id) (message : Bytes) :
    Alike server (server.broadcast origin message) where
  lines := by
    intro id
    rw [Server.lines_broadcast distinct, if_neg (notice id), List.append_nil]
  input := Server.broadcast_input _ origin message
  sessions := by rw [Server.broadcast_eq distinct]

theorem release {server : Server} (distinct : server.sessions.Nodup) (id : Nat) :
    Alike server (server.release id) := by
  rcases server.release_cases id with kept | ⟨message, left⟩
  · rw [kept]
    exact ⟨fun _ => rfl, fun _ => rfl, rfl⟩
  · rw [left]
    apply broadcast distinct
    intro other impossible
    cases impossible

theorem welcome {server : Server} (distinct : server.sessions.Nodup) (id : Nat)
    (endpoint : Bytes) : Alike server (server.welcome id endpoint) := by
  refine (broadcast distinct ?_ _).trans (post _ id _)
  intro other impossible
  cases impossible

end Alike

variable {server next : Server}

theorem relays_update (relays : Relays server) {id : Nat} {after : Session}
    (same : after.input.relayed = (server.session id).input.relayed) :
    Relays (server.update id fun _ => after) :=
  Server.forall_update (fun other session => server.lines other = session.input.relayed)
    ((relays id).trans same.symm) relays

theorem armed_update (armed : Armed server) {id : Nat} {after : Session}
    (kept : id ∈ server.sessions → (server.session id).input.Armed → after.input.Armed) :
    Armed (server.update id fun _ => after) :=
  Server.forall_update (fun other session => other ∈ server.sessions → session.input.Armed)
    (fun member => kept member (armed id member)) armed

/-! ## One step -/

/-- An accepted session is no member yet, has no read and has read nothing. -/
private theorem unread_target (invariant : Invariant server) {index target : Nat}
    {completion : Option ErrorCode}
    (listed : server.accepts[index]? = some { target := target, completion := completion }) :
    target ∉ server.sessions ∧ (server.session target).reads = [] ∧
      (server.session target).linesRead = 0 := by
  rcases invariant.target _ (List.mem_of_getElem? listed) with ⟨_, absent⟩
  rcases invariant.outside target absent with ⟨none, unread, _⟩
  exact ⟨absent, none, unread⟩

private theorem relays_assigned (relays : Relays server) (index target : Nat) :
    Relays (server.dequeueAccept index target .success) :=
  relays_update ((Alike.withAccepts server _).relays relays) rfl

private theorem armed_assigned (armed : Armed server) (index : Nat) {target : Nat}
    (absent : target ∉ server.sessions) :
    Armed (server.dequeueAccept index target .success) := by
  refine armed_update ((Alike.withAccepts server _).armed_iff.mpr armed) ?_
  intro member
  exact absurd member absent

/-- Starting a session begins its read. -/
private theorem started {id : Nat} (none : (server.session id).reads = [])
    (unread : (server.session id).linesRead = 0) (endpoint : Bytes) :
    (Relays server →
        Relays ((server.update id fun session => session.start endpoint).pushBack id)) ∧
      (Armed server →
        Armed ((server.update id fun session => session.start endpoint).pushBack id)) := by
  have relayed : ((server.session id).start endpoint).input.relayed =
      (server.session id).input.relayed := by
    rw [Session.relayed_of_unread unread, Session.relayed_of_unread]
    exact unread
  have begun : ((server.session id).start endpoint).input.Armed := by
    intro _
    change ((server.session id).reads ++ _).length = 1
    rw [none]
    rfl
  constructor
  · intro relays other
    exact relays_update relays relayed other
  · intro armed other member
    have updated : Armed (server.update id fun _ => (server.session id).start endpoint) :=
      armed_update armed fun _ _ => begun
    rcases List.mem_append.mp member with earlier | last
    · exact updated other earlier
    · rw [List.mem_singleton.mp last]
      change ((server.update id fun session => session.start endpoint).session id).input.Armed
      rw [Server.update_session_self]
      exact begun

/-- The session that the next accept is for has nothing to say. -/
private theorem accepted (invariant : Invariant server) :
    (Relays server → Relays server.accept) ∧ (Armed server → Armed server.accept) := by
  have absent : server.newSession ∉ server.sessions :=
    fun member => absurd (invariant.created _ member) (Nat.lt_irrefl _)
  constructor
  · intro relays id
    by_cases same : id = server.newSession
    · subst same
      have silent := relays server.newSession
      rw [Session.relayed_of_unread (invariant.outside _ absent).2.1] at silent
      rw [Server.accept_session_self]
      exact silent
    · rw [Server.accept_session_of_ne same]
      exact relays id
  · intro armed id member
    have different : id ≠ server.newSession := fun same => absent (same ▸ member)
    rw [Server.accept_session_of_ne different]
    exact armed id member

private theorem joined (invariant : Invariant server) {index target : Nat}
    {completion : Option ErrorCode}
    (listed : server.accepts[index]? = some { target := target, completion := completion })
    (endpoint : Bytes) :
    (Relays server →
        Relays ((((server.dequeueAccept index target .success).welcome target endpoint).update
          target fun session => session.start endpoint).pushBack target).accept) ∧
      (Armed server →
        Armed ((((server.dequeueAccept index target .success).welcome target endpoint).update
          target fun session => session.start endpoint).pushBack target).accept) := by
  rcases unread_target invariant listed with ⟨absent, none, unread⟩
  have dequeued := invariant.dequeueAccept listed target .success
  have welcome := Alike.welcome dequeued.distinct target endpoint
  have input : (((server.dequeueAccept index target .success).welcome target endpoint).session
      target).input = { (server.session target).input with isOpen := true } := by
    rw [welcome.input target, Server.dequeueAccept, if_pos rfl, Server.update_session_self]
    rfl
  have begun := started ((congrArg Session.Input.reads input).trans none)
    ((congrArg Session.Input.linesRead input).trans unread) endpoint
  have next := accepted (invariant.pushed listed endpoint).1
  constructor
  · intro relays
    exact next.1 (begun.1 (welcome.relays (relays_assigned relays index target)))
  · intro armed
    exact next.2 (begun.2 (welcome.armed_iff.mpr (armed_assigned armed index absent)))

/-- What a line does to the broadcasts and to the input. -/
private theorem lineRead_eq (invariant : Invariant server) {id index : Nat}
    {completion : Completion}
    (listed : (server.session id).reads[index]? = some { completion := some completion })
    (other : Nat) :
    let after := ((server.session id).dequeueRead index).takeLine completion.bytesTransferred
    (server.lineRead id index completion.bytesTransferred).lines other =
        server.lines other ++
          (if Origin.line id = .line other then [(server.session id).name ++ after.1] else []) ∧
      ((server.lineRead id index completion.bytesTransferred).session other).input =
        if other = id then after.2.input else (server.session other).input := by
  intro after
  have taken := invariant.update (Keeps.takeLine (invariant.reading id) (invariant.writing id)
    listed completion.bytesTransferred)
  have echoed := Alike.post (((server.update id fun _ => after.2).broadcast (.line id)
    (after.2.name ++ after.1))) id { message := after.1 }
  constructor
  · exact (echoed.lines other).trans (Server.lines_broadcast taken.distinct _ _ other)
  · refine (echoed.input other).trans ((Server.broadcast_input _ _ _ other).trans ?_)
    by_cases same : other = id
    · subst same
      rw [if_pos rfl, Server.update_session_self]
    · rw [if_neg same, Server.update_session_of_ne same]

/-- The lines that have been broadcast are kept in step with the reads. -/
theorem relays_moves (invariant : Invariant server) (relays : Relays server) {event : Event}
    (moves : Moves server event next) : Relays next := by
  cases moves with
  | acceptDone _ _ => exact (Alike.withAccepts server _).relays relays
  | @completes id _ _ completes =>
      exact relays_update relays (Session.completes_input (invariant.reading id) completes).1
  | @handles id _ _ raised handles =>
      have updated := relays_update relays (Session.handles_input handles).1
      have kept := (invariant.update
        (Keeps.handles (invariant.reading id) (invariant.writing id) handles)).threw raised
      exact ((Alike.threw _ raised).trans (Alike.release kept.distinct id)).relays updated
  | @lineRead id index _ completion listed success =>
      refine (Alike.release (invariant.lineRead listed _).distinct id).relays ?_
      intro other
      rcases lineRead_eq invariant listed other with ⟨lines, input⟩
      rw [lines, input, relays other]
      by_cases same : other = id
      · subst same
        have reading := invariant.reading other
        rw [if_pos rfl, if_pos rfl, Session.relayed_takeLine reading listed success,
          Session.relayed_of_unread
            (reading.first (List.ne_nil_of_mem (List.mem_of_getElem? listed)))]
        rfl
      · rw [if_neg same, if_neg (fun origin => same (Origin.line.inj origin).symm),
          List.append_nil]
  | @acceptFailed _ target ec _ _ _ listed failed =>
      have dequeued := (invariant.dequeueAccept listed target ec).distinct
      rw [Server.dequeueAccept, if_neg failed] at dequeued
      exact ((Alike.withAccepts server _).trans (Alike.release dequeued target)).relays relays
  | @joinedThrew index target _ _ listed =>
      exact (Alike.threw _ true).relays (relays_assigned relays index target)
  | @startThrew index target endpoint listed _ =>
      have dequeued := (invariant.dequeueAccept listed target .success).distinct
      exact ((Alike.welcome dequeued target endpoint).trans (Alike.threw _ true)).relays
        (relays_assigned relays index target)
  | @joined index target endpoint listed _ =>
      rcases invariant.pushed listed endpoint with ⟨pushed, none⟩
      exact (Alike.release (pushed.accept none).distinct target).relays
        ((joined invariant listed endpoint).1 relays)

/-- The event is not the handler of a read that found a line on an open
socket. -/
def ReadsNoLine (server : Server) : Event → Prop
  | .onRead id index _ =>
      ∀ completion, (server.session id).reads[index]? = some { completion := some completion } →
        completion.error = .success → (server.session id).isOpen = false
  | _ => True

private theorem readsNoLine_of_completes {id : Nat} {event : Event} {after : Session}
    (completes : Completes id (server.session id) event after) : ReadsNoLine server event := by
  cases completes with
  | arrive _ _ => trivial
  | readFailed _ => trivial
  | writeDone _ => trivial
  | writeFailed _ => trivial

private theorem readsNoLine_of_handles {id : Nat} {event : Event} {after : Session}
    {raised : Bool} (handles : Handles id (server.session id) event after raised) :
    ReadsNoLine server event := by
  cases handles with
  | readError listed failed =>
      intro completion found success
      rw [listed] at found
      cases found
      exact absurd success failed
  | written _ _ => trivial
  | writeError _ _ => trivial

/-- One step keeps the reads of the open members exactly when it does not take a
line from one of them. -/
theorem armed_moves_iff (invariant : Invariant server) (armed : Armed server) {event : Event}
    (moves : Moves server event next) : Armed next ↔ ReadsNoLine server event := by
  cases moves with
  | acceptDone _ _ =>
      exact ⟨fun _ => trivial, fun _ => (Alike.withAccepts server _).armed_iff.mpr armed⟩
  | @completes id _ _ completes =>
      have updated := armed_update armed
        (fun _ => (Session.completes_input (invariant.reading id) completes).2)
      exact ⟨fun _ => readsNoLine_of_completes completes, fun _ => updated⟩
  | @handles id _ _ raised handles =>
      have updated := armed_update armed (fun _ => (Session.handles_input handles).2)
      have kept := (invariant.update
        (Keeps.handles (invariant.reading id) (invariant.writing id) handles)).threw raised
      have released := (Alike.threw _ raised).trans (Alike.release kept.distinct id)
      exact ⟨fun _ => readsNoLine_of_handles handles, fun _ => released.armed_iff.mpr updated⟩
  | @lineRead id index _ completion listed success =>
      have member : id ∈ server.sessions := by
        by_contra absent
        have pending := List.mem_of_getElem? listed
        rw [(invariant.outside id absent).1] at pending
        cases pending
      have disarmed : (((server.session id).dequeueRead index).takeLine
          completion.bytesTransferred).2.input.reads = [] :=
        eraseIdx_of_listed (invariant.reading id).single listed
      have input := fun other => (lineRead_eq invariant listed other).2
      have sessions : (server.lineRead id index completion.bytesTransferred).sessions =
          server.sessions := by
        have taken := invariant.update (Keeps.takeLine (invariant.reading id)
          (invariant.writing id) listed completion.bytesTransferred)
        rw [Server.lineRead]
        dsimp only
        rw [Server.broadcast_eq taken.distinct]
        rfl
      rw [(Alike.release (invariant.lineRead listed _).distinct id).armed_iff]
      constructor
      · intro after other found _
        have here := after id (sessions ▸ member)
        rw [input id, if_pos rfl] at here
        cases isOpen : (server.session id).isOpen with
        | false => rfl
        | true =>
            have one := here isOpen
            rw [disarmed] at one
            cases one
      · intro holds other memberAfter
        rw [input other]
        by_cases same : other = id
        · subst same
          rw [if_pos rfl]
          intro isOpen
          have closed := holds completion listed success
          rw [show (server.session other).isOpen = true from isOpen] at closed
          cases closed
        · rw [if_neg same]
          exact armed other (sessions ▸ memberAfter)
  | @acceptFailed _ target ec _ _ _ listed failed =>
      have dequeued := (invariant.dequeueAccept listed target ec).distinct
      rw [Server.dequeueAccept, if_neg failed] at dequeued
      have released := (Alike.withAccepts server _).trans (Alike.release dequeued target)
      exact ⟨fun _ => trivial, fun _ => released.armed_iff.mpr armed⟩
  | @joinedThrew index target _ _ listed =>
      have assigned := armed_assigned armed index (unread_target invariant listed).1
      exact ⟨fun _ => trivial, fun _ => (Alike.threw _ true).armed_iff.mpr assigned⟩
  | @startThrew index target endpoint listed _ =>
      have dequeued := (invariant.dequeueAccept listed target .success).distinct
      have assigned := armed_assigned armed index (unread_target invariant listed).1
      have welcome := (Alike.welcome dequeued target endpoint).trans (Alike.threw _ true)
      exact ⟨fun _ => trivial, fun _ => welcome.armed_iff.mpr assigned⟩
  | @joined index target endpoint listed _ =>
      rcases invariant.pushed listed endpoint with ⟨pushed, none⟩
      have released := Alike.release (pushed.accept none).distinct target
      have begun := (joined invariant listed endpoint).2 armed
      exact ⟨fun _ => trivial, fun _ => released.armed_iff.mpr begun⟩

/-! ## Runs -/

/-- As long as a session has no error, the server broadcasts the lines of its
stream whose reads have been handled, in order and each once; and while its
socket is open it has one read. -/
def InputComplete (server : Server) : Prop :=
  ∀ id ∈ server.sessions,
    ((server.session id).hasFailed = false →
      server.lines id = ((completeLines newline (server.session id).received).take
        (server.session id).linesRead).map fun line => (server.session id).name ++ line) ∧
    ((server.session id).isOpen = true → (server.session id).reads.length = 1)

/-- The broadcasts are right in any case. -/
theorem inputComplete_iff (relays : Relays server) : InputComplete server ↔ Armed server := by
  constructor
  · intro complete id member
    exact (complete id member).2
  · intro armed id member
    exact ⟨fun _ => relays id, armed id member⟩

private theorem relaying_step (server : Server) (event : Event) (next : Server)
    (before : Invariant server ∧ Relays server)
    (moved : Server.machine.step server event = some next) : Invariant next ∧ Relays next :=
  ⟨before.1.of_step moved, relays_moves before.1 before.2 (moves_of_step moved).2⟩

private theorem relaying_initial :
    Invariant Server.machine.initial ∧ Relays Server.machine.initial := by
  refine ⟨.initial, fun id => ?_⟩
  by_cases first : id = 0
  · subst first
    rfl
  · rw [Session.relayed_of_unread (Invariant.initial.outside id List.not_mem_nil).2.1]
    rfl

theorem inputComplete_step (server : Server) (event : Event) (next : Server)
    (before : Invariant server ∧ Relays server) (complete : InputComplete server)
    (moved : Server.machine.step server event = some next) :
    InputComplete next ↔ ReadsNoLine server event := by
  rw [inputComplete_iff (relaying_step server event next before moved).2]
  exact armed_moves_iff before.1 ((inputComplete_iff before.2).mp complete)
    (moves_of_step moved).2

/-- The input of every client is complete throughout a run exactly when no step
of the run handles a line of an open session. -/
theorem inputComplete_along_run {events : List Event} {final : Server}
    (steps : Server.machine.run Server.machine.initial events = some final) :
    Server.machine.Always InputComplete Server.machine.initial events ↔
      Server.machine.Meets ReadsNoLine Server.machine.initial events := by
  have empty : InputComplete Server.machine.initial := by
    intro id member
    cases member
  exact Server.machine.always_iff_meets relaying_step inputComplete_step relaying_initial empty
    steps

/-! ### The second line of a client -/

/-- A client joins and sends a line. -/
def oneLine : List Event :=
  [.acceptDone 0 .success, .onAccept 0 (bytes "10.0.0.1:1024") false false,
    .arrive 0 0 (bytes "hello\n"), .onRead 0 0 false]

private theorem oneLine_deaf : ∃ server, Server.machine.run Server.machine.initial oneLine =
    some server ∧ ¬ InputComplete server := by
  have outcome : (Server.machine.run Server.machine.initial oneLine).map (fun server =>
      decide (server.sessions = [0] ∧ (server.session 0).isOpen = true ∧
        (server.session 0).reads = [])) = some true := by decide +kernel
  rcases Option.map_eq_some_iff.mp outcome with ⟨server, steps, facts⟩
  rcases of_decide_eq_true facts with ⟨members, isOpen, none⟩
  refine ⟨server, steps, fun complete => ?_⟩
  have one := (complete 0 (members ▸ List.mem_singleton_self 0)).2 isOpen
  rw [none] at one
  cases one

/-- The session is open and reads nothing any more. -/
theorem oneLine_not_inputComplete : ∃ server, Server.machine.Reachable server ∧
    ¬ InputComplete server := by
  rcases oneLine_deaf with ⟨server, steps, deaf⟩
  exact ⟨server, ⟨oneLine, steps⟩, deaf⟩

/-- Handling the line is the step that does not meet the condition. -/
theorem oneLine_not_meets :
    ¬ Server.machine.Meets ReadsNoLine Server.machine.initial oneLine := by
  rcases oneLine_deaf with ⟨server, steps, deaf⟩
  intro meets
  exact deaf (((inputComplete_along_run steps).mpr meets).last _ steps)

end Chat
end LearnAsio
