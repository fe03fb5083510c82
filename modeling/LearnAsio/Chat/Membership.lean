import LearnAsio.Chat.Invariant

namespace LearnAsio
namespace Chat

open Transition

/-!
# Who has joined and who has left

A session is announced by `on_accept` and takes leave in its destructor.  While
the loop runs, `sessions_` keeps every session that has been announced, so no
destructor runs for one of these.  The only session that is ever destroyed is
the target of an accept that has failed, which takes leave without having been
announced.
-/

variable {server : Server}

/-! ## Sessions that have not joined -/

/-- Nothing has happened to a session that is not in `sessions_`. -/
def Unused (server : Server) : Prop :=
  ∀ id, id ∉ server.sessions → server.session id = {}

namespace Unused

/-- What has an operation outstanding is a member. -/
theorem member_of_read (unused : Unused server) {id index : Nat} {read : Read}
    (listed : (server.session id).reads[index]? = some read) : id ∈ server.sessions := by
  by_contra absent
  rw [unused id absent] at listed
  cases listed

theorem member_of_write (unused : Unused server) {id index : Nat} {write : Write}
    (listed : (server.session id).writes[index]? = some write) : id ∈ server.sessions := by
  by_contra absent
  rw [unused id absent] at listed
  cases listed

theorem member_of_completes (unused : Unused server) {id : Nat} {event : Event} {after : Session}
    (completes : Completes id (server.session id) event after) : id ∈ server.sessions := by
  cases completes with
  | arrive listed _ => exact unused.member_of_read listed
  | readFailed listed => exact unused.member_of_read listed
  | writeDone listed => exact unused.member_of_write listed
  | writeFailed listed => exact unused.member_of_write listed

theorem member_of_handles (unused : Unused server) {id : Nat} {event : Event} {after : Session}
    {raised : Bool} (handles : Handles id (server.session id) event after raised) :
    id ∈ server.sessions := by
  cases handles with
  | readError listed _ => exact unused.member_of_read listed
  | written listed _ => exact unused.member_of_write listed
  | writeError listed _ => exact unused.member_of_write listed

/-- Changing a member leaves the others alone. -/
theorem update (unused : Unused server) {id : Nat} (member : id ∈ server.sessions)
    (change : Session → Session) : Unused (server.update id change) := by
  intro other absent
  have different : other ≠ id := fun same => absent (same ▸ member)
  rw [Server.update_session_of_ne different]
  exact unused other absent

/-- Only members are posted a broadcast. -/
theorem broadcast (unused : Unused server) (distinct : server.sessions.Nodup) (origin : Origin)
    (message : Bytes) : Unused (server.broadcast origin message) := by
  rw [Server.broadcast_eq distinct]
  intro id absent
  dsimp only
  rw [if_neg absent]
  exact unused id absent

theorem release (unused : Unused server) (distinct : server.sessions.Nodup) (id : Nat) :
    Unused (server.release id) := by
  rcases server.release_cases id with kept | ⟨message, left⟩
  · rw [kept]
    exact unused
  · rw [left]
    exact unused.broadcast distinct _ _

/-- A session whose accept has just been handled is not a member, and the accept
was the only one. -/
theorem target (unused : Unused server) (invariant : Invariant server) {index target : Nat}
    {completion : Option ErrorCode}
    (listed : server.accepts[index]? = some { target := target, completion := completion }) :
    target ∉ server.sessions ∧ server.session target = {} ∧ server.accepts.eraseIdx index = [] := by
  have absent := (invariant.target _ (List.mem_of_getElem? listed)).2
  exact ⟨absent, unused target absent, eraseIdx_of_listed invariant.oneAccept listed⟩

end Unused

namespace Server

/-- The vector after `on_accept` has announced and started a session. -/
theorem joined_sessions (server : Server) (index target : Nat) (endpoint : Bytes) :
    ((((server.dequeueAccept index target .success).welcome target endpoint).update target
      fun session => session.start endpoint).pushBack target).accept.sessions =
        server.sessions ++ [target] := by
  change ((server.dequeueAccept index target .success).broadcast _ _).sessions ++ [target] = _
  rw [broadcast_sessions]
  rfl

theorem lineRead_sessions (server : Server) (id index bytesTransferred : Nat) :
    (server.lineRead id index bytesTransferred).sessions = server.sessions := by
  rw [lineRead]
  dsimp only
  rw [update_sessions, broadcast_sessions, update_sessions]

/-- A member is not released. -/
theorem release_of_mem (server : Server) {id : Nat} (member : id ∈ server.sessions) :
    server.release id = server :=
  if_pos (Or.inr (Or.inl member))

end Server

/-- A handler that does not throw leaves the sessions outside `sessions_`
unused. -/
theorem unused_moves {next : Server} {event : Event} (invariant : Invariant server)
    (unused : Unused server) (moves : Moves server event next) (running : next.thrown = false) :
    Unused next := by
  cases moves with
  | acceptDone _ _ => exact unused
  | completes completes => exact unused.update (unused.member_of_completes completes) _
  | @handles id _ after raised handles =>
      have updated : Unused { server.update id fun _ => after with thrown := raised } :=
        unused.update (unused.member_of_handles handles) fun _ => after
      exact updated.release invariant.distinct id
  | @lineRead id index _ completion listed _ =>
      have member := unused.member_of_read listed
      have taken : Unused (server.update id fun _ =>
          (((server.session id).dequeueRead index).takeLine completion.bytesTransferred).2) :=
        unused.update member _
      have told := taken.broadcast invariant.distinct (.line id)
        ((((server.session id).dequeueRead index).takeLine completion.bytesTransferred).2.name ++
          (((server.session id).dequeueRead index).takeLine completion.bytesTransferred).1)
      have echoed : Unused (server.lineRead id index completion.bytesTransferred) := by
        refine told.update ?_ _
        rw [Server.broadcast_sessions]
        exact member
      refine echoed.release ?_ id
      rw [Server.lineRead_sessions]
      exact invariant.distinct
  | @acceptFailed index target _ _ _ _ _ _ =>
      have dequeued : Unused { server with accepts := server.accepts.eraseIdx index } := unused
      exact dequeued.release invariant.distinct target
  | joinedThrew _ => cases running
  | startThrew _ _ => cases running
  | @joined index target endpoint listed _ =>
      have dequeued := invariant.dequeueAccept listed target .success
      have members := Server.joined_sessions server index target endpoint
      rw [Server.release_of_mem _ (members ▸ List.mem_append_right _ (List.mem_singleton_self _))]
      intro id absent
      rw [members] at absent
      have earlier : id ∉ server.sessions := fun member => absent (List.mem_append_left _ member)
      have different : id ≠ target :=
        fun same => absent (List.mem_append_right _ (same ▸ List.mem_singleton_self _))
      refine Server.forall_accept (fun other session => other = id → session = {}) ?_ ?_ id rfl
      · exact fun _ => rfl
      · rintro other rfl
        rw [Server.pushBack_session, Server.update_session_of_ne different, Server.welcome,
          Server.update_session_of_ne different, Server.broadcast_eq dequeued.distinct]
        dsimp only
        have absent : other ∉ (server.dequeueAccept index target .success).sessions := earlier
        rw [if_neg absent, Server.dequeueAccept, if_pos rfl, Server.update_session_of_ne different]
        exact unused other earlier

/-- While the loop runs, the sessions outside `sessions_` are unused. -/
def Vacant (server : Server) : Prop :=
  server.thrown = false → Unused server

theorem vacant_step (server : Server) (event : Event) (next : Server)
    (before : Invariant server ∧ Vacant server)
    (moved : Server.machine.step server event = some next) : Invariant next ∧ Vacant next := by
  rcases moves_of_step moved with ⟨running, moves⟩
  exact ⟨before.1.moves moves, unused_moves before.1 (before.2 running) moves⟩

theorem vacant_initial : Invariant Server.machine.initial ∧ Vacant Server.machine.initial := by
  refine ⟨Invariant.initial, fun _ id _ => ?_⟩
  exact Server.forall_accept (fun _ session => session = {}) rfl (fun _ => rfl) id

/-! ## The notices -/

/-- Wherever a leave notice stands among the broadcasts, the session has been
announced before it and takes leave nowhere else. -/
def Announced (origins : List Origin) : Prop :=
  ∀ before after id, origins = before ++ .left id :: after →
    .joined id ∈ before ∧ .left id ∉ before ∧ .left id ∉ after

/-- A notice of another kind changes nothing. -/
theorem announced_concat_iff {origins : List Origin} {origin : Origin}
    (stays : ∀ id, origin ≠ .left id) : Announced (origins ++ [origin]) ↔ Announced origins := by
  constructor
  · intro announced before after id split
    have longer : origins ++ [origin] = before ++ .left id :: (after ++ [origin]) := by
      rw [split, List.append_assoc]
      rfl
    rcases announced before (after ++ [origin]) id longer with ⟨joined, earlier, later⟩
    exact ⟨joined, earlier, fun member => later (List.mem_append_left _ member)⟩
  · intro announced before after id split
    rcases List.eq_nil_or_concat after with none | ⟨rest, last, whole⟩
    · subst none
      have final := (List.append_inj' split rfl).2
      exact absurd (List.cons.inj final).1 (stays id)
    · rw [List.concat_eq_append] at whole
      subst whole
      rw [← List.cons_append, ← List.append_assoc] at split
      rcases List.append_inj' split rfl with ⟨shorter, same⟩
      rcases announced before rest id shorter with ⟨joined, earlier, later⟩
      refine ⟨joined, earlier, fun member => ?_⟩
      rcases List.mem_append.mp member with among | final
      · exact later among
      · exact stays id ((List.cons.inj same).1.trans (List.mem_singleton.mp final).symm)

/-- A session that has not been announced must not take leave. -/
theorem not_announced_concat {origins : List Origin} {id : Nat} (unknown : .joined id ∉ origins) :
    ¬ Announced (origins ++ [.left id]) :=
  fun announced => unknown (announced origins [] id rfl).1

namespace Server

/-- What has been broadcast, and for whom. -/
def origins (server : Server) : List Origin := server.broadcasts.map Broadcast.origin

theorem origins_broadcast {server : Server} (distinct : server.sessions.Nodup) (origin : Origin)
    (message : Bytes) : (server.broadcast origin message).origins = server.origins ++ [origin] := by
  rw [broadcast_eq distinct]
  exact List.map_append

end Server

/-- The event is not the handler of an accept that has failed. -/
def AcceptSucceeded (server : Server) : Event → Prop
  | .onAccept index _ _ _ => ∀ target ec,
      server.accepts[index]? = some { target := target, completion := some ec } → ec = .success
  | _ => True

/-- What a step announces. -/
inductive Announces (server : Server) (event : Event) (next : Server) : Prop
  | nothing (told : next.origins = server.origins) (members : next.sessions = server.sessions)
      (succeeded : AcceptSucceeded server event)
  | line (id : Nat) (told : next.origins = server.origins ++ [.line id])
      (members : next.sessions = server.sessions) (succeeded : AcceptSucceeded server event)
  | joined (id : Nat) (told : next.origins = server.origins ++ [.joined id])
      (members : next.thrown = true ∨ next.sessions = server.sessions ++ [id])
      (succeeded : AcceptSucceeded server event)
  | left (id : Nat) (absent : id ∉ server.sessions)
      (told : next.origins = server.origins ++ [.left id])
      (members : next.sessions = server.sessions) (failed : ¬ AcceptSucceeded server event)

theorem succeeded_of_listed {index target : Nat} {endpoint : Bytes}
    {joinedThrows startThrows : Bool}
    (listed : server.accepts[index]? = some { target := target, completion := some .success }) :
    AcceptSucceeded server (.onAccept index endpoint joinedThrows startThrows) := by
  intro other ec found
  rw [listed] at found
  cases found
  rfl

theorem succeeded_of_completes {id : Nat} {event : Event} {after : Session}
    (completes : Completes id (server.session id) event after) :
    AcceptSucceeded server event := by
  cases completes with
  | arrive _ _ => trivial
  | readFailed _ => trivial
  | writeDone _ => trivial
  | writeFailed _ => trivial

theorem succeeded_of_handles {id : Nat} {event : Event} {after : Session} {raised : Bool}
    (handles : Handles id (server.session id) event after raised) :
    AcceptSucceeded server event := by
  cases handles with
  | readError _ _ => trivial
  | written _ _ => trivial
  | writeError _ _ => trivial

/-- Only a failed accept destroys a session. -/
theorem announces_of_moves {next : Server} {event : Event} (running : server.thrown = false)
    (invariant : Invariant server) (unused : Unused server) (moves : Moves server event next) :
    Announces server event next := by
  cases moves with
  | acceptDone _ _ => exact .nothing rfl rfl trivial
  | completes completes => exact .nothing rfl rfl (succeeded_of_completes completes)
  | @handles id _ after raised handles =>
      have kept : ({ server.update id fun _ => after with thrown := raised } : Server).release id =
          { server.update id fun _ => after with thrown := raised } :=
        Server.release_of_mem _ (unused.member_of_handles handles)
      rw [kept]
      exact .nothing rfl rfl (succeeded_of_handles handles)
  | @lineRead id index _ completion listed _ =>
      have members := server.lineRead_sessions id index completion.bytesTransferred
      rw [Server.release_of_mem _ (members.symm ▸ unused.member_of_read listed)]
      refine .line id ?_ members trivial
      have distinct : (server.update id fun _ => (((server.session id).dequeueRead index).takeLine
        completion.bytesTransferred).2).sessions.Nodup := invariant.distinct
      exact Server.origins_broadcast distinct _ _
  | @acceptFailed index target ec _ _ _ listed failed =>
      rcases unused.target invariant listed with ⟨absent, fresh, handled⟩
      have ownerless : ¬ Server.Owned { server with accepts := server.accepts.eraseIdx index }
          target := by
        rintro (member | ⟨accept, among, _⟩ | reads | writes)
        · exact absent member
        · rw [handled] at among
          cases among
        · exact reads (congrArg Session.reads fresh)
        · exact writes (congrArg Session.writes fresh)
      rw [Server.release, if_neg (by
        rintro (stopped | owned)
        · rw [running] at stopped
          cases stopped
        · exact ownerless owned)]
      refine .left target absent ?_ ?_ ?_
      · have distinct :
            ({ server with accepts := server.accepts.eraseIdx index } : Server).sessions.Nodup :=
          invariant.distinct
        exact Server.origins_broadcast distinct _ _
      · rw [Server.broadcast_sessions]
      · exact fun succeeded => failed (succeeded target ec listed)
  | joinedThrew listed => exact .nothing rfl rfl (succeeded_of_listed listed)
  | @startThrew index target endpoint listed _ =>
      have dequeued := invariant.dequeueAccept listed target .success
      refine .joined target ?_ (Or.inl rfl) (succeeded_of_listed listed)
      exact Server.origins_broadcast dequeued.distinct _ _
  | @joined index target endpoint listed _ =>
      have dequeued := invariant.dequeueAccept listed target .success
      have members := Server.joined_sessions server index target endpoint
      rw [Server.release_of_mem _ (members ▸ List.mem_append_right _ (List.mem_singleton_self _))]
      refine .joined target ?_ (Or.inr members) (succeeded_of_listed listed)
      exact Server.origins_broadcast dequeued.distinct _ _

/-- While the loop runs, whoever has been announced is a member. -/
def Kept (server : Server) : Prop :=
  server.thrown = false → ∀ id, .joined id ∈ server.origins → id ∈ server.sessions

theorem kept_of_announces {next : Server} {event : Event} (running : server.thrown = false)
    (kept : Kept server) (announces : Announces server event next) : Kept next := by
  intro still id told
  cases announces with
  | nothing same members _ =>
      rw [same] at told
      exact members ▸ kept running id told
  | line other same members _ =>
      rw [same] at told
      rcases List.mem_append.mp told with earlier | now
      · exact members ▸ kept running id earlier
      · cases List.mem_singleton.mp now
  | joined other same members _ =>
      rw [same] at told
      rcases members with threw | grown
      · rw [threw] at still
        cases still
      · rw [grown]
        rcases List.mem_append.mp told with earlier | now
        · exact List.mem_append_left _ (kept running id earlier)
        · cases List.mem_singleton.mp now
          exact List.mem_append_right _ (List.mem_singleton_self _)
  | left other _ same members _ =>
      rw [same] at told
      rcases List.mem_append.mp told with earlier | now
      · exact members ▸ kept running id earlier
      · cases List.mem_singleton.mp now

/-! ## Runs -/

/-- The invariant of the notices. -/
def Membership (server : Server) : Prop :=
  (Invariant server ∧ Vacant server) ∧ Kept server

theorem membership_step (server : Server) (event : Event) (next : Server)
    (before : Membership server) (moved : Server.machine.step server event = some next) :
    Membership next := by
  refine ⟨vacant_step server event next before.1 moved, ?_⟩
  rcases moves_of_step moved with ⟨running, moves⟩
  exact kept_of_announces running before.2
    (announces_of_moves running before.1.1 (before.1.2 running) moves)

theorem membership_initial : Membership Server.machine.initial := by
  refine ⟨vacant_initial, fun _ id told => ?_⟩
  cases told

/-- A step keeps the order of the notices exactly if it does not handle a failed
accept. -/
theorem announced_step (server : Server) (event : Event) (next : Server)
    (before : Membership server) (announced : Announced server.origins)
    (moved : Server.machine.step server event = some next) :
    Announced next.origins ↔ AcceptSucceeded server event := by
  rcases moves_of_step moved with ⟨running, moves⟩
  cases announces_of_moves running before.1.1 (before.1.2 running) moves with
  | nothing told _ succeeded =>
      rw [told]
      exact ⟨fun _ => succeeded, fun _ => announced⟩
  | line id told _ succeeded =>
      rw [told, announced_concat_iff (fun _ impossible => by cases impossible)]
      exact ⟨fun _ => succeeded, fun _ => announced⟩
  | joined id told _ succeeded =>
      rw [told, announced_concat_iff (fun _ impossible => by cases impossible)]
      exact ⟨fun _ => succeeded, fun _ => announced⟩
  | left id absent told _ failed =>
      rw [told]
      have unknown : .joined id ∉ server.origins := fun known => absent (before.2 running id known)
      exact ⟨fun wrong => absurd wrong (not_announced_concat unknown),
        fun succeeded => absurd succeeded failed⟩

/-- Throughout a run every leave notice follows the session's announcement, and
is the only one of the session, exactly if no step handles a failed accept. -/
theorem announced_along_run {events : List Event} {final : Server}
    (steps : Server.machine.run Server.machine.initial events = some final) :
    Server.machine.Always (fun server => Announced server.origins) Server.machine.initial events ↔
      Server.machine.Meets AcceptSucceeded Server.machine.initial events := by
  have empty : Announced Server.machine.initial.origins := by
    intro before after id split
    cases before with
    | nil => cases split
    | cons _ _ => cases split
  exact Server.machine.always_iff_meets membership_step announced_step membership_initial empty
    steps

/-! ### A failed accept -/

/-- A client joins, and the next accept fails. -/
def acceptError : List Event :=
  [.acceptDone 0 .success, .onAccept 0 (bytes "10.0.0.1:1024") false false,
    .acceptDone 0 .failure, .onAccept 0 [] false false]

private theorem acceptError_left : ∃ server, Server.machine.run Server.machine.initial acceptError =
    some server ∧ server.origins = [.joined 0, .left 1] ∧
      ((server.session 0).posted.map Post.message).getLast? =
        some (bytes " has left the chat") := by
  have outcome : (Server.machine.run Server.machine.initial acceptError).map (fun server =>
      decide (server.origins = [.joined 0, .left 1] ∧
        ((server.session 0).posted.map Post.message).getLast? =
          some (bytes " has left the chat"))) = some true := by decide +kernel
  rcases Option.map_eq_some_iff.mp outcome with ⟨server, steps, facts⟩
  exact ⟨server, steps, of_decide_eq_true facts⟩

private theorem acceptError_origins : ¬ Announced [.joined 0, .left 1] :=
  fun announced => absurd (announced [.joined 0] [] 1 rfl).1 (by decide)

/-- The first client is told that a session has left which nobody has seen
join. -/
theorem acceptError_not_announced : ∃ server, Server.machine.Reachable server ∧
    ((server.session 0).posted.map Post.message).getLast? = some (bytes " has left the chat") ∧
      ¬ Announced server.origins := by
  rcases acceptError_left with ⟨server, steps, told, posted⟩
  exact ⟨server, ⟨acceptError, steps⟩, posted, told ▸ acceptError_origins⟩

/-- Handling the failed accept is the step that does not meet the condition. -/
theorem acceptError_not_meets :
    ¬ Server.machine.Meets AcceptSucceeded Server.machine.initial acceptError := by
  rcases acceptError_left with ⟨server, steps, told, _⟩
  intro meets
  have announced := ((announced_along_run steps).mpr meets).last _ steps
  exact acceptError_origins (told ▸ announced)

end Chat
end LearnAsio
