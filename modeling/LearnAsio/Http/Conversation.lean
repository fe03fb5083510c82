import LearnAsio.Http.Client
import LearnAsio.Http.Framing
import LearnAsio.Http.Leak
import LearnAsio.Http.WriteBuffers

namespace LearnAsio
namespace Http

open Transition

/-!
# The client and the server together

The client's turn is put at the other end of a connection of the server, in a run
in which the dates have no line feed and a temporary response is still found when
its bytes are taken.  The socket may have accepted any part of a response, and the
client may have got any part of that, in any pieces.  It never refuses what it
gets: either the status line and the headers are not complete and `read_until`
throws, or the client has found those of a response that the connection wrote.
-/

variable {env : Env}

/-- The request handler puts nothing into the headers that breaks a line. -/
def RequestHandler.KeepsLegible (handler : RequestHandler) : Prop :=
  ∀ method request response, response.headers.Legible →
    (handler.invoke method request response).headers.Legible

/-- The handler of this repository leaves the headers alone. -/
theorem RequestHandler.repository_keepsLegible : repository.KeepsLegible := by
  intro method request response legible
  cases method <;> exact legible

/-- The date has no line feed, and a temporary response is found as it was when
its bytes are taken. -/
def Presents (server : Server env) : Event → Prop
  | .handleRead _ _ date _ => Unbroken date
  | .writeDone id index _ memory =>
      match (server.connection id).operations[index]? with
      | some { kind := .writeSome buffers, .. } =>
          buffers.storage = .temporary → memory = buffers.whole
      | _ => True
  | _ => True

instance (server : Server env) (event : Event) : Decidable (Presents server event) := by
  unfold Presents
  split
  · infer_instance
  · split <;> infer_instance
  · infer_instance

/-- The bytes are those of a response whose header lines can be read. -/
def Written (env : Env) (whole : Bytes) : Prop :=
  ∃ sent : Response, ∃ date, sent.headers.Legible ∧ Unbroken date ∧
    whole = (sent.toBuffers env.iteration date).2.flatten

namespace Connection

/-- Whatever the connection writes can be read, and what has been accepted is the
beginning of something that it wrote. -/
structure Presentable (connection : Connection env) : Prop where
  response : connection.response.headers.Legible
  written : ∀ whole, .asyncWriteSome whole ∈ connection.log → Written env whole
  writes : ∀ operation ∈ connection.operations, ∀ buffers,
    operation.kind = .writeSome buffers → .asyncWriteSome buffers.whole ∈ connection.log
  accepted : connection.accepted = [] ∨
    ∃ whole, .asyncWriteSome whole ∈ connection.log ∧ connection.accepted <+: whole

namespace Presentable

variable {connection after : Connection env}

theorem fresh (isOpen : Bool) : Presentable ({ isOpen := isOpen } : Connection env) where
  response := Response.legible_initial
  written := by
    intro whole impossible
    cases impossible
  writes := by
    intro operation impossible
    cases impossible
  accepted := Or.inl rfl

/-- What writes nothing and moves no byte keeps the connection presentable. -/
theorem of_same (presentable : connection.Presentable)
    (response : after.response = connection.response)
    (log : ∀ whole, .asyncWriteSome whole ∈ after.log ↔ .asyncWriteSome whole ∈ connection.log)
    (writes : ∀ operation ∈ after.operations, ∀ buffers, operation.kind = .writeSome buffers →
      ∃ before ∈ connection.operations, before.kind = .writeSome buffers)
    (accepted : after.accepted = connection.accepted) : after.Presentable where
  response := response ▸ presentable.response
  written := fun whole listed => presentable.written whole ((log whole).mp listed)
  writes := by
    intro operation outstanding buffers kind
    rcases writes operation outstanding buffers kind with ⟨before, among, same⟩
    exact (log _).mpr (presentable.writes before among buffers same)
  accepted := by
    rw [accepted]
    rcases presentable.accepted with none | ⟨whole, listed, begins⟩
    · exact Or.inl none
    · exact Or.inr ⟨whole, (log whole).mpr listed, begins⟩

/-- Another entry of the log is no write. -/
theorem mem_concat_iff {actions : List Action} {action : Action}
    (other : ∀ whole, action ≠ .asyncWriteSome whole) (whole : Bytes) :
    .asyncWriteSome whole ∈ actions ++ [action] ↔ .asyncWriteSome whole ∈ actions := by
  rw [List.mem_append, List.mem_singleton]
  exact or_iff_left fun same => other whole same.symm

theorem stop (presentable : connection.Presentable) : connection.stop.Presentable := by
  refine presentable.of_same rfl (mem_concat_iff fun _ => Action.noConfusion) ?_ rfl
  intro operation outstanding buffers kind
  rcases List.mem_map.mp outstanding with ⟨before, among, cancelled⟩
  rw [← cancelled] at kind
  exact ⟨before, among, kind⟩

theorem shutdown (presentable : connection.Presentable) : connection.shutdown.Presentable :=
  presentable.of_same rfl (mem_concat_iff fun _ => Action.noConfusion)
    (fun operation among _ kind => ⟨operation, among, kind⟩) rfl

theorem dequeue (presentable : connection.Presentable) (index : Nat) :
    (connection.dequeue index).Presentable :=
  presentable.of_same rfl (fun _ => Iff.rfl)
    (fun operation among _ kind => ⟨operation, List.mem_of_mem_eraseIdx among, kind⟩) rfl

theorem assign (presentable : connection.Presentable) : connection.assign.Presentable :=
  presentable.of_same rfl (fun _ => Iff.rfl)
    (fun operation among _ kind => ⟨operation, among, kind⟩) rfl

/-- Beginning a read writes nothing. -/
theorem start (presentable : connection.Presentable) : connection.start.Presentable := by
  refine presentable.of_same rfl (mem_concat_iff fun _ => Action.noConfusion) ?_ rfl
  intro operation outstanding buffers kind
  rcases List.mem_append.mp outstanding with among | new
  · exact ⟨operation, among, kind⟩
  · rw [List.mem_singleton.mp new] at kind
    cases kind

/-- The request and what is logged of it do not matter. -/
theorem parseRequest (presentable : connection.Presentable) (bytesTransferred : Nat) :
    (connection.parseRequest bytesTransferred).1.Presentable :=
  presentable.of_same rfl (mem_concat_iff fun _ => Action.noConfusion)
    (fun operation among _ kind => ⟨operation, among, kind⟩) rfl

/-- A write of bytes that can be read. -/
theorem asyncWriteSome (presentable : connection.Presentable) {buffers : Buffers}
    (written : Written env buffers.whole) : (connection.asyncWriteSome buffers).Presentable where
  response := presentable.response
  written := by
    intro whole listed
    rcases List.mem_append.mp listed with earlier | new
    · exact presentable.written whole earlier
    · cases List.mem_singleton.mp new
      exact written
  writes := by
    intro operation outstanding other kind
    rcases List.mem_append.mp outstanding with among | new
    · exact List.mem_append_left _ (presentable.writes operation among other kind)
    · rw [List.mem_singleton.mp new] at kind
      cases kind
      exact List.mem_append_right _ (List.mem_singleton_self _)
  accepted := by
    rcases presentable.accepted with none | ⟨whole, listed, begins⟩
    · exact Or.inl none
    · exact Or.inr ⟨whole, List.mem_append_left _ listed, begins⟩

/-- A change of the response that keeps its header lines. -/
theorem respond (presentable : connection.Presentable) {response : Response}
    (legible : response.headers.Legible) :
    ({ connection with response := response } : Connection env).Presentable where
  response := legible
  written := presentable.written
  writes := presentable.writes
  accepted := presentable.accepted

theorem dispatch (keeps : env.handler.KeepsLegible) (presentable : connection.Presentable) :
    connection.dispatch.Presentable := by
  unfold Connection.dispatch
  split
  next method _ =>
    have legible := keeps method connection.request.toPublicFields connection.response
      presentable.response
    have responded := presentable.respond legible
    exact responded.of_same rfl (mem_concat_iff fun _ => Action.noConfusion)
      (fun operation among _ kind => ⟨operation, among, kind⟩) rfl
  next => exact presentable

/-- `handle_read` writes only what can be read. -/
theorem receive (keeps : env.handler.KeepsLegible) (presentable : connection.Presentable)
    (bytesTransferred : Nat) {date : Bytes} (unbroken : Unbroken date) :
    (connection.receive bytesTransferred date).Presentable := by
  have parsed := presentable.parseRequest bytesTransferred
  cases status : connection.parseStatus bytesTransferred with
  | wantMore =>
      rw [receive_wantMore _ _ _ status]
      exact parsed.start
  | faild =>
      rw [receive_faild _ _ _ status]
      exact parsed.asyncWriteSome
        ⟨_, date, Built.legible (.ofStatus .badRequest), unbroken, rfl⟩
  | complete =>
      rw [receive_complete _ _ _ status]
      have dispatched := parsed.dispatch keeps
      have stamped := dispatched.respond (Response.legible_stamp dispatched.response unbroken)
      exact stamped.asyncWriteSome ⟨_, date, dispatched.response, unbroken, rfl⟩

/-- A completion replaces the operation by one of the same kind. -/
theorem complete (presentable : connection.Presentable) {index : Nat} {kind : OperationKind}
    (listed : connection.operations[index]? = some { kind := kind }) (completion : Completion) :
    (connection.complete index kind completion).Presentable := by
  refine presentable.of_same rfl (fun _ => Iff.rfl) ?_ rfl
  intro operation outstanding buffers same
  rcases List.mem_or_eq_of_mem_set outstanding with among | new
  · exact ⟨operation, among, same⟩
  · rw [new] at same
    exact ⟨_, List.mem_of_getElem? listed, same⟩

/-- A completed write that has found its bytes moves the first ones. -/
theorem completeWrite (presentable : connection.Presentable) {index count : Nat}
    {buffers : Buffers} {memory : Bytes}
    (listed : connection.operations[index]? = some { kind := .writeSome buffers })
    (unsent : connection.accepted = []) (found : memory = buffers.whole) :
    (connection.completeWrite index buffers count memory).Presentable where
  response := presentable.response
  written := presentable.written
  writes := (presentable.complete listed _).writes
  accepted := by
    have logged := presentable.writes _ (List.mem_of_getElem? listed) buffers rfl
    refine Or.inr ⟨buffers.whole, logged, ?_⟩
    change connection.accepted ++ memory.take count <+: buffers.whole
    rw [unsent, List.nil_append, found]
    exact List.take_prefix _ _

end Presentable
end Connection

/-! ## Runs -/

/-- Every connection is presentable. -/
def AllPresentable (server : Server env) : Prop :=
  ∀ id, (server.connection id).Presentable

namespace AllPresentable

variable {server next : Server env}

theorem update (all : AllPresentable server) {id : Nat} {change : Connection env → Connection env}
    (changed : (change (server.connection id)).Presentable) :
    AllPresentable (server.update id change) :=
  server.forall_update _ _ (fun _ connection => connection.Presentable) changed
    fun other _ => all other

theorem dequeue (all : AllPresentable server) (id index : Nat) :
    AllPresentable (server.update id fun connection => connection.dequeue index) := by
  have dequeued := (all id).dequeue index
  exact all.update dequeued

theorem managerStop (all : AllPresentable server) (id : Nat) (throws : Bool) :
    AllPresentable (server.managerStop id throws) := by
  have stopped : AllPresentable (server.update id Connection.stop) := all.update (all id).stop
  rcases server.managerStop_cases id throws with ⟨_, same⟩ | ⟨_, same⟩
  · rw [same]
    exact stopped
  · rw [same]
    exact stopped

/-- What happens to the connections when the acceptor or the signal is handled. -/
theorem of_elsewhere (all : AllPresentable server)
    (elsewhere : ∀ id, Elsewhere server id (next.connection id)) :
    AllPresentable next := by
  intro id
  cases elsewhere id with
  | kept same => exact same ▸ all id
  | stopped same => exact same ▸ (all id).stop
  | created _ same => exact same ▸ .fresh false
  | accepted _ same => exact same ▸ (all id).assign
  | started _ same => exact same ▸ (all id).assign.start

/-- Every step that meets the condition keeps the connections presentable. -/
theorem step (keeps : env.handler.KeepsLegible) (sound : Sound server)
    (all : AllPresentable server) {event : Event} (presents : Presents server event)
    (step : (Server.machine env).step server event = some next) : AllPresentable next := by
  rcases moves_of_step step with ⟨running, moved⟩
  have invariant := sound running
  cases moved with
  | acceptDone _ => exact all
  | @readDone id index data listed _ =>
      have completed : ((server.connection id).completeRead index data).Presentable :=
        have base := (all id).complete listed
          { ec := .success, bytesTransferred := data.length }
        ⟨base.response, base.written, base.writes, base.accepted⟩
      exact all.update completed
  | readFailed listed => exact all.update ((all _).complete listed _)
  | @writeDone id index count buffers memory listed _ found =>
      have unsent : (server.connection id).accepted = [] :=
        ((invariant.orderly id).listed listed).2.2.2.2
      have whole : memory = buffers.whole := by
        cases storage : buffers.storage with
        | response =>
            exact found.2 (invariant.intact_of_response (List.mem_of_getElem? listed) storage)
        | temporary =>
            simp only [Presents, listed] at presents
            exact presents storage
      exact all.update ((all id).completeWrite listed unsent whole)
  | writeFailed listed => exact all.update ((all _).complete listed _)
  | signalRaised _ => exact all
  | @handleRead id index completion date throws listed =>
      have dequeued := all.dequeue id index
      by_cases failed : completion.ec = .failure
      · rw [Server.handleRead_failed _ _ failed]
        exact dequeued.managerStop id throws
      · rw [Server.handleRead_received _ _ failed]
        exact dequeued.update ((dequeued id).receive keeps _ presents)
  | @handleWrite id index buffers completion throws listed =>
      have dequeued := all.dequeue id index
      rcases (server.update id fun connection => connection.dequeue index).handleWrite_cases id
        completion throws with ⟨_, same⟩ | ⟨_, _, same⟩ | ⟨_, _, same⟩
      · rw [same]
        exact dequeued
      · rw [same]
        exact dequeued.managerStop id throws
      · rw [same]
        exact dequeued.update (dequeued id).shutdown
  | hanldeAccept _ =>
      refine all.of_elsewhere fun id => ?_
      rcases own_of_step sound step id with ⟨_, concerned, _⟩ | elsewhere
      · cases concerned
      · exact elsewhere
  | hanldeStop _ _ _ =>
      refine all.of_elsewhere fun id => ?_
      rcases own_of_step sound step id with ⟨_, concerned, _⟩ | elsewhere
      · cases concerned
      · exact elsewhere

end AllPresentable

/-- Whatever has come to the client of what a connection has sent, and in whatever
pieces: its turn throws because nothing has come, or ends as it does on the
beginning of a response that the connection wrote. -/
theorem converse_along_run (keeps : env.handler.KeepsLegible) {events : List Event}
    {final : Server env}
    (meets : (Server.machine env).Meets Presents (Server.machine env).initial events)
    (steps : (Server.machine env).run (Server.machine env).initial events = some final) (id : Nat)
    {pieces : List Bytes} (arrived : pieces.flatten <+: (final.connection id).accepted) :
    ((final.connection id).accepted = [] ∧ converse pieces = .threw) ∨
      ∃ sent : Response, ∃ date, .asyncWriteSome (sent.toBuffers env.iteration date).2.flatten ∈
          (final.connection id).log ∧
        converse pieces = sent.seenAs env.iteration date pieces.flatten.length := by
  have start : Sound (Server.machine env).initial ∧
      AllPresentable (Server.machine env).initial := ⟨sound_initial, fun _ => .fresh false⟩
  have kept : ∀ server event next, (Sound server ∧ AllPresentable server) →
      Presents server event → (Server.machine env).step server event = some next →
      Sound next ∧ AllPresentable next := fun server event next holds presents step =>
    ⟨sound_step server event next holds.1 step, holds.2.step keeps holds.1 presents step⟩
  have presentable := ((Server.machine env).meets_induction kept start meets steps).2 id
  rcases presentable.accepted with none | ⟨whole, logged, begins⟩
  · rw [none] at arrived
    have empty := List.prefix_nil.mp arrived
    refine Or.inl ⟨none, converse_of_no_line ?_⟩
    rw [empty]
    decide
  · rcases presentable.written whole logged with ⟨sent, date, legible, unbroken, same⟩
    rw [same] at logged begins
    refine Or.inr ⟨sent, date, logged, ?_⟩
    exact converse_response env.iteration legible unbroken
      (List.prefix_iff_eq_take.mp (arrived.trans begins))

/-- The client has got the bytes that one write of a short reply took, in two
pieces. -/
theorem servedBytes_converse : ∃ server : Server shortRequestEnv,
    (Server.machine shortRequestEnv).run (Server.machine shortRequestEnv).initial
        (servedBytes shortReply.whole.length) = some server ∧
      (((server.connection 0).accepted = [] ∧
          converse [shortReply.whole.take 20, (shortReply.whole.drop 20).take 50] = .threw) ∨
        ∃ sent : Response, ∃ date,
          .asyncWriteSome (sent.toBuffers shortRequestEnv.iteration date).2.flatten ∈
              (server.connection 0).log ∧
            converse [shortReply.whole.take 20, (shortReply.whole.drop 20).take 50] =
              sent.seenAs shortRequestEnv.iteration date
                [shortReply.whole.take 20, (shortReply.whole.drop 20).take 50].flatten.length) := by
  have outcome : ((Server.machine shortRequestEnv).run (Server.machine shortRequestEnv).initial
      (servedBytes shortReply.whole.length)).map (fun server =>
        decide ([shortReply.whole.take 20, (shortReply.whole.drop 20).take 50].flatten <+:
          (server.connection 0).accepted)) = some true := by decide +kernel
  have meets : (Server.machine shortRequestEnv).Meets Presents
      (Server.machine shortRequestEnv).initial (servedBytes shortReply.whole.length) := by
    decide +kernel
  rcases Option.map_eq_some_iff.mp outcome with ⟨server, steps, arrived⟩
  exact ⟨server, steps, converse_along_run RequestHandler.repository_keepsLegible meets steps 0
    (of_decide_eq_true arrived)⟩

end Http
end LearnAsio
