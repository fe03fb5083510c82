import LearnAsio.Http.Dispatch

namespace LearnAsio
namespace Http

open Transition

/-!
# The storage behind a pending write

`to_buffers` returns references into the header map and the content of a
response, and `async_write_some` keeps the references only.  The reply to a
completed request refers to `response_`, which lives as long as its connection
and is not changed after the write has been begun.  The reply to a request that
failed to parse refers to a temporary, which is gone when `handle_read` returns.
-/

variable {env : Env}

/-- The write is outstanding and the operating system has not completed it. -/
def Connection.Writing (connection : Connection env) (buffers : Buffers) : Prop :=
  { kind := .writeSome buffers } ∈ connection.operations

/-- Between two handlers, the response behind every pending write of a connection
that has not been stopped exists and is as it was. -/
def BuffersStand (server : Server env) : Prop :=
  server.status = .running → ∀ id buffers, .stop ∉ (server.connection id).log →
    (server.connection id).Writing buffers → server.Intact id buffers

/-- The event does not handle a read on an open connection with which parsing
fails. -/
def ParsesOpen (server : Server env) : Event → Prop
  | .handleRead id index _ _ => ∀ completion,
      (server.connection id).operations[index]? =
          some { kind := .readSome, completion := some completion } →
        completion.ec ≠ .failure → (server.connection id).isOpen = true →
          (server.connection id).parseStatus completion.bytesTransferred ≠ .faild
  | _ => True

namespace Connection

variable {connection : Connection env} {buffers : Buffers}

theorem not_writing_of_idle (idle : connection.operations = []) : ¬ connection.Writing buffers := by
  rw [Writing, idle]
  exact List.not_mem_nil

/-- A stopped connection has no pending write. -/
theorem not_writing_stop : ¬ connection.stop.Writing buffers := by
  intro pending
  rcases List.mem_map.mp pending with ⟨before, _, cancelled⟩
  cases congrArg Operation.completion cancelled

/-- The first read of a connection is not a write. -/
theorem not_writing_start (idle : connection.operations = []) :
    ¬ connection.assign.start.Writing buffers := by
  intro pending
  change _ ∈ connection.operations ++ _ at pending
  rw [idle, List.nil_append] at pending
  cases congrArg Operation.kind (List.mem_singleton.mp pending)

/-- What `handle_read` writes is pending on an open socket only, and comes from
the temporary exactly when parsing has failed. -/
theorem receive_writing (idle : connection.operations = []) {bytesTransferred : Nat} {date : Bytes}
    (pending : (connection.receive bytesTransferred date).Writing buffers) :
    connection.isOpen = true ∧
      (connection.parseStatus bytesTransferred ≠ .faild → buffers.storage = .response) := by
  have ready := connection.parseRequest_fst bytesTransferred
  rcases connection.receive_operations bytesTransferred date with ⟨kind, began, reads, _⟩
  have only := pending
  rw [Writing, began, idle, List.nil_append, List.mem_singleton, Operation.mk.injEq] at only
  refine ⟨connection.initialCompletion_eq_none only.2.symm, fun parsed => ?_⟩
  cases status : connection.parseStatus bytesTransferred with
  | wantMore => cases (reads.mpr status).symm.trans only.1.symm
  | faild => exact absurd status parsed
  | complete =>
      rw [Writing, receive_complete _ _ _ status, writeResponse_operations, dispatch_operations,
        ready] at pending
      change _ ∈ connection.operations ++ _ at pending
      rw [idle, List.nil_append, List.mem_singleton, Operation.mk.injEq] at pending
      cases pending.1
      rfl

/-- A failed parse leaves a pending write from a temporary. -/
theorem receive_faild_writing (isOpen : connection.isOpen = true) {bytesTransferred : Nat}
    (status : connection.parseStatus bytesTransferred = .faild) (date : Bytes) :
    (connection.receive bytesTransferred date).Writing (badRequestBuffers env date) := by
  have begun : (connection.receive bytesTransferred date).operations = connection.operations ++
      [{ kind := .writeSome (badRequestBuffers env date)
         completion := connection.initialCompletion }] := by
    rw [receive_faild _ _ _ status]
    rfl
  have pending : connection.initialCompletion = none := by
    rw [initialCompletion, isOpen]
    rfl
  rw [Writing, begun, pending]
  exact List.mem_append_right _ (List.mem_singleton_self _)

end Connection

namespace Invariant

variable {server : Server env}

/-- A pending write of `response_` finds it as it was: nothing changes it before
the write is handled, and the manager keeps the connection. -/
theorem intact_of_response (invariant : Invariant server) {id : Nat} {buffers : Buffers}
    (pending : (server.connection id).Writing buffers) (stored : buffers.storage = .response) :
    server.Intact id buffers := by
  rcases List.mem_iff_getElem?.mp pending with ⟨index, listed⟩
  rcases ((invariant.orderly id).listed listed).2.2 with ⟨_, source, _⟩
  exact ⟨stored, source stored, Or.inl (invariant.member_of_pending listed)⟩

/-- A connection with a pending write has not been stopped. -/
theorem unstopped_of_writing (invariant : Invariant server) {id : Nat} {buffers : Buffers}
    (pending : (server.connection id).Writing buffers) : .stop ∉ (server.connection id).log := by
  rcases List.mem_iff_getElem?.mp pending with ⟨index, listed⟩
  intro stopped
  have isOpen := ((invariant.orderly id).listed listed).2.1 rfl
  rw [(invariant.stopped id stopped).1] at isOpen
  cases isOpen

end Invariant

/-- A connection's own step leaves a pending write only where it has begun one. -/
private theorem response_of_served {server next : Server env} {id : Nat} {event : Event}
    {outcome : Outcome} {buffers : Buffers} (invariant : Invariant server)
    (parses : ParsesOpen server event) (concerned : event.connection? = some id)
    (served : Served (server.connection id) (server.held id) event (next.connection id) outcome)
    (pending : (next.connection id).Writing buffers) : buffers.storage = .response := by
  have single := (invariant.orderly id).single
  generalize next.connection id = after at served pending
  cases served with
  | completed listed replaced _ _ _ =>
      rw [Connection.Writing, replaced, set_of_listed single listed, List.mem_singleton] at pending
      cases congrArg Operation.completion pending
  | halted _ _ => exact absurd pending Connection.not_writing_stop
  | @received _ index _ _ completion listed unfailed =>
      cases concerned
      have idle : ((server.connection id).dequeue index).operations = [] :=
        eraseIdx_of_listed single listed
      rcases Connection.receive_writing idle pending with ⟨isOpen, response⟩
      exact response (parses completion listed unfailed isOpen)
  | @shutdown _ index _ _ _ listed =>
      have idle : ((server.connection id).dequeue index).shutdown.operations = [] :=
        eraseIdx_of_listed single listed
      exact absurd pending (Connection.not_writing_of_idle idle)
  | @dropped _ index _ _ _ listed _ =>
      have idle : ((server.connection id).dequeue index).operations = [] :=
        eraseIdx_of_listed single listed
      exact absurd pending (Connection.not_writing_of_idle idle)

private theorem response_of_step {server next : Server env} {event : Event}
    (sound : Sound server) (stand : BuffersStand server) (parses : ParsesOpen server event)
    (step : (Server.machine env).step server event = some next) {id : Nat} {buffers : Buffers}
    (pending : (next.connection id).Writing buffers) : buffers.storage = .response := by
  have running := (moves_of_step step).1
  have invariant := sound running
  rcases own_of_step sound step id with ⟨_, concerned, served⟩ | elsewhere
  · exact response_of_served invariant parses concerned served pending
  · cases elsewhere with
    | kept same =>
        rw [same] at pending
        exact (stand running id buffers (invariant.unstopped_of_writing pending) pending).1
    | stopped same => exact absurd (same ▸ pending) Connection.not_writing_stop
    | created _ same => exact absurd (same ▸ pending) (Connection.not_writing_of_idle rfl)
    | accepted new same =>
        have idle := (invariant.unstarted id (Nat.le_of_eq new.symm)).1
        exact absurd (same ▸ pending) (Connection.not_writing_of_idle idle)
    | started new same =>
        have idle := (invariant.unstarted id (Nat.le_of_eq new.symm)).1
        exact absurd (same ▸ pending) (Connection.not_writing_start idle)

/-- One step keeps the storage of every pending write exactly when it meets the
condition. -/
theorem buffersStand_step (server : Server env) (event : Event) (next : Server env)
    (sound : Sound server) (stand : BuffersStand server)
    (step : (Server.machine env).step server event = some next) :
    BuffersStand next ↔ ParsesOpen server event := by
  have soundNext := sound_step server event next sound step
  constructor
  · intro after
    cases event with
    | handleRead id index date throws =>
        intro completion listed unfailed isOpen faild
        rcases received_of_step step listed unfailed with ⟨running, received⟩
        have stillOpen : ((server.connection id).dequeue index).isOpen = true := isOpen
        have pending := Connection.receive_faild_writing stillOpen faild date
        rw [← received] at pending
        have unstopped := (soundNext running).unstopped_of_writing pending
        cases (after running id _ unstopped pending).1
    | _ => trivial
  · intro parses running id buffers _ pending
    exact (soundNext running).intact_of_response pending
      (response_of_step sound stand parses step pending)

theorem buffersStand_initial : BuffersStand (Server.machine env).initial :=
  fun _ _ _ _ pending => absurd pending List.not_mem_nil

/-- Every pending write of a run finds its response exactly when no step of the
run handles a read on an open connection with which parsing fails. -/
theorem buffersStand_along_run {events : List Event} {final : Server env}
    (steps : (Server.machine env).run (Server.machine env).initial events = some final) :
    (Server.machine env).Always BuffersStand (Server.machine env).initial events ↔
      (Server.machine env).Meets ParsesOpen (Server.machine env).initial events :=
  (Server.machine env).always_iff_meets sound_step buffersStand_step sound_initial
    buffersStand_initial steps

/-! ### A request without a method -/

/-- `HPE_INVALID_METHOD`. -/
def hpeInvalidMethod : Nat := 16

def noMethod : Bytes := bytes "?\r\n\r\n"

/-- The library rejects the first byte. -/
def noMethodParser : HttpParser :=
  .once noMethod [] { httpErrno := hpeInvalidMethod }

def noMethodEnv : Env where
  library := noMethodParser
  iteration := .entries
  handler := .repository

theorem noMethod_outcome : ∃ server : Server noMethodEnv,
    (Server.machine noMethodEnv).run (Server.machine noMethodEnv).initial
        (servedUntilWrite noMethod) = some server ∧
      (server.status = .running ∧ .stop ∉ (server.connection 0).log ∧
        { kind := .writeSome (Connection.badRequestBuffers noMethodEnv []) } ∈
          (server.connection 0).operations) := by
  have outcome : ((Server.machine noMethodEnv).run (Server.machine noMethodEnv).initial
      (servedUntilWrite noMethod)).map (fun server =>
        decide (server.status = .running ∧ .stop ∉ (server.connection 0).log ∧
          { kind := .writeSome (Connection.badRequestBuffers noMethodEnv []) } ∈
            (server.connection 0).operations)) = some true := by decide +kernel
  rcases Option.map_eq_some_iff.mp outcome with ⟨server, steps, pending⟩
  exact ⟨server, steps, of_decide_eq_true pending⟩

/-- The bad-request reply is pending, and the response it was taken from is
gone. -/
theorem noMethod_not_buffersStand : ∃ server : Server noMethodEnv,
    (Server.machine noMethodEnv).Reachable server ∧ ¬ BuffersStand server := by
  rcases noMethod_outcome with ⟨server, steps, running, unstopped, pending⟩
  refine ⟨server, ⟨_, steps⟩, fun stand => ?_⟩
  cases (stand running 0 _ unstopped pending).1

/-- The handled read is the step that does not meet the condition. -/
theorem noMethod_not_meets : ¬ (Server.machine noMethodEnv).Meets ParsesOpen
    (Server.machine noMethodEnv).initial (servedUntilWrite noMethod) := by
  rcases noMethod_outcome with ⟨server, steps, running, unstopped, pending⟩
  intro meets
  have always := (buffersStand_along_run steps).mpr meets
  cases ((always.last _ steps) running 0 _ unstopped pending).1

end Http
end LearnAsio
