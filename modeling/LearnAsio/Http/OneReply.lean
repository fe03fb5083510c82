import LearnAsio.Http.Ownership
import LearnAsio.Http.Serve

namespace LearnAsio
namespace Http

open Transition

/-!
# One operation at a time, one reply

A read is begun where the manager starts a connection and where the parser wants
more; a write where it does not.  Nothing in a connection records which of them
is outstanding, but each is begun only by the handler of the one before it or by
the first accept.  So a connection begins some reads, then at most one write,
and after that nothing.

Only the handler of a read changes the request and the response.  From the
moment the write has been begun they stay as they are.
-/

variable {env : Env}

/-! ## What a connection has begun -/

inductive Begun where
  | read | write
  deriving DecidableEq, Repr

def Action.begun? : Action → Option Begun
  | asyncReadSome => some .read
  | asyncWriteSome _ => some .write
  | _ => none

namespace Connection

/-- The operations that the connection has begun, in order. -/
def begun (connection : Connection env) : List Begun :=
  connection.log.filterMap Action.begun?

/-- Some reads, then at most one write, and one operation at a time. -/
structure OneReply (connection : Connection env) : Prop where
  atMostOne : connection.operations.length ≤ 1
  order : ∃ reads, connection.begun = List.replicate reads .read ∨
    connection.begun = List.replicate reads .read ++ [.write]
  last : .write ∈ connection.begun → ∀ operation ∈ connection.operations,
    operation.kind ≠ .readSome

theorem begun_stop (connection : Connection env) : connection.stop.begun = connection.begun :=
  List.filterMap_append.trans (List.append_nil _)

theorem begun_shutdown (connection : Connection env) :
    connection.shutdown.begun = connection.begun :=
  List.filterMap_append.trans (List.append_nil _)

theorem begun_start (connection : Connection env) :
    connection.start.begun = connection.begun ++ [.read] :=
  List.filterMap_append

/-- Receiving begins one operation, a read if the parser wants more. -/
theorem begun_receive (connection : Connection env) (bytesTransferred : Nat) (date : Bytes) :
    (connection.receive bytesTransferred date).begun = connection.begun ++
      [if connection.parseStatus bytesTransferred = .wantMore then .read else .write] := by
  unfold begun
  cases status : connection.parseStatus bytesTransferred with
  | wantMore =>
      rw [receive_wantMore _ _ _ status, parseRequest_fst]
      simp [start, asyncReadSome]
      rfl
  | faild =>
      rw [receive_faild _ _ _ status, parseRequest_fst]
      simp [writeBadRequest, asyncWriteSome]
      rfl
  | complete =>
      rw [receive_complete _ _ _ status, writeResponse_log, dispatch_log, parseRequest_fst]
      cases chosen : selected _ with
      | none =>
          simp
          rfl
      | some _ =>
          simp
          rfl

/-- Before the write there are only reads. -/
theorem OneReply.reads {connection : Connection env} (one : connection.OneReply)
    (unwritten : .write ∉ connection.begun) :
    ∃ reads, connection.begun = List.replicate reads .read := by
  rcases one.order with ⟨reads, only | whole⟩
  · exact ⟨reads, only⟩
  · exact absurd (whole ▸ List.mem_append_right _ (List.mem_singleton_self _)) unwritten

namespace OneReply

variable {connection after : Connection env}

theorem fresh (isOpen : Bool) : OneReply ({ isOpen := isOpen } : Connection env) where
  atMostOne := Nat.zero_le 1
  order := ⟨0, Or.inl rfl⟩
  last := fun _ _ outstanding => absurd outstanding List.not_mem_nil

/-- Nothing is begun, and what is outstanding has been before. -/
theorem of_same (one : connection.OneReply) (begun : after.begun = connection.begun)
    (shorter : after.operations.length ≤ connection.operations.length)
    (kinds : ∀ operation ∈ after.operations, ∃ before ∈ connection.operations,
      operation.kind = before.kind) : after.OneReply where
  atMostOne := Nat.le_trans shorter one.atMostOne
  order := begun ▸ one.order
  last := by
    intro written operation outstanding
    rcases kinds operation outstanding with ⟨before, among, same⟩
    exact same ▸ one.last (begun ▸ written) before among

theorem stop (one : connection.OneReply) : connection.stop.OneReply := by
  apply one.of_same connection.begun_stop
  · exact Nat.le_of_eq (List.length_map _)
  · intro operation outstanding
    rcases List.mem_map.mp outstanding with ⟨before, among, cancelled⟩
    exact ⟨before, among, cancelled ▸ rfl⟩

theorem dequeue (one : connection.OneReply) (index : Nat) :
    (connection.dequeue index).OneReply := by
  refine one.of_same ?_ ?_ ?_
  · rfl
  · exact List.length_eraseIdx_le _ _
  · exact fun operation outstanding => ⟨operation, List.mem_of_mem_eraseIdx outstanding, rfl⟩

theorem shutdown (one : connection.OneReply) : connection.shutdown.OneReply := by
  apply one.of_same connection.begun_shutdown
  · exact Nat.le_refl _
  · exact fun operation outstanding => ⟨operation, outstanding, rfl⟩

/-- The first read of a connection. -/
theorem start (idle : connection.operations = []) (silent : connection.log = []) :
    connection.start.OneReply := by
  have none : connection.begun = [] := by
    rw [begun, silent]
    rfl
  have single : connection.start.operations.length = 1 := by
    rw [Connection.start, asyncReadSome]
    dsimp only
    rw [begin_operations, idle]
    rfl
  refine ⟨Nat.le_of_eq single, ⟨1, Or.inl ?_⟩, ?_⟩
  · rw [begun_start, none]
    rfl
  · intro written
    rw [begun_start, none] at written
    cases List.mem_singleton.mp written

/-- A read is handled before the write has been begun. -/
theorem receive (one : connection.OneReply) (idle : connection.operations = [])
    (unwritten : .write ∉ connection.begun) (bytesTransferred : Nat) (date : Bytes) :
    (connection.receive bytesTransferred date).OneReply := by
  rcases one.reads unwritten with ⟨reads, only⟩
  rcases connection.receive_operations bytesTransferred date with ⟨kind, began, status, _⟩
  rw [idle, List.nil_append] at began
  refine ⟨?_, ?_, ?_⟩
  · rw [began]
    exact Nat.le_refl 1
  · rw [begun_receive, only]
    split
    · exact ⟨reads + 1, Or.inl List.replicate_succ'.symm⟩
    · exact ⟨reads, Or.inr rfl⟩
  · intro written operation outstanding
    rw [began] at outstanding
    rw [List.mem_singleton.mp outstanding]
    intro isRead
    rw [begun_receive, if_pos (status.mp isRead)] at written
    rcases List.mem_append.mp written with before | now
    · exact unwritten before
    · cases List.mem_singleton.mp now

end OneReply
end Connection

/-! ## Every connection of a run -/

/-- What a connection does in its own step. -/
theorem Served.oneReply {connection after : Connection env} {held : Bool} {event : Event}
    {outcome : Outcome} (served : Served connection held event after outcome)
    (one : connection.OneReply) : after.OneReply := by
  cases served with
  | completed listed replaced _ _ log =>
      apply one.of_same
      · rw [Connection.begun, log]
        rfl
      · rw [replaced, List.length_set]
      · intro operation outstanding
        rw [replaced, set_of_listed one.atMostOne listed] at outstanding
        rw [List.mem_singleton.mp outstanding]
        exact ⟨_, List.mem_of_getElem? listed, rfl⟩
  | @halted _ index _ _ _ _ _ => exact (one.dequeue index).stop
  | @received _ index date _ completion listed _ =>
      have idle : (connection.dequeue index).operations = [] :=
        eraseIdx_of_listed one.atMostOne listed
      refine (one.dequeue index).receive idle (fun written => ?_) _ _
      exact one.last written _ (List.mem_of_getElem? listed) rfl
  | @shutdown _ index _ _ _ _ => exact (one.dequeue index).shutdown
  | @dropped _ index _ _ _ _ _ => exact one.dequeue index

theorem oneReply_of_reachable {server : Server env}
    (reached : (Server.machine env).Reachable server) (id : Nat) :
    (server.connection id).OneReply := by
  refine forall_connection_of_reachable ?_ ?_ ?_ ?_ reached id
  · exact .fresh false
  · exact fun _ one served => served.oneReply one
  · exact fun one => one.stop
  · intro connection idle silent one
    refine ⟨?_, .start idle silent⟩
    exact one.of_same rfl (Nat.le_refl _) fun operation among => ⟨operation, among, rfl⟩

/-! ## After the write has been begun -/

/-- The second connection has begun its write, with the request and the response
of the first. -/
def Settled (before after : Connection env) : Prop :=
  .write ∈ after.begun ∧ after.request = before.request ∧ after.response = before.response

/-- Only the handler of a read could change the request or the response. -/
theorem Served.settled {connection after : Connection env} {held : Bool} {event : Event}
    {outcome : Outcome} (served : Served connection held event after outcome)
    (one : connection.OneReply) (written : .write ∈ connection.begun) :
    Settled connection after := by
  cases served with
  | completed _ _ request response log =>
      refine ⟨?_, request, response⟩
      rw [Connection.begun, log]
      exact written
  | @halted _ index _ _ _ _ _ =>
      refine ⟨?_, rfl, rfl⟩
      rw [Connection.begun_stop]
      exact written
  | received listed _ => exact absurd rfl (one.last written _ (List.mem_of_getElem? listed))
  | @shutdown _ index _ _ _ _ =>
      refine ⟨?_, rfl, rfl⟩
      rw [Connection.begun_shutdown]
      exact written
  | dropped _ _ => exact ⟨written, rfl, rfl⟩

end Http
end LearnAsio
