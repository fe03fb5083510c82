import LearnAsio.Http.Serve

namespace LearnAsio
namespace Http

open Transition

/-!
# What the log of a connection tells

The log records which bytes were given to the parser and which member functions
of the request handler were called.  In every state of the server the request
object of a connection is a fresh one fed with exactly these bytes, every call
but the last has wanted more, and the handler has been called for a completed
request and for no other.

With this, statements about what a connection dispatches reduce to statements
about successive calls of `parse` on a fresh object.
-/

variable {env : Env}

namespace Action

/-- The bytes of a call of the parser. -/
def parsed? : Action → Option Bytes
  | parse data => some data
  | _ => none

/-- The handler that was called and what it was given. -/
def called? : Action → Option (HandlerMethod × PublicFields)
  | call handler request => some (handler, request)
  | _ => none

end Action

namespace Connection

/-- What has been given to the parser, call by call. -/
def parsed (connection : Connection env) : List Bytes :=
  connection.log.filterMap Action.parsed?

/-- The calls of the request handler. -/
def called (connection : Connection env) : List (HandlerMethod × PublicFields) :=
  connection.log.filterMap Action.called?

/-- What `dispatch` calls for a request. -/
def dispatched (request : PublicFields) : List (HandlerMethod × PublicFields) :=
  ((selected request.method).map fun handler => (handler, request)).toList

/-- The log and the request object belong together. -/
structure Traced (connection : Connection env) : Prop where
  request : connection.request = (HttpMessage.fresh env.library).feed connection.parsed
  earlier : ∀ pieces data, connection.parsed = pieces ++ [data] →
    ((HttpMessage.fresh env.library).feed pieces).messageStatus = .wantMore
  called : connection.called =
    if connection.request.messageStatus = .complete then
      dispatched connection.request.toPublicFields
    else []
  reading : ∀ operation ∈ connection.operations, operation.kind = .readSome →
    connection.request.messageStatus = .wantMore

theorem traced_fresh (isOpen : Bool) : Traced ({ isOpen := isOpen } : Connection env) where
  request := rfl
  earlier := by
    intro pieces data impossible
    exact absurd impossible.symm (List.append_ne_nil_of_right_ne_nil _ (List.cons_ne_nil _ _))
  called := rfl
  reading := by
    intro operation outstanding
    cases outstanding

namespace Traced

variable {connection after : Connection env}

/-- What neither parses nor calls a handler and begins no read keeps log and
request together. -/
theorem of_same (traced : connection.Traced) (sameRequest : after.request = connection.request)
    (sameParsed : after.parsed = connection.parsed) (sameCalled : after.called = connection.called)
    (reads : ∀ operation ∈ after.operations, operation.kind = .readSome →
      connection.request.messageStatus = .wantMore) : after.Traced where
  request := by
    rw [sameRequest, sameParsed]
    exact traced.request
  earlier := by
    rw [sameParsed]
    exact traced.earlier
  called := by
    rw [sameCalled, sameRequest]
    exact traced.called
  reading := by
    rw [sameRequest]
    exact reads

/-- A connection that has done nothing yet has a fresh request. -/
theorem request_of_no_log (traced : connection.Traced) (silent : connection.log = []) :
    connection.request = HttpMessage.fresh env.library := by
  have nothing : connection.parsed = [] := by
    rw [parsed, silent]
    rfl
  have same := traced.request
  rw [nothing] at same
  exact same

theorem stop (traced : connection.Traced) : connection.stop.Traced := by
  apply traced.of_same
  · rfl
  · exact (List.filterMap_append).trans (List.append_nil _)
  · exact (List.filterMap_append).trans (List.append_nil _)
  · intro operation outstanding reads
    rcases List.mem_map.mp outstanding with ⟨before, among, cancelled⟩
    rw [← cancelled] at reads
    exact traced.reading before among reads

theorem shutdown (traced : connection.Traced) : connection.shutdown.Traced := by
  apply traced.of_same
  · rfl
  · exact (List.filterMap_append).trans (List.append_nil _)
  · exact (List.filterMap_append).trans (List.append_nil _)
  · exact traced.reading

/-- Beginning to read needs a request that wants more. -/
theorem start (traced : connection.Traced)
    (wants : connection.request.messageStatus = .wantMore) : connection.start.Traced := by
  apply traced.of_same
  · rfl
  · exact (List.filterMap_append).trans (List.append_nil _)
  · exact (List.filterMap_append).trans (List.append_nil _)
  · exact fun _ _ _ => wants

/-- The completion of an operation keeps its kind. -/
theorem complete (traced : connection.Traced) {index : Nat} {kind : OperationKind}
    (listed : connection.operations[index]? = some { kind := kind })
    (single : connection.operations.length ≤ 1) {completion : Completion}
    (sameRequest : after.request = connection.request) (sameLog : after.log = connection.log)
    (replaced : after.operations = connection.operations.set index
      { kind := kind, completion := some completion }) : after.Traced := by
  apply traced.of_same sameRequest
  · rw [parsed, sameLog]
    rfl
  · rw [Connection.called, sameLog]
    rfl
  · intro operation outstanding reads
    rw [replaced, set_of_listed single listed] at outstanding
    rw [List.mem_singleton.mp outstanding] at reads
    exact traced.reading _ (List.mem_of_getElem? listed) reads

theorem dequeue (traced : connection.Traced) (index : Nat) :
    (connection.dequeue index).Traced := by
  apply traced.of_same
  · rfl
  · rfl
  · rfl
  · intro operation outstanding reads
    exact traced.reading operation (List.mem_of_mem_eraseIdx outstanding) reads

end Traced

section Receive

variable (connection : Connection env) (bytesTransferred : Nat) (date : Bytes)

theorem receive_request : (connection.receive bytesTransferred date).request =
    (connection.request.parse (connection.buffer.take bytesTransferred)).1 := by
  cases status : connection.parseStatus bytesTransferred with
  | wantMore => rw [receive_wantMore _ _ _ status]; rfl
  | faild => rw [receive_faild _ _ _ status]; rfl
  | complete =>
      rw [receive_complete _ _ _ status]
      exact dispatch_request _

theorem receive_parsed : (connection.receive bytesTransferred date).parsed =
    connection.parsed ++ [connection.buffer.take bytesTransferred] := by
  unfold parsed
  cases status : connection.parseStatus bytesTransferred with
  | wantMore =>
      rw [receive_wantMore _ _ _ status, parseRequest_fst]
      simp [start, asyncReadSome, Action.parsed?]
  | faild =>
      rw [receive_faild _ _ _ status, parseRequest_fst]
      simp [writeBadRequest, asyncWriteSome, Action.parsed?]
  | complete =>
      rw [receive_complete _ _ _ status, writeResponse_log, dispatch_log, parseRequest_fst]
      cases chosen : selected _ <;> simp [Action.parsed?]

theorem receive_called : (connection.receive bytesTransferred date).called =
    connection.called ++
      if connection.parseStatus bytesTransferred = .complete then
        dispatched (connection.receive bytesTransferred date).request.toPublicFields
      else [] := by
  rw [receive_request]
  unfold called
  cases status : connection.parseStatus bytesTransferred with
  | wantMore =>
      rw [receive_wantMore _ _ _ status, parseRequest_fst]
      simp [start, asyncReadSome, Action.called?]
  | faild =>
      rw [receive_faild _ _ _ status, parseRequest_fst]
      simp [writeBadRequest, asyncWriteSome, Action.called?]
  | complete =>
      rw [receive_complete _ _ _ status, writeResponse_log, dispatch_log, parseRequest_fst]
      cases chosen : selected _ with
      | none => simp [Action.called?, dispatched, chosen]
      | some handler =>
          simp [dispatched, chosen]
          rfl

end Receive

/-- Receiving is one more call of the parser, and a dispatch when the call
completes the request. -/
theorem Traced.receive {connection : Connection env} (traced : connection.Traced)
    (idle : connection.operations = [])
    (wants : connection.request.messageStatus = .wantMore) (bytesTransferred : Nat)
    (date : Bytes) : (connection.receive bytesTransferred date).Traced where
  request := by
    rw [receive_request, receive_parsed, HttpMessage.feed_append, ← traced.request]
    rfl
  earlier := by
    intro pieces data same
    rw [receive_parsed] at same
    have before : connection.parsed = pieces :=
      (List.append_inj' same rfl).1
    rw [← before, ← traced.request]
    exact wants
  called := by
    have nothing : connection.called = [] := by
      rw [traced.called, wants]
      rfl
    rw [receive_called, nothing, List.nil_append, receive_request]
    rfl
  reading := by
    intro operation outstanding reads
    rcases connection.receive_operations bytesTransferred date with ⟨kind, began, status, _⟩
    rw [began, idle, List.nil_append] at outstanding
    rw [List.mem_singleton.mp outstanding] at reads
    rw [receive_request]
    exact status.mp reads

end Connection

/-! ## Every connection of a run -/

/-- Every connection of the server is traced. -/
def AllTraced (server : Server env) : Prop :=
  ∀ id, (server.connection id).Traced

/-- What a connection does in its own step. -/
theorem Served.traced {connection after : Connection env} {held : Bool} {event : Event}
    {outcome : Outcome} (served : Served connection held event after outcome)
    (single : connection.operations.length ≤ 1) (traced : connection.Traced) : after.Traced := by
  cases served with
  | completed listed replaced request _ log =>
      exact traced.complete listed single request log replaced
  | @halted _ index _ _ _ _ _ => exact (traced.dequeue index).stop
  | @received _ index _ _ _ listed _ =>
      have idle : (connection.dequeue index).operations = [] := eraseIdx_of_listed single listed
      have wants := traced.reading _ (List.mem_of_getElem? listed) rfl
      exact (traced.dequeue index).receive idle wants _ _
  | @shutdown _ index _ _ _ _ => exact (traced.dequeue index).shutdown
  | @dropped _ index _ _ _ _ _ => exact traced.dequeue index

/-- In every reachable state the log of a connection and its request belong
together. -/
theorem traced_of_reachable {server : Server env}
    (reached : (Server.machine env).Reachable server) : AllTraced server := by
  intro id
  refine forall_connection_of_reachable ?_ ?_ ?_ ?_ reached id
  · exact Connection.traced_fresh false
  · exact fun single traced served => served.traced single traced
  · exact fun traced => traced.stop
  · intro connection _ silent traced
    have assigned : connection.assign.Traced := traced.of_same rfl rfl rfl traced.reading
    refine ⟨assigned, assigned.start ?_⟩
    rw [assigned.request_of_no_log silent]
    rfl

namespace Connection.Traced

/-- A completed request is what the calls up to the completing one have
accumulated, with the fields of the parser. -/
theorem request_of_complete {connection : Connection env} (traced : connection.Traced)
    (complete : connection.request.messageStatus = .complete) :
    connection.request.toFields =
      (HttpMessage.accumulated env.library connection.parsed).readParser
        (env.library.fields connection.request.parser) := by
  have same := traced.request
  rcases List.eq_nil_or_concat' connection.parsed with none | ⟨earlier, last, shape⟩
  · rw [none] at same
    rw [same] at complete
    cases complete
  · have before := traced.earlier earlier last shape
    rw [same] at complete ⊢
    rw [shape] at complete ⊢
    rw [HttpMessage.feed_of_complete before complete, HttpMessage.parser_feed]
    rfl

end Connection.Traced

end Http
end LearnAsio
