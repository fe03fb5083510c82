import LearnAsio.Http.Dispatch
import LearnAsio.Http.OneReply

namespace LearnAsio
namespace Http

open Transition

/-!
# What a success status says

A connection answers a completed request with `response_`, whether or not one of
the four member functions of the handler has been called for it.  The default
constructor of a response sets the status 200, so a request with any other
method is answered as if it had been handled.
-/

variable {env : Env}

/-- The bytes begin with the status line of a code. -/
def Announced (status : StatusCode) (whole : Bytes) : Prop := statusLine status <+: whole

/-- Client and server errors.  A value outside the enumerators is sent as one. -/
def StatusCode.isError : StatusCode → Bool
  | .badRequest | .unauthorized | .forbidden | .notFound => true
  | .internalServerError | .notImplemented | .badGateway | .serviceUnavailable => true
  | .other _ => true
  | _ => false

/-- What `to_buffers` returns begins with the status line. -/
theorem Response.announced_toBuffers (response : Response) (iteration : Iteration) (date : Bytes) :
    Announced response.status (response.toBuffers iteration date).2.flatten :=
  List.prefix_append _ _

/-- A reply cannot announce two codes whose status lines differ. -/
theorem Announced.exclusive {first second : StatusCode} {whole : Bytes}
    (here : Announced first whole) (there : Announced second whole)
    (unlike : ¬ statusLine first <+: statusLine second ∧
      ¬ statusLine second <+: statusLine first) : False := by
  rcases List.prefix_or_prefix_of_prefix here there with shorter | longer
  · exact unlike.1 shorter
  · exact unlike.2 longer

namespace Connection

/-- Every reply with status 200 is preceded by exactly one call of the handler,
and a completed message for which no call has been made is answered with an
error. -/
structure SuccessHandled (connection : Connection env) : Prop where
  success : ∀ before whole after, connection.log = before ++ .asyncWriteSome whole :: after →
    Announced .ok whole → (before.filterMap Action.called?).length = 1
  unhandled : connection.request.messageStatus = .complete → connection.called = [] →
    ∀ whole, .asyncWriteSome whole ∈ connection.log →
      ∃ status, status.isError = true ∧ Announced status whole

variable {connection after : Connection env}

theorem write_mem_begun {actions : List Action} {whole : Bytes}
    (listed : .asyncWriteSome whole ∈ actions) :
    .write ∈ actions.filterMap Action.begun? :=
  List.mem_filterMap.mpr ⟨_, listed, rfl⟩

namespace SuccessHandled

/-- Without a reply nothing is required. -/
theorem of_unwritten (unwritten : .write ∉ connection.begun) : connection.SuccessHandled where
  success := by
    intro before whole later same _
    have listed : .asyncWriteSome whole ∈ connection.log := by
      rw [same]
      exact List.mem_append_right _ List.mem_cons_self
    exact absurd (write_mem_begun listed) unwritten
  unhandled := fun _ _ _ listed => absurd (write_mem_begun listed) unwritten

/-- A further action that is neither a reply nor a call. -/
theorem concat (handled : connection.SuccessHandled) {action : Action}
    (log : after.log = connection.log ++ [action]) (request : after.request = connection.request)
    (silent : action.begun? ≠ some .write) : after.SuccessHandled where
  success := by
    intro before whole later same announced
    rw [log] at same
    rcases List.eq_nil_or_concat' later with none | ⟨rest, last, split⟩
    · subst none
      have final := (List.append_inj' same rfl).2
      rw [List.cons.injEq] at final
      exact absurd (congrArg Action.begun? final.1) silent
    · rw [split, ← List.cons_append, ← List.append_assoc] at same
      exact handled.success before whole rest (List.append_inj' same rfl).1 announced
  unhandled := by
    intro complete none whole listed
    rw [request] at complete
    rw [log] at listed
    rcases List.mem_append.mp listed with earlier | last
    · refine handled.unhandled complete ?_ whole earlier
      rw [Connection.called, log, List.filterMap_append, List.append_eq_nil_iff] at none
      exact none.1
    · rw [List.mem_singleton] at last
      exact absurd (congrArg Action.begun? last.symm) silent

theorem of_same (handled : connection.SuccessHandled) (log : after.log = connection.log)
    (request : after.request = connection.request) : after.SuccessHandled where
  success := log ▸ handled.success
  unhandled := by
    rw [request, Connection.called, log]
    exact handled.unhandled

theorem stop (handled : connection.SuccessHandled) : connection.stop.SuccessHandled :=
  handled.concat rfl rfl (by decide)

theorem shutdown (handled : connection.SuccessHandled) : connection.shutdown.SuccessHandled :=
  handled.concat rfl rfl (by decide)

theorem start (handled : connection.SuccessHandled) : connection.start.SuccessHandled :=
  handled.concat rfl rfl (by decide)

/-- The first reply of a connection, after everything else it has done. -/
theorem of_first {actions : List Action} {whole : Bytes}
    (log : connection.log = actions ++ [.asyncWriteSome whole])
    (unwritten : .write ∉ actions.filterMap Action.begun?) :
    connection.SuccessHandled ↔
      (Announced .ok whole → connection.called.length = 1) ∧
        (connection.request.messageStatus = .complete → connection.called = [] →
          ∃ status, status.isError = true ∧ Announced status whole) := by
  have called : connection.called = actions.filterMap Action.called? := by
    rw [Connection.called, log, List.filterMap_append]
    exact List.append_nil _
  constructor
  · intro handled
    refine ⟨?_, fun complete none => handled.unhandled complete none whole ?_⟩
    · rw [called]
      exact handled.success actions whole [] log
    · rw [log]
      exact List.mem_append_right _ (List.mem_singleton_self _)
  · rintro ⟨success, unhandled⟩
    refine ⟨?_, ?_⟩
    · intro before other later same announced
      rw [log] at same
      rcases List.eq_nil_or_concat' later with none | ⟨rest, last, split⟩
      · subst none
        rcases List.append_inj' same rfl with ⟨front, final⟩
        rw [List.cons.injEq, Action.asyncWriteSome.injEq] at final
        rw [← front, ← called]
        exact success (final.1 ▸ announced)
      · rw [split, ← List.cons_append, ← List.append_assoc] at same
        refine absurd (write_mem_begun (?_ : .asyncWriteSome other ∈ actions)) unwritten
        rw [(List.append_inj' same rfl).1]
        exact List.mem_append_right _ List.mem_cons_self
    · intro complete none other listed
      rw [log] at listed
      rcases List.mem_append.mp listed with earlier | last
      · exact absurd (write_mem_begun earlier) unwritten
      · rw [List.mem_singleton, Action.asyncWriteSome.injEq] at last
        rw [last]
        exact unhandled complete none

end SuccessHandled

section Receive

variable {bytesTransferred : Nat}

/-- What precedes the reply of `handle_read` contains no other one. -/
theorem unwritten_before_reply (unwritten : .write ∉ connection.begun)
    (replies : connection.parseStatus bytesTransferred ≠ .wantMore) {date : Bytes}
    {actions : List Action} {whole : Bytes}
    (log : (connection.receive bytesTransferred date).log = actions ++ [.asyncWriteSome whole]) :
    .write ∉ actions.filterMap Action.begun? := by
  have begun := connection.begun_receive bytesTransferred date
  rw [if_neg replies, Connection.begun, log, List.filterMap_append] at begun
  have same : actions.filterMap Action.begun? = connection.begun := (List.append_inj' begun rfl).1
  rw [same]
  exact unwritten

theorem receive_messageStatus (date : Bytes) :
    (connection.receive bytesTransferred date).request.messageStatus =
      connection.parseStatus bytesTransferred := by
  rw [receive_request]
  rfl

/-- The bad-request reply announces an error. -/
theorem receive_successHandled_of_faild (unwritten : .write ∉ connection.begun)
    (status : connection.parseStatus bytesTransferred = .faild) (date : Bytes) :
    (connection.receive bytesTransferred date).SuccessHandled := by
  have log : (connection.receive bytesTransferred date).log =
      (connection.parseRequest bytesTransferred).1.log ++
        [.asyncWriteSome (badRequestBuffers env date).whole] := by
    rw [receive_faild _ _ _ status]
    rfl
  have replies : connection.parseStatus bytesTransferred ≠ .wantMore := by
    rw [status]
    exact fun impossible => by cases impossible
  have announced : Announced .badRequest (badRequestBuffers env date).whole :=
    Response.announced_toBuffers (Response.ofStatus .badRequest) env.iteration date
  rw [SuccessHandled.of_first log (unwritten_before_reply unwritten replies log)]
  constructor
  · intro success
    exact (announced.exclusive success (by decide)).elim
  · intro complete
    rw [receive_messageStatus, status] at complete
    cases complete

/-- A completed request for which nothing is called is answered with the initial
response. -/
theorem announced_of_uncalled (untouched : connection.response = Response.initial)
    (status : connection.parseStatus bytesTransferred = .complete) {date : Bytes}
    (uncalled : (connection.receive bytesTransferred date).called = []) :
    Announced .ok
      ((connection.parseRequest bytesTransferred).1.dispatch.responseBuffers date).whole := by
  rw [receive_called, if_pos status, List.append_eq_nil_iff, receive_request] at uncalled
  have unselected :
      selected (connection.parseRequest bytesTransferred).1.request.method = none := by
    have none := uncalled.2
    unfold dispatched at none
    rw [Option.toList_eq_nil_iff, Option.map_eq_none_iff] at none
    exact none
  have kept : (connection.parseRequest bytesTransferred).1.dispatch =
      (connection.parseRequest bytesTransferred).1 := by
    rw [dispatch, unselected]
  have initial : (connection.parseRequest bytesTransferred).1.response = Response.initial :=
    untouched
  rw [kept, responseBuffers, initial]
  exact Response.announced_toBuffers Response.initial env.iteration date

/-- The reply to a completed request keeps the law exactly when the request has
one of the four methods: any other leaves the initial response, which announces
success. -/
theorem receive_successHandled_of_complete (traced : connection.Traced)
    (unwritten : .write ∉ connection.begun) (untouched : connection.response = Response.initial)
    (idle : connection.operations = []) (wants : connection.request.messageStatus = .wantMore)
    (status : connection.parseStatus bytesTransferred = .complete) (date : Bytes) :
    (connection.receive bytesTransferred date).SuccessHandled ↔
      ∃ handler : HandlerMethod,
        (env.library.fields (connection.parseRequest bytesTransferred).1.request.parser).method =
          handler.intended := by
  have log : (connection.receive bytesTransferred date).log =
      (connection.parseRequest bytesTransferred).1.dispatch.log ++ [.asyncWriteSome
        ((connection.parseRequest bytesTransferred).1.dispatch.responseBuffers date).whole] := by
    rw [receive_complete _ _ _ status, writeResponse_log]
  have replies : connection.parseStatus bytesTransferred ≠ .wantMore := by
    rw [status]
    exact fun impossible => by cases impossible
  have complete : (connection.receive bytesTransferred date).request.messageStatus = .complete :=
    (receive_messageStatus date).trans status
  have calls : (connection.receive bytesTransferred date).called =
      ((handlerOf (env.library.fields
        (connection.parseRequest bytesTransferred).1.request.parser).method).map fun handler =>
          (handler,
            (connection.parseRequest bytesTransferred).1.request.toPublicFields)).toList := by
    have calls := called_of_complete (traced.receive idle wants bytesTransferred date) complete
    rw [receive_request] at calls
    exact calls
  rw [SuccessHandled.of_first log (unwritten_before_reply unwritten replies log)]
  constructor
  · rintro ⟨success, _⟩
    cases chosen : handlerOf
        (env.library.fields (connection.parseRequest bytesTransferred).1.request.parser).method with
    | some handler => exact ⟨handler, handlerOf_eq_some_iff.mp chosen⟩
    | none =>
        have uncalled : (connection.receive bytesTransferred date).called = [] := by
          rw [calls, chosen]
          rfl
        have announced := announced_of_uncalled untouched status uncalled
        have once := success announced
        rw [uncalled] at once
        cases once
  · rintro ⟨handler, same⟩
    rw [handlerOf_eq_some_iff.mpr same] at calls
    rw [calls]
    exact ⟨fun _ => rfl, fun _ impossible => by cases impossible⟩

end Receive

/-- `handle_read` keeps the law exactly when a request that it completes has one
of the four methods. -/
theorem receive_successHandled_iff (traced : connection.Traced)
    (unwritten : .write ∉ connection.begun) (untouched : connection.response = Response.initial)
    (idle : connection.operations = []) (wants : connection.request.messageStatus = .wantMore)
    (bytesTransferred : Nat) (date : Bytes) :
    (connection.receive bytesTransferred date).SuccessHandled ↔
      (connection.parseStatus bytesTransferred = .complete → ∃ handler : HandlerMethod,
        (env.library.fields (connection.parseRequest bytesTransferred).1.request.parser).method =
          handler.intended) := by
  cases status : connection.parseStatus bytesTransferred with
  | wantMore =>
      refine iff_of_true (.of_unwritten ?_) (fun impossible => by cases impossible)
      rw [begun_receive, if_pos status]
      simp [unwritten]
  | faild =>
      refine iff_of_true ?_ (fun impossible => by cases impossible)
      exact receive_successHandled_of_faild unwritten status date
  | complete =>
      rw [receive_successHandled_of_complete traced unwritten untouched idle wants status date]
      exact ⟨fun supported _ => supported, fun supported => supported rfl⟩

end Connection

/-! ## Along a run -/

/-- The event does not complete a message whose method is none of the four. -/
def CompletesSupported (server : Server env) : Event → Prop
  | .handleRead id index _ _ => ∀ completion,
      (server.connection id).operations[index]? =
          some { kind := .readSome, completion := some completion } →
        completion.ec ≠ .failure →
        (server.connection id).parseStatus completion.bytesTransferred = .complete →
          ∃ handler : HandlerMethod, (env.library.fields ((server.connection id).parseRequest
            completion.bytesTransferred).1.request.parser).method = handler.intended
  | _ => True

/-- Before the reply is begun `response_` is as the constructor has left it. -/
def Connection.Untouched (connection : Connection env) : Prop :=
  .write ∉ connection.begun → connection.response = Response.initial

theorem untouched_of_reachable {server : Server env}
    (reached : (Server.machine env).Reachable server) (id : Nat) :
    (server.connection id).Untouched := by
  refine forall_connection_of_reachable ?_ ?_ ?_ ?_ reached id
  · exact fun _ => rfl
  · intro connection after held event outcome _ untouched served
    unfold Connection.Untouched at untouched ⊢
    cases served with
    | completed _ _ _ response log =>
        rw [Connection.begun, log, response]
        exact untouched
    | halted _ _ =>
        rw [Connection.begun_stop]
        exact untouched
    | @received _ index date _ completion _ _ =>
        intro unwritten
        rw [Connection.begun_receive] at unwritten
        cases status : (connection.dequeue index).parseStatus completion.bytesTransferred with
        | wantMore =>
            rw [Connection.receive_wantMore _ _ _ status]
            exact untouched fun written => unwritten (List.mem_append_left _ written)
        | faild =>
            rw [status] at unwritten
            exact absurd (List.mem_append_right _ (List.mem_singleton_self _)) unwritten
        | complete =>
            rw [status] at unwritten
            exact absurd (List.mem_append_right _ (List.mem_singleton_self _)) unwritten
    | shutdown _ =>
        rw [Connection.begun_shutdown]
        exact untouched
    | dropped _ _ => exact untouched
  · intro connection untouched
    rw [Connection.Untouched, Connection.begun_stop]
    exact untouched
  · intro connection _ _ untouched
    refine ⟨untouched, ?_⟩
    rw [Connection.Untouched, Connection.begun_start]
    exact fun unwritten => untouched fun written => unwritten (List.mem_append_left _ written)

/-- What is known of a connection when one of its reads is handled. -/
private theorem receive_ready {server : Server env}
    (reached : (Server.machine env).Reachable server) {id index : Nat} {completion : Completion}
    (listed : (server.connection id).operations[index]? =
      some { kind := .readSome, completion := some completion }) (date : Bytes) :
    (((server.connection id).dequeue index).receive completion.bytesTransferred
        date).SuccessHandled ↔
      ((server.connection id).parseStatus completion.bytesTransferred = .complete →
        ∃ handler : HandlerMethod, (env.library.fields ((server.connection id).parseRequest
          completion.bytesTransferred).1.request.parser).method = handler.intended) := by
  have one := oneReply_of_reachable reached id
  have traced := traced_of_reachable reached id
  have among := List.mem_of_getElem? listed
  have unwritten : .write ∉ (server.connection id).begun :=
    fun written => one.last written _ among rfl
  have idle : ((server.connection id).dequeue index).operations = [] :=
    eraseIdx_of_listed one.atMostOne listed
  exact Connection.receive_successHandled_iff (traced.dequeue index) unwritten
    (untouched_of_reachable reached id unwritten) idle (traced.reading _ among rfl) _ date

/-- Only handling a read can break the law. -/
private theorem successHandled_of_served {server : Server env}
    (reached : (Server.machine env).Reachable server) {id : Nat} {event : Event}
    {after : Connection env} {outcome : Outcome}
    (handled : (server.connection id).SuccessHandled) (supported : CompletesSupported server event)
    (concerned : event.connection? = some id)
    (served : Served (server.connection id) (server.held id) event after outcome) :
    after.SuccessHandled := by
  cases served with
  | completed _ _ request _ log => exact handled.of_same log request
  | @halted _ index _ _ _ _ _ =>
      have dequeued : ((server.connection id).dequeue index).SuccessHandled :=
        handled.of_same rfl rfl
      exact dequeued.stop
  | @received _ index date _ completion listed unfailed =>
      cases concerned
      exact (receive_ready reached listed date).mpr (supported completion listed unfailed)
  | @shutdown _ index _ _ _ _ =>
      have dequeued : ((server.connection id).dequeue index).SuccessHandled :=
        handled.of_same rfl rfl
      exact dequeued.shutdown
  | dropped _ _ => exact handled.of_same rfl rfl

/-- Every connection keeps the law. -/
def AllHandled (server : Server env) : Prop :=
  ∀ id, (server.connection id).SuccessHandled

/-- One step keeps the law exactly when it meets the condition. -/
theorem allHandled_step (server : Server env) (event : Event) (next : Server env)
    (reached : (Server.machine env).Reachable server) (handled : AllHandled server)
    (step : (Server.machine env).step server event = some next) :
    AllHandled next ↔ CompletesSupported server event := by
  constructor
  · intro after
    cases event with
    | handleRead id index date throws =>
        intro completion listed unfailed
        have received := (received_of_step step listed unfailed).2
        exact (receive_ready reached listed date).mp (received ▸ after id)
    | _ => trivial
  · intro supported id
    rcases own_of_step (sound_of_reachable reached) step id with
      ⟨_, concerned, served⟩ | elsewhere
    · exact successHandled_of_served reached (handled id) supported concerned served
    · cases elsewhere with
      | kept same => exact same ▸ handled id
      | stopped same => exact same ▸ (handled id).stop
      | created _ same =>
          rw [same]
          exact .of_unwritten List.not_mem_nil
      | accepted _ same =>
          rw [same]
          exact (handled id).of_same rfl rfl
      | started _ same =>
          have assigned : (server.connection id).assign.SuccessHandled :=
            (handled id).of_same rfl rfl
          rw [same]
          exact assigned.start

/-- In every state of a run a success status is preceded by one call of the
handler, and what has not been handled is answered with an error, exactly when
every message that the run completes has one of the four methods. -/
theorem allHandled_along_run {events : List Event} {final : Server env}
    (steps : (Server.machine env).run (Server.machine env).initial events = some final) :
    (Server.machine env).Always AllHandled (Server.machine env).initial events ↔
      (Server.machine env).Meets CompletesSupported (Server.machine env).initial events := by
  apply (Server.machine env).always_iff_meets _ allHandled_step _ _ steps
  · exact fun _ _ _ reached step => reached.step _ step
  · exact ⟨[], rfl⟩
  · exact fun _ => .of_unwritten List.not_mem_nil

/-! ### A request for the headers of a page -/

/-- The method value of HEAD. -/
def httpHead : Nat := 2

def headRequest : Bytes := bytes "HEAD / HTTP/1.0\r\n\r\n"

/-- The library on it. -/
def headParser : HttpParser :=
  .once headRequest
    [.signal .messageBegin, .text .url (bytes "/"), .signal .headersComplete,
      .signal .messageComplete]
    { method := httpHead, httpMajor := 1 }

def headEnv : Env where
  library := headParser
  iteration := .entries
  handler := .repository

theorem headRequest_outcome : ∃ server : Server headEnv,
    (Server.machine headEnv).run (Server.machine headEnv).initial (servedUntilWrite headRequest) =
        some server ∧
      ((server.connection 0).log = [.asyncReadSome, .parse headRequest, .asyncWriteSome
          (Connection.responseBuffers ({} : Connection headEnv) []).whole] ∧
        Announced .ok (Connection.responseBuffers ({} : Connection headEnv) []).whole) := by
  have outcome : ((Server.machine headEnv).run (Server.machine headEnv).initial
      (servedUntilWrite headRequest)).map (fun server =>
        decide ((server.connection 0).log = [.asyncReadSome, .parse headRequest, .asyncWriteSome
          (Connection.responseBuffers ({} : Connection headEnv) []).whole])) = some true := by
    decide +kernel
  rcases Option.map_eq_some_iff.mp outcome with ⟨server, steps, log⟩
  exact ⟨server, steps, of_decide_eq_true log,
    Response.announced_toBuffers Response.initial .entries []⟩

/-- It is answered with 200, and nothing has been called. -/
theorem headRequest_not_handled : ∃ server : Server headEnv,
    (Server.machine headEnv).Reachable server ∧ ¬ AllHandled server := by
  rcases headRequest_outcome with ⟨server, steps, log, announced⟩
  refine ⟨server, ⟨_, steps⟩, fun handled => ?_⟩
  have once := (handled 0).success [.asyncReadSome, .parse headRequest] _ [] log announced
  cases once

/-- Completing it is the step that does not meet the condition. -/
theorem headRequest_not_meets : ¬ (Server.machine headEnv).Meets CompletesSupported
    (Server.machine headEnv).initial (servedUntilWrite headRequest) := by
  rcases headRequest_outcome with ⟨server, steps, log, announced⟩
  intro meets
  have always := (allHandled_along_run steps).mpr meets
  have once := (always.last _ steps 0).success [.asyncReadSome, .parse headRequest] _ [] log
    announced
  cases once

end Http
end LearnAsio
