import LearnAsio.Http.Ownership
import LearnAsio.Http.Trace

namespace LearnAsio
namespace Http

open Transition

/-!
# Which handler a message reaches

The parser is initialised for messages of both kinds.  What it keeps of the kind
is its method field alone: a request sets it, a response leaves it as it was,
and zero, its initial value, is the method DELETE.  `parse` reads the field when
`http_parser_execute` has returned, so a request that begins later in the same
buffer has already overwritten it.

The law is about every message that a connection of a running server has
completed, and the theorem says exactly for which of them it holds.
-/

variable {env : Env}

/-- A message as the library has recognised it so far: a request with the value
given to its method, or a response. -/
inductive MessageKind where
  | request (method : Nat)
  | response
  deriving DecidableEq, Repr

/-- The method field after the messages of one parser, in order. -/
def methodField (messages : List MessageKind) : Nat :=
  messages.foldl
    (fun field message =>
      match message with
      | .request method => method
      | .response => field)
    0

/-- The request-line method for which a member function is meant. -/
def HandlerMethod.intended : HandlerMethod → Nat
  | .onGet => httpGet
  | .onPost => httpPost
  | .onPut => httpPut
  | .onDelete => httpDelete

/-- Each member function is called if and only if the message is a request with
its method. -/
def DispatchLaw (kind : MessageKind) (called : List (HandlerMethod × PublicFields)) : Prop :=
  ∀ handler : HandlerMethod,
    (∃ request, (handler, request) ∈ called) ↔ kind = .request handler.intended

/-- The member function that the two switches select for a method value. -/
def handlerOf (method : Nat) : Option HandlerMethod :=
  Connection.selected (Fields.readMethod method .invalid)

/-- The switches select each member function for its method and for no other. -/
theorem handlerOf_eq_some_iff {method : Nat} {handler : HandlerMethod} :
    handlerOf method = some handler ↔ method = handler.intended := by
  constructor
  · intro chosen
    unfold handlerOf Fields.readMethod at chosen
    split at chosen
    · next same => cases chosen; exact same
    · split at chosen
      · next same => cases chosen; exact same
      · split at chosen
        · next same => cases chosen; exact same
        · split at chosen
          · next same => cases chosen; exact same
          · cases chosen
  · intro same
    subst same
    cases handler <;> rfl

/-- The member function that a message is meant to reach. -/
def MessageKind.handler : MessageKind → Option HandlerMethod
  | .request method => handlerOf method
  | .response => none

theorem MessageKind.handler_eq_some_iff {kind : MessageKind} {handler : HandlerMethod} :
    kind.handler = some handler ↔ kind = .request handler.intended := by
  cases kind with
  | request method =>
      rw [MessageKind.handler, handlerOf_eq_some_iff, MessageKind.request.injEq]
  | response =>
      constructor
      · intro impossible
        cases impossible
      · intro impossible
        cases impossible

/-- A completed request has called what the parser's method field selects. -/
theorem called_of_complete {connection : Connection env} (traced : connection.Traced)
    (complete : connection.request.messageStatus = .complete) :
    connection.called =
      ((handlerOf (env.library.fields connection.request.parser).method).map fun handler =>
        (handler, connection.request.toPublicFields)).toList := by
  have method : connection.request.method =
      Fields.readMethod (env.library.fields connection.request.parser).method .invalid := by
    have fields := traced.request_of_complete complete
    have untouched : (HttpMessage.accumulated env.library connection.parsed).method = .invalid :=
      Fields.foldl_handle_method _ _
    rw [← untouched]
    exact congrArg (fun fields : Fields => fields.method) fields
  rw [traced.called, if_pos complete, Connection.dispatched, method]
  rfl

/-- For a completed message the law holds exactly when the method field, after
all messages that begin in the bytes read, selects the member function that the
message itself is meant for.  If no other message begins there, this says that
the message is a request. -/
theorem dispatchLaw_iff {server : Server env} (reached : (Server.machine env).Reachable server)
    {id : Nat} (complete : (server.connection id).request.messageStatus = .complete)
    {kind : MessageKind} {later : List MessageKind}
    (recognised : (env.library.fields (server.connection id).request.parser).method =
      methodField (kind :: later)) :
    (DispatchLaw kind (server.connection id).called ↔
        handlerOf (methodField (kind :: later)) = kind.handler) ∧
      (later = [] →
        (DispatchLaw kind (server.connection id).called ↔ ∃ method, kind = .request method)) := by
  have calls := called_of_complete (traced_of_reachable reached id) complete
  rw [recognised] at calls
  have reaches : ∀ handler : HandlerMethod,
      (∃ request, (handler, request) ∈ (server.connection id).called) ↔
        handlerOf (methodField (kind :: later)) = some handler := by
    intro handler
    rw [calls]
    cases handlerOf (methodField (kind :: later)) with
    | none => simp
    | some chosen => simp [eq_comm]
  have exactly_same : DispatchLaw kind (server.connection id).called ↔
      handlerOf (methodField (kind :: later)) = kind.handler := by
    unfold DispatchLaw
    simp only [reaches, ← MessageKind.handler_eq_some_iff]
    exact ⟨fun same => Option.ext same, fun same handler => by rw [same]⟩
  refine ⟨exactly_same, ?_⟩
  intro alone
  rw [exactly_same, alone]
  cases kind with
  | request method => exact ⟨fun _ => ⟨method, rfl⟩, fun _ => rfl⟩
  | response =>
      constructor
      · intro impossible
        cases impossible
      · rintro ⟨method, impossible⟩
        cases impossible

/-- The only request of a connection reaches its handler. -/
theorem shortRequest_dispatched : ∃ server : Server shortRequestEnv,
    (Server.machine shortRequestEnv).Reachable server ∧
      DispatchLaw (.request httpGet) (server.connection 0).called := by
  have outcome : ((Server.machine shortRequestEnv).run (Server.machine shortRequestEnv).initial
      (servedUntilWrite shortRequest)).map (fun server =>
        decide ((server.connection 0).request.messageStatus = .complete ∧
          (shortRequestEnv.library.fields (server.connection 0).request.parser).method =
            httpGet)) = some true := by decide +kernel
  rcases Option.map_eq_some_iff.mp outcome with ⟨server, steps, holds⟩
  rcases of_decide_eq_true holds with ⟨complete, method⟩
  have reached : (Server.machine shortRequestEnv).Reachable server := ⟨_, steps⟩
  have recognised : (shortRequestEnv.library.fields (server.connection 0).request.parser).method =
      methodField [.request httpGet] := method
  exact ⟨server, reached, ((dispatchLaw_iff reached complete recognised).2 rfl).mpr ⟨_, rfl⟩⟩

/-! ### A response sent to the server -/

/-- The library on one buffer: what the call that receives it reports. -/
def HttpParser.once (buffer : Bytes) (calls : List Callback) (fields : ParserFields) :
    HttpParser where
  State := Bool
  init := false
  execute := fun used data => if used = false ∧ data = buffer then (true, calls) else (used, [])
  fields := fun used => if used then fields else {}
  init_fields := rfl
  sticky := by
    intro used data failed
    cases used with
    | false => exact absurd rfl failed
    | true => rfl

/-- A response without a body. -/
def noContentResponse : Bytes := bytes "HTTP/1.1 204 No Content\r\n\r\n"

/-- The library on it: the version, the status code and no method. -/
def noContentParser : HttpParser :=
  .once noContentResponse
    [.signal .messageBegin, .text .status (bytes "No Content"), .signal .headersComplete,
      .signal .messageComplete]
    { httpMajor := 1, httpMinor := 1, statusCode := 204, shouldKeepAlive := true }

def noContentEnv : Env where
  library := noContentParser
  iteration := .entries
  handler := .repository

/-- The response is dispatched to the handler for DELETE. -/
theorem noContentResponse_not_dispatchLaw : ∃ server : Server noContentEnv,
    (Server.machine noContentEnv).Reachable server ∧
      (server.connection 0).request.messageStatus = .complete ∧
      (noContentEnv.library.fields (server.connection 0).request.parser).method =
        methodField [.response] ∧
      ¬ DispatchLaw .response (server.connection 0).called := by
  have outcome : ((Server.machine noContentEnv).run (Server.machine noContentEnv).initial
      (servedUntilWrite noContentResponse)).map (fun server =>
        decide ((server.connection 0).request.messageStatus = .complete ∧
          (noContentEnv.library.fields (server.connection 0).request.parser).method =
            methodField [.response] ∧
          (server.connection 0).called.map Prod.fst = [.onDelete])) = some true := by
    decide +kernel
  rcases Option.map_eq_some_iff.mp outcome with ⟨server, steps, holds⟩
  rcases of_decide_eq_true holds with ⟨complete, method, deleted⟩
  refine ⟨server, ⟨_, steps⟩, complete, method, fun law => ?_⟩
  have member : HandlerMethod.onDelete ∈ (server.connection 0).called.map Prod.fst :=
    deleted ▸ List.mem_cons_self
  rcases List.mem_map.mp member with ⟨⟨handler, request⟩, listed, same⟩
  have same : handler = .onDelete := same
  cases (law .onDelete).mp ⟨request, same ▸ listed⟩

end Http
end LearnAsio
