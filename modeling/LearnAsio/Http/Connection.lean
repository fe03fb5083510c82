import LearnAsio.Http.Response

namespace LearnAsio
namespace Http

/-!
# One connection

A connection owns a socket, a read buffer, a request and a response.  Its member
functions are translated here as functions of the connection alone.  The parts
of `handle_read` and `handle_write` that call the connection manager are in the
server module, which has the manager's state.

An asynchronous operation is kept with the connection from the call that begins
it until its completion handler runs.  Its completion is absent while it is
pending and present once it is queued.  `std::bind` decides what the handler
keeps alive: `start` binds `shared_from_this()`, the two writes of
`handle_read` bind the bare `this`.

Three members describe what the source does not store: the bytes the socket has
accepted, the bytes it found in the buffers of its last write, and a log of the
calls the connection has made.
-/

/-- What a connection is linked with: the parser library, the iteration order of
the header map and the virtual request handler. -/
structure Env where
  library : HttpParser
  iteration : Iteration
  handler : RequestHandler

/-- The arguments of a completion handler. -/
structure Completion where
  ec : ErrorCode
  bytesTransferred : Nat := 0
  deriving DecidableEq, Repr

/-- The object whose strings a write's buffers point into: the member
`response_`, or a temporary that ends with the full expression. -/
inductive Storage where
  | response | temporary
  deriving DecidableEq, Repr

/-- The buffer descriptors of a write: where they point, the response they were
taken from, and the bytes found there at that time. -/
structure Buffers where
  storage : Storage
  source : Response
  whole : Bytes
  deriving DecidableEq

inductive OperationKind where
  | readSome
  | writeSome (buffers : Buffers)
  deriving DecidableEq

/-- An asynchronous operation whose completion handler has not run yet. -/
structure Operation where
  kind : OperationKind
  completion : Option Completion := none
  deriving DecidableEq

namespace Operation

/-- Does the completion handler hold a shared pointer to the connection? -/
def ownsConnection (operation : Operation) : Bool :=
  match operation.kind with
  | .readSome => true
  | .writeSome _ => false

/-- Closing the socket: a pending operation is aborted, a queued completion
stays. -/
def cancel (operation : Operation) : Operation :=
  { operation with completion := some (operation.completion.getD { ec := .operationAborted }) }

@[simp] theorem cancel_kind (operation : Operation) : operation.cancel.kind = operation.kind := rfl

end Operation

/-- What a connection did, in the order in which it did it. -/
inductive Action where
  | asyncReadSome
  | asyncWriteSome (whole : Bytes)
  | parse (data : Bytes)
  | call (handler : HandlerMethod) (request : PublicFields)
  | stop
  | shutdown
  deriving DecidableEq

/-- `class connection`. -/
structure Connection (env : Env) where
  isOpen : Bool := false
  buffer : Bytes := []
  request : HttpMessage env.library := HttpMessage.fresh env.library
  response : Response := Response.initial
  operations : List Operation := []
  accepted : Bytes := []
  memory : Bytes := []
  log : List Action := []

namespace Connection

variable {env : Env}

/-- Begin an operation on the socket.  On a closed socket it completes with an
error, later and from the event loop. -/
def begin (connection : Connection env) (kind : OperationKind) : Connection env :=
  let completion := if connection.isOpen then none else some { ec := .failure }
  { connection with
    operations := connection.operations ++ [{ kind := kind, completion := completion }] }

/-- `socket_.async_read_some` with the buffer of the connection. -/
def asyncReadSome (connection : Connection env) : Connection env :=
  { connection.begin .readSome with log := connection.log ++ [.asyncReadSome] }

/-- `socket_.async_write_some`. -/
def asyncWriteSome (connection : Connection env) (buffers : Buffers) : Connection env :=
  { connection.begin (.writeSome buffers) with
    log := connection.log ++ [.asyncWriteSome buffers.whole] }

/-- `connection::start`. -/
def start (connection : Connection env) : Connection env :=
  connection.asyncReadSome

/-- `connection::stop`. -/
def stop (connection : Connection env) : Connection env :=
  { connection with
    isOpen := false
    operations := connection.operations.map Operation.cancel
    log := connection.log ++ [.stop] }

/-- The `socket_.shutdown` of `handle_write`, whose exception is caught. -/
def shutdown (connection : Connection env) : Connection env :=
  { connection with log := connection.log ++ [.shutdown] }

/-- The member function that the switch of `dispatch` selects. -/
def selected : Method → Option HandlerMethod
  | .get => some .onGet
  | .post => some .onPost
  | .put => some .onPut
  | .del => some .onDelete
  | .invalid => none

/-- `connection::dispatch`. -/
def dispatch (connection : Connection env) : Connection env :=
  match selected connection.request.method with
  | some method =>
      { connection with
        response :=
          env.handler.invoke method connection.request.toPublicFields connection.response
        log := connection.log ++ [.call method connection.request.toPublicFields] }
  | none => connection

/-- `request_.parse` on the first bytes of the buffer. -/
def parseRequest (connection : Connection env) (bytesTransferred : Nat) :
    Connection env × MessageStatus :=
  let data := connection.buffer.take bytesTransferred
  let parsed := connection.request.parse data
  ({ connection with request := parsed.1, log := connection.log ++ [.parse data] }, parsed.2)

/-- `response(response::status_code::bad_request).to_buffers()`. -/
def badRequestBuffers (env : Env) (date : Bytes) : Buffers :=
  let sent := (Response.ofStatus .badRequest).toBuffers env.iteration date
  { storage := .temporary, source := sent.1, whole := sent.2.flatten }

/-- `response_.to_buffers()`. -/
def responseBuffers (connection : Connection env) (date : Bytes) : Buffers :=
  let sent := connection.response.toBuffers env.iteration date
  { storage := .response, source := sent.1, whole := sent.2.flatten }

/-- The write of a request that failed to parse, from a temporary response. -/
def writeBadRequest (connection : Connection env) (date : Bytes) : Connection env :=
  connection.asyncWriteSome (badRequestBuffers env date)

/-- The write of `response_`, which `to_buffers` stamps first. -/
def writeResponse (connection : Connection env) (date : Bytes) : Connection env :=
  ({ connection with response := connection.response.stamp date } : Connection env).asyncWriteSome
    (connection.responseBuffers date)

/-- `connection::handle_read` after its error check. -/
def receive (connection : Connection env) (bytesTransferred : Nat) (date : Bytes) :
    Connection env :=
  match connection.parseRequest bytesTransferred with
  | (connection, .wantMore) => connection.start
  | (connection, .faild) => connection.writeBadRequest date
  | (connection, .complete) => connection.dispatch.writeResponse date

end Connection
end Http
end LearnAsio
