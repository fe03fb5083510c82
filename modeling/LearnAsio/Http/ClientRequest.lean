import LearnAsio.Delivery.Script
import LearnAsio.Http.Client
import LearnAsio.Http.Framing
import LearnAsio.Http.Pipelining
import LearnAsio.Http.StatusLaw
import LearnAsio.Http.Success

namespace LearnAsio
namespace Http

open Delivery Transition

/-!
# The client's request at the server

`main` of the client writes two line ends behind its last header line, although that
line has brought one of its own, and announces the length of the text that it writes
after them.  The second of the two therefore counts as content, and the last two bytes
of the text are behind the end of the message.

A connection of the server parses what each read brings.  If one read brings the end
of the message and a byte behind it, the parser reports an error in the same call in
which it completes the message, and the client's request is refused.
-/

variable {env : Env}

/-! ## What the client writes -/

/-- A header line of a literal name. -/
def headerOf (name value : String) (name_ne : bytes name ≠ []) : HeaderLine :=
  { name := bytes name, value := bytes value, name_ne := name_ne }

def clientLines : List HeaderLine :=
  [headerOf "Host" "localhost" (List.cons_ne_nil _ _),
    headerOf "Accept" "*/*" (List.cons_ne_nil _ _),
    headerOf "Content-Type" "text/plain; charset=utf-8" (List.cons_ne_nil _ _),
    headerOf "Content-Length" "2048" (List.cons_ne_nil _ _)]

/-- The insertions into `request_stream`. -/
def clientRequest : Bytes :=
  bytes "GET /index.html" ++ bytes " HTTP/1.0\r\n" ++ bytes "Host: localhost\r\n" ++
    bytes "Accept: */*\r\n" ++ bytes "Content-Type: text/plain; charset=utf-8\r\n" ++
    bytes "Content-Length: 2048\r\n" ++ bytes "\r\n\r\n" ++ List.replicate 2048 97

/-- The request up to the empty line. -/
def clientHead : Bytes :=
  bytes "GET /index.html HTTP/1.0\r\nHost: localhost\r\nAccept: */*\r\n" ++
    bytes "Content-Type: text/plain; charset=utf-8\r\nContent-Length: 2048\r\n\r\n"

/-- The first 2048 bytes behind the empty line. -/
def clientContent : Bytes := crlf ++ List.replicate 2046 97

/-- The bytes that make up the message. -/
def framedRequest : Bytes := clientHead ++ clientContent

/-- The request as it is framed by its header lines. -/
def framed : Request where
  method := httpGet
  url := bytes "/index.html"
  url_ne := by decide
  headers := clientLines
  body := .identity clientContent

theorem length_clientHead : clientHead.length = 121 := by decide +kernel

theorem length_clientContent : clientContent.length = 2048 := by
  rw [clientContent, List.length_append, List.length_replicate]
  rfl

theorem length_framedRequest : framedRequest.length = 2169 := by
  rw [framedRequest, List.length_append, length_clientHead, length_clientContent]

/-- Two bytes of the text are left over. -/
theorem clientRequest_eq : clientRequest = framedRequest ++ [97, 97] := by
  have text : List.replicate 2048 (97 : UInt8) = List.replicate 2046 97 ++ [97, 97] :=
    List.replicate_add 2046 2 97
  have head : bytes "GET /index.html" ++ bytes " HTTP/1.0\r\n" ++ bytes "Host: localhost\r\n" ++
      bytes "Accept: */*\r\n" ++ bytes "Content-Type: text/plain; charset=utf-8\r\n" ++
      bytes "Content-Length: 2048\r\n" ++ bytes "\r\n\r\n" = clientHead ++ crlf := by
    decide +kernel
  rw [clientRequest, head, text, framedRequest, clientContent]
  simp only [List.append_assoc]

/-- What the library promises about the client's bytes.  Up to the end of the message
they hold one request and nothing else; a byte behind it cannot begin another one, or
comes after the last message of the connection, and is an error. -/
structure ReadsClient (library : HttpParser) where
  message : OneMessage library framedRequest
  items : message.items = framed.items
  healthy : message.outcome.httpErrno = hpeOk
  method : message.outcome.method = httpGet
  beyond : ∀ part pieces, part <+: clientRequest → framedRequest.length < part.length →
    Segments part pieces →
      (library.fields (library.after library.init pieces)).httpErrno ≠ hpeOk

/-! ## What `parse` makes of it -/

namespace ReadsClient

variable {library : HttpParser} {part : Bytes} {pieces : List Bytes}

/-- Before the end of the message more is wanted. -/
theorem status_of_short (reads : ReadsClient library) (begins : part <+: clientRequest)
    (short : part.length < framedRequest.length) (cut : Segments part pieces) :
    ((HttpMessage.fresh library).feed pieces).messageStatus = .wantMore := by
  have whole : framedRequest <+: clientRequest := clientRequest_eq ▸ List.prefix_append _ _
  have inside : part <+: framedRequest :=
    List.prefix_of_prefix_length_le begins whole (Nat.le_of_lt short)
  have proper : part ≠ framedRequest := fun same =>
    Nat.lt_irrefl _ (same ▸ short)
  have owed := HttpMessage.owed_feed library pieces
  generalize ((HttpMessage.fresh library).feed pieces).messageStatus = status at owed
  cases owed with
  | wantMore _ _ => rfl
  | complete _ fired => exact absurd fired (reads.message.ends part pieces inside proper cut)
  | faild reported =>
      -- The rest of the message would leave the parser in its error.
      rcases inside with ⟨rest, split⟩
      have filled : rest ≠ [] := by
        intro none
        rw [none, List.append_nil] at split
        exact proper split
      have all : Segments framedRequest (pieces ++ [rest]) := by
        refine ⟨?_, List.not_mem_append cut.2 ?_⟩
        · rw [List.flatten_append, List.flatten_singleton, cut.1, split]
        · rw [List.mem_singleton]
          exact filled.symm
      have still := reported.append [rest]
      rw [HttpMessage.reported_iff, reads.message.reported _ all] at still
      exact absurd reads.healthy still

/-- With its last byte the message is complete. -/
theorem status_of_framed (reads : ReadsClient library) (cut : Segments framedRequest pieces) :
    ((HttpMessage.fresh library).feed pieces).messageStatus = .complete := by
  rcases List.eq_nil_or_concat' pieces with none | ⟨earlier, last, shape⟩
  · have empty := cut.1
    rw [none] at empty
    have length := congrArg List.length empty
    rw [length_framedRequest] at length
    cases length
  · subst shape
    have ends : Item.signal Notification.messageComplete ∈ reads.message.items := by
      rw [reads.items, Request.items]
      simp
    have status := congrArg Fields.messageStatus (reads.message.feed_eq cut)
    rw [Fields.conclude_messageStatus, if_neg (not_not.mpr reads.healthy),
      Fields.foldl_messageStatus, if_pos ends] at status
    exact status

/-- A byte behind the message makes it fail. -/
theorem status_of_beyond (reads : ReadsClient library) (begins : part <+: clientRequest)
    (long : framedRequest.length < part.length) (cut : Segments part pieces) :
    ((HttpMessage.fresh library).feed pieces).messageStatus = .faild := by
  have failed := reads.beyond part pieces begins long cut
  have owed := HttpMessage.owed_feed library pieces
  generalize ((HttpMessage.fresh library).feed pieces).messageStatus = status at owed
  cases owed with
  | faild _ => rfl
  | complete healthy _ => exact absurd (HttpMessage.reported_iff pieces |>.mpr failed) healthy
  | wantMore healthy _ => exact absurd (HttpMessage.reported_iff pieces |>.mpr failed) healthy

end ReadsClient

/-! ## What a connection has replied -/

namespace Connection

/-- The response that a completed request is answered with. -/
def answer (connection : Connection env) : Response :=
  match selected connection.request.method with
  | some method =>
      env.handler.invoke method connection.request.toPublicFields Response.initial
  | none => Response.initial

/-- `dispatch` hands out the initial response. -/
theorem dispatch_response {connection : Connection env}
    (untouched : connection.response = .initial) :
    connection.dispatch.response = connection.answer := by
  unfold dispatch answer
  cases selected connection.request.method with
  | none => exact untouched
  | some method => exact congrArg _ untouched

/-- The reply agrees with the status of the request. -/
structure Replied (connection : Connection env) : Prop where
  silent : connection.request.messageStatus = .wantMore → .write ∉ connection.begun
  refused : connection.request.messageStatus = .faild →
    ∃ date, .asyncWriteSome (badRequestBuffers env date).whole ∈ connection.log
  answered : connection.request.messageStatus = .complete → ∃ date,
    .asyncWriteSome (connection.answer.toBuffers env.iteration date).2.flatten ∈ connection.log

namespace Replied

variable {connection after : Connection env}

theorem fresh (isOpen : Bool) : Replied ({ isOpen := isOpen } : Connection env) where
  silent := fun _ => List.not_mem_nil
  refused := fun failed => by cases failed
  answered := fun complete => by cases complete

/-- More entries of the log that are not writes. -/
theorem of_same (replied : connection.Replied) (request : after.request = connection.request)
    (log : connection.log <+: after.log)
    (begun : .write ∈ after.begun → .write ∈ connection.begun) :
    after.Replied where
  silent := fun wants written => replied.silent (request ▸ wants) (begun written)
  refused := by
    intro failed
    rcases replied.refused (request ▸ failed) with ⟨date, listed⟩
    exact ⟨date, log.subset listed⟩
  answered := by
    intro complete
    rcases replied.answered (request ▸ complete) with ⟨date, listed⟩
    refine ⟨date, log.subset ?_⟩
    rw [answer, request]
    exact listed

theorem stop (replied : connection.Replied) : connection.stop.Replied :=
  replied.of_same rfl (List.prefix_append _ _) fun written => by
    rw [begun_stop] at written
    exact written

theorem shutdown (replied : connection.Replied) : connection.shutdown.Replied :=
  replied.of_same rfl (List.prefix_append _ _) fun written => by
    rw [begun_shutdown] at written
    exact written

theorem start (replied : connection.Replied) : connection.start.Replied :=
  replied.of_same rfl (List.prefix_append _ _) fun written => by
    rw [begun_start] at written
    simpa using written

/-- `handle_read` replies as the status says. -/
theorem receive {bytesTransferred : Nat} (date : Bytes) (untouched : connection.response = .initial)
    (unwritten : .write ∉ connection.begun) :
    (connection.receive bytesTransferred date).Replied := by
  have status : (connection.receive bytesTransferred date).request.messageStatus =
      connection.parseStatus bytesTransferred := receive_messageStatus date
  cases outcome : connection.parseStatus bytesTransferred with
  | wantMore =>
      rw [outcome] at status
      refine ⟨fun _ => ?_, fun failed => ?_, fun complete => ?_⟩
      · rw [begun_receive, if_pos outcome]
        simp [unwritten]
      · rw [status] at failed
        cases failed
      · rw [status] at complete
        cases complete
  | faild =>
      rw [outcome] at status
      refine ⟨fun wants => ?_, fun _ => ⟨date, ?_⟩, fun complete => ?_⟩
      · rw [status] at wants
        cases wants
      · rw [receive_faild _ _ _ outcome]
        exact List.mem_append_right _ (List.mem_singleton_self _)
      · rw [status] at complete
        cases complete
  | complete =>
      rw [outcome] at status
      refine ⟨fun wants => ?_, fun failed => ?_, fun _ => ⟨date, ?_⟩⟩
      · rw [status] at wants
        cases wants
      · rw [status] at failed
        cases failed
      · have response : (connection.parseRequest bytesTransferred).1.dispatch.response =
            (connection.receive bytesTransferred date).answer := by
          rw [answer, receive_request]
          exact dispatch_response untouched
        rw [← response, receive_complete _ _ _ outcome]
        exact List.mem_append_right _ (List.mem_singleton_self _)

end Replied
end Connection

/-- What a connection does in its own step. -/
theorem Served.replied {connection after : Connection env} {held : Bool} {event : Event}
    {outcome : Outcome} (served : Served connection held event after outcome)
    (one : connection.OneReply) (untouched : connection.Untouched) (replied : connection.Replied) :
    after.Replied := by
  cases served with
  | completed _ _ request _ log =>
      refine replied.of_same request (log ▸ List.prefix_refl _) fun written => ?_
      rw [Connection.begun, log] at written
      exact written
  | @halted _ index _ _ _ _ _ =>
      have dequeued : (connection.dequeue index).Replied :=
        replied.of_same rfl (List.prefix_refl _) fun written => written
      exact dequeued.stop
  | @received _ index date _ completion listed _ =>
      have unwritten : .write ∉ connection.begun :=
        fun written => one.last written _ (List.mem_of_getElem? listed) rfl
      exact Connection.Replied.receive date (untouched unwritten) unwritten
  | @shutdown _ index _ _ _ _ =>
      have dequeued : (connection.dequeue index).Replied :=
        replied.of_same rfl (List.prefix_refl _) fun written => written
      exact dequeued.shutdown
  | dropped _ _ => exact replied.of_same rfl (List.prefix_refl _) fun written => written

/-- In every reachable state every connection has replied as its request says. -/
theorem replied_of_reachable {server : Server env}
    (reached : (Server.machine env).Reachable server) (id : Nat) :
    (server.connection id).Replied := by
  have start : (Server.machine env).Reachable (Server.machine env).initial ∧
      ∀ id, ((Server.machine env).initial.connection id).Replied :=
    ⟨⟨[], rfl⟩, fun _ => .fresh false⟩
  have preserved : ∀ (server : Server env) event next,
      ((Server.machine env).Reachable server ∧ ∀ id, (server.connection id).Replied) →
      (Server.machine env).step server event = some next →
      (Server.machine env).Reachable next ∧ ∀ id, (next.connection id).Replied := by
    rintro server event next ⟨reached, replied⟩ step
    refine ⟨Transition.System.Reachable.step _ reached step, fun id => ?_⟩
    rcases own_of_step (sound_of_reachable reached) step id with ⟨_, _, served⟩ | elsewhere
    · exact served.replied (oneReply_of_reachable reached id) (untouched_of_reachable reached id)
        (replied id)
    · have assigned : (server.connection id).assign.Replied :=
        (replied id).of_same rfl (List.prefix_refl _) fun written => written
      cases elsewhere with
      | kept same => exact same ▸ replied id
      | stopped same => exact same ▸ (replied id).stop
      | created _ same => exact same ▸ .fresh false
      | accepted _ same => exact same ▸ assigned
      | started _ same => exact same ▸ assigned.start
  exact ((Server.machine env).reachable_induction start preserved reached).2 id

/-! ## The client at the server -/

/-- What the handler is called with for the framed request. -/
theorem isolated_of_framed {connection : Connection env} (reads : ReadsClient env.library)
    (traced : connection.Traced) (cut : Segments framedRequest connection.parsed)
    (complete : connection.request.messageStatus = .complete) :
    Isolated framed connection.request.toPublicFields ∧
      connection.called = [(.onGet, connection.request.toPublicFields)] := by
  have parser : env.library.fields connection.request.parser = reads.message.outcome := by
    rw [traced.request, HttpMessage.parser_feed]
    exact reads.message.reported _ cut
  have fields := traced.request_of_complete complete
  rw [reads.message.accumulated_eq cut, reads.items, parser] at fields
  have public_ := congrArg Fields.toPublicFields fields
  have kept : framed.StoredKept := framed.storedKept_of_nonempty (by decide) rfl
  refine ⟨⟨?_, ?_, ?_, ?_⟩, ?_⟩
  · rw [public_]
    exact framed.accumulated_url
  · rw [public_]
    exact framed.accumulated_body
  · rw [public_]
    change Fields.readMethod reads.message.outcome.method _ = Fields.readMethod httpGet _
    rw [reads.method]
    rfl
  · intro name
    rw [public_]
    change framed.accumulated.headers.lookup name = _
    rw [framed.accumulated_headers, lookup_assignAll, AList.lookup_empty, Option.or_none]
    exact kept name
  · rw [called_of_complete traced complete, parser, reads.method]
    rfl

/-- What the client makes of as much of the refusal as has come. -/
theorem converse_badRequest {date : Bytes} (unbroken : Unbroken date) {count : Nat}
    {pieces : List Bytes}
    (arrived : pieces.flatten = (Connection.badRequestBuffers env date).whole.take count) :
    converse pieces =
      if count < (statusLine .badRequest).length then .threw else .notOk 400 := by
  have legible := Built.legible (.ofStatus .badRequest)
  rw [converse_response env.iteration legible unbroken arrived]
  rfl

/-- Whatever reads have brought whatever part of the client's request: before the end
of the message the connection does not reply; if a read ends together with the message,
the handler is called with it, one line end longer and two bytes shorter than the text;
and once a byte behind it has been read the handler is not called and the client is told
that its request was bad. -/
theorem clientRequest_replied (reads : ReadsClient env.library) {server : Server env}
    (reached : (Server.machine env).Reachable server) {id : Nat} {part : Bytes}
    (begins : part <+: clientRequest) (cut : Segments part (server.connection id).parsed) :
    (part.length < framedRequest.length → .write ∉ (server.connection id).begun) ∧
      (part = framedRequest → ∃ request, Isolated framed request ∧
        (server.connection id).called = [(.onGet, request)] ∧
        ∃ date, .asyncWriteSome ((env.handler.invoke .onGet request
          Response.initial).toBuffers env.iteration date).2.flatten ∈
            (server.connection id).log) ∧
      (framedRequest.length < part.length → (server.connection id).called = [] ∧
        ∃ date, .asyncWriteSome (Connection.badRequestBuffers env date).whole ∈
            (server.connection id).log ∧
          (Unbroken date → ∀ pieces count,
            pieces.flatten = (Connection.badRequestBuffers env date).whole.take count →
              converse pieces =
                if count < (statusLine .badRequest).length then .threw else .notOk 400)) := by
  have traced := traced_of_reachable reached id
  have replied := replied_of_reachable reached id
  have fed : (server.connection id).request.messageStatus =
      ((HttpMessage.fresh env.library).feed (server.connection id).parsed).messageStatus := by
    rw [traced.request]
  refine ⟨fun short => ?_, fun exactly => ?_, fun long => ?_⟩
  · exact replied.silent (fed.trans (reads.status_of_short begins short cut))
  · rw [exactly] at cut
    have complete := fed.trans (reads.status_of_framed cut)
    rcases isolated_of_framed reads traced cut complete with ⟨isolated, called⟩
    rcases replied.answered complete with ⟨date, listed⟩
    refine ⟨_, isolated, called, date, ?_⟩
    have get : (server.connection id).request.method = .get := isolated.2.2.1
    have answer : (server.connection id).answer = env.handler.invoke .onGet
        (server.connection id).request.toPublicFields Response.initial := by
      rw [Connection.answer, get]
      rfl
    rw [← answer]
    exact listed
  · have failed := fed.trans (reads.status_of_beyond begins long cut)
    rcases replied.refused failed with ⟨date, listed⟩
    refine ⟨?_, date, listed, fun unbroken pieces count arrived =>
      converse_badRequest unbroken arrived⟩
    rw [traced.called, failed]
    rfl

/-! ### A library that promises this -/

/-- The stretches of the request up to its content. -/
def clientHeadScript : List (Region DataKind Notification) :=
  [.gap 1, .signal .messageBegin, .gap 3, .text .url true 11, .gap 11] ++
    (clientLines.flatMap fun line =>
      [.text .headerField true line.name.length, .gap 2,
        .text .headerValue true line.value.length, .gap 2]) ++
    [.gap 2, .signal .headersComplete]

/-- The stretches of the whole message. -/
def clientScript : List (Region DataKind Notification) :=
  (clientHeadScript ++ [.text .body false 2048]) ++ [.signal .messageComplete]

/-- The fields after the message. -/
def clientOutcome : ParserFields := { httpMajor := 1, method := httpGet }

/-- `HPE_CLOSED_CONNECTION`. -/
def hpeClosedConnection : Nat := 13

/-- The library on the client's request: what is left of the message, and whether bytes
have come behind it. -/
def clientParser : HttpParser where
  State := List (Region DataKind Notification) × Bool
  init := (clientScript, false)
  execute := fun (regions, closed) data =>
    if closed = true then ((regions, closed), [])
    else (((Region.scan regions data).1, decide (Region.size regions < data.length)),
      (Region.scan regions data).2)
  fields := fun (regions, closed) =>
    if closed = true then { httpErrno := hpeClosedConnection }
    else if regions = [] then clientOutcome else {}
  init_fields := rfl
  sticky := by
    rintro ⟨regions, closed⟩ data failed
    cases closed with
    | true => rfl
    | false =>
        refine absurd ?_ failed
        by_cases none : regions = []
        · simp [none, clientOutcome, hpeOk]
        · simp [none, hpeOk]

theorem size_clientScript : Region.size clientScript = 2169 := by decide

theorem closed_clientScript : Region.Closed clientScript := by decide

/-- As long as no byte has come behind the message, the library follows the script. -/
theorem clientParser_spec (regions : List (Region DataKind Notification)) (pieces : List Bytes)
    (inside : pieces.flatten.length ≤ Region.size regions) :
    clientParser.callbacks (regions, false) pieces = Region.deliver regions pieces ∧
      clientParser.after (regions, false) pieces = (Region.remaining regions pieces, false) := by
  induction pieces generalizing regions with
  | nil => exact ⟨rfl, rfl⟩
  | cons data later inductionHypothesis =>
      rw [List.flatten_cons, List.length_append] at inside
      have executed : clientParser.execute (regions, false) data =
          (((Region.scan regions data).1, false), (Region.scan regions data).2) := by
        have fits : decide (Region.size regions < data.length) = false :=
          decide_eq_false (by omega)
        simp only [clientParser, fits]
        rfl
      have rest := inductionHypothesis (Region.scan regions data).1 (by
        rw [Region.size_scan]
        omega)
      constructor
      · change (clientParser.execute (regions, false) data).2 ++
          clientParser.callbacks (clientParser.execute (regions, false) data).1 later = _
        rw [executed]
        exact congrArg ((Region.scan regions data).2 ++ ·) rest.1
      · change clientParser.after (clientParser.execute (regions, false) data).1 later = _
        rw [executed]
        exact rest.2

/-- A byte behind the message is an error, and stays one. -/
theorem clientParser_beyond (regions : List (Region DataKind Notification)) (pieces : List Bytes)
    (beyond : Region.size regions < pieces.flatten.length) :
    (clientParser.fields (clientParser.after (regions, false) pieces)).httpErrno =
      hpeClosedConnection := by
  have closed : ∀ (regions : List (Region DataKind Notification)) (later : List Bytes),
      (clientParser.fields (clientParser.after (regions, true) later)).httpErrno =
        hpeClosedConnection := by
    intro regions later
    induction later with
    | nil => rfl
    | cons data later inductionHypothesis => exact inductionHypothesis
  induction pieces generalizing regions with
  | nil => exact absurd beyond (Nat.not_lt_zero _)
  | cons data later inductionHypothesis =>
      rw [List.flatten_cons, List.length_append] at beyond
      change (clientParser.fields (clientParser.after
        (clientParser.execute (regions, false) data).1 later)).httpErrno = _
      by_cases here : Region.size regions < data.length
      · have executed : (clientParser.execute (regions, false) data).1 =
            ((Region.scan regions data).1, true) := by
          simp only [clientParser, decide_eq_true here]
          rfl
        rw [executed]
        exact closed _ later
      · have executed : (clientParser.execute (regions, false) data).1 =
            ((Region.scan regions data).1, false) := by
          simp only [clientParser, decide_eq_false here]
          rfl
        rw [executed]
        refine inductionHypothesis _ ?_
        rw [Region.size_scan]
        omega

theorem document_clientScript : Region.document clientScript framedRequest = framed.items := by
  have head : Region.document clientHeadScript clientHead =
      .signal .messageBegin :: .text .url framed.url ::
        (lineItems framed.headers ++ [.signal .headersComplete]) := by decide +kernel
  have covered : clientHead.length = Region.size clientHeadScript := by decide +kernel
  have filled : clientContent ≠ [] := by
    intro none
    have length := congrArg List.length none
    rw [length_clientContent] at length
    cases length
  have body : Region.document ([.text .body false 2048] ++ [.signal .messageComplete] :
      List (Region DataKind Notification)) clientContent =
        framed.body.items ++ [.signal .messageComplete] := by
    rw [framed, Body.items, if_neg filled]
    change [Item.text DataKind.body (clientContent.take 2048),
      .signal Notification.messageComplete] = _
    rw [List.take_of_length_le (Nat.le_of_eq length_clientContent)]
    rfl
  rw [clientScript, List.append_assoc, framedRequest, Region.document_append covered, head, body,
    Request.items]
  simp

/-- The library keeps all its promises about the client's bytes. -/
def clientReads : ReadsClient clientParser where
  message := {
    items := framed.items
    outcome := clientOutcome
    ordered := framed.wellOrdered_items
    delivered := by
      intro pieces cut
      have length : pieces.flatten.length = Region.size clientScript := by
        rw [cut.1, length_framedRequest, size_clientScript]
      have spec := (clientParser_spec clientScript pieces (Nat.le_of_eq length)).1
      have fragments := Region.fragments_deliver closed_clientScript
        (fun none => absurd none (by rw [size_clientScript]; decide)) length
      rw [cut.1, document_clientScript] at fragments
      exact spec ▸ fragments
    reported := by
      intro pieces cut
      have length : pieces.flatten.length = Region.size clientScript := by
        rw [cut.1, length_framedRequest, size_clientScript]
      have spec := (clientParser_spec clientScript pieces (Nat.le_of_eq length)).2
      have left := Region.remaining_eq_nil closed_clientScript
        (fun none => absurd none (by rw [size_clientScript]; decide)) (Nat.le_of_eq length.symm)
      rw [left] at spec
      change clientParser.fields (clientParser.after (clientScript, false) pieces) = _
      rw [spec]
      rfl
    ends := by
      intro part pieces inside proper cut
      have shorter : pieces.flatten.length < 2169 := by
        rw [cut.1, ← length_framedRequest]
        exact Nat.lt_of_le_of_ne inside.length_le fun same => proper (inside.eq_of_length same)
      have front : Region.size (clientHeadScript ++ [.text .body false 2048]) = 2169 := by decide
      have spec := (clientParser_spec clientScript pieces
        (Nat.le_of_lt (size_clientScript ▸ shorter))).1
      change Item.signal Notification.messageComplete ∉
        clientParser.callbacks (clientScript, false) pieces
      rw [spec]
      exact Region.signal_notMem_deliver (by decide) (front ▸ shorter) }
  items := rfl
  healthy := rfl
  method := rfl
  beyond := by
    intro part pieces _ long cut
    have errno := clientParser_beyond clientScript pieces
      (by rw [cut.1, size_clientScript, ← length_framedRequest]; exact long)
    change (clientParser.fields (clientParser.after (clientScript, false) pieces)).httpErrno ≠ _
    rw [errno]
    decide

def clientEnv : Env where
  library := clientParser
  iteration := .entries
  handler := .repository

/-- The client's request in reads that fill the buffer. -/
def clientEvents : List Event :=
  [.acceptDone 0 .success, .hanldeAccept 0 false,
    .readDone 0 0 (clientRequest.take 1024), .handleRead 0 0 [] false,
    .readDone 0 0 ((clientRequest.drop 1024).take 1024), .handleRead 0 0 [] false,
    .readDone 0 0 (clientRequest.drop 2048), .handleRead 0 0 [] false]

/-- The client is told that its request was bad. -/
theorem fullBuffers_replied : ∃ server : Server clientEnv,
    (Server.machine clientEnv).run (Server.machine clientEnv).initial clientEvents = some server ∧
      (server.connection 0).called = [] ∧
      ∃ date, .asyncWriteSome (Connection.badRequestBuffers clientEnv date).whole ∈
          (server.connection 0).log ∧
        (Unbroken date → ∀ pieces count,
          pieces.flatten = (Connection.badRequestBuffers clientEnv date).whole.take count →
            converse pieces =
              if count < (statusLine .badRequest).length then .threw else .notOk 400) := by
  have outcome : ((Server.machine clientEnv).run (Server.machine clientEnv).initial
      clientEvents).map (fun server =>
        decide ((server.connection 0).parsed = [clientRequest.take 1024,
          (clientRequest.drop 1024).take 1024, clientRequest.drop 2048])) = some true := by
    decide +kernel
  rcases Option.map_eq_some_iff.mp outcome with ⟨server, steps, read⟩
  have cut : Segments clientRequest (server.connection 0).parsed := by
    rw [of_decide_eq_true read]
    decide +kernel
  have length : clientRequest.length = 2171 := by
    rw [clientRequest_eq, List.length_append, length_framedRequest]
    rfl
  have replied := clientRequest_replied clientReads ⟨_, steps⟩ (List.prefix_refl _) cut
  exact ⟨server, steps, replied.2.2 (by rw [length, length_framedRequest]; decide)⟩

end Http
end LearnAsio
