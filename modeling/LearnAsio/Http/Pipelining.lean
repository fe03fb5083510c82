import LearnAsio.Http.Dispatch

namespace LearnAsio
namespace Http

open Delivery Transition

/-!
# Several requests in one byte stream

After the end of a request that is kept alive the library goes on in the same
call and reports what it finds of the next one.  Nothing separates the two in a
message object: `on_message_begin` is empty, and `parse` looks at the outcome
only when the call has returned.

`Pipelined` records what the library does with the bytes of several requests up
to the read that completes the first.  The theorem says exactly when what is
handed to the request handler is nevertheless the first request.
-/

variable {env : Env}

/-! ## The first request alone -/

namespace Request

/-- The header lines that end up in the table: those of the header section, with
the names of empty values glued to the next name, and those of the trailer
section except the last, which no later callback saves. -/
def stored (request : Request) : List (Bytes × Bytes) :=
  glue [] request.headers ++ glue (glueRest [] request.headers) request.body.trailers.dropLast

/-- Every name of the request keeps its last value in the table. -/
def StoredKept (request : Request) : Prop :=
  ∀ name, lastValue request.stored name = lastValue (request.lines.map HeaderLine.pair) name

/-- Without empty values and without a trailer section the table is the intended
one. -/
theorem storedKept_of_nonempty {request : Request}
    (filled : ∀ line ∈ request.headers, line.value ≠ [])
    (noTrailers : request.body.trailers = []) : request.StoredKept := by
  intro name
  rw [stored, lines, noTrailers, glue_of_nonempty filled]
  simp only [List.dropLast_nil, glue, List.append_nil]

theorem wellOrdered_items (request : Request) : WellOrdered false request.items := by
  have closed : WellOrdered false [Item.signal Notification.messageComplete] := trivial
  have body : WellOrdered false (request.body.items ++ [.signal .messageComplete]) := by
    cases request.body with
    | identity content =>
        by_cases none : content = []
        · rw [Body.items, if_pos none]
          exact closed
        · rw [Body.items, if_neg none]
          exact closed
    | chunked chunks trailers =>
        have ending : WellOrdered false (.signal .chunkHeader ::
            (lineItems trailers ++ [.signal .chunkComplete]) ++ [.signal .messageComplete]) := by
          rw [List.cons_append, List.append_assoc]
          exact wellOrdered_lineItems trailers closed
        rw [Body.items, List.append_assoc]
        induction chunks with
        | nil => exact ending
        | cons chunk rest inductionHypothesis => exact inductionHypothesis
  exact wellOrdered_lineItems request.headers body

end Request

namespace Fields

theorem foldl_handle_url (message : Fields) (calls : List Callback) :
    (calls.foldl handle message).url = message.url ++ contentOf .url calls := by
  refine foldl_content handle (fun message => message.url) (fun _ _ => rfl) ?_ message calls
  intro state item other
  have saved : state.saveHeaders.url = state.url := by
    unfold saveHeaders
    split <;> rfl
  cases item with
  | text kind content =>
      cases kind with
      | url => exact absurd rfl (other content)
      | headerField => exact saved
      | _ => rfl
  | signal sign =>
      cases sign with
      | headersComplete => exact saved
      | _ => rfl

theorem foldl_handle_body (message : Fields) (calls : List Callback) :
    (calls.foldl handle message).body = message.body ++ contentOf .body calls := by
  refine foldl_content handle (fun message => message.body) (fun _ _ => rfl) ?_ message calls
  intro state item other
  have saved : state.saveHeaders.body = state.body := by
    unfold saveHeaders
    split <;> rfl
  cases item with
  | text kind content =>
      cases kind with
      | body => exact absurd rfl (other content)
      | headerField => exact saved
      | _ => rfl
  | signal sign =>
      cases sign with
      | headersComplete => exact saved
      | _ => rfl

/-- The trailer section is stored without its last line, since the callback of a
line saves only the one before it. -/
theorem foldl_handle_trailers (message : Fields) (trailers : List HeaderLine)
    (empty : message.currentHeaderValue = []) :
    ((lineItems trailers).foldl handle message).headers =
      assignAll message.headers (glue message.currentHeaderField trailers.dropLast) := by
  rcases List.eq_nil_or_concat' trailers with none | ⟨earlier, last, shape⟩
  · rw [none]
    rfl
  · have folded : (lineItems trailers).foldl handle message =
        (lineItems [last]).foldl handle ((lineItems earlier).foldl handle message) := by
      rw [shape, lineItems, List.flatMap_append, List.foldl_append]
      rfl
    have saved : ((lineItems [last]).foldl handle
        ((lineItems earlier).foldl handle message)).headers =
          ((lineItems earlier).foldl handle message).saveHeaders.headers := rfl
    rw [folded, saved, saveHeaders_lineItems message earlier empty, shape, List.dropLast_concat]

/-- The chunks of a body go into the body and nowhere else. -/
theorem foldl_handle_chunks (message : Fields) (chunks : List Bytes) :
    (chunks.flatMap fun chunk => ([.signal .chunkHeader, .text .body chunk,
      .signal .chunkComplete] : List Callback)).foldl handle message =
        { message with body := message.body ++ chunks.flatten } := by
  induction chunks generalizing message with
  | nil =>
      rw [List.flatMap_nil, List.foldl_nil, List.flatten_nil, List.append_nil]
  | cons chunk rest inductionHypothesis =>
      rw [List.flatMap_cons, List.foldl_append, inductionHypothesis, List.flatten_cons,
        ← List.append_assoc]
      rfl

/-- What a body does to the table. -/
theorem foldl_handle_bodyItems (message : Fields) (body : Body)
    (empty : message.currentHeaderValue = []) :
    (body.items.foldl handle message).headers =
      assignAll message.headers (glue message.currentHeaderField body.trailers.dropLast) := by
  cases body with
  | identity content =>
      by_cases none : content = []
      · rw [Body.items, if_pos none]
        rfl
      · rw [Body.items, if_neg none]
        rfl
  | chunked chunks trailers =>
      rw [Body.items, List.foldl_append, foldl_handle_chunks, List.foldl_cons, List.foldl_append]
      exact foldl_handle_trailers
        { message with body := message.body ++ chunks.flatten } trailers empty

end Fields

theorem contentOf_lineItems {kind : DataKind} (noField : DataKind.headerField ≠ kind)
    (noValue : DataKind.headerValue ≠ kind) (lines : List HeaderLine) :
    contentOf kind (lineItems lines) = [] := by
  induction lines with
  | nil => rfl
  | cons line rest inductionHypothesis =>
      rw [lineItems_cons, contentOf_text_of_ne noField, contentOf_text_of_ne noValue]
      exact inductionHypothesis

theorem contentOf_chunks (chunks : List Bytes) :
    contentOf .body (chunks.flatMap fun chunk => ([.signal .chunkHeader, .text .body chunk,
      .signal .chunkComplete] : List Callback)) = chunks.flatten := by
  induction chunks with
  | nil => rfl
  | cons chunk rest inductionHypothesis =>
      rw [List.flatMap_cons, contentOf_append, inductionHypothesis, List.flatten_cons]
      exact congrArg (· ++ rest.flatten) (List.append_nil chunk)

theorem contentOf_chunks_url (chunks : List Bytes) :
    contentOf .url (chunks.flatMap fun chunk => ([.signal .chunkHeader, .text .body chunk,
      .signal .chunkComplete] : List Callback)) = [] := by
  induction chunks with
  | nil => rfl
  | cons chunk rest inductionHypothesis =>
      rw [List.flatMap_cons, contentOf_append, inductionHypothesis]
      rfl

namespace Body

theorem contentOf_items_body (body : Body) : contentOf .body body.items = body.content := by
  cases body with
  | identity content =>
      by_cases none : content = []
      · rw [items, if_pos none]
        exact none.symm
      · rw [items, if_neg none]
        exact List.append_nil content
  | chunked chunks trailers =>
      have lines : contentOf .body (lineItems trailers) = [] :=
        contentOf_lineItems (by decide) (by decide) trailers
      rw [items, contentOf_append, contentOf_chunks, contentOf_signal, contentOf_append, lines]
      exact List.append_nil chunks.flatten

theorem contentOf_items_url (body : Body) : contentOf .url body.items = [] := by
  cases body with
  | identity content =>
      by_cases none : content = []
      · rw [items, if_pos none]
        rfl
      · rw [items, if_neg none]
        rfl
  | chunked chunks trailers =>
      have lines : contentOf .url (lineItems trailers) = [] :=
        contentOf_lineItems (by decide) (by decide) trailers
      rw [items, contentOf_append, contentOf_chunks_url, contentOf_signal, contentOf_append, lines]
      rfl

end Body

namespace Request

variable (request : Request)

/-- The members that the callbacks of one request accumulate. -/
def accumulated : Fields := request.items.foldl Fields.handle {}

theorem accumulated_url : request.accumulated.url = request.url := by
  have lines : contentOf .url (lineItems request.headers) = [] :=
    contentOf_lineItems (by decide) (by decide) request.headers
  have content : contentOf .url request.items = request.url := by
    rw [items, contentOf_signal, contentOf_text_self, contentOf_append, lines, contentOf_signal,
      contentOf_append, request.body.contentOf_items_url]
    exact List.append_nil request.url
  exact (Fields.foldl_handle_url {} request.items).trans content

theorem accumulated_body : request.accumulated.body = request.body.content := by
  have lines : contentOf .body (lineItems request.headers) = [] :=
    contentOf_lineItems (by decide) (by decide) request.headers
  have content : contentOf .body request.items = request.body.content := by
    rw [items, contentOf_signal, contentOf_text_of_ne (by decide), contentOf_append, lines,
      contentOf_signal, contentOf_append, request.body.contentOf_items_body]
    exact List.append_nil request.body.content
  exact (Fields.foldl_handle_body {} request.items).trans content

theorem accumulated_headers : request.accumulated.headers = assignAll ∅ request.stored := by
  have section_ := Fields.saveHeaders_lineItems { url := request.url } request.headers rfl
  have folded : request.accumulated.headers =
      (request.body.items.foldl Fields.handle
        ((lineItems request.headers).foldl Fields.handle { url := request.url }).saveHeaders
      ).headers := by
    rw [accumulated, items, List.foldl_cons, List.foldl_cons, List.foldl_append, List.foldl_cons,
      List.foldl_append]
    rfl
  rw [folded, section_, Fields.foldl_handle_bodyItems _ _ rfl, stored]
  exact List.foldl_append.symm

end Request

/-! ## What the library does with several requests -/

/-- A request with the bytes around its URL.  It is persistent when the library
goes on after its end: it is kept alive and no upgrade. -/
structure WireRequest extends Request where
  lead : Bytes
  trail : Bytes
  persistent : Bool

def WireRequest.wire (request : WireRequest) : Bytes :=
  request.lead ++ request.url ++ request.trail

/-- The bytes read beyond the end of the first request reach the URL of the
next. -/
def ReachesUrl (later : List WireRequest) (rest : Bytes) : Prop :=
  ∃ next others, later = next :: others ∧ next.lead.length < rest.length

/-- What the library promises about reads that hold a first request and the
beginning of what follows it.  The callbacks of the first request come first,
those of later ones as far as the bytes go; the method field is the one of the
last request that has begun. -/
structure Pipelined (library : HttpParser) (pieces : List Bytes) (first : WireRequest)
    (later : List WireRequest) (rest : Bytes) where
  own : List Callback
  spill : List Callback
  unread : List Callback
  begun : List Nat
  received : pieces.flatten = first.wire ++ rest
  ahead : rest <+: (later.map WireRequest.wire).flatten
  callbacks : library.callbacks library.init pieces = own ++ spill
  firstItems : Fragments own first.items
  laterItems : Fragments (spill ++ unread) (later.flatMap fun request => request.items)
  reaches : contentOf .url spill ≠ [] ↔ first.persistent = true ∧ ReachesUrl later rest
  method : (library.fields (library.after library.init pieces)).method =
    methodField (.request first.method :: begun.map .request)
  noneBegun : rest = [] → begun = []

namespace Pipelined

variable {library : HttpParser} {pieces : List Bytes} {first : WireRequest}
  {later : List WireRequest} {rest : Bytes}

/-- Before the URL of the next request, nothing has an effect on the members. -/
theorem foldl_spill (stream : Pipelined library pieces first later rest)
    (unreached : contentOf .url stream.spill = []) (message : Fields) :
    stream.spill.foldl Fields.handle message = message := by
  have harmless : ∀ callback ∈ stream.spill,
      callback = .signal .messageBegin ∨ callback = .text .url [] := by
    have fragments := stream.laterItems
    revert fragments unreached
    generalize stream.spill = spill
    intro unreached fragments callback listed
    cases later with
    | nil =>
        have none := (List.append_eq_nil_iff.mp fragments.of_nil).1
        rw [none] at listed
        cases listed
    | cons next others =>
        rw [List.flatMap_cons, Request.items, List.cons_append, List.cons_append] at fragments
        cases spill with
        | nil => cases listed
        | cons head tail =>
            rcases fragments.of_signal with ⟨others, shape, tailFragments⟩
            rw [List.cons_append, List.cons.injEq] at shape
            rw [← shape.2] at tailFragments
            rw [shape.1] at listed unreached
            rcases List.mem_cons.mp listed with here | after
            · exact Or.inl here
            · exact Or.inr (tailFragments.empty_before_content next.url_ne unreached
                callback after)
  have kept : ∀ callback ∈ stream.spill, ∀ message : Fields, message.handle callback = message := by
    intro callback listed message
    rcases harmless callback listed with begins | empty
    · rw [begins]
      rfl
    · rw [empty]
      have same : message.url ++ [] = message.url := List.append_nil message.url
      rw [Fields.handle, Fields.onUrl, same]
  revert kept
  generalize stream.spill = spill
  intro kept
  induction spill with
  | nil => rfl
  | cons callback rest inductionHypothesis =>
      rw [List.foldl_cons, kept callback List.mem_cons_self]
      exact inductionHypothesis fun other listed => kept other (List.mem_cons_of_mem _ listed)

/-- All calls together accumulate the first request and then what has spilt. -/
theorem accumulated_eq (stream : Pipelined library pieces first later rest) :
    HttpMessage.accumulated library pieces =
      stream.spill.foldl Fields.handle first.accumulated := by
  rw [HttpMessage.accumulated, stream.callbacks, List.foldl_append,
    Fields.foldl_handle_fragments stream.firstItems first.wellOrdered_items (Or.inl rfl)]
  rfl

end Pipelined

/-! ## What the handler is given -/

/-- The handler is given the first request and nothing else. -/
def Isolated (first : Request) (request : PublicFields) : Prop :=
  request.url = first.url ∧ request.body = first.body.content ∧
    request.method = Fields.readMethod first.method .invalid ∧
    ∀ name, request.headers.lookup name = lastValue (first.lines.map HeaderLine.pair) name

/-- The later requests that have begun leave the method what it was for the
switch in `parse`. -/
def SameMethod (first : Request) (begun : List Nat) : Prop :=
  Fields.readMethod (methodField (.request first.method :: begun.map .request)) .invalid =
    Fields.readMethod first.method .invalid

/-- What a connection hands to a handler is the completed request object. -/
theorem request_of_called {connection : Connection env} (traced : connection.Traced)
    {handler : HandlerMethod} {request : PublicFields}
    (call : (handler, request) ∈ connection.called) :
    connection.request.messageStatus = .complete ∧
      request = connection.request.toPublicFields := by
  by_cases complete : connection.request.messageStatus = .complete
  · refine ⟨complete, ?_⟩
    rw [called_of_complete traced complete] at call
    rcases List.mem_map.mp (Option.toList_map ▸ call) with ⟨_, _, same⟩
    exact (Prod.ext_iff.mp same).2.symm
  · rw [traced.called, if_neg complete] at call
    cases call

/-- Whatever reads have brought a first request and the bytes after it: what the
handler is given is the first request exactly when these bytes do not reach the
URL of the next request, the method is not replaced by another one, and the
first request by itself keeps its header lines. -/
theorem called_isolated_iff {server : Server env} (reached : (Server.machine env).Reachable server)
    {id : Nat} {handler : HandlerMethod} {request : PublicFields}
    (call : (handler, request) ∈ (server.connection id).called)
    {first : WireRequest} {later : List WireRequest} {rest : Bytes}
    (stream : Pipelined env.library (server.connection id).parsed first later rest) :
    (Isolated first.toRequest request ↔
        ¬ (first.persistent = true ∧ ReachesUrl later rest) ∧
          SameMethod first.toRequest stream.begun ∧ first.StoredKept) ∧
      (rest = [] → (Isolated first.toRequest request ↔ first.StoredKept)) := by
  have traced := traced_of_reachable reached id
  rcases request_of_called traced call with ⟨complete, same⟩
  have members : request =
      ((HttpMessage.accumulated env.library (server.connection id).parsed).readParser
        (env.library.fields (server.connection id).request.parser)).toPublicFields := by
    rw [same]
    exact congrArg Fields.toPublicFields (traced.request_of_complete complete)
  rw [stream.accumulated_eq] at members
  have url : request.url = first.url ++ contentOf .url stream.spill := by
    rw [members, ← first.accumulated_url]
    exact Fields.foldl_handle_url _ _
  have method : request.method = Fields.readMethod
      (methodField (.request first.method :: stream.begun.map .request)) .invalid := by
    have parser : (server.connection id).request.parser =
        env.library.after env.library.init (server.connection id).parsed := by
      rw [traced.request, HttpMessage.parser_feed]
      rfl
    have untouched : (stream.spill.foldl Fields.handle first.accumulated).method = .invalid :=
      (Fields.foldl_handle_method _ _).trans (Fields.foldl_handle_method _ _)
    rw [members, ← stream.method, ← parser, ← untouched]
    rfl
  have exactly : Isolated first.toRequest request ↔
      ¬ (first.persistent = true ∧ ReachesUrl later rest) ∧
        SameMethod first.toRequest stream.begun ∧ first.StoredKept := by
    rw [← stream.reaches, Classical.not_not]
    -- Without spilt content the members are those of the first request.
    have alone : contentOf .url stream.spill = [] →
        request.body = first.body.content ∧ request.headers = assignAll ∅ first.stored := by
      intro unreached
      rw [stream.foldl_spill unreached] at members
      rw [members]
      exact ⟨first.accumulated_body, first.accumulated_headers⟩
    constructor
    · rintro ⟨sameUrl, _, sameMethod, sameHeaders⟩
      have unreached : contentOf .url stream.spill = [] := by
        rw [url] at sameUrl
        exact List.append_right_eq_self.mp sameUrl
      refine ⟨unreached, ?_, ?_⟩
      · rw [SameMethod, ← method]
        exact sameMethod
      · intro name
        have found := sameHeaders name
        rw [(alone unreached).2, lookup_assignAll, AList.lookup_empty, Option.or_none] at found
        exact found
    · rintro ⟨unreached, sameMethod, kept⟩
      refine ⟨?_, (alone unreached).1, ?_, ?_⟩
      · rw [url, unreached, List.append_nil]
      · rw [method]
        exact sameMethod
      · intro name
        rw [(alone unreached).2, lookup_assignAll, AList.lookup_empty, Option.or_none]
        exact kept name
  refine ⟨exactly, ?_⟩
  intro nothing
  rw [exactly]
  constructor
  · exact fun holds => holds.2.2
  · intro kept
    refine ⟨?_, ?_, kept⟩
    · rintro ⟨_, next, others, _, short⟩
      rw [nothing] at short
      exact Nat.not_lt_zero _ short
    · rw [SameMethod, stream.noneBegun nothing]
      rfl

/-! ### Two requests for two documents -/

/-- `GET` for one document, without header lines or a body. -/
def getRequest (url : Bytes) (url_ne : url ≠ []) : WireRequest where
  method := httpGet
  url := url
  url_ne := url_ne
  headers := []
  body := .identity []
  lead := bytes "GET "
  trail := bytes " HTTP/1.1\r\n\r\n"
  persistent := true

def getA : WireRequest := getRequest (bytes "/a") (by decide)
def getB : WireRequest := getRequest (bytes "/b") (by decide)

/-- The library on a read that holds the first request and `rest`. -/
def getAParser (rest : Bytes) (spill : List Callback) : HttpParser :=
  .once (getA.wire ++ rest) (getA.items ++ spill)
    { method := httpGet, httpMajor := 1, httpMinor := 1, shouldKeepAlive := true }

def getAEnv (rest : Bytes) (spill : List Callback) : Env where
  library := getAParser rest spill
  iteration := .entries
  handler := .repository

/-- The read ends within the method of the second request. -/
def beforeUrl : Pipelined (getAParser (bytes "GET") [.signal .messageBegin])
    [getA.wire ++ bytes "GET"] getA [getB] (bytes "GET") where
  own := getA.items
  spill := [.signal .messageBegin]
  unread := getB.items.tail
  begun := [httpGet]
  received := rfl
  ahead := ⟨bytes " /b HTTP/1.1\r\n\r\n", rfl⟩
  callbacks := rfl
  firstItems := Fragments.refl _
  laterItems := Fragments.refl _
  reaches := by
    constructor
    · intro reached
      exact absurd rfl reached
    · rintro ⟨_, next, others, same, short⟩
      cases same
      exact absurd short (by decide)
  method := rfl
  noneBegun := by
    intro impossible
    exact absurd impossible (by decide)

/-- The read holds both requests. -/
def bothRequests : Pipelined (getAParser getB.wire getB.items)
    [getA.wire ++ getB.wire] getA [getB] getB.wire where
  own := getA.items
  spill := getB.items
  unread := []
  begun := [httpGet]
  received := rfl
  ahead := ⟨[], rfl⟩
  callbacks := rfl
  firstItems := Fragments.refl _
  laterItems := Fragments.refl _
  reaches := by
    constructor
    · intro _
      exact ⟨rfl, getB, [], rfl, by decide⟩
    · intro _
      decide
  method := rfl
  noneBegun := by
    intro impossible
    exact absurd impossible (by decide)

/-- The beginning of a second request does no harm before its URL. -/
theorem beforeUrl_isolated :
    ∃ server : Server (getAEnv (bytes "GET") [.signal .messageBegin]),
      (Server.machine _).Reachable server ∧
        ∃ handler request, (handler, request) ∈ (server.connection 0).called ∧
          Isolated getA.toRequest request := by
  have outcome : ((Server.machine (getAEnv (bytes "GET") [.signal .messageBegin])).run
      (Server.machine _).initial (servedUntilWrite (getA.wire ++ bytes "GET"))).map
        (fun server => decide ((server.connection 0).parsed = [getA.wire ++ bytes "GET"] ∧
          (server.connection 0).called.map Prod.fst = [.onGet])) = some true := by
    decide +kernel
  rcases Option.map_eq_some_iff.mp outcome with ⟨server, steps, holds⟩
  rcases of_decide_eq_true holds with ⟨parsed, calls⟩
  have reached : (Server.machine _).Reachable server := ⟨_, steps⟩
  have listed : HandlerMethod.onGet ∈ (server.connection 0).called.map Prod.fst :=
    calls ▸ List.mem_cons_self
  rcases List.mem_map.mp listed with ⟨⟨handler, request⟩, call, _⟩
  have promised : ∃ stream : Pipelined (getAEnv (bytes "GET") [.signal .messageBegin]).library
      (server.connection 0).parsed getA [getB] (bytes "GET"), stream.begun = [httpGet] := by
    rw [parsed]
    exact ⟨beforeUrl, rfl⟩
  rcases promised with ⟨stream, begun⟩
  refine ⟨server, reached, handler, request, call, ?_⟩
  refine (called_isolated_iff reached call stream).1.mpr ⟨?_, ?_, ?_⟩
  · rintro ⟨_, next, others, same, short⟩
    cases same
    exact absurd short (by decide)
  · rw [begun]
    rfl
  · exact Request.storedKept_of_nonempty (by decide) rfl

/-- With both requests in one read the handler is given a URL that is neither
of theirs. -/
theorem bothRequests_not_isolated : ∃ server : Server (getAEnv getB.wire getB.items),
    (Server.machine _).Reachable server ∧
      Nonempty (Pipelined (getAEnv getB.wire getB.items).library (server.connection 0).parsed
        getA [getB] getB.wire) ∧
      ∃ handler request, (handler, request) ∈ (server.connection 0).called ∧
        ¬ Isolated getA.toRequest request := by
  have outcome : ((Server.machine (getAEnv getB.wire getB.items)).run
      (Server.machine _).initial (servedUntilWrite (getA.wire ++ getB.wire))).map
        (fun server => decide ((server.connection 0).parsed = [getA.wire ++ getB.wire] ∧
          (server.connection 0).called.map (fun call => call.2.url) = [bytes "/a/b"])) =
      some true := by
    decide +kernel
  rcases Option.map_eq_some_iff.mp outcome with ⟨server, steps, holds⟩
  rcases of_decide_eq_true holds with ⟨parsed, urls⟩
  have listed : bytes "/a/b" ∈ (server.connection 0).called.map (fun call => call.2.url) :=
    urls ▸ List.mem_cons_self
  rcases List.mem_map.mp listed with ⟨⟨handler, request⟩, call, url⟩
  refine ⟨server, ⟨_, steps⟩, ⟨parsed ▸ bothRequests⟩, handler, request, call, ?_⟩
  rintro ⟨same, _⟩
  rw [show request.url = bytes "/a/b" from url] at same
  exact absurd same (by decide)

end Http
end LearnAsio
