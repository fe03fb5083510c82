import LearnAsio.Http.Pipelining

namespace LearnAsio
namespace Http

open Delivery

/-!
# The trailer section of a chunked request

A header line is stored by the callback after it: the name of the next line, or
`on_headers_complete` for the last line of the header section.  The library
calls `on_headers_complete` once, before the body.  The last trailer line is
therefore never stored and stays behind as the pending pair, whatever the number
of headers, chunks and trailers and however the texts are cut.
-/

/-- With values everywhere no name is left over. -/
theorem glueRest_of_nonempty {lines : List HeaderLine}
    (filled : ∀ line ∈ lines, line.value ≠ []) : glueRest [] lines = [] := by
  induction lines with
  | nil => rfl
  | cons line rest inductionHypothesis =>
      rw [glueRest, if_neg (filled line List.mem_cons_self)]
      exact inductionHypothesis fun other listed => filled other (List.mem_cons_of_mem _ listed)

namespace Fields

/-! ## The table and the pending line -/

/-- The members that the header callbacks read and write. -/
def headerState (message : Fields) : HeaderMap × Bytes × Bytes :=
  (message.headers, message.currentHeaderField, message.currentHeaderValue)

theorem headerState_saveHeaders {first second : Fields}
    (same : first.headerState = second.headerState) :
    first.saveHeaders.headerState = second.saveHeaders.headerState := by
  rcases Prod.ext_iff.mp same with ⟨headers, pending⟩
  rcases Prod.ext_iff.mp pending with ⟨field, value⟩
  dsimp only [headerState] at headers field value
  unfold saveHeaders
  rw [headers, field, value]
  split
  · rfl
  · exact same

/-- No callback lets another member into the table or the pending line. -/
theorem headerState_handle {first second : Fields}
    (same : first.headerState = second.headerState) (callback : Callback) :
    (first.handle callback).headerState = (second.handle callback).headerState := by
  cases callback with
  | text kind content =>
      cases kind with
      | headerField =>
          have saved := headerState_saveHeaders same
          simp only [headerState, Prod.mk.injEq] at saved
          simp only [handle, onHeaderField, headerState, saved]
      | headerValue =>
          simp only [headerState, Prod.mk.injEq] at same
          simp only [handle, onHeaderValue, headerState, same]
      | _ => exact same
  | signal sign =>
      cases sign with
      | headersComplete => exact headerState_saveHeaders same
      | _ => exact same

theorem headerState_foldl {first second : Fields} (same : first.headerState = second.headerState)
    (calls : List Callback) :
    (calls.foldl handle first).headerState = (calls.foldl handle second).headerState := by
  induction calls generalizing first second with
  | nil => exact same
  | cons callback rest inductionHypothesis =>
      exact inductionHypothesis (headerState_handle same callback)

/-- Neither does the end of `parse`. -/
theorem headerState_conclude (message : Fields) (parser : ParserFields) :
    (message.conclude parser).headerState = message.headerState := by
  unfold conclude markError
  split <;> split <;> rfl

end Fields

namespace HttpMessage

variable {library : HttpParser}

/-- The table and the pending line of a message are those that the callbacks of
all calls make of the ones it started with. -/
theorem headerState_feed (message : HttpMessage library) (pieces : List Bytes) :
    (message.feed pieces).headerState =
      ((library.callbacks message.parser pieces).foldl Fields.handle
        message.toFields).headerState := by
  induction pieces generalizing message with
  | nil => rfl
  | cons data rest inductionHypothesis =>
      have ahead := inductionHypothesis (message.parse data).1
      rw [parser_parse, parse_toFields] at ahead
      rw [HttpParser.callbacks, List.foldl_append]
      refine ahead.trans (Fields.headerState_foldl ?_ _)
      exact Fields.headerState_conclude _ _

end HttpMessage

/-! ## What a chunked request leaves behind -/

namespace Fields

/-- The last line of a section is pending after its callbacks, the earlier ones
are stored. -/
theorem foldl_handle_pending (message : Fields) (earlier : List HeaderLine) (last : HeaderLine)
    (named : message.currentHeaderField = []) (empty : message.currentHeaderValue = [])
    (filled : ∀ line ∈ earlier, line.value ≠ []) :
    (lineItems (earlier ++ [last])).foldl handle message =
      { message with
        headers := assignAll message.headers (earlier.map HeaderLine.pair)
        currentHeaderField := last.name
        currentHeaderValue := last.value } := by
  have split : lineItems (earlier ++ [last]) = lineItems earlier ++ last.items := by
    rw [lineItems, List.flatMap_append, List.flatMap_singleton]
    rfl
  have saved := saveHeaders_lineItems message earlier empty
  rw [named, glue_of_nonempty filled, glueRest_of_nonempty filled] at saved
  rw [split, List.foldl_append, HeaderLine.items, List.foldl_cons, List.foldl_cons, List.foldl_nil]
  simp only [handle, onHeaderField, onHeaderValue, saved, empty, List.nil_append]

end Fields

namespace Request

variable {request : Request} {chunks : List Bytes} {trailers : List HeaderLine}

/-- The table and the pending line after a chunked request, as far as its
trailers: everything between leaves them alone. -/
theorem headerState_accumulated (chunked : request.body = .chunked chunks trailers)
    (filled : ∀ line ∈ request.headers, line.value ≠ []) :
    request.accumulated.headerState = ((lineItems trailers).foldl Fields.handle
      { headers := assignAll ∅ (request.headers.map HeaderLine.pair) }).headerState := by
  have stored := Fields.saveHeaders_lineItems { url := request.url } request.headers rfl
  rw [glue_of_nonempty filled, glueRest_of_nonempty filled] at stored
  have items : request.accumulated =
      (request.body.items ++ [Item.signal Notification.messageComplete]).foldl Fields.handle
        ((lineItems request.headers).foldl Fields.handle { url := request.url }).saveHeaders := by
    rw [accumulated, Request.items, List.foldl_cons, List.foldl_cons, List.foldl_append,
      List.foldl_cons]
    rfl
  rw [items, stored, chunked, Body.items, List.append_assoc, List.foldl_append,
    Fields.foldl_handle_chunks, List.cons_append, List.append_assoc, List.foldl_cons,
    List.foldl_append]
  change ((lineItems trailers).foldl Fields.handle _).headerState = _
  apply Fields.headerState_foldl
  rfl

/-- All lines are stored but the last trailer, which is pending. -/
theorem headerState_of_trailer {earlier : List HeaderLine} {last : HeaderLine}
    (chunked : request.body = .chunked chunks (earlier ++ [last]))
    (filled : ∀ line ∈ request.lines, line.value ≠ []) :
    request.accumulated.headerState =
      (assignAll ∅ ((request.headers ++ earlier).map HeaderLine.pair), last.name, last.value) := by
  have split : request.lines = request.headers ++ (earlier ++ [last]) := by
    rw [lines, chunked]
    rfl
  rw [split, List.forall_mem_append, List.forall_mem_append] at filled
  rw [headerState_accumulated chunked filled.1,
    Fields.foldl_handle_pending _ earlier last rfl rfl filled.2.1, List.map_append]
  exact congrArg (fun table => (table, last.name, last.value)) List.foldl_append.symm

/-- Without a trailer section all lines are stored and nothing is pending. -/
theorem headerState_of_no_trailer (chunked : request.body = .chunked chunks [])
    (filled : ∀ line ∈ request.lines, line.value ≠ []) :
    request.accumulated.headerState =
      (assignAll ∅ (request.lines.map HeaderLine.pair), [], []) := by
  have whole : request.lines = request.headers := by
    rw [lines, chunked]
    exact List.append_nil _
  rw [whole] at filled ⊢
  exact headerState_accumulated chunked filled

end Request

/-! ## The law -/

/-- Every line of the request is in the table, with the last value of its name,
and nothing is pending. -/
structure AllLinesKept (message : Fields) (request : Request) : Prop where
  table : ∀ name, message.headers.lookup name =
    lastValue (request.lines.map HeaderLine.pair) name
  field : message.currentHeaderField = []
  value : message.currentHeaderValue = []

/-- Once the callbacks of a chunked request have been delivered, in whatever
pieces and by however many calls, its lines are all kept exactly when it has no
trailer section. -/
theorem trailersKept_iff {library : HttpParser} {pieces : List Bytes} {request : Request}
    {chunks : List Bytes} {trailers : List HeaderLine}
    (chunked : request.body = .chunked chunks trailers)
    (filled : ∀ line ∈ request.lines, line.value ≠ [])
    (fragments : Fragments (library.callbacks library.init pieces) request.items) :
    AllLinesKept ((HttpMessage.fresh library).feed pieces).toFields request ↔ trailers = [] := by
  have state : ((HttpMessage.fresh library).feed pieces).headerState =
      request.accumulated.headerState := by
    rw [HttpMessage.headerState_feed]
    change ((library.callbacks library.init pieces).foldl Fields.handle {}).headerState = _
    rw [Fields.foldl_handle_fragments fragments request.wellOrdered_items (Or.inl rfl)]
    rfl
  rcases List.eq_nil_or_concat' trailers with none | ⟨earlier, last, shape⟩
  · subst none
    rw [Request.headerState_of_no_trailer chunked filled, Fields.headerState, Prod.mk.injEq,
      Prod.mk.injEq] at state
    refine iff_of_true ⟨fun name => ?_, state.2.1, state.2.2⟩ rfl
    rw [state.1, lookup_assignAll, AList.lookup_empty, Option.or_none]
  · subst shape
    rw [Request.headerState_of_trailer chunked filled, Fields.headerState, Prod.mk.injEq,
      Prod.mk.injEq] at state
    refine iff_of_false (fun kept => ?_) (List.append_ne_nil_of_right_ne_nil _
      (List.cons_ne_nil _ _))
    exact last.name_ne (state.2.1.symm.trans kept.field)

/-! ### Two requests -/

/-- A request that announces a chunked body. -/
def chunkedRequest (chunks : List Bytes) (trailers : List HeaderLine) : Request where
  method := httpPost
  url := bytes "/"
  url_ne := by decide
  headers := [⟨bytes "Transfer-Encoding", bytes "chunked", by decide⟩]
  body := .chunked chunks trailers

/-- The library on the bytes of such a request, with every text in one piece. -/
def chunkedParser (stream : Bytes) (request : Request) : HttpParser :=
  .once stream request.items
    { method := httpPost, httpMajor := 1, httpMinor := 1, shouldKeepAlive := true }

/-- What it calls on them. -/
theorem chunkedParser_callbacks (stream : Bytes) (request : Request) :
    Fragments ((chunkedParser stream request).callbacks (chunkedParser stream request).init
      [stream]) request.items := by
  have calls : (chunkedParser stream request).callbacks (chunkedParser stream request).init
      [stream] = request.items := by
    change (if false = false ∧ stream = stream then (true, request.items)
      else (false, [])).2 ++ [] = request.items
    rw [if_pos ⟨rfl, rfl⟩, List.append_nil]
  rw [calls]
  exact Fragments.refl request.items

def plainStream : Bytes :=
  bytes "POST / HTTP/1.1\r\nTransfer-Encoding: chunked\r\n\r\n1\r\nx\r\n0\r\n\r\n"

/-- One chunk and no trailer. -/
def plainRequest : Request := chunkedRequest [bytes "x"] []

theorem plainRequest_kept :
    AllLinesKept ((HttpMessage.fresh (chunkedParser plainStream plainRequest)).feed
      [plainStream]).toFields plainRequest :=
  (trailersKept_iff rfl (by decide) (chunkedParser_callbacks plainStream plainRequest)).mpr rfl

def trailerStream : Bytes :=
  bytes "POST / HTTP/1.1\r\nTransfer-Encoding: chunked\r\n\r\n0\r\nDigest: x\r\n\r\n"

/-- No chunk and one trailer. -/
def trailerRequest : Request := chunkedRequest [] [⟨bytes "Digest", bytes "x", by decide⟩]

/-- The request is completed without its trailer. -/
theorem trailerRequest_not_kept :
    Fragments ((chunkedParser trailerStream trailerRequest).callbacks
        (chunkedParser trailerStream trailerRequest).init [trailerStream]) trailerRequest.items ∧
      ((HttpMessage.fresh (chunkedParser trailerStream trailerRequest)).parse trailerStream).2 =
        .complete ∧
      ¬ AllLinesKept ((HttpMessage.fresh (chunkedParser trailerStream trailerRequest)).feed
        [trailerStream]).toFields trailerRequest := by
  refine ⟨chunkedParser_callbacks trailerStream trailerRequest, by decide +kernel, fun kept => ?_⟩
  have lost := kept.table (bytes "Digest")
  revert lost
  decide +kernel

end Http
end LearnAsio
