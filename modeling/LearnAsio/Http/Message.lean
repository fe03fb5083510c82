import LearnAsio.Delivery.Table
import LearnAsio.Http.Parser
import Mathlib.Data.List.Induction

namespace LearnAsio
namespace Http

open Delivery

/-!
# The message object

`http_message` accumulates what the callbacks deliver into its public fields.
The boundary between two header lines is not reported by the library.  The
object infers it: a pending name and a pending value are stored as soon as both
are non-empty and a callback asks for it.

The definitions follow `message.h` and `message.cpp`.  The later lemmas say
what a callback, a call of `parse` and a sequence of calls do to the fields, so
that nothing below this module has to unfold them.
-/

/-- `http_message::method`. -/
inductive Method where
  | get | post | put | del | invalid
  deriving DecidableEq, Repr

inductive MessageStatus where
  | complete | wantMore | faild
  deriving DecidableEq, Repr

/-- `http_message::headers_t`, an unordered map. -/
abbrev HeaderMap := AList fun _ : Bytes => Bytes

-- The library's instance is defined by a rewrite, on which evaluation stops.
instance : DecidableEq HeaderMap := fun first second =>
  decidable_of_iff (first.entries = second.entries) AList.ext_iff.symm

/-- The public data members of `http_message`. -/
structure PublicFields where
  method : Method := .invalid
  httpMajor : Nat := 0
  httpMinor : Nat := 0
  url : Bytes := []
  headers : HeaderMap := ∅
  body : Bytes := []
  status : Nat := 0
  upgrade : Bool := false
  keepAlive : Bool := false
  deriving DecidableEq

/-- All data members except the parser behind `pimpl_`. -/
structure Fields extends PublicFields where
  currentHeaderField : Bytes := []
  currentHeaderValue : Bytes := []
  messageStatus : MessageStatus := .wantMore
  deriving DecidableEq

namespace Fields

/-- Store the pending header line when both of its halves are non-empty. -/
def saveHeaders (message : Fields) : Fields :=
  if message.currentHeaderValue ≠ [] ∧ message.currentHeaderField ≠ [] then
    { message with
      headers := message.headers.insert message.currentHeaderField message.currentHeaderValue
      currentHeaderField := []
      currentHeaderValue := [] }
  else message

/-! ### The callbacks of `http_message::impl` -/

def onMessageBegin (message : Fields) : Fields := message

def onUrl (message : Fields) (text : Bytes) : Fields :=
  { message with url := message.url ++ text }

def onStatus (message : Fields) (_text : Bytes) : Fields := message

def onHeaderField (message : Fields) (text : Bytes) : Fields :=
  let message := message.saveHeaders
  { message with currentHeaderField := message.currentHeaderField ++ text }

def onHeaderValue (message : Fields) (text : Bytes) : Fields :=
  { message with currentHeaderValue := message.currentHeaderValue ++ text }

def onHeadersComplete (message : Fields) : Fields := message.saveHeaders

def onBody (message : Fields) (text : Bytes) : Fields :=
  { message with body := message.body ++ text }

def onMessageComplete (message : Fields) : Fields :=
  { message with messageStatus := .complete }

def onChunkHeader (message : Fields) : Fields := message

def onChunkComplete (message : Fields) : Fields := message

/-- The settings table: which member function a callback runs. -/
def handle (message : Fields) : Callback → Fields
  | .text .url text => message.onUrl text
  | .text .status text => message.onStatus text
  | .text .headerField text => message.onHeaderField text
  | .text .headerValue text => message.onHeaderValue text
  | .text .body text => message.onBody text
  | .signal .messageBegin => message.onMessageBegin
  | .signal .headersComplete => message.onHeadersComplete
  | .signal .messageComplete => message.onMessageComplete
  | .signal .chunkHeader => message.onChunkHeader
  | .signal .chunkComplete => message.onChunkComplete

/-- The switch over the parser's method in `parse`; an unknown method keeps the
old value. -/
def readMethod (code : Nat) (old : Method) : Method :=
  if code = httpGet then .get
  else if code = httpPost then .post
  else if code = httpPut then .put
  else if code = httpDelete then .del
  else old

/-- The members that `parse` copies from the parser once the message is
complete. -/
def readParser (message : Fields) (parser : ParserFields) : Fields :=
  { message with
    httpMajor := parser.httpMajor
    httpMinor := parser.httpMinor
    method := readMethod parser.method message.method
    status := parser.statusCode
    keepAlive := parser.shouldKeepAlive
    upgrade := parser.upgrade }

/-- The error check at the end of `impl::parse`. -/
def markError (message : Fields) (parser : ParserFields) : Fields :=
  if parser.httpErrno ≠ hpeOk then { message with messageStatus := .faild } else message

end Fields

/-- A message object together with the parser it owns. -/
structure HttpMessage (library : HttpParser) extends Fields where
  parser : library.State

namespace HttpMessage

variable {library : HttpParser}

/-- A freshly constructed message. -/
def fresh (library : HttpParser) : HttpMessage library :=
  { parser := library.init }

/-- `http_message::reset` reinitialises the parser and nothing else. -/
def reset (message : HttpMessage library) : HttpMessage library :=
  { message with parser := library.init }

/-- `http_message::impl::parse`. -/
def implParse (message : HttpMessage library) (data : Bytes) : HttpMessage library :=
  let executed := library.execute message.parser data
  let fields := executed.2.foldl Fields.handle message.toFields
  { toFields := fields.markError (library.fields executed.1), parser := executed.1 }

/-- `http_message::parse`: the new object and the returned status. -/
def parse (message : HttpMessage library) (data : Bytes) :
    HttpMessage library × MessageStatus :=
  let message := message.implParse data
  let message :=
    if message.messageStatus = .complete then
      { message with toFields := message.toFields.readParser (library.fields message.parser) }
    else message
  (message, message.messageStatus)

/-- The object after successive calls of `parse`. -/
def feed (message : HttpMessage library) (pieces : List Bytes) : HttpMessage library :=
  pieces.foldl (fun current data => (current.parse data).1) message

/-- The statuses that successive calls of `parse` return. -/
def statuses (message : HttpMessage library) : List Bytes → List MessageStatus
  | [] => []
  | data :: rest => (message.parse data).2 :: statuses (message.parse data).1 rest

end HttpMessage

/-! ## What the callbacks do -/

namespace Fields

/-- The end of `parse`, as a function of the accumulated members and of the
parser. -/
def conclude (message : Fields) (parser : ParserFields) : Fields :=
  if (message.markError parser).messageStatus = .complete then
    (message.markError parser).readParser parser
  else message.markError parser

theorem markError_of_ok (message : Fields) {parser : ParserFields}
    (healthy : parser.httpErrno = hpeOk) : message.markError parser = message :=
  if_neg (Classical.not_not.mpr healthy)

theorem markError_of_error (message : Fields) {parser : ParserFields}
    (failed : parser.httpErrno ≠ hpeOk) :
    message.markError parser = { message with messageStatus := .faild } :=
  if_pos failed

/-- An error overrides a completion: nothing is copied from the parser. -/
theorem conclude_of_error (message : Fields) {parser : ParserFields}
    (failed : parser.httpErrno ≠ hpeOk) :
    message.conclude parser = { message with messageStatus := .faild } := by
  unfold conclude
  rw [markError_of_error message failed]
  apply if_neg
  intro impossible
  cases impossible

theorem conclude_of_incomplete (message : Fields) (parser : ParserFields)
    (incomplete : message.messageStatus ≠ .complete) :
    message.conclude parser = message.markError parser := by
  by_cases healthy : parser.httpErrno = hpeOk
  · unfold conclude
    rw [markError_of_ok message healthy]
    exact if_neg incomplete
  · rw [conclude_of_error message healthy, markError_of_error message healthy]

theorem conclude_of_complete (message : Fields) {parser : ParserFields}
    (healthy : parser.httpErrno = hpeOk) (complete : message.messageStatus = .complete) :
    message.conclude parser = message.readParser parser := by
  unfold conclude
  rw [markError_of_ok message healthy]
  exact if_pos complete

/-- A call that wants more has met no error and no end of the message. -/
theorem messageStatus_of_conclude_wantMore {message : Fields} {parser : ParserFields}
    (status : (message.conclude parser).messageStatus = .wantMore) :
    message.messageStatus = .wantMore := by
  by_cases healthy : parser.httpErrno = hpeOk
  · by_cases complete : message.messageStatus = .complete
    · rw [conclude_of_complete message healthy complete] at status
      exact status
    · rw [conclude_of_incomplete message parser complete, markError_of_ok message healthy] at status
      exact status
  · rw [conclude_of_error message healthy] at status
    cases status

/-- A call that completes the message has met no error and has copied the
members of the parser. -/
theorem conclude_eq_of_complete {message : Fields} {parser : ParserFields}
    (status : (message.conclude parser).messageStatus = .complete) :
    message.conclude parser = message.readParser parser := by
  by_cases healthy : parser.httpErrno = hpeOk
  · by_cases complete : message.messageStatus = .complete
    · exact conclude_of_complete message healthy complete
    · rw [conclude_of_incomplete message parser complete, markError_of_ok message healthy] at status
      exact absurd status complete
  · rw [conclude_of_error message healthy] at status
    cases status

@[simp] theorem saveHeaders_messageStatus (message : Fields) :
    message.saveHeaders.messageStatus = message.messageStatus := by
  unfold saveHeaders
  split <;> rfl

theorem handle_messageStatus (message : Fields) (callback : Callback)
    (other : callback ≠ .signal .messageComplete) :
    (message.handle callback).messageStatus = message.messageStatus := by
  cases callback with
  | text kind content =>
      cases kind with
      | headerField => exact message.saveHeaders_messageStatus
      | _ => rfl
  | signal sign =>
      cases sign with
      | headersComplete => exact message.saveHeaders_messageStatus
      | messageComplete => exact absurd rfl other
      | _ => rfl

theorem foldl_handle_messageStatus (message : Fields) (calls : List Callback)
    (absent : .signal .messageComplete ∉ calls) :
    (calls.foldl handle message).messageStatus = message.messageStatus := by
  induction calls generalizing message with
  | nil => rfl
  | cons callback rest inductionHypothesis =>
      rw [List.mem_cons, not_or] at absent
      have kept := message.handle_messageStatus callback (Ne.symm absent.1)
      rw [List.foldl_cons, inductionHypothesis _ absent.2, kept]

/-- No callback writes the method. -/
theorem foldl_handle_method (message : Fields) (calls : List Callback) :
    (calls.foldl handle message).method = message.method := by
  have kept : ∀ (message : Fields) callback, (message.handle callback).method = message.method := by
    intro message callback
    have saved : message.saveHeaders.method = message.method := by
      unfold saveHeaders
      split <;> rfl
    cases callback with
    | text kind content => cases kind <;> first | rfl | exact saved
    | signal sign => cases sign <;> first | rfl | exact saved
  induction calls generalizing message with
  | nil => rfl
  | cons callback rest inductionHypothesis =>
      exact (inductionHypothesis _).trans (kept message callback)

/-- `on_message_complete` is the only callback that writes the status, and
nothing among the callbacks takes it back. -/
theorem foldl_handle_complete (message : Fields) (calls : List Callback)
    (present : .signal .messageComplete ∈ calls) :
    (calls.foldl handle message).messageStatus = .complete := by
  induction calls generalizing message with
  | nil => cases present
  | cons callback rest inductionHypothesis =>
      by_cases later : .signal .messageComplete ∈ rest
      · exact inductionHypothesis _ later
      · rcases List.mem_cons.mp present with here | impossible
        · subst here
          rw [List.foldl_cons, foldl_handle_messageStatus _ rest later]
          rfl
        · exact absurd impossible later

/-- Two consecutive pieces of one text act as their concatenation once a
pending value implies a pending name. -/
theorem joins_handle {message : Fields}
    (settled : message.currentHeaderValue = [] ∨ message.currentHeaderField ≠ []) :
    Joins handle message := by
  intro kind first second
  cases kind with
  | url => simp only [handle, onUrl, List.append_assoc]
  | status => rfl
  | headerValue => simp only [handle, onHeaderValue, List.append_assoc]
  | body => simp only [handle, onBody, List.append_assoc]
  | headerField =>
      -- After the first piece no value is pending, so the second one saves nothing.
      have cleared : message.saveHeaders.currentHeaderValue = [] := by
        unfold saveHeaders
        split
        · rfl
        · next kept =>
            rcases settled with empty | named
            · exact empty
            · exact Classical.not_not.mp fun filled => kept ⟨filled, named⟩
      have unsaved : (message.onHeaderField first).saveHeaders = message.onHeaderField first := by
        rw [saveHeaders, if_neg]
        rintro ⟨filled, _⟩
        exact filled cleared
      simp only [handle, onHeaderField] at unsaved ⊢
      rw [unsaved]
      simp only [List.append_assoc]

theorem saveHeaders_settled {message : Fields}
    (settled : message.currentHeaderValue = [] ∨ message.currentHeaderField ≠ []) :
    message.saveHeaders.currentHeaderValue = [] ∨ message.saveHeaders.currentHeaderField ≠ [] := by
  unfold saveHeaders
  split
  · exact Or.inl rfl
  · exact settled

/-- The order of the callbacks of a message keeps the pieces joinable. -/
theorem joinsAlong_handle {items : List Callback} {named : Bool} {message : Fields}
    (ordered : WellOrdered named items)
    (settled : message.currentHeaderValue = [] ∨ message.currentHeaderField ≠ [])
    (pending : named = true → message.currentHeaderField ≠ []) :
    JoinsAlong handle message items := by
  induction items generalizing named message with
  | nil => trivial
  | cons item rest inductionHypothesis =>
      refine ⟨joins_handle settled, ?_⟩
      cases item with
      | text kind content =>
          cases kind with
          | headerField =>
              have filled : (message.onHeaderField content).currentHeaderField ≠ [] :=
                fun empty => ordered.1 (List.append_eq_nil_iff.mp empty).2
              exact inductionHypothesis ordered.2 (Or.inr filled) fun _ => filled
          | headerValue =>
              exact inductionHypothesis ordered.2 (Or.inr (pending ordered.1))
                fun impossible => absurd impossible Bool.false_ne_true
          | _ =>
              exact inductionHypothesis ordered settled
                fun impossible => absurd impossible Bool.false_ne_true
      | signal sign =>
          cases sign with
          | headersComplete =>
              exact inductionHypothesis ordered (saveHeaders_settled settled)
                fun impossible => absurd impossible Bool.false_ne_true
          | _ =>
              exact inductionHypothesis ordered settled
                fun impossible => absurd impossible Bool.false_ne_true

/-- The accumulated members do not depend on how the texts were cut. -/
theorem foldl_handle_fragments {calls items : List Callback} (fragments : Fragments calls items)
    (ordered : WellOrdered false items) {message : Fields}
    (settled : message.currentHeaderValue = [] ∨ message.currentHeaderField ≠ []) :
    calls.foldl handle message = items.foldl handle message :=
  foldl_fragments fragments (joinsAlong_handle ordered settled
    fun impossible => absurd impossible Bool.false_ne_true)

end Fields

/-! ## What successive calls of `parse` do -/

namespace HttpMessage

variable {library : HttpParser}

theorem parse_toFields (message : HttpMessage library) (data : Bytes) :
    (message.parse data).1.toFields =
      ((library.execute message.parser data).2.foldl Fields.handle message.toFields).conclude
        (library.fields (library.execute message.parser data).1) := by
  unfold parse Fields.conclude
  dsimp only [implParse]
  split <;> rfl

theorem parser_parse (message : HttpMessage library) (data : Bytes) :
    (message.parse data).1.parser = (library.execute message.parser data).1 := by
  unfold parse
  dsimp only [implParse]
  split <;> rfl

theorem feed_append (message : HttpMessage library) (first second : List Bytes) :
    message.feed (first ++ second) = (message.feed first).feed second :=
  List.foldl_append

theorem feed_singleton (message : HttpMessage library) (data : Bytes) :
    message.feed [data] = (message.parse data).1 := rfl

theorem parser_feed (message : HttpMessage library) (pieces : List Bytes) :
    (message.feed pieces).parser = library.after message.parser pieces := by
  induction pieces generalizing message with
  | nil => rfl
  | cons data rest inductionHypothesis =>
      have next := inductionHypothesis (message.parse data).1
      rw [parser_parse] at next
      exact next

/-- The last returned status is the one the object keeps. -/
theorem statuses_getLast? (message : HttpMessage library) (earlier : List Bytes) (last : Bytes) :
    (message.statuses (earlier ++ [last])).getLast? =
      some (message.feed (earlier ++ [last])).messageStatus := by
  induction earlier generalizing message with
  | nil => rfl
  | cons data rest inductionHypothesis =>
      have tail := inductionHypothesis (message.parse data).1
      rw [List.cons_append, statuses, List.getLast?_cons, tail]
      rfl

/-- What `parse` makes of the members that successive calls accumulated on a
fresh object. -/
def accumulated (library : HttpParser) (pieces : List Bytes) : Fields :=
  (library.callbacks library.init pieces).foldl Fields.handle {}

theorem accumulated_append (pieces : List Bytes) (data : Bytes) :
    accumulated library (pieces ++ [data]) =
      (library.execute (library.after library.init pieces) data).2.foldl Fields.handle
        (accumulated library pieces) := by
  unfold accumulated
  rw [HttpParser.callbacks_append, List.foldl_append]
  simp only [HttpParser.callbacks, List.append_nil]

theorem parse_feed (pieces : List Bytes) (data : Bytes) :
    ((fresh library).feed (pieces ++ [data])).toFields =
      ((library.execute (library.after library.init pieces) data).2.foldl Fields.handle
        ((fresh library).feed pieces).toFields).conclude
        (library.fields (library.after library.init (pieces ++ [data]))) := by
  rw [feed_append, feed_singleton, parse_toFields, parser_feed, HttpParser.after_append]
  rfl

theorem execute_of_error {pieces : List Bytes}
    (failed : (library.fields (library.after library.init pieces)).httpErrno ≠ hpeOk)
    (data : Bytes) :
    (library.execute (library.after library.init pieces) data).2 = [] ∧
      library.after library.init (pieces ++ [data]) = library.after library.init pieces := by
  have stopped := library.sticky _ data failed
  rw [HttpParser.after_append]
  simp only [HttpParser.after, stopped, and_self]

/-- Until `on_message_complete` fires, a fresh object holds what the callbacks
accumulated and the error mark of its parser. -/
theorem feed_of_incomplete (pieces : List Bytes)
    (incomplete : .signal .messageComplete ∉ library.callbacks library.init pieces) :
    ((fresh library).feed pieces).toFields =
      (accumulated library pieces).markError
        (library.fields (library.after library.init pieces)) := by
  induction pieces using List.reverseRecOn with
  | nil =>
      have healthy : (library.fields library.init).httpErrno = hpeOk := by
        rw [library.init_fields]
        rfl
      exact (Fields.markError_of_ok _ healthy).symm
  | append_singleton earlier data inductionHypothesis =>
      have before := incomplete
      rw [HttpParser.callbacks_append, List.mem_append, not_or] at before
      rw [parse_feed, inductionHypothesis before.1, accumulated_append]
      by_cases healthy : (library.fields (library.after library.init earlier)).httpErrno = hpeOk
      · rw [Fields.markError_of_ok _ healthy, ← accumulated_append]
        apply Fields.conclude_of_incomplete
        rw [accumulated, Fields.foldl_handle_messageStatus _ _ incomplete]
        decide
      · have stopped := execute_of_error healthy data
        rw [stopped.1, stopped.2, List.foldl_nil, List.foldl_nil,
          Fields.conclude_of_error _ healthy, Fields.markError_of_error _ healthy]

/-- The same through the call that completes the message: its last call
concludes what all calls accumulated. -/
theorem feed_of_completing (earlier : List Bytes) (last : Bytes)
    (incomplete : .signal .messageComplete ∉ library.callbacks library.init earlier) :
    ((fresh library).feed (earlier ++ [last])).toFields =
      (accumulated library (earlier ++ [last])).conclude
        (library.fields (library.after library.init (earlier ++ [last]))) := by
  rw [parse_feed, feed_of_incomplete earlier incomplete, accumulated_append]
  by_cases healthy : (library.fields (library.after library.init earlier)).httpErrno = hpeOk
  · rw [Fields.markError_of_ok _ healthy]
  · have stopped := execute_of_error healthy last
    rw [stopped.1, stopped.2, List.foldl_nil, List.foldl_nil, Fields.conclude_of_error _ healthy,
      Fields.conclude_of_error _ healthy, Fields.markError_of_error _ healthy]

/-- As long as `parse` wants more, `on_message_complete` has not fired. -/
theorem incomplete_of_wantMore (pieces : List Bytes)
    (status : ((fresh library).feed pieces).messageStatus = .wantMore) :
    .signal .messageComplete ∉ library.callbacks library.init pieces := by
  induction pieces using List.reverseRecOn with
  | nil => exact List.not_mem_nil
  | append_singleton earlier data inductionHypothesis =>
      rw [parse_feed] at status
      have folded := Fields.messageStatus_of_conclude_wantMore status
      have absent : .signal .messageComplete ∉
          (library.execute (library.after library.init earlier) data).2 := by
        intro present
        rw [Fields.foldl_handle_complete _ _ present] at folded
        cases folded
      rw [Fields.foldl_handle_messageStatus _ _ absent] at folded
      have before := inductionHypothesis folded
      rw [HttpParser.callbacks_append, List.mem_append, not_or]
      refine ⟨before, ?_⟩
      simpa only [HttpParser.callbacks, List.append_nil] using absent

/-- The members of a message that the last call has completed: what all calls
accumulated, with the fields of the parser. -/
theorem feed_of_complete {earlier : List Bytes} {last : Bytes}
    (before : ((fresh library).feed earlier).messageStatus = .wantMore)
    (status : ((fresh library).feed (earlier ++ [last])).messageStatus = .complete) :
    ((fresh library).feed (earlier ++ [last])).toFields =
      (accumulated library (earlier ++ [last])).readParser
        (library.fields (library.after library.init (earlier ++ [last]))) := by
  have completing := feed_of_completing earlier last (incomplete_of_wantMore earlier before)
  rw [completing] at status ⊢
  exact Fields.conclude_eq_of_complete status

end HttpMessage
end Http
end LearnAsio
