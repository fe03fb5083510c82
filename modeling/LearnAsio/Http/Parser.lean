import LearnAsio.Asio
import LearnAsio.Delivery.Fragment

namespace LearnAsio
namespace Http

open Delivery

/-!
# The incremental parser behind a message

`http_message` does not scan bytes itself.  It owns an `http_parser`, a C
library object that is fed one buffer at a time and reports what it finds
through callbacks.  The library is not part of this repository, so it is a
parameter: an opaque state, the function of one `http_parser_execute` call, and
the fields of the C struct that the repository reads afterwards.

All callbacks of this repository return zero and none of them touches the
parser, so the callbacks of one call are determined by the parser's state and
the buffer.  They are listed in the order in which the library fires them.

The second half of the module says what one HTTP message looks like as a
sequence of undivided callbacks.  It is the vocabulary in which assumptions
about the library are written; nothing here scans a byte.
-/

/-- The data callbacks of `http_parser_settings`. -/
inductive DataKind where
  | url | status | headerField | headerValue | body
  deriving DecidableEq, Repr

/-- The notification callbacks of `http_parser_settings`. -/
inductive Notification where
  | messageBegin | headersComplete | messageComplete | chunkHeader | chunkComplete
  deriving DecidableEq, Repr

/-- One callback invocation. -/
abbrev Callback := Item DataKind Notification UInt8

/-- What the repository reads from the parser after a call: the fields of
`struct http_parser` and the result of `http_should_keep_alive`. -/
structure ParserFields where
  httpErrno : Nat := 0
  httpMajor : Nat := 0
  httpMinor : Nat := 0
  method : Nat := 0
  statusCode : Nat := 0
  upgrade : Bool := false
  shouldKeepAlive : Bool := false
  deriving DecidableEq, Repr

/-- `HPE_OK`. -/
def hpeOk : Nat := 0

/-! ### The enumerators of `enum http_method` that the repository names -/

def httpDelete : Nat := 0
def httpGet : Nat := 1
def httpPost : Nat := 3
def httpPut : Nat := 4

/-- The library as this repository uses it.  `init` is the state left by
`http_parser_init` with `HTTP_BOTH`, which zeroes the parser.  Once an error is
set, `http_parser_execute` returns at once without calling any callback. -/
structure HttpParser where
  State : Type
  init : State
  execute : State → Bytes → State × List Callback
  fields : State → ParserFields
  init_fields : fields init = {}
  sticky : ∀ state data, (fields state).httpErrno ≠ hpeOk → execute state data = (state, [])

namespace HttpParser

variable (library : HttpParser)

/-- The parser after successive calls. -/
def after (state : library.State) : List Bytes → library.State
  | [] => state
  | data :: rest => after (library.execute state data).1 rest

/-- All callbacks of successive calls. -/
def callbacks (state : library.State) : List Bytes → List Callback
  | [] => []
  | data :: rest => (library.execute state data).2 ++ callbacks (library.execute state data).1 rest

theorem after_append (state : library.State) (first second : List Bytes) :
    library.after state (first ++ second) = library.after (library.after state first) second := by
  induction first generalizing state with
  | nil => rfl
  | cons data rest inductionHypothesis => exact inductionHypothesis _

theorem callbacks_append (state : library.State) (first second : List Bytes) :
    library.callbacks state (first ++ second) =
      library.callbacks state first ++ library.callbacks (library.after state first) second := by
  induction first generalizing state with
  | nil => rfl
  | cons data rest inductionHypothesis =>
      simp only [List.cons_append, callbacks, after, inductionHypothesis, List.append_assoc]

end HttpParser

/-! ## One message as undivided callbacks -/

/-- Every header value directly follows a non-empty header name.  The flag says
that such a name has just been read. -/
def WellOrdered : Bool → List Callback → Prop
  | _, [] => True
  | _, .text .headerField name :: rest => name ≠ [] ∧ WellOrdered true rest
  | named, .text .headerValue _ :: rest => named = true ∧ WellOrdered false rest
  | _, _ :: rest => WellOrdered false rest

/-- A line of a header or trailer section.  The library rejects an empty field
name; an empty value is legal. -/
structure HeaderLine where
  name : Bytes
  value : Bytes
  name_ne : name ≠ []

namespace HeaderLine

/-- The line as a pair of texts. -/
def pair (line : HeaderLine) : Bytes × Bytes := (line.name, line.value)

/-- The undivided callbacks of one line. -/
def items (line : HeaderLine) : List Callback :=
  [.text .headerField line.name, .text .headerValue line.value]

end HeaderLine

/-- The undivided callbacks of consecutive header lines. -/
def lineItems (lines : List HeaderLine) : List Callback :=
  lines.flatMap HeaderLine.items

theorem lineItems_cons (line : HeaderLine) (rest : List HeaderLine) :
    lineItems (line :: rest) =
      .text .headerField line.name :: .text .headerValue line.value :: lineItems rest := rfl

/-- What follows the header section of a message. -/
inductive Body where
  | identity (content : Bytes)
  | chunked (chunks : List Bytes) (trailers : List HeaderLine)

namespace Body

/-- The undivided callbacks of a body.  No data callback is fired for an empty
identity body; the last chunk is empty and is closed after the trailers. -/
def items : Body → List Callback
  | identity content => if content = [] then [] else [.text .body content]
  | chunked chunks trailers =>
      chunks.flatMap (fun chunk =>
        [.signal .chunkHeader, .text .body chunk, .signal .chunkComplete]) ++
      .signal .chunkHeader :: (lineItems trailers ++ [.signal .chunkComplete])

/-- The bytes of the body. -/
def content : Body → Bytes
  | identity content => content
  | chunked chunks _ => chunks.flatten

/-- The trailer section, which only a chunked body has. -/
def trailers : Body → List HeaderLine
  | identity _ => []
  | chunked _ trailers => trailers

end Body

/-- A well-formed request. -/
structure Request where
  method : Nat
  url : Bytes
  url_ne : url ≠ []
  headers : List HeaderLine
  body : Body

namespace Request

/-- All field lines, those of the trailer section after those of the header
section. -/
def lines (request : Request) : List HeaderLine :=
  request.headers ++ request.body.trailers

/-- The undivided callbacks of a request. -/
def items (request : Request) : List Callback :=
  .signal .messageBegin :: .text .url request.url ::
    (lineItems request.headers ++
      .signal .headersComplete :: (request.body.items ++ [.signal .messageComplete]))

end Request
end Http
end LearnAsio
