import LearnAsio.Delivery.Script
import LearnAsio.Http.HeaderMap

namespace LearnAsio
namespace Http

open Delivery

/-!
# One message does not depend on how its bytes were cut

A connection hands the bytes to `parse` as the reads happen to deliver them.
The library promises that a cut shows only in how the texts are split into
callbacks.  That promise is recorded for one byte stream in `OneMessage`; the
theorem carries it through the accumulating callbacks and the status logic of
`parse` to the returned status and to every public member.

Nothing may follow the message in the stream.  The hypothesis says so through
the completion callback, which no proper prefix of the stream can cause.
-/

/-- What the library promises about a stream that holds one message and
nothing after its end.  Whatever the cut, it delivers the same undivided
callbacks and ends with the same fields, among them the error number. -/
structure OneMessage (library : HttpParser) (stream : Bytes) where
  items : List Callback
  outcome : ParserFields
  ordered : WellOrdered false items
  delivered : ∀ pieces, Segments stream pieces →
    Fragments (library.callbacks library.init pieces) items
  reported : ∀ pieces, Segments stream pieces →
    library.fields (library.after library.init pieces) = outcome
  ends : ∀ part pieces, part <+: stream → part ≠ stream → Segments part pieces →
    .signal .messageComplete ∉ library.callbacks library.init pieces

namespace OneMessage

variable {library : HttpParser} {stream : Bytes}

theorem accumulated_eq (message : OneMessage library stream) {pieces : List Bytes}
    (segments : Segments stream pieces) :
    HttpMessage.accumulated library pieces = message.items.foldl Fields.handle {} :=
  Fields.foldl_handle_fragments (message.delivered pieces segments) message.ordered (Or.inl rfl)

/-- The members after any cut of the stream, as a function of the message
alone. -/
theorem feed_eq (message : OneMessage library stream) {earlier : List Bytes} {last : Bytes}
    (segments : Segments stream (earlier ++ [last])) :
    ((HttpMessage.fresh library).feed (earlier ++ [last])).toFields =
      (message.items.foldl Fields.handle {}).conclude message.outcome := by
  rcases segments.earlier with ⟨before, isPrefix, proper⟩
  have incomplete := message.ends _ _ isPrefix proper before
  rw [HttpMessage.feed_of_completing earlier last incomplete, message.accumulated_eq segments,
    message.reported _ segments]

end OneMessage

private theorem segments_nil {pieces : List Bytes} (segments : Segments [] pieces) :
    pieces = [] := by
  cases pieces with
  | nil => rfl
  | cons piece rest =>
      have empty := (List.append_eq_nil_iff.mp segments.1).1
      exact absurd (empty ▸ List.mem_cons_self) segments.2

/-- For two cuts of a stream that holds one message, the last calls return the
same status and leave the same public members. -/
theorem parse_segmentation_independent {library : HttpParser} {stream : Bytes}
    (message : OneMessage library stream) {first second : List Bytes}
    (firstCut : Segments stream first) (secondCut : Segments stream second) :
    ((HttpMessage.fresh library).statuses first).getLast? =
        ((HttpMessage.fresh library).statuses second).getLast? ∧
      ((HttpMessage.fresh library).feed first).toPublicFields =
        ((HttpMessage.fresh library).feed second).toPublicFields := by
  rcases List.eq_nil_or_concat' first with empty | ⟨firstEarlier, firstLast, shape⟩
  · -- No call at all: then the stream is empty and so is the other cut.
    subst empty
    have emptyStream : stream = [] := firstCut.1.symm
    subst emptyStream
    rw [segments_nil secondCut]
    exact ⟨rfl, rfl⟩
  · rcases List.eq_nil_or_concat' second with empty | ⟨secondEarlier, secondLast, otherShape⟩
    · subst empty
      have emptyStream : stream = [] := secondCut.1.symm
      subst emptyStream
      rw [segments_nil firstCut]
      exact ⟨rfl, rfl⟩
    · subst shape otherShape
      have firstFields := message.feed_eq firstCut
      have secondFields := message.feed_eq secondCut
      have same := firstFields.trans secondFields.symm
      rw [HttpMessage.statuses_getLast?, HttpMessage.statuses_getLast?]
      exact ⟨congrArg (fun fields => some fields.messageStatus) same,
        congrArg Fields.toPublicFields same⟩

/-! ## A library that follows a script -/

section Scripted

variable {script : List (Region DataKind Notification)} {outcome : ParserFields}

/-- A library that knows the stream in advance: its state is what is left of the
script, and its fields are those of the outcome once nothing is left. -/
def scripted (script : List (Region DataKind Notification)) (outcome : ParserFields)
    (filled : script ≠ []) (healthy : outcome.httpErrno = hpeOk) : HttpParser where
  State := List (Region DataKind Notification)
  init := script
  execute := Region.scan
  fields := fun regions => if regions = [] then outcome else {}
  init_fields := if_neg filled
  sticky := by
    intro regions data failed
    refine absurd ?_ failed
    by_cases finished : regions = []
    · rw [if_pos finished, healthy]
    · rw [if_neg finished]
      rfl

theorem scripted_spec (filled : script ≠ []) (healthy : outcome.httpErrno = hpeOk)
    (regions : List (Region DataKind Notification)) (pieces : List Bytes) :
    (scripted script outcome filled healthy).callbacks regions pieces =
        Region.deliver regions pieces ∧
      (scripted script outcome filled healthy).after regions pieces =
        Region.remaining regions pieces := by
  induction pieces generalizing regions with
  | nil => exact ⟨rfl, rfl⟩
  | cons data later inductionHypothesis =>
      rcases inductionHypothesis (Region.scan regions data).1 with ⟨calls, left⟩
      exact ⟨congrArg ((Region.scan regions data).2 ++ ·) calls, left⟩

theorem size_concat_signal (front : List (Region DataKind Notification)) (sign : Notification) :
    Region.size (front ++ [.signal sign]) = Region.size front := by
  rw [Region.size_append]
  rfl

/-- Such a library keeps the promise for a stream that the script covers, if only the
last signal completes the message. -/
def scriptedMessage (front : List (Region DataKind Notification)) (outcome : ParserFields)
    (stream : Bytes) (filled : front ++ [.signal .messageComplete] ≠ [])
    (healthy : outcome.httpErrno = hpeOk)
    (closed : Region.Closed (front ++ [.signal .messageComplete]))
    (once : .signal .messageComplete ∉ front)
    (covered : stream.length = Region.size front) (nonempty : 0 < stream.length)
    (ordered : WellOrdered false (Region.document (front ++ [.signal .messageComplete]) stream)) :
    OneMessage (scripted (front ++ [.signal .messageComplete]) outcome filled healthy) stream where
  items := Region.document (front ++ [.signal .messageComplete]) stream
  outcome := outcome
  ordered := ordered
  delivered := by
    intro pieces cut
    have size := size_concat_signal front .messageComplete
    have all : pieces.flatten.length = Region.size (front ++ [.signal .messageComplete]) := by
      rw [cut.1, covered, size]
    have fragments := Region.fragments_deliver closed
      (fun none => absurd (covered.trans (size.symm.trans none)) (Nat.ne_of_gt nonempty)) all
    rw [cut.1] at fragments
    exact (scripted_spec filled healthy _ pieces).1 ▸ fragments
  reported := by
    intro pieces cut
    have size := size_concat_signal front .messageComplete
    have all : pieces.flatten.length = Region.size (front ++ [.signal .messageComplete]) := by
      rw [cut.1, covered, size]
    have left := (scripted_spec filled healthy (front ++ [.signal .messageComplete]) pieces).2
    rw [Region.remaining_eq_nil closed
      (fun none => absurd (covered.trans (size.symm.trans none)) (Nat.ne_of_gt nonempty))
      (Nat.le_of_eq all.symm)] at left
    exact congrArg (scripted _ outcome filled healthy).fields left
  ends := by
    intro part pieces inside proper cut
    have shorter : pieces.flatten.length < Region.size front := by
      rw [cut.1, ← covered]
      exact Nat.lt_of_le_of_ne inside.length_le fun same => proper (inside.eq_of_length same)
    have calls := (scripted_spec filled healthy (front ++ [.signal .messageComplete]) pieces).1
    exact calls ▸ Region.signal_notMem_deliver once shorter

end Scripted

/-! ### A request with header lines -/

/-- `GET / HTTP/1.1` with the lines `Host: ab` and `Accept: */*`. -/
def hostRequest : Bytes := bytes "GET / HTTP/1.1\r\nHost: ab\r\nAccept: */*\r\n\r\n"

/-- Its stretches up to the end of its header section. -/
def hostFront : List (Region DataKind Notification) :=
  [.gap 1, .signal .messageBegin, .gap 3, .text .url true 1, .gap 11,
    .text .headerField true 4, .gap 2, .text .headerValue true 2, .gap 2,
    .text .headerField true 6, .gap 2, .text .headerValue true 3, .gap 4,
    .signal .headersComplete]

def hostOutcome : ParserFields :=
  { httpMajor := 1, httpMinor := 1, method := httpGet, shouldKeepAlive := true }

def hostParser : HttpParser :=
  scripted (hostFront ++ [.signal .messageComplete]) hostOutcome
    (List.append_ne_nil_of_right_ne_nil _ (List.cons_ne_nil _ _)) rfl

theorem wellOrdered_hostRequest : WellOrdered false
    (Region.document (hostFront ++ [.signal .messageComplete]) hostRequest) := by
  have items : Region.document (hostFront ++ [.signal .messageComplete]) hostRequest =
      [.signal .messageBegin, .text .url (bytes "/"), .text .headerField (bytes "Host"),
        .text .headerValue (bytes "ab"), .text .headerField (bytes "Accept"),
        .text .headerValue (bytes "*/*"), .signal .headersComplete, .signal .messageComplete] := by
    decide +kernel
  rw [items]
  exact ⟨by decide, rfl, by decide, rfl, trivial⟩

def hostMessage : OneMessage hostParser hostRequest :=
  scriptedMessage hostFront hostOutcome hostRequest
    (List.append_ne_nil_of_right_ne_nil _ (List.cons_ne_nil _ _)) rfl (by decide) (by decide)
    (by decide) (by decide) wellOrdered_hostRequest

/-- In one read, or cut inside a name, inside both values and in the line end. -/
theorem hostRequest_segmentation_independent :
    ((HttpMessage.fresh hostParser).statuses [hostRequest]).getLast? =
        ((HttpMessage.fresh hostParser).statuses [bytes "GET / HTTP/1.1\r\nHo", bytes "st: a",
          bytes "b\r\nAccept: *", bytes "/*\r\n\r", bytes "\n"]).getLast? ∧
      ((HttpMessage.fresh hostParser).feed [hostRequest]).toPublicFields =
        ((HttpMessage.fresh hostParser).feed [bytes "GET / HTTP/1.1\r\nHo", bytes "st: a",
          bytes "b\r\nAccept: *", bytes "/*\r\n\r", bytes "\n"]).toPublicFields :=
  parse_segmentation_independent hostMessage (by decide +kernel) (by decide +kernel)

/-! ### A shortest request -/

/-- `GET /` with two line feeds, which the library reads as version 0.9. -/
def shortRequest : Bytes := bytes "GET /\n\n"

/-- The callbacks that one byte of the request causes, by its position. -/
def shortRequestItems : Nat → List Callback
  | 0 => [.signal .messageBegin]
  | 4 => [.text .url (bytes "/")]
  | 6 => [.signal .headersComplete, .signal .messageComplete]
  | _ => []

/-- The library on that request: its state is the position.  A call that
resumes inside the URL starts with an empty piece of it. -/
def shortRequestParser : HttpParser where
  State := Nat
  init := 0
  execute := fun position data =>
    (position + data.length,
      (if position = 5 then [.text .url []] else []) ++
        (List.range data.length).flatMap fun offset => shortRequestItems (position + offset))
  fields := fun position =>
    { method := if position = 0 then 0 else httpGet
      httpMinor := if position < 6 then 0 else 9 }
  init_fields := rfl
  sticky := fun _ _ failed => absurd rfl failed

end Http
end LearnAsio
