import LearnAsio.Delivery.Istream
import LearnAsio.Delivery.ReadUntil
import LearnAsio.Http.Reader

namespace LearnAsio
namespace Http

open Delivery

/-!
# The client's side of a connection

For each connection the client reads until it has a line, takes a status line off
its buffer with formatted input, and, if that says 200, reads until it has an
empty line and takes the header lines off.  `read_until` throws when the peer
closes the connection before that, and nothing in `main` catches it.

What the client makes of a stream is first shown not to depend on how the stream
arrives.  The formatted input sees whatever is in the buffer by then, so this
needs a first line that has a version and something behind it.  Then the client
is put at the other end of what `to_buffers` has written, all of it or only the
beginning that a single `async_write_some` got rid of.
-/

/-- How one turn of the client's loop ends. -/
inductive Conversation where
  | threw
  | invalid
  | notOk (statusCode : Int)
  | headers (lines : List Bytes)
  deriving DecidableEq, Repr

/-- The three extractions from `response_stream`. -/
def readStatus : Istream → ((Bytes × Option Int) × Bytes) × Istream :=
  Istream.andThen (Istream.andThen Istream.word Istream.int) (Istream.getline lineFeed)

theorem local_readStatus : Istream.Local readStatus :=
  (Istream.local_word.andThen Istream.local_int).andThen (Istream.local_getline lineFeed)

/-- The status line is refused.  A `status_code` that has not been assigned is not
looked at. -/
def Refused (status : (Bytes × Option Int) × Bytes) (stream : Istream) : Prop :=
  stream.fail = true ∨ status.1.1.take 5 ≠ bytes "HTTP/"

instance (status : (Bytes × Option Int) × Bytes) (stream : Istream) :
    Decidable (Refused status stream) := inferInstanceAs (Decidable (_ ∨ _))

/-- The loop over `std::getline`, which a stream that has come to its end does not
enter. -/
def loggedHeaders (stream : Istream) : List Bytes :=
  if stream.good = false then [] else (headerLines stream.rest).1

/-- One turn of the loop in `main`, from the first `read_until` on. -/
def converse (pieces : List Bytes) : Conversation :=
  match readUntil crlf [] pieces with
  | none => .threw
  | some (buffer, pieces) =>
      let (status, stream) := readStatus { rest := buffer }
      if Refused status stream then .invalid
      else if status.1.2 ≠ some 200 then .notOk (status.1.2.getD 0)
      else
        match readUntil (crlf ++ crlf) stream.rest pieces with
        | none => .threw
        | some (buffer, _) => .headers (loggedHeaders { stream with rest := buffer })

/-! ## The header lines -/

/-- The text has a line that is only a carriage return. -/
inductive Ended : Bytes → Prop
  | here (rest : Bytes) : Ended (crlf ++ rest)
  | next {line : Bytes} (clean : lineFeed ∉ line) {rest : Bytes} (ended : Ended rest) :
      Ended (line ++ lineFeed :: rest)

/-- Two line ends in a row make an empty line. -/
theorem ended_of_found {text : Bytes} (found : crlf ++ crlf <:+: text) : Ended text := by
  rcases found with ⟨before, after, whole⟩
  subst whole
  generalize amount : before.length = bound
  induction bound using Nat.strongRecOn generalizing before with
  | _ bound inductionHypothesis =>
      by_cases line : lineFeed ∈ before
      · rcases List.eq_append_cons_of_mem line with ⟨first, rest, split, clean⟩
        have shorter : rest.length < bound := by
          rw [← amount, split, List.length_append, List.length_cons]
          omega
        have later := inductionHypothesis _ shorter rest rfl
        rw [split, List.append_assoc, List.append_assoc]
        rw [List.append_assoc] at later
        exact .next clean later
      · have clean : lineFeed ∉ before ++ [carriageReturn] :=
          List.not_mem_append line (by decide)
        have shape : before ++ (crlf ++ crlf) ++ after =
            (before ++ [carriageReturn]) ++ lineFeed :: (crlf ++ after) := by
          simp only [List.append_assoc]
          rfl
        rw [shape]
        exact .next clean (.here after)

/-- What follows an empty line is none of the header lines. -/
theorem headerLines_concat {text : Bytes} (ended : Ended text) (more : Bytes) :
    (headerLines (text ++ more)).1 = (headerLines text).1 := by
  induction ended with
  | here rest =>
      rw [List.append_assoc, headerLines_empty, headerLines_empty]
  | @next line clean rest _ inductionHypothesis =>
      rw [List.append_assoc, List.cons_append]
      by_cases blank : line = [carriageReturn]
      · have shape : ∀ rest, line ++ lineFeed :: rest = crlf ++ rest := fun _ => blank ▸ rfl
        rw [shape, shape, headerLines_empty, headerLines_empty]
      · rw [headerLines_cons clean blank, headerLines_cons clean blank]
        exact congrArg (List.cons line) inductionHypothesis

/-! ## What the client makes of a stream -/

/-- The first line holds all that is extracted from it. -/
def HoldsStatus (line : Bytes) : Prop := (readStatus { rest := line ++ crlf }).2.eof = false

instance (line : Bytes) : Decidable (HoldsStatus line) := inferInstanceAs (Decidable (_ = _))

/-- The outcome of a stream with a first line. -/
def conversation (line rest : Bytes) : Conversation :=
  let (status, stream) := readStatus { rest := line ++ crlf }
  if Refused status stream then .invalid
  else if status.1.2 ≠ some 200 then .notOk (status.1.2.getD 0)
  else if crlf ++ crlf <:+: stream.rest ++ rest then
    .headers (headerLines (stream.rest ++ rest)).1
  else .threw

/-- Without a line end the first `read_until` throws. -/
theorem converse_of_no_line {pieces : List Bytes} (absent : ¬ crlf <:+: pieces.flatten) :
    converse pieces = .threw := by
  rw [converse, readUntil_eq_none_iff.mpr absent]

/-- However the stream arrives, the client makes the same of it. -/
theorem converse_of_line {pieces : List Bytes} {line rest : Bytes}
    (first : breakOn crlf pieces.flatten = some (line, rest)) (settled : HoldsStatus line) :
    converse pieces = conversation line rest := by
  cases read : readUntil crlf [] pieces with
  | none =>
      have absent := readUntil_eq_none_iff.mp read
      exact absurd (breakOn_isSome_iff.mp (Option.isSome_iff_exists.mpr ⟨_, first⟩)) absent
  | some result =>
      rcases result with ⟨buffer, left⟩
      rcases readUntil_spec read with ⟨found, whole⟩
      rcases breakOn_of_readUntil first found whole with ⟨extra, here, ahead⟩
      have shape : buffer = line ++ crlf ++ extra := by
        rw [breakOn_eq here, List.append_assoc]
      have same := (local_readStatus { rest := line ++ crlf } extra settled).2
      have start : ({ rest := buffer } : Istream) =
          ({ rest := line ++ crlf } : Istream).commit extra := by
        rw [shape]
        rfl
      unfold conversation
      unfold HoldsStatus at settled
      rw [converse, read]
      dsimp only
      rw [start, same]
      rcases parsed : readStatus { rest := line ++ crlf } with ⟨status, stream⟩
      rw [parsed] at settled
      have inside : stream.eof = false := settled
      have refused : Refused status (stream.commit extra) ↔ Refused status stream := Iff.rfl
      dsimp only
      simp only [refused]
      by_cases refuses : Refused status stream
      · rw [if_pos refuses, if_pos refuses]
      · rw [if_neg refuses, if_neg refuses]
        by_cases failed : status.1.2 ≠ some 200
        · rw [if_pos failed, if_pos failed]
        · rw [if_neg failed, if_neg failed]
          have total : (stream.commit extra).rest ++ left.flatten = stream.rest ++ rest := by
            rw [← ahead, ← List.append_assoc]
            rfl
          cases again : readUntil (crlf ++ crlf) (stream.commit extra).rest left with
          | none =>
              have absent := readUntil_eq_none_iff.mp again
              rw [total] at absent
              rw [if_neg absent]
          | some later =>
              rcases later with ⟨buffer, left⟩
              rcases readUntil_spec again with ⟨found, all⟩
              rw [total] at all
              have present : crlf ++ crlf <:+: stream.rest ++ rest :=
                all ▸ found.trans (List.prefix_append _ _).isInfix
              have good : ¬ ({ stream.commit extra with rest := buffer } : Istream).good =
                  false := by
                have unfailed : stream.fail = false :=
                  Bool.eq_false_iff.mpr fun failed => refuses (Or.inl failed)
                simp only [Istream.good, Istream.commit, inside, unfailed]
                decide
              rw [if_pos present, ← all, headerLines_concat (ended_of_found found)]
              dsimp only
              rw [loggedHeaders, if_neg good]

/-- Two ways in which one stream arrives lead to one outcome, if the first line
holds what is extracted from it. -/
theorem converse_segmentation {first second : List Bytes}
    (same : first.flatten = second.flatten)
    (settled : ∀ line rest, breakOn crlf first.flatten = some (line, rest) → HoldsStatus line) :
    converse first = converse second := by
  cases found : breakOn crlf first.flatten with
  | none =>
      have absent : ¬ crlf <:+: first.flatten := by
        rw [← breakOn_isSome_iff, found]
        exact Bool.false_ne_true
      rw [converse_of_no_line absent, converse_of_no_line (same ▸ absent)]
  | some parts =>
      rcases parts with ⟨line, rest⟩
      have here := settled line rest found
      rw [converse_of_line found here, converse_of_line (same ▸ found) here]

/-- A small response in four pieces, cut inside its line ends. -/
theorem fourPieces_converse : converse [bytes "HTTP/1.", bytes "0 200 OK\r", bytes "\nA: b\r\n\r",
      bytes "\nhi"] = converse [bytes "HTTP/1.0 200 OK\r\nA: b\r\n\r\nhi"] := by
  refine converse_segmentation (by decide) ?_
  intro line rest found
  have first : breakOn crlf [bytes "HTTP/1.", bytes "0 200 OK\r", bytes "\nA: b\r\n\r",
      bytes "\nhi"].flatten = some (bytes "HTTP/1.0 200 OK", bytes "A: b\r\n\r\nhi") := by
    decide
  rw [first] at found
  cases found
  decide

/-- A first line with one word only does not hold the status code. -/
example : converse [bytes "HTTP/1.0\r\n", bytes "404 Gone\r\n"] ≠
    converse [bytes "HTTP/1.0\r\n404 Gone\r\n"] := by decide

/-! ## A response of the server -/

/-- The number in the status line. -/
def StatusCode.code : StatusCode → Int
  | .ok => 200
  | .created => 201
  | .accepted => 202
  | .noContent => 204
  | .multipleChoices => 300
  | .movedPermanently => 301
  | .movedTemporarily => 302
  | .notModified => 304
  | .badRequest => 400
  | .unauthorized => 401
  | .forbidden => 403
  | .notFound => 404
  | .internalServerError => 500
  | .notImplemented => 501
  | .badGateway => 502
  | .serviceUnavailable => 503
  | .other _ => 500

/-- What the client extracts from a status line is its number, and nothing of the
line is left. -/
theorem statusLine_read (status : StatusCode) : ∃ line message,
    statusLine status = line ++ crlf ∧ carriageReturn ∉ line ∧
      readStatus { rest := line ++ crlf } =
        (((bytes "HTTP/1.0", some status.code), message), { rest := [] }) := by
  refine ⟨(statusLine status).dropLast.dropLast,
    (readStatus { rest := statusLine status }).1.2, ?_⟩
  cases status with
  | other _ =>
      have fallback : statusLine .internalServerError =
            (statusLine .internalServerError).dropLast.dropLast ++ crlf ∧
          carriageReturn ∉ (statusLine .internalServerError).dropLast.dropLast ∧
          readStatus { rest := (statusLine .internalServerError).dropLast.dropLast ++ crlf } =
            (((bytes "HTTP/1.0", some 500),
              (readStatus { rest := statusLine .internalServerError }).1.2), { rest := [] }) := by
        decide +kernel
      exact fallback
  | _ => decide +kernel

/-- The same line, cut off at its line feed. -/
theorem same_line {first second before after : Bytes} (one : lineFeed ∉ first)
    (two : lineFeed ∉ second)
    (same : first ++ lineFeed :: before = second ++ lineFeed :: after) :
    first = second ∧ before = after := by
  have lines := congrArg (firstLine lineFeed) same
  have rests := congrArg (afterLine lineFeed) same
  rw [firstLine_append one, firstLine_append two] at lines
  rw [afterLine_append one, afterLine_append two] at rests
  exact ⟨lines, rests⟩

/-- A header section has no empty line before its end. -/
theorem not_ended_of_prefix {headers : List (Bytes × Bytes)}
    (legible : ∀ header ∈ headers, Legible header) {text : Bytes}
    (begins : text <+: (headers.flatMap fun header => headerLine header ++ [lineFeed]) ++
      [carriageReturn]) : ¬ Ended text := by
  induction headers generalizing text with
  | nil =>
      intro ended
      have short : lineFeed ∉ text := fun found =>
        absurd (begins.subset found) (by decide)
      cases ended with
      | here rest => exact short (List.mem_append_left _ (by decide))
      | next _ _ => exact short (List.mem_append_right _ List.mem_cons_self)
  | cons header rest inductionHypothesis =>
      rcases List.forall_mem_cons.mp legible with ⟨here, later⟩
      have clean := lineFeed_notMem_headerLine here
      rcases begins with ⟨after, whole⟩
      have shape : ((header :: rest).flatMap fun header => headerLine header ++ [lineFeed]) ++
          [carriageReturn] = headerLine header ++ lineFeed ::
            ((rest.flatMap fun header => headerLine header ++ [lineFeed]) ++
              [carriageReturn]) := by
        rw [List.flatMap_cons, List.append_assoc, List.append_assoc]
        rfl
      rw [shape] at whole
      intro ended
      cases ended with
      | here more =>
          have line : [carriageReturn] ++ lineFeed :: (more ++ after) = headerLine header ++
              lineFeed :: ((rest.flatMap fun header => headerLine header ++ [lineFeed]) ++
                [carriageReturn]) := whole
          exact headerLine_ne header (same_line (by decide) clean line).1.symm
      | @next line unbroken more ended =>
          rw [List.append_assoc, List.cons_append] at whole
          have remaining := (same_line unbroken clean whole).2
          exact inductionHypothesis later ⟨after, remaining⟩ ended

/-- The header section as it is written. -/
def headerSection (headers : List (Bytes × Bytes)) : Bytes :=
  headers.flatMap fun header => headerLine header ++ [lineFeed]

/-- Behind the last header line there is a line end. -/
theorem headerSection_eq_append_crlf {headers : List (Bytes × Bytes)} (filled : headers ≠ []) :
    ∃ before, headerSection headers = before ++ crlf := by
  rcases List.eq_nil_or_concat headers with none | ⟨earlier, last, whole⟩
  · exact absurd none filled
  · rw [List.concat_eq_append] at whole
    subst whole
    refine ⟨headerSection earlier ++ (last.1 ++ (nameValueSeparator ++ last.2)), ?_⟩
    simp only [headerSection, headerLine, List.flatMap_append, List.flatMap_cons,
      List.flatMap_nil, List.append_nil, List.append_assoc]
    rfl

/-- Where the empty line of a header section is, in a beginning of the message. -/
theorem infix_take_iff {headers : List (Bytes × Bytes)}
    (legible : ∀ header ∈ headers, Legible header) (filled : headers ≠ []) (content : Bytes)
    (count : Nat) :
    crlf ++ crlf <:+: (headerSection headers ++ (crlf ++ content)).take count ↔
      (headerSection headers).length + crlf.length ≤ count := by
  constructor
  · intro found
    by_contra short
    have bound : count < (headerSection headers).length + crlf.length := Nat.lt_of_not_le short
    have two : crlf.length = 2 := by decide
    refine not_ended_of_prefix legible ?_ (ended_of_found found)
    have shape : headerSection headers ++ (crlf ++ content) =
        (headerSection headers ++ [carriageReturn]) ++ lineFeed :: content := by
      rw [List.append_assoc]
      rfl
    have inside : count ≤ (headerSection headers ++ [carriageReturn]).length := by
      rw [List.length_append, List.length_singleton]
      omega
    rw [shape, List.take_append_of_le_length inside]
    exact List.take_prefix _ _
  · intro enough
    rcases headerSection_eq_append_crlf filled with ⟨before, ends⟩
    have begins : headerSection headers ++ crlf <+:
        (headerSection headers ++ (crlf ++ content)).take count := by
      rw [← List.append_assoc]
      refine List.prefix_take_iff.mpr ⟨List.prefix_append _ _, ?_⟩
      rw [List.length_append]
      exact enough
    refine List.IsInfix.trans ⟨before, [], ?_⟩ begins.isInfix
    rw [ends, List.append_nil, List.append_assoc]

/-- The number of bytes in front of the content. -/
def Response.headLength (response : Response) (iteration : Iteration) (date : Bytes) : Nat :=
  (statusLine response.status).length +
    ((headerSection (iteration.order (response.stamp date).headers)).length + crlf.length)

/-- What the client makes of a response of which some bytes have come. -/
def Response.seenAs (response : Response) (iteration : Iteration) (date : Bytes) (count : Nat) :
    Conversation :=
  if count < (statusLine response.status).length then .threw
  else if response.status.code ≠ 200 then .notOk response.status.code
  else if count < response.headLength iteration date then .threw
  else .headers ((iteration.order (response.stamp date).headers).map headerLine)

/-- Before the status line is complete there is no line. -/
theorem not_infix_of_lt {line text : Bytes} (clean : carriageReturn ∉ line)
    (begins : text <+: line ++ crlf) (short : text.length < (line ++ crlf).length) :
    ¬ crlf <:+: text := by
  intro found
  have isSome := breakOn_isSome_iff.mpr found
  rcases Option.isSome_iff_exists.mp isSome with ⟨⟨before, after⟩, here⟩
  rcases begins with ⟨rest, whole⟩
  have longer := breakOn_concat here rest
  have first : breakOn crlf (line ++ (crlf ++ [])) = some (line, []) :=
    breakOn_append clean [lineFeed] []
  rw [List.append_nil] at first
  rw [whole, first, Option.some.injEq, Prod.mk.injEq] at longer
  have lengths := congrArg List.length (breakOn_eq here)
  rw [← longer.1, ← List.append_assoc, List.length_append] at lengths
  omega

/-- Whatever the response, the order of its headers, how many of its bytes come
and in which pieces: the client throws as long as the part that it needs is
incomplete, and otherwise finds the status code and all header lines. -/
theorem converse_response (iteration : Iteration) {response : Response}
    (legible : response.headers.Legible) {date : Bytes} (unbroken : Unbroken date) {count : Nat}
    {pieces : List Bytes}
    (arrived : pieces.flatten = (response.toBuffers iteration date).2.flatten.take count) :
    converse pieces = response.seenAs iteration date count := by
  rcases statusLine_read response.status with ⟨line, message, whole, clean, read⟩
  rw [Response.flatten_toBuffers] at arrived
  unfold Response.seenAs
  by_cases early : count < (statusLine response.status).length
  · rw [if_pos early]
    refine converse_of_no_line (not_infix_of_lt clean ?_ ?_)
    · rw [arrived, ← whole, List.take_append_of_le_length (Nat.le_of_lt early)]
      exact List.take_prefix _ _
    · rw [arrived, ← whole, List.length_take]
      exact Nat.lt_of_le_of_lt (Nat.min_le_left _ _) early
  · rw [if_neg early]
    let headers := iteration.order (response.stamp date).headers
    have rest : pieces.flatten = line ++ (crlf ++ (headerSection headers ++
        (crlf ++ response.content)).take (count - (statusLine response.status).length)) := by
      rw [arrived, List.take_append, List.take_of_length_le (Nat.le_of_not_lt early), whole,
        List.append_assoc]
      rfl
    have first : breakOn crlf pieces.flatten = some (line, (headerSection headers ++
        (crlf ++ response.content)).take (count - (statusLine response.status).length)) := by
      rw [rest]
      exact breakOn_append clean [lineFeed] _
    have settled : HoldsStatus line := by
      rw [HoldsStatus, read]
    have accepted : ¬ Refused ((bytes "HTTP/1.0", some response.status.code), message)
        { rest := [] } := by
      rintro (failed | version)
      · cases failed
      · have same : (bytes "HTTP/1.0").take 5 = bytes "HTTP/" := by decide
        exact version same
    rw [converse_of_line first settled, conversation, read]
    dsimp only
    rw [if_neg accepted]
    by_cases refused : response.status.code ≠ 200
    · have other : ¬ some response.status.code = some 200 :=
        fun same => refused (Option.some.inj same)
      rw [if_pos other, if_pos refused]
      rfl
    · have same : ¬ some response.status.code ≠ some 200 :=
        fun other => refused fun code => other (congrArg some code)
      have legibleAll : ∀ header ∈ headers, Legible header := by
        intro header listed
        have found := (iteration.mem_order_iff _ header.1 header.2).mp listed
        exact Response.legible_stamp legible unbroken _ _ found
      have filled : headers ≠ [] := by
        have dated : (kDate, date) ∈ headers := by
          refine (iteration.mem_order_iff _ kDate date).mpr ?_
          rw [response.lookup_stamp, if_neg (by decide), if_pos rfl]
        exact List.ne_nil_of_mem dated
      rw [if_neg same, if_neg refused, List.nil_append, Response.headLength]
      have enough_iff := infix_take_iff legibleAll filled response.content
        (count - (statusLine response.status).length)
      by_cases short : count < (statusLine response.status).length +
          ((headerSection headers).length + crlf.length)
      · have absent : ¬ crlf ++ crlf <:+: (headerSection headers ++
            (crlf ++ response.content)).take (count - (statusLine response.status).length) := by
          rw [enough_iff]
          omega
        rw [if_neg absent, if_pos short]
      · have present := enough_iff.mpr (by omega)
        rw [if_pos present, if_neg short]
        have found := headerLines_concat (ended_of_found present)
          ((headerSection headers ++ (crlf ++ response.content)).drop
            (count - (statusLine response.status).length))
        rw [List.take_append_drop] at found
        have lines := headerLines_flatMap legibleAll response.content
        rw [← found]
        exact congrArg (fun result => Conversation.headers result.1) lines

end Http
end LearnAsio
