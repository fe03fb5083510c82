import LearnAsio.Delivery.Lines
import LearnAsio.Http.Response

namespace LearnAsio
namespace Http

open Delivery

/-!
# Reading a response back

`to_buffers` puts a status line, one line for each header and an empty line in
front of the content.  The reader here takes them apart again the way the loop of
the client does: `std::getline` cuts the header section into lines until one of
them consists of a carriage return only.

Nothing that is written separates the content from what precedes it but that
first empty line.  So the round trip rests on the header lines: none of them is
empty, because each contains its separator, and none is broken by its own name
or value.
-/

def lineFeed : UInt8 := 10
def carriageReturn : UInt8 := 13
def colon : UInt8 := 58

/-! ## The reader -/

/-- The loop over `std::getline` in the client: the lines before the first one
that is only a carriage return, and what follows it. -/
def headerLines (stream : Bytes) : List Bytes × Bytes :=
  if _ : stream = [] then ([], [])
  else if firstLine lineFeed stream = [carriageReturn] then ([], afterLine lineFeed stream)
  else
    let (lines, remainder) := headerLines (afterLine lineFeed stream)
    (firstLine lineFeed stream :: lines, remainder)
termination_by stream.length
decreasing_by exact length_afterLine_lt ‹_›

/-- A line without the carriage return at its end. -/
def withoutReturn (line : Bytes) : Bytes :=
  if line.getLast? = some carriageReturn then line.dropLast else line

/-- A header line, split at its first separator. -/
def readHeader (line : Bytes) : Option (Bytes × Bytes) :=
  breakOn nameValueSeparator (withoutReturn line)

/-- What a response has been read as. -/
structure Reading where
  status : Bytes
  headers : List (Bytes × Bytes)
  remainder : Bytes
  deriving DecidableEq, Repr

/-- Read a status line, a header section and the rest. -/
def readResponse (stream : Bytes) : Option Reading := do
  let (status, rest) ← breakOn crlf stream
  let (lines, remainder) := headerLines rest
  let headers ← lines.mapM readHeader
  some { status := status, headers := headers, remainder := remainder }

/-- At least one decimal digit and nothing else. -/
def Digits (text : Bytes) : Prop :=
  text ≠ [] ∧ ∀ byte ∈ text, 48 ≤ byte ∧ byte ≤ 57

-- The bytes of the text are tried, not all 256.
instance (text : Bytes) : Decidable (Digits text) :=
  @instDecidableAnd _ _ _ (List.decidableBAll _ text)

/-- A decimal number without a sign. -/
def number (text : Bytes) : Option Nat :=
  if Digits text then
    some (Nat.ofDigitChars 10 (text.map fun byte => Char.ofNat byte.toNat) 0)
  else none

/-! ## Numbers -/

theorem isDigit_bounds {digit : Char} (decimal : digit.isDigit) :
    48 ≤ digit.toNat ∧ digit.toNat ≤ 57 := by
  rw [Char.isDigit, Bool.and_eq_true, decide_eq_true_eq, decide_eq_true_eq] at decimal
  exact ⟨UInt32.le_iff_toNat_le.mp decimal.1, UInt32.le_iff_toNat_le.mp decimal.2⟩

/-- A digit survives being stored in a byte. -/
theorem toNat_digit {digit : Char} (decimal : digit.isDigit) :
    digit.toNat.toUInt8.toNat = digit.toNat := by
  have bounds := isDigit_bounds decimal
  rw [Nat.toUInt8_eq, UInt8.toNat_ofNat', Nat.mod_eq_of_lt]
  omega

theorem mem_decimal {size : Nat} {byte : UInt8} (listed : byte ∈ decimal size) :
    48 ≤ byte ∧ byte ≤ 57 := by
  rcases List.mem_map.mp listed with ⟨digit, among, same⟩
  have isDigit := Nat.isDigit_of_mem_toDigits (by decide) (by decide) among
  have bounds := isDigit_bounds isDigit
  rw [← toNat_digit isDigit] at bounds
  subst same
  exact ⟨UInt8.le_iff_toNat_le.mpr bounds.1, UInt8.le_iff_toNat_le.mpr bounds.2⟩

/-- A size that has been written in decimal is read as itself. -/
theorem number_decimal (size : Nat) : number (decimal size) = some size := by
  have filled : decimal size ≠ [] := by
    rw [decimal, Ne, List.map_eq_nil_iff]
    exact Nat.toDigits_ne_nil
  have digits : (decimal size).map (fun byte => Char.ofNat byte.toNat) = Nat.toDigits 10 size := by
    rw [decimal, List.map_map]
    refine (List.map_congr_left ?_).trans (List.map_id _)
    intro digit among
    have isDigit := Nat.isDigit_of_mem_toDigits (by decide) (by decide) among
    rw [Function.comp_apply, toNat_digit isDigit, Char.ofNat_toNat, id]
  rw [number, if_pos ⟨filled, fun byte listed => mem_decimal listed⟩, digits,
    Nat.ofDigitChars_ten_toDigits]

/-! ## Header lines -/

/-- A text that does not break its line. -/
def Unbroken (text : Bytes) : Prop :=
  carriageReturn ∉ text ∧ lineFeed ∉ text

instance (text : Bytes) : Decidable (Unbroken text) :=
  inferInstanceAs (Decidable (_ ∧ _))

theorem unbroken_decimal (size : Nat) : Unbroken (decimal size) := by
  constructor
  · intro listed
    exact absurd (mem_decimal listed).1 (by decide)
  · intro listed
    exact absurd (mem_decimal listed).1 (by decide)

/-- A header that is written as one line and can be split where its name ends. -/
structure Legible (header : Bytes × Bytes) : Prop where
  plain : colon ∉ header.1
  name : Unbroken header.1
  value : Unbroken header.2

/-- A header line without its line feed. -/
def headerLine (header : Bytes × Bytes) : Bytes :=
  header.1 ++ (nameValueSeparator ++ (header.2 ++ [carriageReturn]))

theorem flatten_headerBuffers (header : Bytes × Bytes) :
    (Response.headerBuffers header).flatten = headerLine header ++ [lineFeed] := by
  simp only [Response.headerBuffers, List.flatten_cons, List.flatten_nil, headerLine,
    List.append_assoc, List.append_nil]
  rfl

theorem readHeader_headerLine {header : Bytes × Bytes} (legible : Legible header) :
    readHeader (headerLine header) = some header := by
  have bare : withoutReturn (headerLine header) =
      header.1 ++ (nameValueSeparator ++ header.2) := by
    have ending : headerLine header =
        (header.1 ++ (nameValueSeparator ++ header.2)) ++ [carriageReturn] := by
      simp only [headerLine, List.append_assoc]
    rw [ending, withoutReturn, List.getLast?_append, List.getLast?_singleton, if_pos (by rfl),
      List.dropLast_concat]
  rw [readHeader, bare]
  exact breakOn_append legible.plain (bytes " ") header.2

/-- No header line is mistaken for the empty line, since it has a separator. -/
theorem headerLine_ne (header : Bytes × Bytes) : headerLine header ≠ [carriageReturn] := by
  intro same
  have lengths := congrArg List.length same
  simp only [headerLine, List.length_append, List.length_singleton] at lengths
  have separator : nameValueSeparator.length = 2 := by decide
  omega

theorem lineFeed_notMem_headerLine {header : Bytes × Bytes} (legible : Legible header) :
    lineFeed ∉ headerLine header := by
  simp only [headerLine, List.mem_append, not_or]
  exact ⟨legible.name.2, by decide, legible.value.2, by decide⟩

/-! ## The loop -/

theorem headerLines_empty (remainder : Bytes) :
    headerLines (crlf ++ remainder) = ([], remainder) := by
  have clean : lineFeed ∉ [carriageReturn] := by decide
  have shape : crlf ++ remainder = [carriageReturn] ++ lineFeed :: remainder := rfl
  rw [shape, headerLines, dif_neg (List.append_ne_nil_of_left_ne_nil (List.cons_ne_nil _ _) _),
    if_pos (firstLine_append clean remainder), afterLine_append clean]

theorem headerLines_cons {line : Bytes} (clean : lineFeed ∉ line)
    (filled : line ≠ [carriageReturn]) (rest : Bytes) :
    headerLines (line ++ lineFeed :: rest) =
      (line :: (headerLines rest).1, (headerLines rest).2) := by
  rw [headerLines, dif_neg (List.append_ne_nil_of_right_ne_nil _ (List.cons_ne_nil _ _)),
    firstLine_append clean, if_neg filled, afterLine_append clean]

/-- The loop finds the header lines and stops in front of the content. -/
theorem headerLines_flatMap {headers : List (Bytes × Bytes)}
    (legible : ∀ header ∈ headers, Legible header) (content : Bytes) :
    headerLines ((headers.flatMap fun header => headerLine header ++ [lineFeed]) ++
      (crlf ++ content)) = (headers.map headerLine, content) := by
  induction headers with
  | nil => exact headerLines_empty content
  | cons header rest inductionHypothesis =>
      rcases List.forall_mem_cons.mp legible with ⟨here, later⟩
      rw [List.flatMap_cons, List.append_assoc, List.append_assoc, List.singleton_append,
        headerLines_cons (lineFeed_notMem_headerLine here) (headerLine_ne header),
        inductionHypothesis later]
      rfl

/-! ## The round trip -/

/-- No header of the map breaks its line. -/
def HeaderMap.Legible (headers : HeaderMap) : Prop :=
  ∀ name value, headers.lookup name = some value → Http.Legible (name, value)

namespace HeaderMap.Legible

theorem empty : HeaderMap.Legible ∅ := by
  intro name value found
  rw [AList.lookup_empty] at found
  cases found

theorem insert {headers : HeaderMap} (legible : headers.Legible) {name value : Bytes}
    (header : Http.Legible (name, value)) : HeaderMap.Legible (headers.insert name value) := by
  intro key stored found
  by_cases same : key = name
  · subst same
    rw [AList.lookup_insert] at found
    cases found
    exact header
  · rw [AList.lookup_insert_ne same] at found
    exact legible key stored found

end HeaderMap.Legible

namespace Iteration

variable (iteration : Iteration) (headers : HeaderMap)

/-- Every name is visited once. -/
theorem names_nodup : ((iteration.order headers).map Prod.fst).Nodup := by
  have names := (iteration.perm headers).map Prod.fst
  rw [List.map_map] at names
  exact names.nodup_iff.mpr headers.nodupKeys

theorem mem_order_iff (name value : Bytes) :
    (name, value) ∈ iteration.order headers ↔ headers.lookup name = some value := by
  rw [(iteration.perm headers).mem_iff, ← Option.mem_def, AList.mem_lookup_iff, List.mem_map]
  constructor
  · rintro ⟨⟨key, stored⟩, listed, same⟩
    cases same
    exact listed
  · exact fun listed => ⟨⟨name, value⟩, listed, rfl⟩

/-- What is visited is the map, in whatever order. -/
theorem lastValue_order (name : Bytes) :
    lastValue (iteration.order headers) name = headers.lookup name := by
  cases found : headers.lookup name with
  | some value =>
      exact lastValue_of_mem (iteration.names_nodup headers)
        ((iteration.mem_order_iff headers name value).mpr found)
  | none =>
      rw [← Option.not_isSome_iff_eq_none, lastValue_isSome_iff, List.mem_map]
      rintro ⟨⟨key, value⟩, listed, rfl⟩
      rw [(iteration.mem_order_iff headers key value).mp listed] at found
      cases found

end Iteration

/-- The two fields that `to_buffers` assigns, and the others. -/
theorem Response.lookup_stamp (response : Response) (date name : Bytes) :
    (response.stamp date).headers.lookup name =
      if name = kContentLength then some (decimal response.content.length)
      else if name = kDate then some date
      else response.headers.lookup name := by
  rw [stamp]
  dsimp only
  by_cases length : name = kContentLength
  · rw [if_pos length, length, AList.lookup_insert]
  · rw [if_neg length, AList.lookup_insert_ne length]
    by_cases stamped : name = kDate
    · rw [if_pos stamped, stamped, AList.lookup_insert]
    · rw [if_neg stamped, AList.lookup_insert_ne stamped]

theorem Response.legible_stamp {response : Response} (legible : response.headers.Legible)
    {date : Bytes} (unbroken : Unbroken date) : (response.stamp date).headers.Legible := by
  have names : (colon ∉ kDate ∧ Unbroken kDate) ∧ colon ∉ kContentLength ∧
      Unbroken kContentLength := by decide
  have dated := legible.insert (Http.Legible.mk names.1.1 names.1.2 unbroken)
  exact dated.insert (Http.Legible.mk names.2.1 names.2.2 (unbroken_decimal _))

/-- A status line ends at its only carriage return. -/
theorem statusLine_split (status : StatusCode) :
    ∃ text, carriageReturn ∉ text ∧ statusLine status = text ++ crlf := by
  refine ⟨(statusLine status).dropLast.dropLast, ?_⟩
  cases status with
  | other _ =>
      have fallback : carriageReturn ∉ (statusLine .internalServerError).dropLast.dropLast ∧
          statusLine .internalServerError =
            (statusLine .internalServerError).dropLast.dropLast ++ crlf := by decide
      exact fallback
  | _ => decide

/-- The bytes of a response, header by header. -/
theorem Response.flatten_toBuffers (iteration : Iteration) (response : Response) (date : Bytes) :
    (response.toBuffers iteration date).2.flatten = statusLine response.status ++
      (((iteration.order (response.stamp date).headers).flatMap fun header =>
        headerLine header ++ [lineFeed]) ++ (crlf ++ response.content)) := by
  have lines : ∀ headers : List (Bytes × Bytes), (headers.flatMap headerBuffers).flatten =
      headers.flatMap fun header => headerLine header ++ [lineFeed] := by
    intro headers
    induction headers with
    | nil => rfl
    | cons header rest inductionHypothesis =>
        rw [List.flatMap_cons, List.flatten_append, flatten_headerBuffers, inductionHypothesis,
          List.flatMap_cons]
  simp only [toBuffers, List.flatten_cons, List.flatten_append, lines, List.flatten_nil,
    List.append_nil]
  rfl

/-- The reader takes a response apart into its parts. -/
theorem readResponse_flatten (iteration : Iteration) {response : Response}
    (legible : response.headers.Legible) {date : Bytes} (unbroken : Unbroken date) :
    ∃ status, status ++ crlf = statusLine response.status ∧
      readResponse (response.toBuffers iteration date).2.flatten = some
        { status := status
          headers := iteration.order (response.stamp date).headers
          remainder := response.content } := by
  rcases statusLine_split response.status with ⟨status, whole, split⟩
  have headers : ∀ header ∈ iteration.order (response.stamp date).headers, Legible header := by
    intro header listed
    have found := (iteration.mem_order_iff _ header.1 header.2).mp listed
    exact Response.legible_stamp legible unbroken _ _ found
  have parsed : ∀ headers : List (Bytes × Bytes), (∀ header ∈ headers, Legible header) →
      (headers.map headerLine).mapM readHeader = some headers := by
    intro headers each
    induction headers with
    | nil => rfl
    | cons header rest inductionHypothesis =>
        rcases List.forall_mem_cons.mp each with ⟨here, later⟩
        rw [List.map_cons, List.mapM_cons, readHeader_headerLine here, inductionHypothesis later]
        rfl
  refine ⟨status, split.symm, ?_⟩
  have first : ∀ rest, breakOn crlf (status ++ (crlf ++ rest)) = some (status, rest) :=
    breakOn_append whole [lineFeed]
  rw [Response.flatten_toBuffers, split, List.append_assoc, readResponse, first,
    Option.bind_eq_bind, Option.bind_some]
  dsimp only
  rw [headerLines_flatMap headers, parsed _ headers]
  rfl

/-- Whatever the response, the order of its headers and the date, reading its
buffers back gives the status line, every field once with the value that
`to_buffers` leaves it, and the content, whose length is the one written. -/
theorem readResponse_toBuffers (iteration : Iteration) (response : Response) (date : Bytes)
    (legible : response.headers.Legible) (unbroken : Unbroken date) :
    ∃ reading, readResponse (response.toBuffers iteration date).2.flatten = some reading ∧
      reading.status ++ crlf = statusLine response.status ∧
      (reading.headers.map Prod.fst).Nodup ∧
      (∀ name, lastValue reading.headers name =
        if name = kContentLength then some (decimal response.content.length)
        else if name = kDate then some date
        else response.headers.lookup name) ∧
      reading.remainder = response.content ∧
      (lastValue reading.headers kContentLength).bind number =
        some reading.remainder.length := by
  rcases readResponse_flatten iteration legible unbroken with ⟨status, line, read⟩
  refine ⟨_, read, line, iteration.names_nodup _, ?_, rfl, ?_⟩
  · intro name
    rw [iteration.lastValue_order, response.lookup_stamp]
  · rw [iteration.lastValue_order, response.lookup_stamp, if_pos rfl, Option.bind_some,
      number_decimal]

/-! ### A content that looks like a header section -/

theorem Response.legible_initial : Response.initial.headers.Legible := by
  have type : Http.Legible (kContentType, bytes "text/json") :=
    ⟨by decide, by decide, by decide⟩
  have server : Http.Legible (kServer, bytes "tonghao&asio") :=
    ⟨by decide, by decide, by decide⟩
  have connection : Http.Legible (kConnection, bytes "close") :=
    ⟨by decide, by decide, by decide⟩
  exact ((HeaderMap.Legible.empty.insert type).insert server).insert connection

/-- The default response with a content that begins with an empty line and
contains another header. -/
def headerInContent : Response :=
  { Response.initial with content := bytes "\r\n\r\nContent-Length: 7\r\n\r\n" }

/-- The reader stops in front of that content. -/
theorem headerInContent_read : ∃ reading,
    readResponse (headerInContent.toBuffers Iteration.entries
      (bytes "Thu, 01 Jan 1970 00:00:00 GMT")).2.flatten = some reading ∧
      reading.remainder = bytes "\r\n\r\nContent-Length: 7\r\n\r\n" ∧
      lastValue reading.headers kContentLength = some (bytes "25") := by
  rcases readResponse_toBuffers Iteration.entries headerInContent
    (bytes "Thu, 01 Jan 1970 00:00:00 GMT") Response.legible_initial (by decide) with
    ⟨reading, read, _, _, fields, remainder, _⟩
  refine ⟨reading, read, remainder, ?_⟩
  rw [fields, if_pos rfl]
  decide

end Http
end LearnAsio
