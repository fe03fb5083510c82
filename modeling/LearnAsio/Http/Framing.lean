import LearnAsio.Http.Reader

namespace LearnAsio
namespace Http

open Delivery

/-!
# Where a response ends

A reader on the wire compares field names without regard to case, expects no
body after the statuses 204 and 304 and otherwise takes as many bytes as the one
Content-Length field says.  `to_buffers` writes that field under one spelling and
appends the content whatever the status is.

The reader therefore finds the end of the response in the right place exactly if
no other spelling of the field is in the map, and the content is empty where
none is expected.
-/

/-! ## A conforming reader -/

/-- A letter in lower case. -/
def lower (byte : UInt8) : UInt8 :=
  if 65 ≤ byte ∧ byte ≤ 90 then byte + 32 else byte

/-- Two spellings of one field name. -/
def SameField (first second : Bytes) : Prop :=
  first.map lower = second.map lower

instance (first second : Bytes) : Decidable (SameField first second) :=
  inferInstanceAs (Decidable (_ = _))

/-- The fields that say how long the body is. -/
def Reading.lengthFields (reading : Reading) : List (Bytes × Bytes) :=
  reading.headers.filter fun header => SameField header.1 kContentLength

/-- The three digits behind the version. -/
def statusCode (status : Bytes) : Option Nat :=
  number ((status.drop 9).take 3)

/-- The status is one that no body follows. -/
def Bodiless (status : Bytes) : Prop :=
  statusCode status = some 204 ∨ statusCode status = some 304

instance (status : Bytes) : Decidable (Bodiless status) :=
  inferInstanceAs (Decidable (_ ∨ _))

/-- The length of the body, if there is exactly one field for it. -/
def Reading.bodyLength (reading : Reading) : Option Nat :=
  match reading.lengthFields with
  | [header] => if Bodiless reading.status then some 0 else number header.2
  | _ => none

/-- The body of the message and what follows the message. -/
def readMessage (stream : Bytes) : Option (Bytes × Bytes) := do
  let reading ← readResponse stream
  let length ← reading.bodyLength
  if length ≤ reading.remainder.length then
    some (reading.remainder.take length, reading.remainder.drop length)
  else none

/-- The reader finds the content as the body, and nothing behind it. -/
def Framed (stream content : Bytes) : Prop :=
  readMessage stream = some (content, [])

instance (stream content : Bytes) : Decidable (Framed stream content) :=
  inferInstanceAs (Decidable (_ = _))

/-! ## The responses of the public interface -/

/-- The bytes other than letters and digits that a token may contain. -/
def tokenMarks : Bytes := [33, 35, 36, 37, 38, 39, 42, 43, 45, 46, 94, 95, 96, 124, 126]

/-- A field name that is a token. -/
def Token (name : Bytes) : Prop :=
  name ≠ [] ∧ ∀ byte ∈ name,
    (48 ≤ byte ∧ byte ≤ 57) ∨ (65 ≤ byte ∧ byte ≤ 90) ∨ (97 ≤ byte ∧ byte ≤ 122) ∨
      byte ∈ tokenMarks

instance (name : Bytes) : Decidable (Token name) :=
  inferInstanceAs (Decidable (_ ∧ _))

/-- A constructor, then assignments to the members. -/
inductive Built : Response → Prop
  | ofStatus (code : StatusCode) : Built (Response.ofStatus code)
  | initial : Built Response.initial
  | setStatus {response : Response} (built : Built response) (status : StatusCode) :
      Built { response with status := status }
  | setContent {response : Response} (built : Built response) (content : Bytes) :
      Built { response with content := content }
  | insertHeader {response : Response} (built : Built response) {name value : Bytes}
      (token : Token name) (unbroken : Unbroken value) :
      Built { response with headers := response.headers.insert name value }

theorem notMem_of_token {name : Bytes} (token : Token name) :
    colon ∉ name ∧ Unbroken name := by
  refine ⟨fun listed => ?_, fun listed => ?_, fun listed => ?_⟩
  · exact absurd (token.2 _ listed) (by decide)
  · exact absurd (token.2 _ listed) (by decide)
  · exact absurd (token.2 _ listed) (by decide)

/-- Every such response can be read back. -/
theorem Built.legible {response : Response} (built : Built response) :
    response.headers.Legible := by
  induction built with
  | ofStatus code =>
      have name : colon ∉ kContentLength ∧ Unbroken kContentLength := by decide
      exact HeaderMap.Legible.empty.insert (.mk name.1 name.2 (unbroken_decimal _))
  | initial => exact Response.legible_initial
  | setStatus _ _ inductionHypothesis => exact inductionHypothesis
  | setContent _ _ inductionHypothesis => exact inductionHypothesis
  | insertHeader _ token unbroken inductionHypothesis =>
      have name := notMem_of_token token
      exact inductionHypothesis.insert (.mk name.1 name.2 unbroken)

/-! ## The length fields -/

/-- The one field is found among the others exactly if no other name counts as
the same. -/
theorem filter_names_eq_singleton_iff {headers : List (Bytes × Bytes)}
    (distinct : (headers.map Prod.fst).Nodup) {name value : Bytes}
    (listed : (name, value) ∈ headers) {found : Bytes × Bytes} :
    headers.filter (fun header => decide (SameField header.1 name)) = [found] ↔
      found = (name, value) ∧ ∀ header ∈ headers, SameField header.1 name → header.1 = name := by
  have here : (name, value) ∈ headers.filter fun header => decide (SameField header.1 name) :=
    List.mem_filter.mpr ⟨listed, decide_eq_true rfl⟩
  constructor
  · intro single
    rw [single, List.mem_singleton] at here
    refine ⟨here.symm, fun header among same => ?_⟩
    have kept : header ∈ headers.filter fun header => decide (SameField header.1 name) :=
      List.mem_filter.mpr ⟨among, decide_eq_true same⟩
    rw [single, List.mem_singleton, ← here] at kept
    exact congrArg Prod.fst kept
  · rintro ⟨rfl, unique⟩
    apply List.perm_singleton.mp
    have entries : headers.Nodup := List.Nodup.of_map _ distinct
    refine (List.perm_ext_iff_of_nodup (entries.filter _) (List.nodup_singleton _)).mpr ?_
    intro header
    rw [List.mem_filter, List.mem_singleton]
    constructor
    · rintro ⟨among, same⟩
      have key := unique header among (of_decide_eq_true same)
      exact List.inj_on_of_nodup_map distinct among listed key
    · rintro rfl
      exact ⟨listed, decide_eq_true rfl⟩

/-- No header but Content-Length itself is called that. -/
def OneSpelling (headers : HeaderMap) : Prop :=
  ∀ name ∈ headers, SameField name kContentLength → name = kContentLength

/-- The status allows the content. -/
def BodyAllowed (response : Response) : Prop :=
  response.status = .noContent ∨ response.status = .notModified → response.content = []

theorem bodiless_iff {status : StatusCode} {text : Bytes}
    (split : text ++ crlf = statusLine status) :
    Bodiless text ↔ status = .noContent ∨ status = .notModified := by
  have whole : text = (statusLine status).dropLast.dropLast := by
    have shape : text ++ crlf = text ++ [carriageReturn] ++ [lineFeed] :=
      (List.append_assoc text [carriageReturn] [lineFeed]).symm
    rw [← split, shape, List.dropLast_concat, List.dropLast_concat]
  rw [whole]
  cases status with
  | other _ =>
      have fallback : ¬ Bodiless (statusLine .internalServerError).dropLast.dropLast := by decide
      refine ⟨fun bodiless => absurd bodiless fallback, ?_⟩
      rintro (impossible | impossible)
      · cases impossible
      · cases impossible
  | _ => decide

/-! ## The end of the message -/

section

variable {iteration : Iteration} {response : Response} {date : Bytes}

/-- The only field is the one that `to_buffers` has assigned. -/
theorem lengthFields_eq_singleton_iff {found : Bytes × Bytes} {status remainder : Bytes} :
    Reading.lengthFields ⟨status, iteration.order (response.stamp date).headers, remainder⟩ =
        [found] ↔
      found = (kContentLength, decimal response.content.length) ∧
        OneSpelling response.headers := by
  have listed : (kContentLength, decimal response.content.length) ∈
      iteration.order (response.stamp date).headers := by
    rw [iteration.mem_order_iff, response.lookup_stamp, if_pos rfl]
  rw [Reading.lengthFields,
    filter_names_eq_singleton_iff (iteration.names_nodup _) listed]
  refine and_congr_right fun _ =>
    ⟨fun unique name member same => ?_, fun one header among same => ?_⟩
  · rcases Option.isSome_iff_exists.mp (AList.lookup_isSome.mpr member) with ⟨value, stored⟩
    by_cases length : name = kContentLength
    · exact length
    · by_cases stamped : name = kDate
      · subst stamped
        exact absurd same (by decide)
      · refine unique (name, value) ?_ same
        rw [iteration.mem_order_iff, response.lookup_stamp, if_neg length, if_neg stamped, stored]
  · have stored := (iteration.mem_order_iff _ header.1 header.2).mp among
    rw [response.lookup_stamp] at stored
    by_cases length : header.1 = kContentLength
    · exact length
    · rw [if_neg length] at stored
      by_cases stamped : header.1 = kDate
      · rw [stamped] at same
        exact absurd same (by decide)
      · rw [if_neg stamped] at stored
        exact one header.1 (AList.lookup_isSome.mp (stored ▸ rfl)) same

/-- The length that the reader takes, or no length at all. -/
theorem bodyLength_of_oneSpelling (one : OneSpelling response.headers) (status : Bytes)
    (remainder : Bytes) :
    Reading.bodyLength ⟨status, iteration.order (response.stamp date).headers, remainder⟩ =
      if Bodiless status then some 0 else some response.content.length := by
  rw [Reading.bodyLength, lengthFields_eq_singleton_iff.mpr ⟨rfl, one⟩]
  dsimp only
  rw [number_decimal]

theorem bodyLength_of_not_oneSpelling (several : ¬ OneSpelling response.headers) (status : Bytes)
    (remainder : Bytes) :
    Reading.bodyLength ⟨status, iteration.order (response.stamp date).headers, remainder⟩ =
      none := by
  rw [Reading.bodyLength]
  split
  · next header found => exact absurd (lengthFields_eq_singleton_iff.mp found).2 several
  · rfl

/-- What the reader makes of a response that can be read back. -/
theorem framed_iff_of_legible (legible : response.headers.Legible) (unbroken : Unbroken date) :
    Framed (response.toBuffers iteration date).2.flatten response.content ↔
      OneSpelling response.headers ∧ BodyAllowed response := by
  rcases readResponse_flatten iteration legible unbroken with ⟨status, split, read⟩
  rw [Framed, readMessage, read, Option.bind_eq_bind, Option.bind_some]
  by_cases one : OneSpelling response.headers
  · rw [bodyLength_of_oneSpelling one, BodyAllowed, ← bodiless_iff split]
    by_cases bodiless : Bodiless status
    · rw [if_pos bodiless, Option.bind_eq_bind, Option.bind_some, if_pos (Nat.zero_le _),
        List.take_zero, List.drop_zero, Option.some.injEq, Prod.mk.injEq]
      exact ⟨fun ends => ⟨one, fun _ => ends.2⟩, fun allowed =>
        ⟨(allowed.2 bodiless).symm, allowed.2 bodiless⟩⟩
    · rw [if_neg bodiless, Option.bind_eq_bind, Option.bind_some, if_pos (Nat.le_refl _),
        List.take_length, List.drop_length]
      exact ⟨fun _ => ⟨one, fun expected => absurd expected bodiless⟩, fun _ => rfl⟩
  · rw [bodyLength_of_not_oneSpelling one]
    refine ⟨fun impossible => ?_, fun allowed => absurd allowed.1 one⟩
    cases impossible

end

/-- A response that has been built through the public interface ends for the
reader where its buffers end, with its content as the body, exactly if no other
spelling of Content-Length is among its headers and a status without a body
comes with an empty content. -/
theorem framed_iff (iteration : Iteration) {response : Response} (built : Built response)
    {date : Bytes} (unbroken : Unbroken date) :
    Framed (response.toBuffers iteration date).2.flatten response.content ↔
      OneSpelling response.headers ∧ BodyAllowed response :=
  framed_iff_of_legible built.legible unbroken

/-- A stock reply with a body is framed. -/
theorem notFound_framed : Framed ((Response.ofStatus .notFound).toBuffers Iteration.entries
    (bytes "Thu, 01 Jan 1970 00:00:00 GMT")).2.flatten (stockReply .notFound) := by
  refine (framed_iff Iteration.entries (.ofStatus .notFound) (by decide)).mpr ⟨?_, ?_⟩
  · intro name member _
    rw [Response.ofStatus, AList.mem_insert] at member
    exact member.resolve_right (AList.notMem_empty name)
  · rintro (impossible | impossible)
    · cases impossible
    · cases impossible

/-- The stock reply of 204 has a body all the same, and the reader finds it
behind the message. -/
theorem noContent_not_framed : Built (Response.ofStatus .noContent) ∧
    ¬ Framed ((Response.ofStatus .noContent).toBuffers Iteration.entries
      (bytes "Thu, 01 Jan 1970 00:00:00 GMT")).2.flatten (stockReply .noContent) := by
  refine ⟨.ofStatus .noContent, fun framed => ?_⟩
  have built : Built (Response.ofStatus .noContent) := .ofStatus .noContent
  have allowed := ((framed_iff_of_legible built.legible (by decide)).mp framed).2
  exact absurd (allowed (Or.inl rfl)) (by decide)

end Http
end LearnAsio
