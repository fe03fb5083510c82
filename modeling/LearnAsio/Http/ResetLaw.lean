import LearnAsio.Http.StatusLaw
import LearnAsio.Http.Trailers

namespace LearnAsio
namespace Http

open Delivery

/-!
# What a reset does not reset

`http_message::reset` reinitialises the parser behind `pimpl_` and assigns none
of the members of the message.  A reset message is therefore as good as a fresh
one only if these members have never changed.

That nothing less will do depends on what the library can be made to call.  Four
continuations suffice to tell a member apart: none at all for the public
members, an empty buffer for the status, and a response up to its first header
name or header line for the two pending strings.
-/

/-- A response up to its first header name. -/
def responseOpening : Bytes := bytes "HTTP/1.1 200 OK\r\nA"

/-- The same response up to the end of its header section. -/
def responseHead : Bytes := bytes "HTTP/1.1 200 OK\r\nA: b\r\n\r\n"

def openingCalls : List Callback :=
  [.signal .messageBegin, .text .status (bytes "OK"), .text .headerField (bytes "A")]

def headCalls : List Callback :=
  openingCalls ++ [.text .headerValue (bytes "b"), .signal .headersComplete]

/-- What the library does after `http_parser_init` with an empty buffer and with
the two beginnings of a response. -/
structure Responds (library : HttpParser) : Prop where
  silent : (library.execute library.init []).2 = []
  healthy : (library.fields (library.execute library.init []).1).httpErrno = hpeOk
  opening : (library.execute library.init responseOpening).2 = openingCalls
  head : (library.execute library.init responseHead).2 = headCalls

namespace HttpMessage

variable {library : HttpParser}

/-- After a reset the message answers every sequence of calls as a fresh one. -/
def ResetsFully (message : HttpMessage library) : Prop :=
  ∀ later, message.reset.statuses later = (fresh library).statuses later ∧
    (message.reset.feed later).toPublicFields = ((fresh library).feed later).toPublicFields

/-! ## What a continuation tells -/

/-- An empty buffer returns the status that the message has. -/
theorem parse_silent (responds : Responds library) (message : HttpMessage library) :
    (message.reset.parse []).2 = message.messageStatus := by
  change (message.reset.parse []).1.messageStatus = _
  have calls : (library.execute message.reset.parser []).2 = [] := responds.silent
  have errno : (library.fields (library.execute message.reset.parser []).1).httpErrno = hpeOk :=
    responds.healthy
  rw [parse_toFields, Fields.conclude_messageStatus, errno, calls]
  rfl

/-- The table after one call on a reset message. -/
theorem headers_reset_parse (message : HttpMessage library) (data : Bytes) :
    (message.reset.feed [data]).headers =
      ((library.execute library.init data).2.foldl Fields.handle message.toFields).headers := by
  have state := message.reset.headerState_feed [data]
  rw [HttpParser.callbacks, HttpParser.callbacks, List.append_nil] at state
  exact congrArg Prod.fst state

end HttpMessage

namespace Fields

/-- A pending line is stored by the next header name. -/
theorem headers_openingCalls (message : Fields) :
    (openingCalls.foldl handle message).headers = message.saveHeaders.headers := rfl

/-- Otherwise both strings are continued by the next header line. -/
theorem headers_headCalls {message : Fields} (unsaved : message.saveHeaders = message) :
    (headCalls.foldl handle message).headers = message.headers.insert
      (message.currentHeaderField ++ bytes "A") (message.currentHeaderValue ++ bytes "b") := by
  have line : headCalls.foldl handle message = (message.withPending
      (message.currentHeaderField ++ bytes "A")
      (message.currentHeaderValue ++ bytes "b")).saveHeaders := by
    simp only [headCalls, openingCalls, List.cons_append, List.nil_append, List.foldl_cons,
      List.foldl_nil, handle, onMessageBegin, onStatus, onHeaderField, onHeaderValue,
      onHeadersComplete, unsaved, withPending]
  rw [line, saveHeaders_withPending message
    (List.append_ne_nil_of_right_ne_nil _ (by decide))
    (List.append_ne_nil_of_right_ne_nil _ (by decide))]

/-- A table with one line tells both of its strings. -/
theorem insert_injective {first second value other : Bytes}
    (same : (∅ : HeaderMap).insert first value = (∅ : HeaderMap).insert second other) :
    first = second ∧ value = other := by
  have found : ((∅ : HeaderMap).insert second other).lookup first = some value := by
    rw [← same, AList.lookup_insert]
  by_cases equal : first = second
  · rw [equal, AList.lookup_insert, Option.some.injEq] at found
    exact ⟨equal, found.symm⟩
  · rw [AList.lookup_insert_ne equal, AList.lookup_empty] at found
    cases found

/-- Neither beginning of a response shows a trace of earlier header lines only
if there is none. -/
theorem pending_nil_of_same {message : Fields} (empty : message.headers = ∅)
    (opening : (openingCalls.foldl handle message).headers =
      (openingCalls.foldl handle ({} : Fields)).headers)
    (head : (headCalls.foldl handle message).headers =
      (headCalls.foldl handle ({} : Fields)).headers) :
    message.currentHeaderField = [] ∧ message.currentHeaderValue = [] := by
  have unsaved : message.saveHeaders = message := by
    rw [headers_openingCalls, headers_openingCalls] at opening
    unfold saveHeaders at opening ⊢
    split at opening
    · next filled =>
        have stored := congrArg (fun table => table.lookup message.currentHeaderField) opening
        dsimp only at stored
        rw [AList.lookup_insert] at stored
        cases stored
    · next unfilled => rw [if_neg unfilled]
  have initial : ({} : Fields).saveHeaders = {} := saveHeaders_of_no_value rfl
  rw [headers_headCalls unsaved, headers_headCalls initial, empty] at head
  rcases insert_injective head with ⟨field, value⟩
  exact ⟨List.append_cancel_right field, List.append_cancel_right value⟩

/-- A message without any trace is as constructed. -/
theorem eq_initial {message : Fields} (visible : message.toPublicFields = {})
    (field : message.currentHeaderField = []) (value : message.currentHeaderValue = [])
    (status : message.messageStatus = .wantMore) : message = {} := by
  cases message
  subst visible field value status
  rfl

end Fields

namespace HttpMessage

variable {library : HttpParser}

/-- A reset message answers as a fresh one exactly when none of its members had
changed. -/
theorem resetsFully_iff (responds : Responds library) (message : HttpMessage library) :
    message.ResetsFully ↔ message.toFields = {} := by
  constructor
  · intro law
    have visible : message.toPublicFields = {} := (law []).2
    have status : message.messageStatus = .wantMore := by
      have returned : (message.reset.parse []).2 = ((fresh library).reset.parse []).2 :=
        (List.cons.inj (law [[]]).1).1
      rw [parse_silent responds, parse_silent responds] at returned
      exact returned
    have table : ∀ data, ((library.execute library.init data).2.foldl Fields.handle
        message.toFields).headers =
          ((library.execute library.init data).2.foldl Fields.handle {}).headers := by
      intro data
      have same := congrArg PublicFields.headers (law [data]).2
      rw [headers_reset_parse] at same
      exact same.trans (headers_reset_parse (fresh library) data)
    have opening := table responseOpening
    have head := table responseHead
    rw [responds.opening] at opening
    rw [responds.head] at head
    have empty : message.headers = ∅ := congrArg PublicFields.headers visible
    rcases Fields.pending_nil_of_same empty opening head with ⟨field, value⟩
    exact Fields.eq_initial visible field value status
  · intro unchanged later
    have same : message.reset = fresh library := by
      rw [reset, unchanged]
      rfl
    rw [same]
    exact ⟨rfl, rfl⟩

/-- The law for the messages that any calls of `parse` leave behind, completed,
partial or failed. -/
theorem resetLaw_iff (responds : Responds library) (earlier : List Bytes) :
    ((fresh library).feed earlier).ResetsFully ↔ ((fresh library).feed earlier).toFields = {} :=
  resetsFully_iff responds _

/-! ### Two messages -/

/-- The beginning of a response in the middle of its status code. -/
def responseCut : Bytes := bytes "HTTP/1.1 2"

/-- The rest of its first line. -/
def responseRest : Bytes := bytes "00 OK\r\n"

/-- The library on beginnings of a response. -/
def responseParser : HttpParser where
  State := Bytes
  init := []
  execute := fun consumed data =>
    (consumed ++ data,
      if consumed = [] ∧ data = responseOpening then openingCalls
      else if consumed = [] ∧ data = responseHead then headCalls
      else if consumed = [] ∧ data = responseCut then [.signal .messageBegin]
      else if consumed = responseCut ∧ data = responseRest then [.text .status (bytes "OK")]
      else [])
  fields := fun consumed =>
    if consumed = [] then {}
    else if consumed = responseCut then { httpMajor := 1, httpMinor := 1, statusCode := 2 }
    else { httpMajor := 1, httpMinor := 1, statusCode := 200 }
  init_fields := rfl
  sticky := by
    intro consumed data failed
    refine absurd ?_ failed
    split
    · rfl
    · split <;> rfl

theorem responseParser_responds : Responds responseParser where
  silent := by decide +kernel
  healthy := rfl
  opening := rfl
  head := by decide +kernel

/-- The first line of a response, in two pieces, changes no member of the message. -/
theorem untouched_resetsFully :
    ((fresh responseParser).feed [responseCut, responseRest]).ResetsFully :=
  (resetLaw_iff responseParser_responds [responseCut, responseRest]).mpr (by decide +kernel)

/-- The URL of an earlier request is still there after a reset. -/
theorem shortRequest_not_reset :
    ((fresh shortRequestParser).feed [shortRequest]).reset.url = bytes "/" ∧
      ¬ ((fresh shortRequestParser).feed [shortRequest]).ResetsFully := by
  have kept : ((fresh shortRequestParser).feed [shortRequest]).reset.url = bytes "/" := by
    decide +kernel
  refine ⟨kept, fun law => ?_⟩
  have lost : ((fresh shortRequestParser).feed [shortRequest]).reset.url = [] :=
    congrArg PublicFields.url (law []).2
  rw [kept] at lost
  exact absurd lost (by decide)

end HttpMessage
end Http
end LearnAsio
