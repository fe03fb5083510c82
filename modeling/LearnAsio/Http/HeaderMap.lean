import LearnAsio.Http.Message

namespace LearnAsio
namespace Http

open Delivery

/-!
# The header map of one header section

`save_headers` takes a pending pair for a complete header line when both of its
strings are non-empty.  A line with an empty value therefore never ends: the
name of the next line is appended to its name.  `glue` is that reading of a
header section, written on the lines alone.

The main theorem compares the table that the callbacks build with the intended
one, in which every name has the value of its last line.  They agree for every
fragmentation exactly when gluing changes no last value.  Where no name repeats
this happens only if every value is non-empty.
-/

/-- The lines that are stored when the name of a line with an empty value is
glued in front of the next name.  Trailing lines with empty values leave only a
pending name. -/
def glue : Bytes → List HeaderLine → List (Bytes × Bytes)
  | _, [] => []
  | pending, line :: rest =>
      if line.value = [] then glue (pending ++ line.name) rest
      else (pending ++ line.name, line.value) :: glue [] rest

/-- The name left pending at the end. -/
def glueRest : Bytes → List HeaderLine → Bytes
  | pending, [] => pending
  | pending, line :: rest =>
      if line.value = [] then glueRest (pending ++ line.name) rest else glueRest [] rest

/-- Gluing leaves every name its last value. -/
def LastValuesKept (lines : List HeaderLine) : Prop :=
  ∀ name, lastValue (glue [] lines) name = lastValue (lines.map HeaderLine.pair) name

theorem glue_of_nonempty {lines : List HeaderLine} (filled : ∀ line ∈ lines, line.value ≠ []) :
    glue [] lines = lines.map HeaderLine.pair := by
  induction lines with
  | nil => rfl
  | cons line rest inductionHypothesis =>
      have tail := inductionHypothesis fun other listed =>
        filled other (List.mem_cons_of_mem _ listed)
      rw [glue, if_neg (filled line List.mem_cons_self), tail, List.nil_append, List.map_cons]
      rfl

/-- An empty value is never stored. -/
theorem value_ne_of_mem_glue {pending : Bytes} {lines : List HeaderLine} {name value : Bytes}
    (listed : (name, value) ∈ glue pending lines) : value ≠ [] := by
  induction lines generalizing pending with
  | nil => cases listed
  | cons line rest inductionHypothesis =>
      by_cases empty : line.value = []
      · rw [glue, if_pos empty] at listed
        exact inductionHypothesis listed
      · rw [glue, if_neg empty] at listed
        rcases List.mem_cons.mp listed with same | later
        · have here : value = line.value := (Prod.ext_iff.mp same).2
          exact here ▸ empty
        · exact inductionHypothesis later

theorem lastValuesKept_of_nonempty {lines : List HeaderLine}
    (filled : ∀ line ∈ lines, line.value ≠ []) : LastValuesKept lines := by
  intro name
  rw [glue_of_nonempty filled]

/-- With pairwise distinct names, one empty value is already lost. -/
theorem nonempty_of_lastValuesKept {lines : List HeaderLine}
    (distinct : (lines.map HeaderLine.name).Nodup) (kept : LastValuesKept lines) :
    ∀ line ∈ lines, line.value ≠ [] := by
  intro line listed empty
  have names : ((lines.map HeaderLine.pair).map Prod.fst).Nodup := by
    rw [List.map_map]
    exact distinct
  have intended := lastValue_of_mem names (List.mem_map_of_mem listed)
  have stored := mem_of_lastValue ((kept line.name).trans intended)
  exact value_ne_of_mem_glue stored empty

namespace Fields

theorem saveHeaders_of_no_value {message : Fields} (empty : message.currentHeaderValue = []) :
    message.saveHeaders = message :=
  if_neg fun filled => filled.1 empty

/-- Replace the pending header line. -/
def withPending (message : Fields) (name value : Bytes) : Fields :=
  { message with currentHeaderField := name, currentHeaderValue := value }

theorem saveHeaders_withPending (message : Fields) {name value : Bytes} (named : name ≠ [])
    (filled : value ≠ []) :
    (message.withPending name value).saveHeaders =
      { message with
        headers := message.headers.insert name value
        currentHeaderField := []
        currentHeaderValue := [] } :=
  if_pos ⟨filled, named⟩

theorem saveHeaders_saveHeaders (message : Fields) :
    message.saveHeaders.saveHeaders = message.saveHeaders := by
  by_cases filled : message.currentHeaderValue ≠ [] ∧ message.currentHeaderField ≠ []
  · apply saveHeaders_of_no_value
    rw [saveHeaders, if_pos filled]
  · have unchanged : message.saveHeaders = message := if_neg filled
    rw [unchanged, unchanged]

/-- The first callback of a line would save anyway. -/
private theorem saveHeaders_foldl_lineItems (message : Fields) (lines : List HeaderLine) :
    ((lineItems lines).foldl handle message.saveHeaders).saveHeaders =
      ((lineItems lines).foldl handle message).saveHeaders := by
  cases lines with
  | nil => exact message.saveHeaders_saveHeaders
  | cons line rest =>
      simp only [lineItems_cons, List.foldl_cons, handle, onHeaderField, saveHeaders_saveHeaders]

private theorem foldl_lineItems_cons (message : Fields) (line : HeaderLine)
    (rest : List HeaderLine) (empty : message.currentHeaderValue = []) :
    (lineItems (line :: rest)).foldl handle message =
      (lineItems rest).foldl handle
        (message.withPending (message.currentHeaderField ++ line.name) line.value) := by
  simp only [lineItems_cons, List.foldl_cons, handle, onHeaderField, onHeaderValue,
    saveHeaders_of_no_value empty, empty, List.nil_append, withPending]

/-- Reading header lines and saving once more stores exactly the glued lines. -/
theorem saveHeaders_lineItems (message : Fields) (lines : List HeaderLine)
    (empty : message.currentHeaderValue = []) :
    ((lineItems lines).foldl handle message).saveHeaders =
      { message with
        headers := assignAll message.headers (glue message.currentHeaderField lines)
        currentHeaderField := glueRest message.currentHeaderField lines } := by
  induction lines generalizing message with
  | nil => exact saveHeaders_of_no_value empty
  | cons line rest inductionHypothesis =>
      have named : message.currentHeaderField ++ line.name ≠ [] :=
        fun absent => line.name_ne (List.append_eq_nil_iff.mp absent).2
      rw [foldl_lineItems_cons message line rest empty, ← saveHeaders_foldl_lineItems]
      by_cases valueless : line.value = []
      · -- The line stays open: its name waits for the next one.
        have open_line : (message.withPending (message.currentHeaderField ++ line.name)
            line.value).currentHeaderValue = [] := valueless
        rw [saveHeaders_of_no_value open_line, inductionHypothesis _ open_line, glue, glueRest,
          if_pos valueless, if_pos valueless, withPending, valueless, ← empty]
      · rw [saveHeaders_withPending message named valueless, inductionHypothesis _ rfl, glue,
          glueRest, if_neg valueless, if_neg valueless, ← empty]
        rfl

end Fields

/-- The callbacks of a header section are well ordered. -/
theorem wellOrdered_lineItems (lines : List HeaderLine) {rest : List Callback}
    (later : WellOrdered false rest) : WellOrdered false (lineItems lines ++ rest) := by
  induction lines with
  | nil => exact later
  | cons line others inductionHypothesis =>
      rw [lineItems_cons]
      exact ⟨line.name_ne, rfl, inductionHypothesis⟩

/-- The members of a fresh message after its header section, for every
fragmentation of names and values. -/
theorem headers_of_fragments {lines : List HeaderLine} {calls : List Callback}
    (fragments : Fragments calls (lineItems lines ++ [.signal .headersComplete])) :
    calls.foldl Fields.handle {} =
      { headers := assignAll ∅ (glue [] lines), currentHeaderField := glueRest [] lines } := by
  have ordered : WellOrdered false (lineItems lines ++ [.signal .headersComplete]) :=
    wellOrdered_lineItems lines trivial
  rw [Fields.foldl_handle_fragments fragments ordered (Or.inl rfl), List.foldl_append]
  exact Fields.saveHeaders_lineItems {} lines rfl

/-- The table that the callbacks of a header section build has exactly the
names of the section, each with the value of its last line. -/
def HeadersIntended (calls : List Callback) (lines : List HeaderLine) : Prop :=
  ∀ name, (calls.foldl Fields.handle {}).headers.lookup name =
    lastValue (lines.map HeaderLine.pair) name

/-- The header map is the intended one exactly when gluing keeps the last
values.  Non-empty values are sufficient for that, and necessary where no name
repeats. -/
theorem headersIntended_iff {lines : List HeaderLine} {calls : List Callback}
    (fragments : Fragments calls (lineItems lines ++ [.signal .headersComplete])) :
    (HeadersIntended calls lines ↔ LastValuesKept lines) ∧
      ((∀ line ∈ lines, line.value ≠ []) → HeadersIntended calls lines) ∧
      ((lines.map HeaderLine.name).Nodup →
        (HeadersIntended calls lines ↔ ∀ line ∈ lines, line.value ≠ [])) := by
  have exactly_kept : HeadersIntended calls lines ↔ LastValuesKept lines := by
    refine forall_congr' fun name => ?_
    rw [headers_of_fragments fragments]
    dsimp only
    rw [lookup_assignAll, AList.lookup_empty, Option.or_none]
  refine ⟨exactly_kept, fun filled => exactly_kept.mpr (lastValuesKept_of_nonempty filled), ?_⟩
  intro distinct
  rw [exactly_kept]
  exact ⟨nonempty_of_lastValuesKept distinct, lastValuesKept_of_nonempty⟩

/-- `Host: a`, `Accept: x` and `Host: bc`. -/
def hostSection : List HeaderLine :=
  [⟨bytes "Host", bytes "a", by decide⟩, ⟨bytes "Accept", bytes "x", by decide⟩,
    ⟨bytes "Host", bytes "bc", by decide⟩]

/-- The same section with its texts cut in two, some of them before the first byte or
behind the last one. -/
def hostCalls : List Callback :=
  [.text .headerField (bytes "Ho"), .text .headerField (bytes "st"), .text .headerValue [],
    .text .headerValue (bytes "a"), .text .headerField (bytes "Acc"),
    .text .headerField (bytes "ept"), .text .headerValue (bytes "x"), .text .headerValue [],
    .text .headerField [], .text .headerField (bytes "Host"), .text .headerValue (bytes "b"),
    .text .headerValue (bytes "c"), .signal .headersComplete]

theorem hostCalls_fragments :
    Fragments hostCalls (lineItems hostSection ++ [.signal .headersComplete]) :=
  Fragments.text_pair DataKind.headerField (bytes "Ho") (bytes "st")
    (Fragments.text_pair DataKind.headerValue [] (bytes "a")
      (Fragments.text_pair DataKind.headerField (bytes "Acc") (bytes "ept")
        (Fragments.text_pair DataKind.headerValue (bytes "x") []
          (Fragments.text_pair DataKind.headerField [] (bytes "Host")
            (Fragments.text_pair DataKind.headerValue (bytes "b") (bytes "c")
              (Fragments.signal Notification.headersComplete Fragments.nil))))))

theorem headersIntended_hostCalls : HeadersIntended hostCalls hostSection :=
  (headersIntended_iff hostCalls_fragments).2.1 (by decide)

/-- `A:` followed by `B: x`. -/
def emptyValueSection : List HeaderLine :=
  [⟨bytes "A", [], by decide⟩, ⟨bytes "B", bytes "x", by decide⟩]

/-- The callbacks of that section with every text in one piece.  The object
stores `AB: x` instead of the two lines. -/
theorem emptyValueSection_not_intended :
    Fragments (lineItems emptyValueSection ++ [.signal .headersComplete])
        (lineItems emptyValueSection ++ [.signal .headersComplete]) ∧
      ¬ HeadersIntended (lineItems emptyValueSection ++ [.signal .headersComplete])
        emptyValueSection := by
  refine ⟨Fragments.refl _, fun intended => ?_⟩
  have lost := intended (bytes "A")
  revert lost
  decide

end Http
end LearnAsio
