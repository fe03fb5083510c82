import Mathlib.Tactic.Common

namespace LearnAsio
namespace Delivery

universe u v w x

/-!
# Item streams whose texts arrive in pieces

An incremental scanner reports a document as a sequence of items: signals,
which are atomic, and texts of some kind.  Since the scanner sees its input a
buffer at a time, one text of the document can reach the consumer as several
consecutive items of the same kind, and some of those items can be empty.

`Fragments calls whole` says that `calls` is such a delivery of the undivided
items `whole`.  A consumer is a fold over the delivered items.  It cannot
observe the cuts when feeding two consecutive pieces is the same as feeding
their concatenation, and this is required only in the states where an undivided
text begins: inside a text the law propagates by itself.
-/

/-- One delivered item: a piece of text of some kind, or a signal. -/
inductive Item (Kind : Type u) (Signal : Type v) (Atom : Type w) where
  | text (kind : Kind) (content : List Atom)
  | signal (signal : Signal)
  deriving DecidableEq, Repr

variable {Kind : Type u} {Signal : Type v} {Atom : Type w}

/-- `calls` delivers the undivided items `whole`: each text is cut into one or
more consecutive pieces, each signal is delivered once, and the order is kept. -/
inductive Fragments : List (Item Kind Signal Atom) → List (Item Kind Signal Atom) → Prop where
  | nil : Fragments [] []
  | signal (sign : Signal) {calls whole : List (Item Kind Signal Atom)} :
      Fragments calls whole → Fragments (.signal sign :: calls) (.signal sign :: whole)
  | text (kind : Kind) (first : List Atom) (more : List (List Atom))
      {calls whole : List (Item Kind Signal Atom)} :
      Fragments calls whole →
        Fragments ((first :: more).map (.text kind) ++ calls)
          (.text kind (first ++ more.flatten) :: whole)

namespace Fragments

/-- Delivering every text in one piece is a delivery. -/
theorem refl (whole : List (Item Kind Signal Atom)) : Fragments whole whole := by
  induction whole with
  | nil => exact .nil
  | cons item rest inductionHypothesis =>
      cases item with
      | signal sign => exact .signal sign inductionHypothesis
      | text kind content =>
          simpa only [List.map_cons, List.map_nil, List.flatten_nil, List.append_nil,
            List.singleton_append] using Fragments.text kind content [] inductionHypothesis

/-- A text that is delivered in two pieces. -/
theorem text_pair (kind : Kind) (first second : List Atom)
    {calls whole : List (Item Kind Signal Atom)} (rest : Fragments calls whole) :
    Fragments (.text kind first :: .text kind second :: calls)
      (.text kind (first ++ second) :: whole) := by
  simpa only [List.map_cons, List.map_nil, List.flatten_cons, List.flatten_nil, List.append_nil,
    List.cons_append, List.nil_append] using Fragments.text kind first [second] rest

theorem of_nil {calls : List (Item Kind Signal Atom)} (fragments : Fragments calls []) :
    calls = [] := by
  cases fragments
  rfl

/-- A delivery of a signal and more begins with the signal. -/
theorem of_signal {sign : Signal} {calls whole : List (Item Kind Signal Atom)}
    (fragments : Fragments calls (.signal sign :: whole)) :
    ∃ rest, calls = .signal sign :: rest ∧ Fragments rest whole := by
  cases fragments with
  | signal _ rest => exact ⟨_, rfl, rest⟩

end Fragments

/-! ## Cutting a byte stream -/

/-- The pieces are non-empty and concatenate to the stream. -/
def Segments (stream : List Atom) (pieces : List (List Atom)) : Prop :=
  pieces.flatten = stream ∧ [] ∉ pieces

instance [DecidableEq Atom] (stream : List Atom) (pieces : List (List Atom)) :
    Decidable (Segments stream pieces) :=
  inferInstanceAs (Decidable (pieces.flatten = stream ∧ [] ∉ pieces))

/-- Without its last piece a cut covers a proper prefix. -/
theorem Segments.earlier {stream last : List Atom} {earlier : List (List Atom)}
    (segments : Segments stream (earlier ++ [last])) :
    Segments earlier.flatten earlier ∧ earlier.flatten <+: stream ∧ earlier.flatten ≠ stream := by
  rcases segments with ⟨whole, nonempty⟩
  rw [List.flatten_append, List.flatten_singleton] at whole
  rw [List.mem_append, not_or, List.mem_singleton] at nonempty
  refine ⟨⟨rfl, nonempty.1⟩, ⟨last, whole⟩, ?_⟩
  intro same
  rw [← same] at whole
  exact nonempty.2 (List.append_right_eq_self.mp whole).symm

/-! ## The concatenated content of one kind -/

/-- Everything of one kind that the items carry, in order. -/
def contentOf [DecidableEq Kind] (kind : Kind) : List (Item Kind Signal Atom) → List Atom
  | [] => []
  | .text other content :: rest =>
      if other = kind then content ++ contentOf kind rest else contentOf kind rest
  | .signal _ :: rest => contentOf kind rest

section Content

variable [DecidableEq Kind]

@[simp] theorem contentOf_signal (kind : Kind) (sign : Signal)
    (rest : List (Item Kind Signal Atom)) :
    contentOf kind (.signal sign :: rest) = contentOf kind rest := rfl

@[simp] theorem contentOf_text_self (kind : Kind) (content : List Atom)
    (rest : List (Item Kind Signal Atom)) :
    contentOf kind (.text kind content :: rest) = content ++ contentOf kind rest :=
  if_pos rfl

theorem contentOf_text_of_ne {kind other : Kind} (different : other ≠ kind) (content : List Atom)
    (rest : List (Item Kind Signal Atom)) :
    contentOf kind (.text other content :: rest) = contentOf kind rest :=
  if_neg different

theorem contentOf_append (kind : Kind) (first second : List (Item Kind Signal Atom)) :
    contentOf kind (first ++ second) = contentOf kind first ++ contentOf kind second := by
  induction first with
  | nil => rfl
  | cons item rest inductionHypothesis =>
      cases item with
      | signal sign => simpa only [List.cons_append, contentOf_signal] using inductionHypothesis
      | text other content =>
          by_cases same : other = kind
          · subst same
            simp only [List.cons_append, contentOf_text_self, inductionHypothesis,
              List.append_assoc]
          · simp only [List.cons_append, contentOf_text_of_ne same, inductionHypothesis]

/-- The beginning of a delivered text, as long as none of its content has been
reached, consists of empty pieces. -/
private theorem empty_pieces (kind : Kind) {pieces : List (List Atom)}
    {calls unread rest : List (Item Kind Signal Atom)}
    (delivered : pieces.map (Item.text kind) ++ rest = calls ++ unread)
    (content : pieces.flatten ≠ []) (unreached : contentOf kind calls = []) :
    ∀ item ∈ calls, item = .text kind [] := by
  induction calls generalizing pieces with
  | nil => exact fun _ listed => absurd listed List.not_mem_nil
  | cons item others inductionHypothesis =>
      cases pieces with
      | nil => exact absurd rfl content
      | cons piece later =>
          rw [List.map_cons, List.cons_append, List.cons_append, List.cons.injEq] at delivered
          rcases delivered with ⟨same, delivered⟩
          rw [← same, contentOf_text_self, List.append_eq_nil_iff] at unreached
          rw [List.flatten_cons, unreached.1, List.nil_append] at content
          intro other listed
          rcases List.mem_cons.mp listed with here | later
          · rw [here, ← same, unreached.1]
          · exact inductionHypothesis delivered content unreached.2 other later

theorem Fragments.empty_before_content {kind : Kind} {content : List Atom}
    {calls unread whole : List (Item Kind Signal Atom)}
    (fragments : Fragments (calls ++ unread) (.text kind content :: whole))
    (nonempty : content ≠ []) (unreached : contentOf kind calls = []) :
    ∀ item ∈ calls, item = .text kind [] := by
  generalize shape : calls ++ unread = delivered at fragments
  cases fragments with
  | text _ first more _ => exact empty_pieces kind shape.symm nonempty unreached

end Content

/-! ## Consumers that cannot see the cuts -/

variable {State : Type x}

/-- In this state, two consecutive pieces act as their concatenation. -/
def Joins (step : State → Item Kind Signal Atom → State) (state : State) : Prop :=
  ∀ (kind : Kind) (first second : List Atom),
    step (step state (.text kind first)) (.text kind second) =
      step state (.text kind (first ++ second))

/-- The joining law at every state in which an undivided item begins. -/
def JoinsAlong (step : State → Item Kind Signal Atom → State) :
    State → List (Item Kind Signal Atom) → Prop
  | _, [] => True
  | state, item :: rest => Joins step state ∧ JoinsAlong step (step state item) rest

/-- All the pieces of one text act as the text itself. -/
theorem foldl_pieces {step : State → Item Kind Signal Atom → State} {state : State}
    (joins : Joins step state) (kind : Kind) (first : List Atom) (more : List (List Atom)) :
    ((first :: more).map (Item.text kind)).foldl step state =
      step state (.text kind (first ++ more.flatten)) := by
  induction more generalizing first with
  | nil => simp only [List.map_cons, List.map_nil, List.foldl_cons, List.foldl_nil,
      List.flatten_nil, List.append_nil]
  | cons second rest inductionHypothesis =>
      have joined := inductionHypothesis (first ++ second)
      rw [List.map_cons, List.foldl_cons] at joined
      rw [List.map_cons, List.map_cons, List.foldl_cons, List.foldl_cons, joins kind first second,
        joined, List.flatten_cons, List.append_assoc]

/-- A consumer that joins pieces along the undivided items computes the same
state from every delivery of them. -/
theorem foldl_fragments {step : State → Item Kind Signal Atom → State}
    {calls whole : List (Item Kind Signal Atom)} (fragments : Fragments calls whole)
    {state : State} (joins : JoinsAlong step state whole) :
    calls.foldl step state = whole.foldl step state := by
  induction fragments generalizing state with
  | nil => rfl
  | signal sign _ inductionHypothesis => exact inductionHypothesis joins.2
  | text kind first more _ inductionHypothesis =>
      rw [List.foldl_append, foldl_pieces joins.1, List.foldl_cons]
      exact inductionHypothesis joins.2

/-- A consumer that appends the texts of one kind to an accumulator, and leaves
the accumulator alone otherwise, accumulates the content of that kind. -/
theorem foldl_content [DecidableEq Kind] (step : State → Item Kind Signal Atom → State)
    (accumulator : State → List Atom) {kind : Kind}
    (appends : ∀ state content,
      accumulator (step state (.text kind content)) = accumulator state ++ content)
    (ignores : ∀ state item, (∀ content, item ≠ .text kind content) →
      accumulator (step state item) = accumulator state)
    (state : State) (calls : List (Item Kind Signal Atom)) :
    accumulator (calls.foldl step state) = accumulator state ++ contentOf kind calls := by
  induction calls generalizing state with
  | nil => exact (List.append_nil _).symm
  | cons item rest inductionHypothesis =>
      rw [List.foldl_cons, inductionHypothesis]
      cases item with
      | signal sign =>
          rw [contentOf_signal,
            ignores state (.signal sign) (by intro _ impossible; cases impossible)]
      | text other content =>
          by_cases same : other = kind
          · subst same
            rw [contentOf_text_self, appends, List.append_assoc]
          · rw [contentOf_text_of_ne same, ignores]
            intro _ impossible
            cases impossible
            exact same rfl

end Delivery
end LearnAsio
