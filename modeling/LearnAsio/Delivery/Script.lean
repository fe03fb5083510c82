import LearnAsio.Delivery.Fragment

namespace LearnAsio
namespace Delivery

universe u v w

/-!
# A scanner that follows a script

What an incremental scanner reports of a known document can be written down in
advance: stretches that report nothing, texts, and signals between them.  The scanner
takes the document a piece at a time and keeps what is left of the script.  A text
that is cut goes on with the next piece.  Where the end of a text shows only in the
atom behind it, a piece that ends together with the text leaves it open, and the next
piece adds an empty part to it.

Whatever the cut, what is reported is a delivery of the items of the document.
-/

/-- A stretch of a document, or a signal between two stretches. -/
inductive Region (Kind : Type u) (Signal : Type v) where
  | gap (size : Nat)
  | text (kind : Kind) (delimited : Bool) (size : Nat)
  | signal (sign : Signal)
  deriving DecidableEq, Repr

namespace Region

variable {Kind : Type u} {Signal : Type v} {Atom : Type w}

/-- The atoms that the regions cover. -/
def size : List (Region Kind Signal) → Nat
  | [] => 0
  | .gap count :: rest => count + size rest
  | .text _ _ count :: rest => count + size rest
  | .signal _ :: rest => size rest

/-- The end of every text is seen with the last atom of the document at the latest. -/
def Closed : List (Region Kind Signal) → Prop
  | [] => True
  | .gap _ :: rest => Closed rest
  | .text _ delimited count :: rest =>
      (if delimited = true then 0 < size rest else 0 < count) ∧ Closed rest
  | .signal _ :: rest => Closed rest

instance decidableClosed : ∀ regions : List (Region Kind Signal), Decidable (Closed regions)
  | [] => inferInstanceAs (Decidable True)
  | .gap _ :: rest => decidableClosed rest
  | .text _ _ _ :: rest =>
      have := decidableClosed rest
      inferInstanceAs (Decidable (_ ∧ _))
  | .signal _ :: rest => decidableClosed rest

/-- What one piece leaves of the script, and what it reports. -/
def scan : List (Region Kind Signal) → List Atom →
    List (Region Kind Signal) × List (Item Kind Signal Atom)
  | [], _ => ([], [])
  | .gap count :: rest, data =>
      if data.length < count then (.gap (count - data.length) :: rest, [])
      else scan rest (data.drop count)
  | .text kind delimited count :: rest, data =>
      if data.length = 0 then (.text kind delimited count :: rest, [])
      else if data.length < count ∨ (delimited = true ∧ data.length = count) then
        (.text kind delimited (count - data.length) :: rest, [.text kind data])
      else
        ((scan rest (data.drop count)).1,
          .text kind (data.take count) :: (scan rest (data.drop count)).2)
  | .signal sign :: rest, data => ((scan rest data).1, .signal sign :: (scan rest data).2)

/-- The undivided items of a document. -/
def document : List (Region Kind Signal) → List Atom → List (Item Kind Signal Atom)
  | [], _ => []
  | .gap count :: rest, atoms => document rest (atoms.drop count)
  | .text kind _ count :: rest, atoms =>
      .text kind (atoms.take count) :: document rest (atoms.drop count)
  | .signal sign :: rest, atoms => .signal sign :: document rest atoms

/-- What several pieces leave of the script. -/
def remaining : List (Region Kind Signal) → List (List Atom) → List (Region Kind Signal)
  | regions, [] => regions
  | regions, data :: later => remaining (scan regions data).1 later

/-- What several pieces report. -/
def deliver : List (Region Kind Signal) → List (List Atom) → List (Item Kind Signal Atom)
  | _, [] => []
  | regions, data :: later => (scan regions data).2 ++ deliver (scan regions data).1 later

/-! ## One piece -/

theorem size_append (front back : List (Region Kind Signal)) :
    size (front ++ back) = size front + size back := by
  induction front with
  | nil => simp [size]
  | cons region rest inductionHypothesis =>
      cases region with
      | gap count => simp [size, inductionHypothesis, Nat.add_assoc]
      | text kind delimited count => simp [size, inductionHypothesis, Nat.add_assoc]
      | signal sign => simp [size, inductionHypothesis]

theorem size_scan (regions : List (Region Kind Signal)) (data : List Atom) :
    size (scan regions data).1 = size regions - data.length := by
  induction regions generalizing data with
  | nil => simp [scan, size]
  | cons region rest inductionHypothesis =>
      cases region with
      | gap count =>
          rw [scan, size]
          split
          · rw [size]
            omega
          · rw [inductionHypothesis, List.length_drop]
            omega
      | text kind delimited count =>
          rw [scan, size]
          split
          · rw [size]
            omega
          · split
            · rw [size]
              omega
            · rw [inductionHypothesis, List.length_drop]
              omega
      | signal sign => exact inductionHypothesis data

theorem closed_scan {regions : List (Region Kind Signal)} (closed : Closed regions)
    (data : List Atom) : Closed (scan regions data).1 := by
  induction regions generalizing data with
  | nil => trivial
  | cons region rest inductionHypothesis =>
      cases region with
      | gap count =>
          rw [scan]
          split
          · exact closed
          · exact inductionHypothesis closed _
      | text kind delimited count =>
          rw [scan]
          split
          · exact closed
          · split
            next partly =>
              refine ⟨?_, closed.2⟩
              cases delimited with
              | true => exact closed.1
              | false =>
                  have short : data.length < count :=
                    partly.resolve_right fun ends => Bool.false_ne_true ends.1
                  exact Nat.sub_pos_of_lt short
            next => exact inductionHypothesis closed.2 _
      | signal sign => exact inductionHypothesis closed data

/-- When all atoms have come, nothing is left of the script. -/
theorem scan_eq_nil {regions : List (Region Kind Signal)} (closed : Closed regions)
    {data : List Atom} (all : size (scan regions data).1 = 0) : (scan regions data).1 = [] := by
  induction regions generalizing data with
  | nil => rfl
  | cons region rest inductionHypothesis =>
      cases region with
      | gap count =>
          rw [scan] at all ⊢
          split at all
          · rw [size] at all
            omega
          next enough =>
            rw [if_neg enough]
            exact inductionHypothesis closed all
      | text kind delimited count =>
          have unfinished : ∀ left, (delimited = false → 0 < left) →
              size (.text kind delimited left :: rest) ≠ 0 := by
            intro left positive
            rw [size]
            cases delimited with
            | true =>
                have behind : 0 < size rest := closed.1
                omega
            | false =>
                have here := positive rfl
                omega
          rw [scan] at all ⊢
          split at all
          · refine absurd all (unfinished count fun eager => ?_)
            subst eager
            exact closed.1
          next nonempty =>
            split at all
            next partly =>
              refine absurd all (unfinished _ fun eager => ?_)
              subst eager
              exact Nat.sub_pos_of_lt (partly.resolve_right fun ends => Bool.false_ne_true ends.1)
            next wholly =>
              rw [if_neg nonempty, if_neg wholly]
              exact inductionHypothesis closed.2 all
      | signal sign => exact inductionHypothesis closed all

/-- A delivery of the rest of a text continues a delivery of its beginning. -/
theorem fragments_continue {kind : Kind} {front behind : List Atom}
    {calls whole : List (Item Kind Signal Atom)}
    (rest : Fragments calls (.text kind behind :: whole)) :
    Fragments (.text kind front :: calls) (.text kind (front ++ behind) :: whole) := by
  cases rest with
  | text _ first more later => exact Fragments.text kind front (first :: more) later

/-- What one piece reports comes before what the later ones report. -/
theorem fragments_scan (regions : List (Region Kind Signal)) (data : List Atom)
    {later : List (Item Kind Signal Atom)} {more : List Atom}
    (rest : Fragments later (document (scan regions data).1 more)) :
    Fragments ((scan regions data).2 ++ later) (document regions (data ++ more)) := by
  induction regions generalizing data with
  | nil => exact rest
  | cons region regions inductionHypothesis =>
      cases region with
      | gap count =>
          rw [scan] at rest ⊢
          rw [document]
          split at rest
          next short =>
            rw [if_pos short, List.drop_append, List.drop_of_length_le (Nat.le_of_lt short)]
            exact rest
          next enough =>
            rw [if_neg enough, List.drop_append_of_le_length (Nat.le_of_not_lt enough)]
            exact inductionHypothesis _ rest
      | text kind delimited count =>
          rw [scan] at rest ⊢
          rw [document]
          split at rest
          next none =>
            have empty := List.eq_nil_of_length_eq_zero none
            subst empty
            exact rest
          next nonempty =>
            rw [if_neg nonempty]
            split at rest
            next partly =>
              have short : data.length ≤ count := by omega
              rw [if_pos partly, List.take_append, List.take_of_length_le short, List.drop_append,
                List.drop_of_length_le short]
              exact fragments_continue rest
            next wholly =>
              have enough : count ≤ data.length := by omega
              rw [if_neg wholly, List.take_append_of_le_length enough,
                List.drop_append_of_le_length enough]
              have whole := Fragments.text kind (data.take count) [] (inductionHypothesis _ rest)
              rw [List.flatten_nil, List.append_nil] at whole
              exact whole
      | signal sign => exact .signal sign (inductionHypothesis data rest)

/-! ## The whole document -/

/-- When the whole document has come, nothing is left of the script. -/
theorem remaining_eq_nil {regions : List (Region Kind Signal)} (closed : Closed regions)
    (begun : size regions = 0 → regions = []) {pieces : List (List Atom)}
    (all : size regions ≤ pieces.flatten.length) : remaining regions pieces = [] := by
  induction pieces generalizing regions with
  | nil => exact begun (Nat.le_zero.mp all)
  | cons data later inductionHypothesis =>
      refine inductionHypothesis (closed_scan closed data) (scan_eq_nil closed) ?_
      rw [List.flatten_cons, List.length_append] at all
      rw [size_scan]
      omega

/-- However the document is cut, its items are delivered. -/
theorem fragments_deliver {regions : List (Region Kind Signal)} (closed : Closed regions)
    (begun : size regions = 0 → regions = []) {pieces : List (List Atom)}
    (all : pieces.flatten.length = size regions) :
    Fragments (deliver regions pieces) (document regions pieces.flatten) := by
  induction pieces generalizing regions with
  | nil =>
      rw [begun all.symm]
      exact .nil
  | cons data later inductionHypothesis =>
      rw [deliver, List.flatten_cons]
      refine fragments_scan regions data (inductionHypothesis (closed_scan closed data)
        (scan_eq_nil closed) ?_)
      rw [List.flatten_cons, List.length_append] at all
      rw [size_scan]
      omega

/-- A document in two parts. -/
theorem document_append {front back : List (Region Kind Signal)} {first : List Atom}
    (covered : first.length = size front) (second : List Atom) :
    document (front ++ back) (first ++ second) = document front first ++ document back second := by
  induction front generalizing first with
  | nil =>
      rw [List.eq_nil_of_length_eq_zero covered]
      rfl
  | cons region rest inductionHypothesis =>
      cases region with
      | gap count =>
          rw [size] at covered
          rw [List.cons_append, document, document,
            List.drop_append_of_le_length (by omega)]
          exact inductionHypothesis (by rw [List.length_drop]; omega)
      | text kind delimited count =>
          rw [size] at covered
          rw [List.cons_append, document, document, List.take_append_of_le_length (by omega),
            List.drop_append_of_le_length (by omega),
            inductionHypothesis (by rw [List.length_drop]; omega), List.cons_append]
      | signal sign =>
          rw [List.cons_append, document, document, inductionHypothesis covered, List.cons_append]

/-! ## The last signal -/

/-- A piece that does not cover the front does not come to what is behind it. -/
theorem scan_concat {front : List (Region Kind Signal)} {data : List Atom}
    (short : data.length < size front) (last : Region Kind Signal) :
    scan (front ++ [last]) data = ((scan front data).1 ++ [last], (scan front data).2) := by
  induction front generalizing data with
  | nil => exact absurd short (Nat.not_lt_zero _)
  | cons region rest inductionHypothesis =>
      cases region with
      | gap count =>
          rw [size] at short
          rw [List.cons_append, scan, scan]
          split
          · rfl
          · exact inductionHypothesis (by rw [List.length_drop]; omega)
      | text kind delimited count =>
          rw [size] at short
          rw [List.cons_append, scan, scan]
          split
          · rfl
          · split
            · rfl
            · rw [inductionHypothesis (by rw [List.length_drop]; omega)]
      | signal sign =>
          rw [List.cons_append, scan, scan, inductionHypothesis short]

/-- Signals come from the script. -/
theorem mem_of_signal_mem_scan {regions : List (Region Kind Signal)} {data : List Atom}
    {sign : Signal} : (.signal sign ∈ (scan regions data).1 → .signal sign ∈ regions) ∧
      (.signal sign ∈ (scan regions data).2 → .signal sign ∈ regions) := by
  induction regions generalizing data with
  | nil => simp [scan]
  | cons region rest inductionHypothesis =>
      cases region with
      | gap count =>
          rw [scan]
          split
          · simp
          · simp only [List.mem_cons, reduceCtorEq, false_or]
            exact inductionHypothesis
      | text kind delimited count =>
          rw [scan]
          split
          · simp
          · split
            · simp
            · simp only [List.mem_cons, reduceCtorEq, false_or]
              exact inductionHypothesis
      | signal other =>
          have later := @inductionHypothesis data
          simp only [scan, List.mem_cons, Item.signal.injEq, Region.signal.injEq]
          exact ⟨fun listed => Or.inr (later.1 listed), Or.imp_right later.2⟩

/-- The last signal is not given before the document is complete. -/
theorem signal_notMem_deliver {front : List (Region Kind Signal)} {sign : Signal}
    (once : .signal sign ∉ front) {pieces : List (List Atom)}
    (short : pieces.flatten.length < size front) :
    .signal sign ∉ deliver (front ++ [.signal sign]) pieces := by
  induction pieces generalizing front with
  | nil => exact List.not_mem_nil
  | cons data later inductionHypothesis =>
      rw [List.flatten_cons, List.length_append] at short
      rw [deliver, scan_concat (by omega)]
      refine List.not_mem_append (fun listed => once (mem_of_signal_mem_scan.2 listed)) ?_
      refine inductionHypothesis (fun listed => once (mem_of_signal_mem_scan.1 listed)) ?_
      rw [size_scan]
      omega

end Region
end Delivery
end LearnAsio
