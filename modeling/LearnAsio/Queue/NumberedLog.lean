import Mathlib.Data.List.Nodup

namespace LearnAsio
namespace Queue

universe u

/-!
# A log of numbered entries

Entries that carry their own position in a log can be found again after they
have been mixed with other entries and queued elsewhere.  A receiver that joins
at some point sees the log from there on, and the entries from any later number
on are the same for every such receiver.
-/

variable {Entry : Type u} (number : Entry → Option Nat)

/-- Every entry carries its position. -/
def Numbered (log : List Entry) : Prop :=
  ∀ index entry, log[index]? = some entry → number entry = some index

/-- Is this an entry of the log with at least this number? -/
def atLeast (bound : Nat) (entry : Entry) : Bool :=
  match number entry with
  | some index => decide (bound ≤ index)
  | none => false

/-- Is this an entry of the log at all? -/
def logged (entry : Entry) : Bool := (number entry).isSome

variable {number}

theorem atLeast_of_number {entry : Entry} {index bound : Nat} (known : number entry = some index) :
    atLeast number bound entry = decide (bound ≤ index) := by
  rw [atLeast, known]

/-- Only logged entries have a number. -/
theorem filter_atLeast_logged (bound : Nat) (entries : List Entry) :
    (entries.filter (logged number)).filter (atLeast number bound) =
      entries.filter (atLeast number bound) := by
  rw [List.filter_filter]
  apply List.filter_congr
  intro entry _
  unfold atLeast logged
  cases number entry with
  | none => rfl
  | some index => exact Bool.and_true _

namespace Numbered

variable {log : List Entry}

theorem nil : Numbered number ([] : List Entry) := by
  intro index entry impossible
  cases impossible

/-- A new entry carries the length of the log. -/
theorem concat (numbered : Numbered number log) {entry : Entry}
    (next : number entry = some log.length) : Numbered number (log ++ [entry]) := by
  intro index other found
  by_cases earlier : index < log.length
  · rw [List.getElem?_append_left earlier] at found
    exact numbered index other found
  · have late : log.length ≤ index := Nat.le_of_not_lt earlier
    rw [List.getElem?_append_right late] at found
    rcases List.getElem?_eq_some_iff.mp found with ⟨bound, same⟩
    have first : index - log.length = 0 := by
      rw [List.length_singleton] at bound
      omega
    have here : index = log.length := by omega
    rw [here, ← next, ← same]
    simp only [first, List.getElem_cons_zero]

/-- No entry occurs twice. -/
theorem nodup (numbered : Numbered number log) : log.Nodup := by
  rw [List.nodup_iff_getElem?_ne_getElem?]
  intro first second earlier bound same
  have listed := List.getElem?_eq_getElem bound
  have one := numbered first _ (same.trans listed)
  have other := numbered second _ listed
  have equal : first = second := Option.some.inj (one.symm.trans other)
  omega

/-- From a later number on, the log that a receiver has seen is the log. -/
theorem filter_drop (numbered : Numbered number log) {start bound : Nat} (later : start ≤ bound) :
    (log.drop start).filter (atLeast number bound) = log.drop bound := by
  have split : log.drop start =
      (log.drop start).take (bound - start) ++ log.drop bound := by
    have rest : (log.drop start).drop (bound - start) = log.drop bound := by
      rw [List.drop_drop]
      congr 1
      omega
    rw [← rest, List.take_append_drop]
  have before : ((log.drop start).take (bound - start)).filter (atLeast number bound) = [] := by
    rw [List.filter_eq_nil_iff]
    intro entry listed
    rcases List.mem_take_iff_getElem.mp listed with ⟨index, inside, same⟩
    have found : log[start + index]? = some entry := by
      rw [← List.getElem?_drop, List.getElem?_eq_getElem (by omega), same]
    rw [atLeast_of_number (numbered _ _ found), decide_eq_true_eq]
    omega
  have after : (log.drop bound).filter (atLeast number bound) = log.drop bound := by
    rw [List.filter_eq_self]
    intro entry listed
    rcases List.mem_iff_getElem?.mp listed with ⟨index, found⟩
    rw [List.getElem?_drop] at found
    rw [atLeast_of_number (numbered _ _ found), decide_eq_true_eq]
    omega
  rw [split, List.filter_append, before, after, List.nil_append]

end Numbered
end Queue
end LearnAsio
