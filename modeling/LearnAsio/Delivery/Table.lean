import Mathlib.Data.List.AList

namespace LearnAsio
namespace Delivery

universe u v

/-!
# Tables filled by successive assignments

Storing a list of name and value pairs one after the other keeps, for each
name, the value of its last pair.  `lastValue` states that meaning directly on
the list, independently of any table, and `lookup_assignAll` proves that an
association table filled in order computes it.
-/

variable {Name : Type u} {Value : Type v} [DecidableEq Name]

/-- The value of the last pair with this name. -/
def lastValue : List (Name × Value) → Name → Option Value
  | [], _ => none
  | (name, value) :: rest, key =>
      (lastValue rest key).or (if name = key then some value else none)

@[simp] theorem lastValue_nil (key : Name) :
    lastValue ([] : List (Name × Value)) key = none := rfl

theorem lastValue_cons (pair : Name × Value) (rest : List (Name × Value)) (key : Name) :
    lastValue (pair :: rest) key =
      (lastValue rest key).or (if pair.1 = key then some pair.2 else none) := rfl

/-- The last value of a name is the value of one of its pairs. -/
theorem mem_of_lastValue {pairs : List (Name × Value)} {key : Name} {value : Value}
    (last : lastValue pairs key = some value) : (key, value) ∈ pairs := by
  induction pairs with
  | nil => cases last
  | cons pair rest inductionHypothesis =>
      rw [lastValue_cons, Option.or_eq_some_iff] at last
      rcases last with later | ⟨_, here⟩
      · exact List.mem_cons_of_mem _ (inductionHypothesis later)
      · by_cases same : pair.1 = key
        · rw [if_pos same, Option.some.injEq] at here
          subst same here
          exact List.mem_cons_self
        · rw [if_neg same] at here
          cases here

/-- A name has a last value exactly when it occurs. -/
theorem lastValue_isSome_iff (pairs : List (Name × Value)) (key : Name) :
    (lastValue pairs key).isSome ↔ key ∈ pairs.map Prod.fst := by
  induction pairs with
  | nil => simp
  | cons pair rest inductionHypothesis =>
      rw [lastValue_cons, Option.isSome_or, Bool.or_eq_true, inductionHypothesis, List.map_cons,
        List.mem_cons]
      by_cases same : pair.1 = key
      · simp [same]
      · simp [same, Ne.symm same]

/-- Where no name repeats, every pair is the last one of its name. -/
theorem lastValue_of_mem {pairs : List (Name × Value)} (distinct : (pairs.map Prod.fst).Nodup)
    {key : Name} {value : Value} (listed : (key, value) ∈ pairs) :
    lastValue pairs key = some value := by
  induction pairs with
  | nil => cases listed
  | cons pair rest inductionHypothesis =>
      rw [List.map_cons, List.nodup_cons] at distinct
      rw [lastValue_cons]
      rcases List.mem_cons.mp listed with same | later
      · subst same
        have absent : lastValue rest key = none := by
          rw [← Option.not_isSome_iff_eq_none, lastValue_isSome_iff]
          exact distinct.1
        rw [absent, Option.none_or, if_pos rfl]
      · rw [inductionHypothesis distinct.2 later, Option.some_or]

/-- Assign the pairs to a table in order. -/
def assignAll (table : AList fun _ : Name => Value) (pairs : List (Name × Value)) :
    AList fun _ : Name => Value :=
  pairs.foldl (fun filled pair => filled.insert pair.1 pair.2) table

/-- A table filled in order holds the last assigned values, and its old values
at the names that were not assigned. -/
theorem lookup_assignAll (table : AList fun _ : Name => Value) (pairs : List (Name × Value))
    (key : Name) :
    (assignAll table pairs).lookup key = (lastValue pairs key).or (table.lookup key) := by
  induction pairs generalizing table with
  | nil => rfl
  | cons pair rest inductionHypothesis =>
      have filled := inductionHypothesis (table.insert pair.1 pair.2)
      rw [assignAll, List.foldl_cons, ← assignAll, filled, lastValue_cons, Option.or_assoc]
      congr 1
      by_cases same : pair.1 = key
      · subst same
        rw [AList.lookup_insert, if_pos rfl, Option.some_or]
      · rw [AList.lookup_insert_ne (Ne.symm same), if_neg same, Option.none_or]

end Delivery
end LearnAsio
