import Mathlib.Tactic.Common

namespace LearnAsio
namespace Transition

universe u

/-!
# At most one outstanding operation

A loop keeps the operations it has begun in a list and refers to one of them by
its position.  Where an invariant bounds the list by one entry, the entry that
an event refers to is the whole list, whatever the position.
-/

variable {Operation : Type u} {operations : List Operation} {index : Nat} {operation : Operation}

theorem eq_singleton_of_listed (single : operations.length ≤ 1)
    (listed : operations[index]? = some operation) : operations = [operation] ∧ index = 0 := by
  rcases List.getElem?_eq_some_iff.mp listed with ⟨bound, same⟩
  have first : index = 0 := by omega
  subst first
  cases operations with
  | nil => cases bound
  | cons head tail =>
      have empty : tail = [] := List.eq_nil_of_length_eq_zero (by
        rw [List.length_cons] at single
        omega)
      subst empty
      rw [List.getElem_cons_zero] at same
      exact ⟨congrArg (fun entry => [entry]) same, rfl⟩

/-- Taking the operation out leaves nothing outstanding. -/
theorem eraseIdx_of_listed (single : operations.length ≤ 1)
    (listed : operations[index]? = some operation) : operations.eraseIdx index = [] := by
  rcases eq_singleton_of_listed single listed with ⟨whole, first⟩
  subst whole first
  rfl

/-- Replacing the operation leaves only the replacement. -/
theorem set_of_listed (single : operations.length ≤ 1)
    (listed : operations[index]? = some operation) (replacement : Operation) :
    operations.set index replacement = [replacement] := by
  rcases eq_singleton_of_listed single listed with ⟨whole, first⟩
  subst whole first
  rfl

end Transition
end LearnAsio
