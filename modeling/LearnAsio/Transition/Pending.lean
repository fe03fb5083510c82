import Mathlib.Data.List.Perm.Basic
import Mathlib.Algebra.Order.Group.Multiset

namespace LearnAsio
namespace Transition

universe u v

/-!
# Outstanding operations in any order

Operations that are outstanding together may complete in any order.  What they hold
between them is a multiset, and an event takes one of them out or puts another one in
its place.
-/

variable {Operation : Type u} {Content : Type v} (content : Operation → Option Content)
  {operations : List Operation} {index : Nat} {operation : Operation}

/-- What the operations hold, for as many of them as hold something. -/
def held (operations : List Operation) : Multiset Content :=
  (operations.filterMap content : List Content)

/-- What a single operation holds. -/
def heldBy (operation : Operation) : Multiset Content :=
  ((content operation).toList : List Content)

@[simp] theorem held_nil : held content [] = 0 := rfl

theorem held_cons (operation : Operation) (operations : List Operation) :
    held content (operation :: operations) =
      heldBy content operation + held content operations := by
  cases holds : content operation with
  | none => simp [held, heldBy, holds]
  | some value => simp [held, heldBy, holds]

/-- An operation that is begun comes last. -/
theorem held_concat (operations : List Operation) (operation : Operation) :
    held content (operations ++ [operation]) =
      held content operations + heldBy content operation := by
  induction operations with
  | nil => simp [held_cons]
  | cons first rest inductionHypothesis =>
      rw [List.cons_append, held_cons, held_cons, inductionHypothesis, add_assoc]

theorem held_of_perm {others : List Operation} (permuted : operations.Perm others) :
    held content operations = held content others :=
  Multiset.coe_eq_coe.mpr (permuted.filterMap content)

/-- The operation that an event refers to holds its own part. -/
theorem held_of_listed (listed : operations[index]? = some operation) :
    held content operations =
      heldBy content operation + held content (operations.eraseIdx index) := by
  rcases List.getElem?_eq_some_iff.mp listed with ⟨bound, same⟩
  rw [← held_cons, ← same]
  exact held_of_perm content (List.getElem_cons_eraseIdx_perm bound).symm

/-- Replacing the operation leaves the others alone. -/
theorem held_set_of_listed (listed : operations[index]? = some operation)
    (replacement : Operation) :
    held content (operations.set index replacement) =
      heldBy content replacement + held content (operations.eraseIdx index) := by
  rcases List.getElem?_eq_some_iff.mp listed with ⟨bound, _⟩
  rw [← held_cons]
  exact held_of_perm content (List.set_perm_cons_eraseIdx bound replacement)

end Transition
end LearnAsio
