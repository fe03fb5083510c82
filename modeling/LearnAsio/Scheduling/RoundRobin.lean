import Mathlib.Data.Int.CardIntervalMod
import Mathlib.Tactic.Common

namespace LearnAsio
namespace Scheduling

/-!
# Taking turns by a counter

A counter numbers the calls `0, 1, 2, …`, and the call with number `n` goes to
the member `n % size` of a group.  Then the numbers of calls that any two
members have had never differ by more than one.

A counter in a machine word starts over at its modulus.  The cycle of members is
broken there unless the size of the group divides the modulus: the members that
the last, incomplete cycle has served are served again before the others.
-/

/-- After each of the first `calls` calls, no member has been chosen two times
more often than another one. -/
def Balanced (choice : Nat → Nat) (size calls : Nat) : Prop :=
  ∀ prior ≤ calls, ∀ first < size, ∀ second < size,
    Nat.count (fun number => choice number = first) prior ≤
      Nat.count (fun number => choice number = second) prior + 1

/-- The member that is chosen when the counter starts over at `modulus`. -/
def turn (modulus size number : Nat) : Nat := number % modulus % size

variable {choice other : Nat → Nat} {modulus size calls : Nat}

private theorem count_congr (agree : ∀ number < calls, choice number = other number)
    {prior : Nat} (within : prior ≤ calls) (member : Nat) :
    Nat.count (fun number => choice number = member) prior =
      Nat.count (fun number => other number = member) prior := by
  apply List.countP_congr
  intro number listed
  have early : number < calls := Nat.lt_of_lt_of_le (List.mem_range.mp listed) within
  simp only [agree number early]

/-- Balance is about the choices that have been made. -/
theorem Balanced.congr (balanced : Balanced choice size calls)
    (agree : ∀ number < calls, choice number = other number) : Balanced other size calls := by
  intro prior within first inside second alongside
  rw [← count_congr agree within first, ← count_congr agree within second]
  exact balanced prior within first inside second alongside

/-- How often a member has been chosen by a counter that never starts over. -/
theorem count_cycle {member : Nat} (inside : member < size) (prior : Nat) :
    Nat.count (fun number => number % size = member) prior =
      prior / size + if member < prior % size then 1 else 0 := by
  have counted := Nat.count_modEq_card prior (Nat.zero_lt_of_lt inside) member
  rw [Nat.mod_eq_of_lt inside] at counted
  rw [← counted]
  apply List.countP_congr
  intro number _
  simp only [Nat.ModEq, Nat.mod_eq_of_lt inside]

theorem balanced_cycle (size calls : Nat) : Balanced (fun number => number % size) size calls := by
  intro prior _ first inside second alongside
  rw [count_cycle inside, count_cycle alongside]
  split <;> omega

theorem turn_of_lt {number : Nat} (early : number < modulus) :
    turn modulus size number = number % size := by
  rw [turn, Nat.mod_eq_of_lt early]

theorem turn_of_dvd (whole : size ∣ modulus) (number : Nat) :
    turn modulus size number = number % size :=
  Nat.mod_mod_of_dvd number whole

/-- The call at which the counter starts over goes to the first member. -/
theorem turn_modulus : turn modulus size modulus = 0 := by
  rw [turn, Nat.mod_self, Nat.zero_mod]

private theorem count_turn_modulus {member : Nat} (inside : member < size) :
    Nat.count (fun number => turn modulus size number = member) modulus =
      modulus / size + if member < modulus % size then 1 else 0 := by
  rw [← count_cycle inside]
  exact count_congr (fun number early => turn_of_lt early) (Nat.le_refl modulus) member

/-- Once the counter has started over in the middle of a cycle, the first member
is two calls ahead of the last one. -/
theorem unbalanced_after_wrap (broken : ¬ size ∣ modulus) (wrapped : modulus < calls)
    (occupied : 0 < size) : ¬ Balanced (turn modulus size) size calls := by
  intro balanced
  have rest : modulus % size ≠ 0 := fun none => broken (Nat.dvd_of_mod_eq_zero none)
  have short : modulus % size < size := Nat.mod_lt _ occupied
  have last : size - 1 < size := Nat.sub_lt occupied Nat.one_pos
  have ahead := balanced (modulus + 1) wrapped 0 occupied (size - 1) last
  rw [Nat.count_succ, Nat.count_succ, count_turn_modulus occupied, count_turn_modulus last,
    turn_modulus] at ahead
  rw [if_pos (Nat.pos_of_ne_zero rest), if_pos rfl, if_neg (by omega), if_neg (by omega)] at ahead
  omega

/-- A counter that starts over keeps the balance exactly when the size divides
its modulus or it has not started over yet. -/
theorem balanced_turn_iff (occupied : 0 < size) :
    Balanced (turn modulus size) size calls ↔ size ∣ modulus ∨ calls ≤ modulus := by
  constructor
  · intro balanced
    by_contra neither
    rcases not_or.mp neither with ⟨broken, wrapped⟩
    exact unbalanced_after_wrap broken (Nat.lt_of_not_le wrapped) occupied balanced
  · rintro (whole | early)
    · exact (balanced_cycle size calls).congr fun number _ => (turn_of_dvd whole number).symm
    · refine (balanced_cycle size calls).congr fun number inside => ?_
      exact (turn_of_lt (Nat.lt_of_lt_of_le inside early)).symm

end Scheduling
end LearnAsio
