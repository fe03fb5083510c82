import LearnAsio.Transition.System
import Mathlib.Algebra.BigOperators.Group.List.Basic
import Mathlib.Algebra.Order.Ring.Nat
import Mathlib.Data.List.Induction

namespace LearnAsio
namespace Transition

universe u v w

/-!
# The events behind a state

An invariant may speak of everything that has happened so far.  It is then a
relation between the events of a run and the state at its end, and one step adds
one event.

The events of a run carry the time when some of them take time: `moments` lists
those that leave a mark, each with the time at which it happens.
-/

namespace System

variable {State : Type u} {Event : Type v} (machine : System State Event)

/-- The induction along one run that remembers its events. -/
theorem run_history {invariant : List Event → State → Prop} {state final : State}
    {events : List Event} (start : invariant [] state)
    (preserved : ∀ before state event next, invariant before state →
      machine.step state event = some next → invariant (before ++ [event]) next)
    (steps : machine.run state events = some final) : invariant events final := by
  induction events using List.reverseRecOn generalizing final with
  | nil =>
      rw [run_nil, Option.some.injEq] at steps
      exact steps ▸ start
  | append_singleton before event inductionHypothesis =>
      rcases machine.run_concat_eq_some.mp steps with ⟨middle, arrived, moved⟩
      exact preserved before middle event final (inductionHypothesis arrived) moved

/-- What every step needs to be taken holds throughout a run if it holds at its end. -/
theorem always_iff_last {property : State → Prop}
    (needed : ∀ state event next, machine.step state event = some next → property state)
    {state final : State} {events : List Event}
    (steps : machine.run state events = some final) :
    machine.Always property state events ↔ property final := by
  refine ⟨fun always => always.last machine steps, fun holds => ?_⟩
  induction events generalizing state with
  | nil =>
      rw [run_nil, Option.some.injEq] at steps
      exact steps ▸ holds
  | cons event rest inductionHypothesis =>
      rcases machine.run_cons_eq_some.mp steps with ⟨next, moved, arrived⟩
      refine ⟨needed state event next moved, fun other same => ?_⟩
      rw [moved, Option.some.injEq] at same
      exact same ▸ inductionHypothesis arrived

end System

section Moments

variable {Event : Type u} {Mark : Type v} (duration : Event → Nat) (mark : Event → Option Mark)

/-- The time that a list of events takes. -/
def elapsed (events : List Event) : Nat :=
  (events.map duration).sum

/-- The marks that the events leave, with their times. -/
def moments : Nat → List Event → List (Nat × Mark)
  | _, [] => []
  | now, event :: rest =>
      ((mark event).map fun left => (now, left)).toList ++ moments (now + duration event) rest

theorem elapsed_concat (before : List Event) (event : Event) :
    elapsed duration (before ++ [event]) = elapsed duration before + duration event := by
  simp [elapsed]

theorem moments_append (now : Nat) (first second : List Event) :
    moments duration mark now (first ++ second) =
      moments duration mark now first ++
        moments duration mark (now + elapsed duration first) second := by
  induction first generalizing now with
  | nil => simp [moments, elapsed]
  | cons event rest inductionHypothesis =>
      have later : now + duration event + elapsed duration rest =
          now + elapsed duration (event :: rest) := by
        simp [elapsed, Nat.add_assoc]
      rw [List.cons_append, moments, moments, inductionHypothesis, later, List.append_assoc]

/-- An event that leaves a mark leaves it at the present time. -/
theorem moments_concat_of_mark {event : Event} {left : Mark} (leaves : mark event = some left)
    (now : Nat) (before : List Event) :
    moments duration mark now (before ++ [event]) =
      moments duration mark now before ++ [(now + elapsed duration before, left)] := by
  rw [moments_append]
  simp [moments, leaves]

/-- Any other event adds nothing. -/
theorem moments_concat_of_none {event : Event} (leaves : mark event = none) (now : Nat)
    (before : List Event) :
    moments duration mark now (before ++ [event]) = moments duration mark now before := by
  rw [moments_append]
  simp [moments, leaves]

end Moments

end Transition
end LearnAsio
