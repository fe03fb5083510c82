import Mathlib.Tactic.Common

namespace LearnAsio
namespace Transition

universe u v

/-!
# Deterministic machines driven by an environment

An event loop is a machine whose every nondeterministic choice is made outside
it: which completion is delivered next, how many bytes a socket moved, whether
a system call failed.  Once such a choice is written into the event, one step
is an ordinary partial function, and a run is the fold of that function over a
list of events.

Three notions are kept apart here.  `Reachable` quantifies over all runs from
the initial state.  `Meets` says that every step actually taken in a run obeys a
condition on the state before the step and on the event.  `Always` says that
every state visited by a run has a property.  The exactness rule at the end
turns a step-level equivalence into the equivalence of the last two, so that a
condition can be shown both sufficient and necessary for a whole run.
-/

/-- A machine with one initial state.  `none` means that the event cannot
happen in this state. -/
structure System (State : Type u) (Event : Type v) where
  initial : State
  step : State → Event → Option State

namespace System

variable {State : Type u} {Event : Type v} (machine : System State Event)

/-- Execute a list of events in order. -/
def run : State → List Event → Option State
  | state, [] => some state
  | state, event :: rest => (machine.step state event).bind fun next => run next rest

@[simp] theorem run_nil (state : State) : machine.run state [] = some state := rfl

theorem run_cons (state : State) (event : Event) (rest : List Event) :
    machine.run state (event :: rest) =
      (machine.step state event).bind fun next => machine.run next rest := rfl

/-- A run over a concatenation stops at the intermediate state and goes on
from exactly there. -/
theorem run_append (state : State) (first second : List Event) :
    machine.run state (first ++ second) =
      (machine.run state first).bind fun middle => machine.run middle second := by
  induction first generalizing state with
  | nil => rfl
  | cons event rest inductionHypothesis =>
      rw [List.cons_append, run_cons, run_cons, Option.bind_assoc]
      exact congrArg _ (funext inductionHypothesis)

/-- Peel the first event off a completed run. -/
theorem run_cons_eq_some {state final : State} {event : Event} {rest : List Event} :
    machine.run state (event :: rest) = some final ↔
      ∃ next, machine.step state event = some next ∧ machine.run next rest = some final := by
  rw [run_cons, Option.bind_eq_some_iff]

/-- Take the last event off a completed run. -/
theorem run_concat_eq_some {state final : State} {event : Event} {before : List Event} :
    machine.run state (before ++ [event]) = some final ↔
      ∃ middle, machine.run state before = some middle ∧
        machine.step middle event = some final := by
  rw [run_append, Option.bind_eq_some_iff]
  simp only [run_cons_eq_some, run_nil, Option.some.injEq, exists_eq_right]

/-- The states that some run reaches from the initial one. -/
def Reachable (state : State) : Prop :=
  ∃ events, machine.run machine.initial events = some state

theorem Reachable.run {state final : State} (reached : machine.Reachable state)
    {events : List Event} (steps : machine.run state events = some final) :
    machine.Reachable final := by
  rcases reached with ⟨before, arrived⟩
  refine ⟨before ++ events, ?_⟩
  rw [run_append, arrived]
  exact steps

theorem Reachable.step {state next : State} (reached : machine.Reachable state) {event : Event}
    (moved : machine.step state event = some next) : machine.Reachable next :=
  reached.run _ ((machine.run_cons_eq_some).mpr ⟨next, moved, machine.run_nil next⟩)

/-- Every step that the run takes meets a condition on the state before it. -/
def Meets (condition : State → Event → Prop) : State → List Event → Prop
  | _, [] => True
  | state, event :: rest =>
      condition state event ∧
        ∀ next, machine.step state event = some next → Meets condition next rest

/-- Every state the run visits, both ends included, has a property. -/
def Always (property : State → Prop) : State → List Event → Prop
  | state, [] => property state
  | state, event :: rest =>
      property state ∧
        ∀ next, machine.step state event = some next → Always property next rest

/-- What holds throughout a run holds at its end. -/
theorem Always.last {property : State → Prop} {state final : State} {events : List Event}
    (always : machine.Always property state events)
    (steps : machine.run state events = some final) : property final := by
  induction events generalizing state with
  | nil =>
      rw [run_nil, Option.some.injEq] at steps
      exact steps ▸ always
  | cons event rest inductionHypothesis =>
      rcases (machine.run_cons_eq_some).mp steps with ⟨next, moved, arrived⟩
      exact inductionHypothesis (always.2 next moved) arrived

theorem meets_true (state : State) (events : List Event) :
    machine.Meets (fun _ _ => True) state events := by
  induction events generalizing state with
  | nil => trivial
  | cons event rest inductionHypothesis =>
      exact ⟨trivial, fun next _ => inductionHypothesis next⟩

/-- Whether a run meets a condition is found by running it. -/
instance decidableMeets (condition : State → Event → Prop)
    [∀ state event, Decidable (condition state event)] :
    ∀ state events, Decidable (machine.Meets condition state events)
  | _, [] => isTrue trivial
  | state, event :: rest =>
      match moved : machine.step state event with
      | none => decidable_of_iff (condition state event)
          ⟨fun holds => ⟨holds, fun next stepped =>
              absurd (moved.symm.trans stepped) (Option.some_ne_none next).symm⟩, And.left⟩
      | some next =>
          have := decidableMeets condition next rest
          decidable_of_iff (condition state event ∧ machine.Meets condition next rest)
            ⟨fun ⟨holds, later⟩ => ⟨holds, fun _ stepped =>
                Option.some.inj (moved.symm.trans stepped) ▸ later⟩,
              fun ⟨holds, later⟩ => ⟨holds, later next moved⟩⟩

/-! ## Invariants -/

/-- The induction along one guarded run: what every allowed step preserves
holds at its end. -/
theorem meets_induction {condition : State → Event → Prop} {invariant : State → Prop}
    (preserved : ∀ state event next, invariant state → condition state event →
      machine.step state event = some next → invariant next)
    {state final : State} {events : List Event} (start : invariant state)
    (meets : machine.Meets condition state events)
    (steps : machine.run state events = some final) : invariant final := by
  induction events generalizing state with
  | nil =>
      rw [run_nil, Option.some.injEq] at steps
      exact steps ▸ start
  | cons event rest inductionHypothesis =>
      rcases (machine.run_cons_eq_some).mp steps with ⟨next, moved, arrived⟩
      exact inductionHypothesis (preserved state event next start meets.1 moved)
        (meets.2 next moved) arrived

/-- The unguarded form of the same induction. -/
theorem run_induction {invariant : State → Prop}
    (preserved : ∀ state event next, invariant state →
      machine.step state event = some next → invariant next)
    {state final : State} {events : List Event} (start : invariant state)
    (steps : machine.run state events = some final) : invariant final :=
  machine.meets_induction
    (fun state event next holds (_ : True) moved => preserved state event next holds moved)
    start (machine.meets_true state events) steps

/-- What each step of some kind does to a state, a run of such steps does to it. -/
theorem run_relates (relation : State → State → Prop) {invariant : State → Prop}
    {allowed : Event → Prop} (refl : ∀ state, relation state state)
    (trans : ∀ {first second third}, relation first second → relation second third →
      relation first third)
    (preserved : ∀ state event next, invariant state →
      machine.step state event = some next → invariant next)
    (related : ∀ state event next, invariant state → allowed event →
      machine.step state event = some next → relation state next)
    {state final : State} {events : List Event} (start : invariant state)
    (steps : machine.run state events = some final)
    (all_allowed : ∀ event ∈ events, allowed event) : relation state final := by
  induction events generalizing state with
  | nil =>
      rw [run_nil, Option.some.injEq] at steps
      exact steps ▸ refl state
  | cons event rest inductionHypothesis =>
      rcases (machine.run_cons_eq_some).mp steps with ⟨next, moved, arrived⟩
      rcases List.forall_mem_cons.mp all_allowed with ⟨here, ahead⟩
      exact trans (related state event next start here moved)
        (inductionHypothesis (preserved state event next start moved) arrived ahead)

/-- What holds initially and is preserved by every step holds of every
reachable state. -/
theorem reachable_induction {invariant : State → Prop} (start : invariant machine.initial)
    (preserved : ∀ state event next, invariant state →
      machine.step state event = some next → invariant next)
    {state : State} (reached : machine.Reachable state) : invariant state := by
  rcases reached with ⟨events, steps⟩
  exact machine.run_induction preserved start steps

/-- What every step preserves holds throughout every run. -/
theorem always_of_preserved {invariant : State → Prop}
    (preserved : ∀ state event next, invariant state →
      machine.step state event = some next → invariant next)
    {state : State} (start : invariant state) (events : List Event) :
    machine.Always invariant state events := by
  induction events generalizing state with
  | nil => exact start
  | cons event rest inductionHypothesis =>
      refine ⟨start, fun next moved => ?_⟩
      exact inductionHypothesis (preserved state event next start moved)

theorem Always.imp {stronger weaker : State → Prop}
    (weaken : ∀ state, stronger state → weaker state) {state : State} {events : List Event}
    (always : machine.Always stronger state events) : machine.Always weaker state events := by
  induction events generalizing state with
  | nil => exact weaken state always
  | cons event rest inductionHypothesis =>
      exact ⟨weaken state always.1, fun next moved => inductionHypothesis (always.2 next moved)⟩

/-- Where a property excludes an event in every state of a run, the run meets
the exclusion. -/
theorem Always.meets {property : State → Prop} {condition : State → Event → Prop}
    (ensures : ∀ state event, property state → condition state event) {state : State}
    {events : List Event} (always : machine.Always property state events) :
    machine.Meets condition state events := by
  induction events generalizing state with
  | nil => trivial
  | cons event rest inductionHypothesis =>
      exact ⟨ensures state event always.1, fun next moved =>
        inductionHypothesis (always.2 next moved)⟩

/-- Under an invariant that the steps of a guarded run preserve, the guard may
imply another condition. -/
theorem Meets.imp {condition weaker : State → Event → Prop} {invariant : State → Prop}
    (preserved : ∀ state event next, invariant state → condition state event →
      machine.step state event = some next → invariant next)
    (implies : ∀ state event, invariant state → condition state event → weaker state event)
    {state : State} {events : List Event} (start : invariant state)
    (meets : machine.Meets condition state events) : machine.Meets weaker state events := by
  induction events generalizing state with
  | nil => trivial
  | cons event rest inductionHypothesis =>
      refine ⟨implies state event start meets.1, fun next moved => ?_⟩
      exact inductionHypothesis (preserved state event next start meets.1 moved)
        (meets.2 next moved)

/-! ## Exact conditions -/

/-- Two conditions that agree on every step that is taken are met by the same
runs. -/
theorem meets_congr {first second : State → Event → Prop} {invariant : State → Prop}
    (preserved : ∀ state event next, invariant state →
      machine.step state event = some next → invariant next)
    (agree : ∀ state event next, invariant state → machine.step state event = some next →
      (first state event ↔ second state event))
    {state final : State} {events : List Event} (start : invariant state)
    (steps : machine.run state events = some final) :
    machine.Meets first state events ↔ machine.Meets second state events := by
  induction events generalizing state with
  | nil => exact Iff.rfl
  | cons event rest inductionHypothesis =>
      rcases (machine.run_cons_eq_some).mp steps with ⟨next, moved, arrived⟩
      refine and_congr (agree state event next start moved) (forall_congr' fun other => ?_)
      refine forall_congr' fun same => ?_
      rw [moved, Option.some.injEq] at same
      subst same
      exact inductionHypothesis (preserved state event next start moved) arrived

/-- When one step keeps a property precisely if it meets a condition, the
property holds throughout a run precisely if all its steps meet the condition.
The auxiliary invariant needs to be preserved by every step, whether or not
the step meets the condition. -/
theorem always_iff_meets {condition : State → Event → Prop} {invariant property : State → Prop}
    (preserved : ∀ state event next, invariant state →
      machine.step state event = some next → invariant next)
    (exact_step : ∀ state event next, invariant state → property state →
      machine.step state event = some next → (property next ↔ condition state event))
    {state final : State} {events : List Event}
    (start : invariant state) (holds : property state)
    (steps : machine.run state events = some final) :
    machine.Always property state events ↔ machine.Meets condition state events := by
  induction events generalizing state with
  | nil => exact ⟨fun _ => trivial, fun _ => holds⟩
  | cons event rest inductionHypothesis =>
      rcases (machine.run_cons_eq_some).mp steps with ⟨next, moved, arrived⟩
      have kept := preserved state event next start moved
      have exactHere := exact_step state event next start holds moved
      constructor
      · intro always
        have tail := always.2 next moved
        have here : property next := by
          cases rest with
          | nil => exact tail
          | cons _ _ => exact tail.1
        refine ⟨exactHere.mp here, fun other same => ?_⟩
        rw [moved, Option.some.injEq] at same
        exact same ▸ (inductionHypothesis kept here arrived).mp tail
      · intro meets
        refine ⟨holds, fun other same => ?_⟩
        rw [moved, Option.some.injEq] at same
        exact same ▸ (inductionHypothesis kept (exactHere.mpr meets.1) arrived).mpr
          (meets.2 next moved)

end System
end Transition
end LearnAsio
