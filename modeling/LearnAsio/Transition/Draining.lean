import LearnAsio.Transition.System

namespace LearnAsio
namespace Transition

universe u v

/-!
# Working off what is outstanding

Some events only finish what has been begun: a completion is delivered, a handler
that begins nothing new runs.  If every such event lowers a count of what is
outstanding, then a run of them is no longer than the count it starts with.  If
moreover one of them is possible whenever something is left, they can be
continued until nothing is left, so the machine is never stuck with work that it
has begun.
-/

namespace System

variable {State : Type u} {Event : Type v} (machine : System State Event)

variable {machine} in
/-- A condition on the events alone is met by all of them. -/
theorem forall_of_meets {allowed : Event → Prop} {state final : State} {events : List Event}
    (meets : machine.Meets (fun _ => allowed) state events)
    (steps : machine.run state events = some final) : ∀ event ∈ events, allowed event := by
  induction events generalizing state with
  | nil => exact List.forall_mem_nil _
  | cons event rest inductionHypothesis =>
      rcases (machine.run_cons_eq_some).mp steps with ⟨next, moved, arrived⟩
      exact List.forall_mem_cons.mpr
        ⟨meets.1, inductionHypothesis (meets.2 next moved) arrived⟩

/-- The allowed events keep the invariant and lower the count. -/
structure Drains (invariant : State → Prop) (allowed : State → Event → Prop)
    (outstanding : State → Nat) : Prop where
  preserved : ∀ state event next, invariant state → allowed state event →
    machine.step state event = some next → invariant next
  lowers : ∀ state event next, invariant state → allowed state event →
    machine.step state event = some next → outstanding next < outstanding state

namespace Drains

variable {machine} {invariant : State → Prop} {allowed : State → Event → Prop}
  {outstanding : State → Nat}

/-- Every event of the run has cost at least one. -/
theorem length_add_le (drains : machine.Drains invariant allowed outstanding)
    {state final : State} {events : List Event} (start : invariant state)
    (meets : machine.Meets allowed state events)
    (steps : machine.run state events = some final) :
    events.length + outstanding final ≤ outstanding state := by
  induction events generalizing state with
  | nil =>
      rw [run_nil, Option.some.injEq] at steps
      subst steps
      exact Nat.le_of_eq (Nat.zero_add _)
  | cons event rest inductionHypothesis =>
      rcases (machine.run_cons_eq_some).mp steps with ⟨next, moved, arrived⟩
      have later := inductionHypothesis (drains.preserved state event next start meets.1 moved)
        (meets.2 next moved) arrived
      have lower := drains.lowers state event next start meets.1 moved
      rw [List.length_cons]
      omega

/-- What can always go on comes to an end. -/
theorem exists_finished (drains : machine.Drains invariant allowed outstanding)
    {finished : State → Prop}
    (enabled : ∀ state, invariant state → ¬ finished state →
      ∃ event next, allowed state event ∧ machine.step state event = some next)
    {state : State} (start : invariant state) :
    ∃ events final, machine.run state events = some final ∧
      machine.Meets allowed state events ∧ invariant final ∧ finished final := by
  generalize amount : outstanding state = bound
  induction bound using Nat.strongRecOn generalizing state with
  | _ bound inductionHypothesis =>
      by_cases done : finished state
      · exact ⟨[], state, rfl, trivial, start, done⟩
      · rcases enabled state start done with ⟨event, next, permitted, moved⟩
        have lower := drains.lowers state event next start permitted moved
        have kept := drains.preserved state event next start permitted moved
        rcases inductionHypothesis _ (amount ▸ lower) kept rfl with
          ⟨rest, final, arrived, meets, holds, finished⟩
        refine ⟨event :: rest, final, ?_, ⟨permitted, fun other same => ?_⟩, holds, finished⟩
        · exact (machine.run_cons_eq_some).mpr ⟨next, moved, arrived⟩
        · rw [moved, Option.some.injEq] at same
          exact same ▸ meets

end Drains
end System
end Transition
end LearnAsio
