import LearnAsio.Transition.System

namespace LearnAsio
namespace Transition

universe u v w x

/-!
# The part of a run that a smaller machine sees

A run may drive several independent parts of one state.  Keeping only the events
that are about one part gives a list of events for a machine that has this part
alone.  The rule below is a forward simulation with stuttering: a kept event
moves both machines, any other moves the first one and leaves the relation as
it is.
-/

namespace System

variable {State : Type u} {Event : Type v} {Other : Type w} {OtherEvent : Type x}
  (machine : System State Event)

/-- The events of a run that are kept, translated where they happen. -/
def project (keep : State → Event → Option OtherEvent) : State → List Event → List OtherEvent
  | _, [] => []
  | state, event :: rest =>
      (keep state event).toList ++ match machine.step state event with
        | some next => project keep next rest
        | none => []

variable {machine} {keep : State → Event → Option OtherEvent}

theorem project_cons {state next : State} {event : Event} (rest : List Event)
    (moved : machine.step state event = some next) :
    machine.project keep state (event :: rest) =
      (keep state event).toList ++ machine.project keep next rest := by
  rw [project, moved]

/-- A kept event comes first in what is left of the run. -/
theorem project_kept {state next : State} {event : Event} {own : OtherEvent}
    (kept : keep state event = some own) (rest : List Event)
    (moved : machine.step state event = some next) :
    machine.project keep state (event :: rest) = own :: machine.project keep next rest := by
  rw [project_cons rest moved, kept]
  rfl

/-- Any other event leaves no trace. -/
theorem project_skipped {state next : State} {event : Event} (skipped : keep state event = none)
    (rest : List Event) (moved : machine.step state event = some next) :
    machine.project keep state (event :: rest) = machine.project keep next rest := by
  rw [project_cons rest moved, skipped]
  rfl

/-- The second machine can execute the kept events and ends in a related state. -/
theorem run_project (other : System Other OtherEvent) {condition : State → Event → Prop}
    {related : State → Other → Prop}
    (kept_step : ∀ state event next alone own, related state alone → condition state event →
      machine.step state event = some next → keep state event = some own →
      ∃ after, other.step alone own = some after ∧ related next after)
    (skipped_step : ∀ state event next alone, related state alone → condition state event →
      machine.step state event = some next → keep state event = none → related next alone)
    {state final : State} {alone : Other} {events : List Event} (start : related state alone)
    (meets : machine.Meets condition state events)
    (steps : machine.run state events = some final) :
    ∃ last, other.run alone (machine.project keep state events) = some last ∧
      related final last := by
  induction events generalizing state alone with
  | nil =>
      rw [run_nil, Option.some.injEq] at steps
      exact ⟨alone, rfl, steps ▸ start⟩
  | cons event rest inductionHypothesis =>
      rcases (machine.run_cons_eq_some).mp steps with ⟨next, moved, arrived⟩
      have laterMeets := meets.2 next moved
      cases kept : keep state event with
      | none =>
          rw [project_skipped kept rest moved]
          have still := skipped_step state event next alone start meets.1 moved kept
          exact inductionHypothesis still laterMeets arrived
      | some own =>
          rcases kept_step state event next alone own start meets.1 moved kept with
            ⟨after, taken, still⟩
          rcases inductionHypothesis still laterMeets arrived with ⟨last, reached, ends⟩
          refine ⟨last, ?_, ends⟩
          rw [project_kept kept rest moved, run_cons, taken]
          exact reached

end System
end Transition
end LearnAsio
