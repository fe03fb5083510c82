import LearnAsio.Http.Ownership

namespace LearnAsio
namespace Http

/-!
# Stopping when a close throws

`connection_manager::stop_all` closes the connections in the order of a set and
empties the set after the loop; `connection_manager::stop` closes one connection
and takes it out of the set afterwards.  An exception of `close` leaves both
functions where it is thrown.  The descriptor is closed even then, so what is
lost is what the functions would have done next: the closes of the connections
that come later in the order, and the change of the set.
-/

namespace Server

variable {env : Env} {server : Server env}

/-- Every socket of the set is closed, and the set is empty. -/
structure AllStopped (before after : Server env) : Prop where
  closed : ∀ id ∈ before.connections, (after.connection id).isOpen = false
  emptied : after.connections = ∅

/-- One connection has been taken out of the set, and no other. -/
structure OnlyRemoved (con : Nat) (before after : Server env) : Prop where
  removed : con ∉ after.connections
  kept : ∀ other, other ≠ con → (other ∈ after.connections ↔ other ∈ before.connections)

/-- One exception anywhere in the loop is enough to leave the set as it was. -/
theorem stopAll_allStopped_iff (throws : Nat → Bool) {order : List Nat} (distinct : order.Nodup)
    (listed : order.toFinset = server.connections) :
    AllStopped server (server.stopAll throws order) ↔
      ∀ id ∈ server.connections, server.closeThrows id (throws id) = false := by
  have same : ∀ id, id ∈ server.connections ↔ id ∈ order := by
    intro id
    rw [← listed, List.mem_toFinset]
  simp only [same]
  rcases server.stopAll_eq throws distinct with ⟨quiet, stopped⟩ | ⟨loud, prior, _, stopped⟩
  · refine ⟨fun _ => quiet, fun _ => ⟨fun id member => ?_, ?_⟩⟩
    · rw [stopped]
      change ((server.stopEach order).connection id).isOpen = false
      rw [stopEach_of_mem _ _ ((same id).mp member)]
      rfl
    · rw [stopped]
  · refine ⟨fun all => ?_, fun quiet => absurd quiet loud⟩
    have emptied := all.emptied
    rw [stopped] at emptied
    change server.connections = ∅ at emptied
    intro id member
    rw [← same, emptied] at member
    exact absurd member (Finset.notMem_empty id)

/-- A connection that is not in the set need not be taken out. -/
theorem managerStop_onlyRemoved_iff (con : Nat) (throws : Bool) :
    OnlyRemoved con server (server.managerStop con throws) ↔
      con ∉ server.connections ∨ server.closeThrows con throws = false := by
  rcases server.managerStop_cases con throws with ⟨quiet, stopped⟩ | ⟨loud, stopped⟩
  · refine ⟨fun _ => Or.inr quiet, fun _ => ?_⟩
    rw [stopped]
    exact ⟨Finset.notMem_erase con _, fun other different =>
      ⟨Finset.mem_of_mem_erase, Finset.mem_erase_of_ne_of_mem different⟩⟩
  · rw [stopped]
    constructor
    · exact fun only => Or.inl only.removed
    · rintro (absent | quiet)
      · exact ⟨absent, fun _ _ => Iff.rfl⟩
      · rw [loud] at quiet
        cases quiet

/-- For every set, every order of it and every choice of the closes that throw,
both functions do all of their work exactly when no close throws that they
depend on. -/
theorem stopping_iff (server : Server env) (throws : Nat → Bool) :
    (∀ order : List Nat, order.Nodup → order.toFinset = server.connections →
        (AllStopped server (server.stopAll throws order) ↔
          ∀ id ∈ server.connections, server.closeThrows id (throws id) = false)) ∧
      ∀ con, OnlyRemoved con server (server.managerStop con (throws con)) ↔
        con ∉ server.connections ∨ server.closeThrows con (throws con) = false :=
  ⟨fun _ distinct listed => stopAll_allStopped_iff throws distinct listed,
    fun con => managerStop_onlyRemoved_iff con (throws con)⟩

/-- Two connections with open sockets. -/
def twoOpen : Server shortRequestEnv where
  connection := fun _ => { isOpen := true }
  connections := {0, 1}
  newConnection := 2

/-- Neither close throws. -/
theorem stopping_iff_twoOpen : AllStopped twoOpen (twoOpen.stopAll (fun _ => false) [0, 1]) :=
  ((stopping_iff twoOpen fun _ => false).1 [0, 1] (by decide) (by decide)).mpr fun _ _ => rfl

/-- The close of the first connection throws, and the second one stays open. -/
theorem stopping_interrupted :
    ¬ ∀ (env : Env) (server : Server env) (throws : Nat → Bool),
      (∀ order : List Nat, order.Nodup → order.toFinset = server.connections →
          AllStopped server (server.stopAll throws order)) ∧
        ∀ con ∈ server.connections,
          OnlyRemoved con server (server.managerStop con (throws con)) := by
  intro survives
  have stopped := (survives shortRequestEnv twoOpen fun id => id == 0).1 [0, 1] (by decide)
    (by decide)
  have second := stopped.closed 1 (by decide)
  cases second

end Server
end Http
end LearnAsio
