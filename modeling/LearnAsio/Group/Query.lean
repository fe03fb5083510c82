import LearnAsio.Scheduling.RoundRobin
import LearnAsio.Transition.System

namespace LearnAsio
namespace Group

open Scheduling Transition

/-!
# A group of `io_context`s

`io_context_group` hands out its contexts in turn.  Its counter is a `size_t`,
which is a word of some width here, and so is the size that `main` passes.

Any thread may call `query`.  A call increments the atomic counter and then,
some time later, subscripts the vector with the old value; between the two other
threads may do either.  Nothing changes the vector after the constructor, so the
calls are ordered by their increments.  The machine remembers the values that
the increments returned and what each finished call has selected.
-/

/-- `class io_context_group`.  The contexts are numbered as they are created. -/
structure IoContextGroup (width : Nat) where
  ioContexts : List Nat := []
  index : BitVec width := 0
  deriving DecidableEq, Repr

namespace IoContextGroup

variable {width : Nat}

/-- `io_contexts_.emplace_back`. -/
def emplaceBack (group : IoContextGroup width) : IoContextGroup width :=
  { group with ioContexts := group.ioContexts ++ [group.ioContexts.length] }

/-- The first iterations of the constructor's loop. -/
def construct : Nat → IoContextGroup width
  | 0 => {}
  | i + 1 => (construct i).emplaceBack

/-- `io_context_group::io_context_group`. -/
def ioContextGroup (size : BitVec width) : IoContextGroup width := construct size.toNat

/-- The subscript in `query`.  A remainder by zero is undefined. -/
def subscript (group : IoContextGroup width) (ticket : BitVec width) : Option Nat :=
  if group.ioContexts.length = 0 then none
  else group.ioContexts[ticket.toNat % group.ioContexts.length]?

theorem construct_eq (size : Nat) :
    (construct size : IoContextGroup width) = { ioContexts := List.range size } := by
  induction size with
  | zero => rfl
  | succ size inductionHypothesis =>
      rw [construct, inductionHypothesis, emplaceBack, List.length_range, List.range_succ]

/-- With contexts in the group, the subscript is in range. -/
theorem subscript_of_occupied {group : IoContextGroup width} {size : Nat}
    (contexts : group.ioContexts = List.range size) (occupied : 0 < size)
    (ticket : BitVec width) : group.subscript ticket = some (ticket.toNat % size) := by
  have inside : ticket.toNat % size < size := Nat.mod_lt _ occupied
  rw [subscript, contexts, List.length_range, if_neg (Nat.ne_of_gt occupied),
    List.getElem?_range inside]

end IoContextGroup

/-! ## Interleaved calls -/

/-- One thread enters `query` and increments the counter, or finishes the call. -/
inductive Event where
  | increment (thread : Nat)
  | finish (thread : Nat)
  deriving DecidableEq, Repr

/-- The group, the values held by the threads inside `query`, the values of all
increments in their order, and the finished calls. -/
structure Calls (width : Nat) where
  group : IoContextGroup width
  held : Nat → Option (BitVec width) := fun _ => none
  tickets : List (BitVec width) := []
  finished : List (BitVec width × Option Nat) := []

namespace Calls

variable {width : Nat}

/-- `index++`. -/
def increment (calls : Calls width) (thread : Nat) : Calls width :=
  { calls with
    group := { calls.group with index := calls.group.index + 1 }
    held := Function.update calls.held thread (some calls.group.index)
    tickets := calls.tickets ++ [calls.group.index] }

/-- The thread that holds a value subscripts the vector and returns. -/
def finish (calls : Calls width) (thread : Nat) (ticket : BitVec width) : Calls width :=
  { calls with
    held := Function.update calls.held thread none
    finished := calls.finished ++ [(ticket, calls.group.subscript ticket)] }

def step (calls : Calls width) : Event → Option (Calls width)
  | .increment thread =>
      match calls.held thread with
      | none => some (calls.increment thread)
      | some _ => none
  | .finish thread =>
      match calls.held thread with
      | none => none
      | some ticket => some (calls.finish thread ticket)

/-- Threads that call `query` on a group of the given size. -/
def machine (size : BitVec width) : System (Calls width) Event where
  initial := { group := IoContextGroup.ioContextGroup size }
  step := step

/-- What the calls select, in the order of their increments. -/
def selections (calls : Calls width) : List (Option Nat) :=
  calls.tickets.map calls.group.subscript

/-- Every call selects a context of the group, and after every prefix of the
calls no context has been selected two times more often than another one. -/
structure RoundRobin (calls : Calls width) : Prop where
  existing : ∀ selection ∈ calls.selections, ∃ context ∈ calls.group.ioContexts,
    selection = some context
  finished : ∀ call ∈ calls.finished, ∃ context ∈ calls.group.ioContexts,
    call.2 = some context
  even : ∀ prior ≤ calls.tickets.length, ∀ first ∈ calls.group.ioContexts,
    ∀ second ∈ calls.group.ioContexts,
      (calls.selections.take prior).count (some first) ≤
        (calls.selections.take prior).count (some second) + 1

/-! ## The order of the increments -/

/-- The increments have returned the first values of the counter, and a finished
call has selected what its value says. -/
structure Ordered (size : BitVec width) (calls : Calls width) : Prop where
  contexts : calls.group.ioContexts = List.range size.toNat
  index : calls.group.index = BitVec.ofNat width calls.tickets.length
  tickets : calls.tickets = (List.range calls.tickets.length).map (BitVec.ofNat width)
  held : ∀ thread ticket, calls.held thread = some ticket → ticket ∈ calls.tickets
  finished : ∀ call ∈ calls.finished, call.1 ∈ calls.tickets ∧ call.2 = calls.group.subscript call.1

namespace Ordered

variable {size : BitVec width} {calls next : Calls width}

theorem initial (size : BitVec width) : Ordered size (machine size).initial where
  contexts := by
    change (IoContextGroup.construct size.toNat).ioContexts = _
    rw [IoContextGroup.construct_eq]
  index := by
    change (IoContextGroup.construct size.toNat).index = _
    rw [IoContextGroup.construct_eq]
    rfl
  tickets := rfl
  held := fun _ _ impossible => nomatch impossible
  finished := fun _ listed => absurd listed List.not_mem_nil

theorem increment (ordered : Ordered size calls) (thread : Nat) :
    Ordered size (calls.increment thread) where
  contexts := ordered.contexts
  index := by
    change calls.group.index + 1 = BitVec.ofNat width (calls.tickets ++ [_]).length
    rw [ordered.index, List.length_append, List.length_singleton, BitVec.ofNat_add]
    rfl
  tickets := by
    change calls.tickets ++ [calls.group.index] =
      (List.range (calls.tickets ++ [_]).length).map _
    rw [List.length_append, List.length_singleton, List.range_succ, List.map_append,
      ← ordered.tickets, ordered.index, List.map_singleton]
  held := by
    intro other ticket holding
    change Function.update calls.held thread (some calls.group.index) other = some ticket
      at holding
    by_cases same : other = thread
    · subst same
      rw [Function.update_self, Option.some.injEq] at holding
      exact List.mem_append_right _ (List.mem_singleton.mpr holding.symm)
    · rw [Function.update_of_ne same] at holding
      exact List.mem_append_left _ (ordered.held other ticket holding)
  finished := fun call listed =>
    ⟨List.mem_append_left _ (ordered.finished call listed).1, (ordered.finished call listed).2⟩

theorem finish (ordered : Ordered size calls) {thread : Nat} {ticket : BitVec width}
    (holding : calls.held thread = some ticket) : Ordered size (calls.finish thread ticket) where
  contexts := ordered.contexts
  index := ordered.index
  tickets := ordered.tickets
  held := by
    intro other kept holds
    change Function.update calls.held thread none other = some kept at holds
    by_cases same : other = thread
    · subst same
      rw [Function.update_self] at holds
      cases holds
    · rw [Function.update_of_ne same] at holds
      exact ordered.held other kept holds
  finished := by
    intro call listed
    rcases List.mem_append.mp listed with earlier | last
    · exact ordered.finished call earlier
    · rw [List.mem_singleton.mp last]
      exact ⟨ordered.held thread ticket holding, rfl⟩

theorem step (ordered : Ordered size calls) {event : Event} (moved : calls.step event = some next) :
    Ordered size next := by
  cases event with
  | increment thread =>
      simp only [Calls.step] at moved
      split at moved
      · rw [← Option.some.inj moved]
        exact ordered.increment thread
      · cases moved
  | finish thread =>
      simp only [Calls.step] at moved
      split at moved
      · cases moved
      · next holding =>
          rw [← Option.some.inj moved]
          exact ordered.finish holding

end Ordered

/-- The value of the increment with this number selects the context whose turn
it is. -/
theorem subscript_ofNat {size : BitVec width} {calls : Calls width}
    (ordered : Ordered size calls) (occupied : 0 < size.toNat) (number : Nat) :
    calls.group.subscript (BitVec.ofNat width number) =
      some (turn (2 ^ width) size.toNat number) := by
  rw [IoContextGroup.subscript_of_occupied ordered.contexts occupied, BitVec.toNat_ofNat]
  rfl

theorem selections_eq {size : BitVec width} {calls : Calls width}
    (ordered : Ordered size calls) (occupied : 0 < size.toNat) :
    calls.selections =
      (List.range calls.tickets.length).map fun number =>
        some (turn (2 ^ width) size.toNat number) := by
  rw [selections, ordered.tickets, List.map_map, List.length_map, List.length_range]
  apply List.map_congr_left
  intro number _
  exact subscript_ofNat ordered occupied number

/-- How often the first calls have selected one context. -/
theorem count_selections {size : BitVec width} {calls : Calls width}
    (ordered : Ordered size calls) (occupied : 0 < size.toNat) {prior : Nat}
    (within : prior ≤ calls.tickets.length) (member : Nat) :
    (calls.selections.take prior).count (some member) =
      Nat.count (fun number => turn (2 ^ width) size.toNat number = member) prior := by
  rw [selections_eq ordered occupied, ← List.map_take, List.take_range, Nat.min_eq_left within,
    List.count, List.countP_map, Nat.count]
  apply List.countP_congr
  intro number _
  simp only [Function.comp_apply, beq_iff_eq, Option.some.injEq, decide_eq_true_eq]

/-- With contexts in the group, only the balance is at stake. -/
theorem roundRobin_of_occupied {size : BitVec width} {calls : Calls width}
    (ordered : Ordered size calls) (occupied : 0 < size.toNat) :
    calls.RoundRobin ↔ Balanced (turn (2 ^ width) size.toNat) size.toNat calls.tickets.length := by
  have member : ∀ number, turn (2 ^ width) size.toNat number ∈ calls.group.ioContexts := by
    intro number
    rw [ordered.contexts]
    exact List.mem_range.mpr (Nat.mod_lt _ occupied)
  constructor
  · intro fair prior within first inside second alongside
    rw [← count_selections ordered occupied within, ← count_selections ordered occupied within]
    refine fair.even prior within first ?_ second ?_
    · rw [ordered.contexts]
      exact List.mem_range.mpr inside
    · rw [ordered.contexts]
      exact List.mem_range.mpr alongside
  · intro balanced
    refine ⟨fun selection listed => ?_, fun call listed => ?_, ?_⟩
    · rw [selections_eq ordered occupied] at listed
      rcases List.mem_map.mp listed with ⟨number, _, rfl⟩
      exact ⟨_, member number, rfl⟩
    · rcases ordered.finished call listed with ⟨known, answer⟩
      rw [ordered.tickets] at known
      rcases List.mem_map.mp known with ⟨number, _, same⟩
      rw [← same, subscript_ofNat ordered occupied] at answer
      exact ⟨_, member number, answer⟩
    · intro prior within first inside second alongside
      rw [ordered.contexts] at inside alongside
      rw [count_selections ordered occupied within, count_selections ordered occupied within]
      exact balanced prior within first (List.mem_range.mp inside) second
        (List.mem_range.mp alongside)

/-- An empty group cannot answer a call. -/
theorem roundRobin_of_empty {size : BitVec width} {calls : Calls width}
    (ordered : Ordered size calls) (empty : size.toNat = 0) :
    calls.RoundRobin ↔ calls.tickets = [] := by
  have contexts : calls.group.ioContexts = [] := by
    rw [ordered.contexts, empty]
    rfl
  constructor
  · intro fair
    rw [List.eq_nil_iff_forall_not_mem]
    intro ticket listed
    rcases fair.existing _ (List.mem_map_of_mem listed) with ⟨context, member, _⟩
    rw [contexts] at member
    cases member
  · intro none
    refine ⟨fun selection listed => ?_, fun call listed => ?_, ?_⟩
    · rw [selections, none] at listed
      cases listed
    · have known := (ordered.finished call listed).1
      rw [none] at known
      cases known
    · intro prior _ first inside
      rw [contexts] at inside
      cases inside

end Calls

/-! ## Whole runs -/

/-- The number of calls of `query` that a run makes. -/
def queries (events : List Event) : Nat :=
  events.countP fun
    | .increment _ => true
    | .finish _ => false

namespace Calls

variable {width : Nat}

theorem length_tickets_of_step {calls next : Calls width} {event : Event}
    (moved : calls.step event = some next) :
    next.tickets.length = calls.tickets.length + queries [event] := by
  cases event with
  | increment thread =>
      simp only [step] at moved
      split at moved
      · rw [← Option.some.inj moved]
        exact List.length_append
      · cases moved
  | finish thread =>
      simp only [step] at moved
      split at moved
      · cases moved
      · rw [← Option.some.inj moved]
        rfl

theorem length_tickets_of_run {size : BitVec width} {calls final : Calls width}
    {events : List Event} (steps : (machine size).run calls events = some final) :
    final.tickets.length = calls.tickets.length + queries events := by
  induction events generalizing calls with
  | nil =>
      rw [System.run_nil, Option.some.injEq] at steps
      subst steps
      rfl
  | cons event rest inductionHypothesis =>
      rcases ((machine size).run_cons_eq_some).mp steps with ⟨next, moved, arrived⟩
      have ahead := inductionHypothesis arrived
      have here := length_tickets_of_step moved
      have split : queries ([event] ++ rest) = queries [event] + queries rest :=
        List.countP_append
      rw [List.singleton_append] at split
      omega

theorem ordered_of_run {size : BitVec width} {calls : Calls width} {events : List Event}
    (steps : (machine size).run (machine size).initial events = some calls) :
    Ordered size calls :=
  (machine size).run_induction (fun _ _ _ ordered moved => ordered.step moved)
    (Ordered.initial size) steps

/-- In every interleaving, all calls are served in turn exactly when there is
none, or the group has contexts and either their number divides the modulus of
the counter or the counter has not started over. -/
theorem roundRobin_iff {width : Nat} (size : BitVec width) {events : List Event}
    {calls : Calls width}
    (steps : (machine size).run (machine size).initial events = some calls) :
    calls.RoundRobin ↔
      queries events = 0 ∨
        size ≠ 0 ∧ (size.toNat ∣ 2 ^ width ∨ queries events ≤ 2 ^ width) := by
  have ordered := ordered_of_run steps
  have counted : calls.tickets.length = queries events := by
    have grown := length_tickets_of_run steps
    change _ = 0 + _ at grown
    omega
  rcases Nat.eq_zero_or_pos size.toNat with empty | occupied
  · have zero : size = 0 := BitVec.eq_of_toNat_eq empty
    rw [roundRobin_of_empty ordered empty, ← List.length_eq_zero_iff, counted]
    exact ⟨Or.inl, fun either => either.resolve_right fun both => both.1 zero⟩
  · have nonzero : size ≠ 0 := by
      intro zero
      rw [zero] at occupied
      exact absurd occupied (by simp)
    rw [roundRobin_of_occupied ordered occupied, balanced_turn_iff occupied, counted]
    constructor
    · exact fun within => Or.inr ⟨nonzero, within⟩
    · rintro (none | ⟨_, within⟩)
      · exact Or.inr (none ▸ Nat.zero_le _)
      · exact within

/-- The second of two threads overtakes the first. -/
def overtaking : List Event := [.increment 0, .increment 1, .finish 1, .finish 0]

theorem roundRobin_iff_overtaking :
    ∃ calls : Calls 64,
      (machine 3).run (machine 3).initial overtaking = some calls ∧ calls.RoundRobin := by
  have steps : ∃ calls : Calls 64, (machine 3).run (machine 3).initial overtaking = some calls :=
    ⟨_, rfl⟩
  rcases steps with ⟨calls, arrived⟩
  exact ⟨calls, arrived, (roundRobin_iff 3 arrived).mpr (Or.inr ⟨by decide, Or.inr (by decide)⟩)⟩

/-- `hardware_concurrency` may return zero, and then the first call has nothing
to select. -/
theorem roundRobin_fails :
    ¬ ∀ (width : Nat) (size : BitVec width) (events : List Event) (calls : Calls width),
      (machine size).run (machine size).initial events = some calls → calls.RoundRobin := by
  intro always
  have fair := always 64 0 [.increment 0] _ rfl
  rcases fair.existing none (List.mem_singleton.mpr rfl) with ⟨context, member, _⟩
  cases member

end Calls
end Group
end LearnAsio
