import Mathlib.Algebra.BigOperators.Group.Multiset.Basic
import Mathlib.Algebra.Order.Ring.Nat
import Mathlib.Data.Multiset.Count
import Mathlib.Tactic.Abel

namespace LearnAsio
namespace Scheduling

universe u v

/-!
# Threads that execute completion handlers

Several threads run one event loop.  A wait that has ended makes its handler
ready, a thread that is free begins the handler that has been ready for longest,
and then goes from place to place in its body.  With a strand no handler is begun
while another one is being executed.

An invocation of a handler is a token that is at one stage at a time, and each
operation replaces one token by another.  So what is counted over all tokens, or
added up over them, changes by what these two count for.
-/

/-- Where an invocation of a handler is. -/
inductive Stage (Place : Type v) where
  | waiting | ready
  | inside (place : Place)
  deriving DecidableEq, Repr

/-- A thread, the handler that it executes, and the place in the body. -/
structure Execution (Handler : Type u) (Place : Type v) where
  thread : Nat
  handler : Handler
  place : Place
  deriving DecidableEq, Repr

structure Executor (Handler : Type u) (Place : Type v) where
  waiting : List Handler := []
  ready : List Handler := []
  running : List (Execution Handler Place) := []
  deriving DecidableEq, Repr

variable {Handler : Type u} {Place : Type v}

/-! ## Replacing one token by another -/

theorem countP_le_of_imp {Token : Type u} {tokens : Multiset Token} {counts others : Token → Prop}
    [DecidablePred counts] [DecidablePred others]
    (imp : ∀ token ∈ tokens, counts token → others token) :
    tokens.countP counts ≤ tokens.countP others := by
  induction tokens using Quotient.inductionOn with
  | h list =>
      rw [Multiset.quot_mk_to_coe, Multiset.coe_countP, Multiset.coe_countP]
      refine List.countP_mono_left fun token among holds => ?_
      exact decide_eq_true (imp token among (of_decide_eq_true holds))

/-- The second collection has some tokens in place of some of the first. -/
def Replaces {Token : Type u} (old new before after : Multiset Token) : Prop :=
  ∃ rest, before = old + rest ∧ after = new + rest

namespace Replaces

variable {Token : Type u} {old new more before middle after : Multiset Token}

/-- Adding tokens later. -/
theorem andThen (replaces : Replaces old new before middle)
    (added : Replaces 0 more middle after) : Replaces old (more + new) before after := by
  rcases replaces with ⟨rest, first, left⟩
  rcases added with ⟨others, same, last⟩
  rw [zero_add] at same
  refine ⟨rest, first, ?_⟩
  rw [last, ← same, left, add_assoc]

/-- A count changes by what the tokens count for. -/
theorem countP_add (replaces : Replaces old new before after) (counts : Token → Prop)
    [DecidablePred counts] :
    before.countP counts + new.countP counts = after.countP counts + old.countP counts := by
  rcases replaces with ⟨rest, first, last⟩
  rw [first, last, Multiset.countP_add, Multiset.countP_add]
  omega

/-- So does a sum. -/
theorem sum_add (replaces : Replaces old new before after) (weight : Token → Nat) :
    (before.map weight).sum + (new.map weight).sum =
      (after.map weight).sum + (old.map weight).sum := by
  rcases replaces with ⟨rest, first, last⟩
  rw [first, last, Multiset.map_add, Multiset.map_add, Multiset.sum_add, Multiset.sum_add]
  omega

theorem countP_singleton (one : Token) (counts : Token → Prop) [DecidablePred counts] :
    ({one} : Multiset Token).countP counts = if counts one then 1 else 0 := by
  rw [← Multiset.cons_zero, Multiset.countP_cons, Multiset.countP_zero, Nat.zero_add]

/-- One token becomes another. -/
theorem countP_one {one other : Token} (replaces : Replaces {one} {other} before after)
    (counts : Token → Prop) [DecidablePred counts] :
    before.countP counts + (if counts other then 1 else 0) =
      after.countP counts + if counts one then 1 else 0 := by
  rw [← countP_singleton, ← countP_singleton]
  exact replaces.countP_add counts

theorem sum_one {one other : Token} (replaces : Replaces {one} {other} before after)
    (weight : Token → Nat) :
    (before.map weight).sum + weight other = (after.map weight).sum + weight one := by
  have whole := replaces.sum_add weight
  rw [Multiset.map_singleton, Multiset.map_singleton, Multiset.sum_singleton,
    Multiset.sum_singleton] at whole
  exact whole

/-- One token vanishes. -/
theorem countP_gone {one : Token} (replaces : Replaces {one} 0 before after)
    (counts : Token → Prop) [DecidablePred counts] :
    before.countP counts = after.countP counts + if counts one then 1 else 0 := by
  rw [← countP_singleton]
  exact replaces.countP_add counts

theorem sum_gone {one : Token} (replaces : Replaces {one} 0 before after)
    (weight : Token → Nat) :
    (before.map weight).sum = (after.map weight).sum + weight one := by
  have whole := replaces.sum_add weight
  rw [Multiset.map_singleton, Multiset.map_zero, Multiset.sum_zero, Multiset.sum_singleton,
    Nat.add_zero] at whole
  exact whole

theorem mem_before {one : Token} (replaces : Replaces {one} new before after) : one ∈ before := by
  rcases replaces with ⟨rest, first, _⟩
  rw [first]
  exact Multiset.mem_add.mpr (Or.inl (Multiset.mem_singleton_self one))

/-- What holds of the tokens that come and of those that stay holds of all. -/
theorem forall_after {one : Token} (replaces : Replaces {one} new before after)
    {property : Token → Prop} (come : ∀ token ∈ new, property token)
    (stay : ∀ rest, before = {one} + rest → ∀ token ∈ rest, property token) :
    ∀ token ∈ after, property token := by
  rcases replaces with ⟨rest, first, last⟩
  intro token among
  rw [last] at among
  rcases Multiset.mem_add.mp among with comes | stays
  · exact come token comes
  · exact stay rest first token stays

end Replaces

/-! ## Races -/

/-- The next access of an execution to a variable that executions share. -/
structure Access (Variable : Type u) where
  location : Variable
  writes : Bool
  deriving DecidableEq, Repr

/-- Two accesses to one variable at once, one of them a write. -/
def Conflict {Variable : Type u} (first second : Option (Access Variable)) : Prop :=
  ∃ one ∈ first, ∃ other ∈ second, one.location = other.location ∧
    (one.writes = true ∨ other.writes = true)

namespace Executor

/-- All tokens of an executor. -/
def stages (executor : Executor Handler Place) : Multiset (Handler × Stage Place) :=
  (executor.waiting : Multiset Handler).map (fun handler => (handler, .waiting)) +
    (executor.ready : Multiset Handler).map (fun handler => (handler, .ready)) +
    (executor.running : Multiset (Execution Handler Place)).map
      fun execution => (execution.handler, .inside execution.place)

/-- Nothing is left to wait for or to execute. -/
structure Idle (executor : Executor Handler Place) : Prop where
  waiting : executor.waiting = []
  ready : executor.ready = []
  running : executor.running = []

/-- Begin to wait. -/
def wait (executor : Executor Handler Place) (handler : Handler) : Executor Handler Place :=
  { executor with waiting := executor.waiting ++ [handler] }

/-- A wait has ended. -/
def complete [DecidableEq Handler] (executor : Executor Handler Place) (handler : Handler) :
    Option (Executor Handler Place) :=
  if handler ∈ executor.waiting then
    some { executor with
      waiting := executor.waiting.erase handler
      ready := executor.ready ++ [handler] }
  else none

/-- All waits for one handler end at once. -/
def cancel [DecidableEq Handler] (executor : Executor Handler Place) (handler : Handler) :
    Executor Handler Place :=
  { executor with
    waiting := executor.waiting.filter fun other => decide (other ≠ handler)
    ready := executor.ready ++ executor.waiting.filter fun other => decide (other = handler) }

/-- A free thread begins the first ready handler. -/
def start (executor : Executor Handler Place) (strand : Bool) (thread : Nat)
    (entry : Handler → Place) : Option (Executor Handler Place) :=
  match executor.ready with
  | [] => none
  | handler :: rest =>
      if (∀ execution ∈ executor.running, execution.thread ≠ thread) ∧
          (strand = true → executor.running = []) then
        some { executor with
          ready := rest
          running := executor.running ++
            [{ thread := thread, handler := handler, place := entry handler }] }
      else none

/-- An execution goes on to another place. -/
def move (executor : Executor Handler Place) (index : Nat)
    (execution : Execution Handler Place) : Executor Handler Place :=
  { executor with running := executor.running.set index execution }

/-- A handler returns. -/
def finish (executor : Executor Handler Place) (index : Nat) : Executor Handler Place :=
  { executor with running := executor.running.eraseIdx index }

/-! ## What each operation replaces -/

variable {executor next : Executor Handler Place} {handler : Handler} {index : Nat}

theorem replaces_wait (executor : Executor Handler Place) (handler : Handler) :
    Replaces 0 {(handler, .waiting)} executor.stages (executor.wait handler).stages := by
  refine ⟨executor.stages, (zero_add _).symm, ?_⟩
  unfold stages wait
  simp only [← Multiset.coe_add, Multiset.map_add, Multiset.coe_singleton, Multiset.map_singleton]
  abel

theorem replaces_complete [DecidableEq Handler] (ends : executor.complete handler = some next) :
    Replaces {(handler, .waiting)} {(handler, .ready)} executor.stages next.stages := by
  unfold complete at ends
  split at ends
  next waits =>
    cases ends
    have whole : (executor.waiting : Multiset Handler) =
        {handler} + (executor.waiting.erase handler : Multiset Handler) :=
      Multiset.coe_eq_coe.mpr (List.perm_cons_erase waits)
    refine ⟨stages { executor with waiting := executor.waiting.erase handler }, ?_, ?_⟩
    · unfold stages
      simp only [whole, Multiset.map_add, Multiset.map_singleton]
      abel
    · unfold stages
      simp only [← Multiset.coe_add, Multiset.map_add, Multiset.coe_singleton,
        Multiset.map_singleton]
      abel
  next => cases ends

/-- Where nothing waits for the handler, cancelling does nothing. -/
theorem cancel_of_notMem [DecidableEq Handler] (absent : handler ∉ executor.waiting) :
    executor.cancel handler = executor := by
  have kept : executor.waiting.filter (fun other => decide (other ≠ handler)) =
      executor.waiting := by
    rw [List.filter_eq_self]
    intro other among
    exact decide_eq_true fun same => absent (same ▸ among)
  have none : executor.waiting.filter (fun other => decide (other = handler)) = [] := by
    rw [List.filter_eq_nil_iff]
    intro other among same
    exact absent (of_decide_eq_true same ▸ among)
  rw [cancel, kept, none, List.append_nil]

theorem start_eq_some {strand : Bool} {thread : Nat} {entry : Handler → Place} :
    executor.start strand thread entry = some next ↔ ∃ handler rest,
      executor.ready = handler :: rest ∧
        (∀ execution ∈ executor.running, execution.thread ≠ thread) ∧
        (strand = true → executor.running = []) ∧
        next = { executor with
          ready := rest
          running := executor.running ++
            [{ thread := thread, handler := handler, place := entry handler }] } := by
  unfold start
  constructor
  · intro begun
    split at begun
    next => cases begun
    next handler rest ready =>
      split at begun
      next free =>
        cases begun
        exact ⟨handler, rest, ready, free.1, free.2, rfl⟩
      next => cases begun
  · rintro ⟨handler, rest, ready, free, alone, same⟩
    simp only [ready]
    rw [if_pos ⟨free, alone⟩, same]

/-- A ready handler can be begun when no other is being executed. -/
theorem exists_start (strand : Bool) (thread : Nat) (entry : Handler → Place)
    (ready : executor.ready ≠ []) (idle : executor.running = []) :
    ∃ next, executor.start strand thread entry = some next := by
  rcases List.exists_cons_of_ne_nil ready with ⟨handler, rest, whole⟩
  refine ⟨_, start_eq_some.mpr ⟨handler, rest, whole, ?_, fun _ => idle, rfl⟩⟩
  rw [idle]
  exact List.forall_mem_nil _

theorem replaces_start {strand : Bool} {thread : Nat} {entry : Handler → Place}
    (begun : executor.start strand thread entry = some next) : ∃ handler,
      Replaces {(handler, .ready)} {(handler, .inside (entry handler))}
        executor.stages next.stages := by
  rcases start_eq_some.mp begun with ⟨handler, rest, ready, _, _, same⟩
  subst same
  refine ⟨handler, ?_⟩
  have whole : (executor.ready : Multiset Handler) = {handler} + (rest : Multiset Handler) :=
    congrArg _ ready
  refine ⟨stages { executor with ready := rest }, ?_, ?_⟩
  · unfold stages
    simp only [whole, Multiset.map_add, Multiset.map_singleton]
    abel
  · unfold stages
    simp only [← Multiset.coe_add, Multiset.map_add, Multiset.coe_singleton,
      Multiset.map_singleton]
    abel

/-- An execution stands between those before and those behind it. -/
theorem split_of_listed {execution : Execution Handler Place}
    (listed : executor.running[index]? = some execution) : ∃ before behind,
      executor.running = before ++ execution :: behind ∧ before.length = index := by
  rcases List.getElem?_eq_some_iff.mp listed with ⟨bound, same⟩
  refine ⟨executor.running.take index, executor.running.drop (index + 1), ?_, ?_⟩
  · rw [← same, ← List.drop_eq_getElem_cons bound, List.take_append_drop]
  · rw [List.length_take, Nat.min_eq_left (Nat.le_of_lt bound)]

/-- One execution is a token among the others. -/
theorem stages_split {execution : Execution Handler Place}
    {before behind : List (Execution Handler Place)}
    (whole : executor.running = before ++ execution :: behind) :
    executor.stages = {(execution.handler, .inside execution.place)} +
      stages { executor with running := before ++ behind } := by
  unfold stages
  rw [whole]
  simp only [← Multiset.coe_add, ← Multiset.cons_coe, ← Multiset.singleton_add, Multiset.map_add,
    Multiset.map_singleton]
  abel

theorem replaces_move {execution : Execution Handler Place}
    (listed : executor.running[index]? = some execution) (other : Execution Handler Place) :
    Replaces {(execution.handler, .inside execution.place)}
      {(other.handler, .inside other.place)} executor.stages
      (executor.move index other).stages := by
  rcases split_of_listed listed with ⟨before, behind, whole, length⟩
  have moved : (executor.move index other).running = before ++ other :: behind := by
    rw [move, whole, ← length, List.set_append_right _ _ (Nat.le_refl _), Nat.sub_self,
      List.set_cons_zero]
  exact ⟨_, stages_split whole, stages_split moved⟩

theorem replaces_finish {execution : Execution Handler Place}
    (listed : executor.running[index]? = some execution) :
    Replaces {(execution.handler, .inside execution.place)} 0 executor.stages
      (executor.finish index).stages := by
  rcases split_of_listed listed with ⟨before, behind, whole, length⟩
  have erased : executor.running.eraseIdx index = before ++ behind := by
    rw [whole, ← length, List.eraseIdx_append_of_length_le (Nat.le_refl _), Nat.sub_self,
      List.eraseIdx_cons_zero]
  refine ⟨_, stages_split whole, ?_⟩
  rw [zero_add, finish, erased]

/-! ## With a strand -/

/-- With a strand an execution begins alone. -/
theorem running_of_start {thread : Nat} {entry : Handler → Place}
    (begun : executor.start true thread entry = some next) : ∃ handler,
      next.running = [{ thread := thread, handler := handler, place := entry handler }] := by
  rcases start_eq_some.mp begun with ⟨handler, rest, _, _, alone, same⟩
  refine ⟨handler, ?_⟩
  rw [same]
  exact congrArg (· ++ _) (alone rfl)

/-- Two executions are about to access a shared variable, and nothing orders
them. -/
def Racy {Variable : Type u} (access : Execution Handler Place → Option (Access Variable))
    (executor : Executor Handler Place) : Prop :=
  ¬ executor.running.Pairwise fun first second => ¬ Conflict (access first) (access second)

instance {Variable : Type u} [DecidableEq Variable] (first second : Option (Access Variable)) :
    Decidable (Conflict first second) :=
  match first, second with
  | some one, some other => decidable_of_iff (one.location = other.location ∧
      (one.writes = true ∨ other.writes = true))
      ⟨fun holds => ⟨one, rfl, other, rfl, holds⟩, by
        rintro ⟨_, ⟨⟩, _, ⟨⟩, holds⟩
        exact holds⟩
  | none, _ => isFalse (by rintro ⟨_, ⟨⟩, _⟩)
  | some _, none => isFalse (by rintro ⟨_, _, _, ⟨⟩, _⟩)

instance {Variable : Type u} [DecidableEq Variable]
    (access : Execution Handler Place → Option (Access Variable))
    (executor : Executor Handler Place) : Decidable (executor.Racy access) :=
  inferInstanceAs (Decidable (¬ _))

/-- Where at most one invocation of a handler counts, no two executions that count
are of one handler. -/
theorem pairwise_of_countP_le [DecidableEq Handler] {counts : Handler × Stage Place → Prop}
    [DecidablePred counts] (single : ∀ handler, executor.stages.countP
      (fun token => token.1 = handler ∧ counts token) ≤ 1) :
    executor.running.Pairwise fun first second =>
      counts (first.handler, .inside first.place) →
        counts (second.handler, .inside second.place) → first.handler ≠ second.handler := by
  rw [List.pairwise_iff_forall_sublist]
  intro first second among one other same
  let counted : Execution Handler Place → Bool := fun execution =>
    decide (execution.handler = first.handler ∧
      counts (execution.handler, .inside execution.place))
  have here : counted first = true := decide_eq_true ⟨rfl, one⟩
  have there : counted second = true := decide_eq_true ⟨same.symm, other⟩
  have both : [first, second].countP counted = 2 := by
    rw [List.countP_cons_of_pos here, List.countP_cons_of_pos there, List.countP_nil]
  have fewer : [first, second].countP counted ≤ executor.running.countP counted :=
    among.countP_le
  have part : executor.running.countP counted ≤
      executor.stages.countP fun token => token.1 = first.handler ∧ counts token := by
    unfold stages
    rw [Multiset.countP_add, Multiset.map_coe (fun _ => _) executor.running, Multiset.coe_countP,
      List.countP_map]
    exact Nat.le_add_left _ _
  have bound := single first.handler
  omega

end Executor
end Scheduling
end LearnAsio
