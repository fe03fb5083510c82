import LearnAsio.Scheduling.Executor
import LearnAsio.Transition.Draining
import LearnAsio.Transition.Outstanding
import Mathlib.Data.List.Range

namespace LearnAsio
namespace Basics

open Scheduling Transition

/-!
# Two timers and one counter

`print1` and `print2` count up the same `cnt_` and print it, each on its own timer
and from whatever thread runs the loop.  The bodies are cut into pieces here, so
that the executions of two threads can mix: the comparison with `kCount`, the two
halves of `cnt_++`, `expires_at`, and `async_wait`.

With `need_sync_` the handlers are bound to one strand.  Without it nothing orders
the accesses to `cnt_`, and two executions that are about to access it at once are
a data race.
-/

def kCount : Nat := 100

/-- In microseconds. -/
def kStep : Nat := 1

/-- The two completion handlers of `class Printer`. -/
inductive Method where
  | print1 | print2
  deriving DecidableEq, Repr

/-- The pieces of their common body. -/
inductive Point where
  | check
  | load
  | store (value : Nat)
  | expiresAt
  | asyncWait
  deriving DecidableEq, Repr

/-- What an execution does next with `cnt_`, the one variable that is shared. -/
def access (execution : Execution Method Point) : Option (Access Unit) :=
  match execution.place with
  | .check | .load => some { location := (), writes := false }
  | .store _ => some { location := (), writes := true }
  | .expiresAt | .asyncWait => none

/-- The check has been passed and nothing has been printed yet. -/
def isPrinting : Stage Point → Bool
  | .inside .load | .inside (.store _) => true
  | _ => false

/-- The events up to the next wait, or to the end. -/
def eventsLeft : Stage Point → Nat
  | .waiting => 3
  | .ready => 2
  | .inside .check => 1
  | .inside .load => 7
  | .inside (.store _) => 6
  | .inside .expiresAt => 5
  | .inside .asyncWait => 4

/-- `class Printer`.  The expiry of a timer is counted from its construction, and
the output is kept line by line, with the thread and the method that print it. -/
structure Printer where
  cnt : Nat := 0
  expiry : Method → Nat := fun _ => kStep
  executor : Executor Method Point := { waiting := [.print1, .print2] }
  output : List (Nat × Method × Nat) := []

namespace Printer

/-- One piece of `print1` or `print2`. -/
def advance (printer : Printer) (index : Nat) (execution : Execution Method Point) : Printer :=
  match execution.place with
  | .check =>
      if printer.cnt < kCount then
        { printer with
          executor := printer.executor.move index { execution with place := .load } }
      else { printer with executor := printer.executor.finish index }
  | .load =>
      { printer with
        executor := printer.executor.move index { execution with place := .store printer.cnt } }
  | .store value =>
      { printer with
        cnt := value + 1
        output := printer.output ++ [(execution.thread, execution.handler, value)]
        executor := printer.executor.move index { execution with place := .expiresAt } }
  | .expiresAt =>
      { printer with
        expiry := Function.update printer.expiry execution.handler
          (printer.expiry execution.handler + kStep)
        executor := (printer.executor.cancel execution.handler).move index
          { execution with place := .asyncWait } }
  | .asyncWait =>
      { printer with
        executor := (printer.executor.finish index).wait execution.handler }

/-- A timer expires, a thread begins a handler, or an execution goes on. -/
inductive Event where
  | expire (method : Method)
  | start (thread : Nat)
  | advance (index : Nat)
  deriving DecidableEq, Repr

def step (needSync : Bool) (printer : Printer) : Event → Option Printer
  | .expire method =>
      (printer.executor.complete method).map fun executor => { printer with executor := executor }
  | .start thread =>
      (printer.executor.start needSync thread fun _ => .check).map fun executor =>
        { printer with executor := executor }
  | .advance index =>
      (printer.executor.running[index]?).map fun execution => printer.advance index execution

def machine (needSync : Bool) : System Printer Event where
  initial := {}
  step := step needSync

/-! ## What is counted -/

/-- The lines that a method has printed. -/
def printsBy (printer : Printer) (method : Method) : Nat :=
  printer.output.countP fun line => decide (line.2.1 = method)

/-- The invocations of a method that are under way, from the wait on. -/
def chains (printer : Printer) (method : Method) : Nat :=
  printer.executor.stages.countP fun token => token.1 = method

/-- The executions that have passed the check and have not printed yet. -/
def printing (printer : Printer) : Nat :=
  printer.executor.stages.countP fun token => isPrinting token.2 = true

/-- The executions that have printed and have not moved the timer yet. -/
def expiring (printer : Printer) (method : Method) : Nat :=
  printer.executor.stages.countP fun token => token = (method, .inside .expiresAt)

/-- The events that are still to come: seven for each line, and three in which a
method finds that all lines have been printed. -/
def remaining (printer : Printer) : Nat :=
  7 * (kCount - (printer.cnt + printer.printing)) +
    (printer.executor.stages.map fun token => eventsLeft token.2).sum

/-- What an execution has found out holds as long as it is the only one. -/
def Fits (printer : Printer) : Point → Prop
  | .load => printer.cnt < kCount
  | .store value => value = printer.cnt ∧ printer.cnt < kCount
  | _ => True

/-- With a strand, all of this holds between any two pieces. -/
structure Lawful (printer : Printer) : Prop where
  single : printer.executor.running.length ≤ 1
  values : printer.output.map (fun line => line.2.2) = List.range printer.cnt
  fits : ∀ execution ∈ printer.executor.running, printer.Fits execution.place
  bounded : printer.cnt ≤ kCount
  chain : ∀ method, printer.chains method ≤ 1
  lasting : printer.cnt < kCount → ∀ method, printer.chains method = 1
  expiries : ∀ method, printer.expiry method + kStep * printer.expiring method =
    kStep * (1 + printer.printsBy method)

/-- Only executions print. -/
theorem printing_eq (printer : Printer) : printer.printing =
    printer.executor.running.countP fun execution => isPrinting (.inside execution.place) := by
  have none : ∀ (handlers : List Method) (stage : Stage Point), isPrinting stage = false →
      ((handlers : Multiset Method).map fun handler => (handler, stage)).countP
        (fun token => isPrinting token.2 = true) = 0 := by
    intro handlers stage silent
    rw [Multiset.countP_eq_zero]
    intro token among
    rcases Multiset.mem_map.mp among with ⟨handler, _, same⟩
    rw [← same, silent]
    exact Bool.false_ne_true
  rw [printing, Executor.stages, Multiset.countP_add, Multiset.countP_add, none _ _ rfl,
    none _ _ rfl, Nat.zero_add, Multiset.map_coe, Multiset.coe_countP,
    List.countP_map]
  simp only [Function.comp_def, Bool.decide_eq_true]

/-! ## One invocation goes on -/

section Counts

variable {printer next : Printer} {method : Method} {old new : Stage Point}

/-- An invocation that goes on stays one of its method. -/
theorem chains_of_one (replaces : Replaces {(method, old)} {(method, new)}
    printer.executor.stages next.executor.stages) (other : Method) :
    next.chains other = printer.chains other := by
  have counted := replaces.countP_one fun token => token.1 = other
  exact (Nat.add_right_cancel counted).symm

/-- One that ends is one less. -/
theorem chains_of_gone (replaces : Replaces {(method, old)} 0
    printer.executor.stages next.executor.stages) (other : Method) :
    printer.chains other = next.chains other + if method = other then 1 else 0 :=
  replaces.countP_gone fun token => token.1 = other

theorem printing_of_one (replaces : Replaces {(method, old)} {(method, new)}
    printer.executor.stages next.executor.stages) :
    printer.printing + (if isPrinting new = true then 1 else 0) =
      next.printing + if isPrinting old = true then 1 else 0 :=
  replaces.countP_one fun token => isPrinting token.2 = true

theorem expiring_of_one (replaces : Replaces {(method, old)} {(method, new)}
    printer.executor.stages next.executor.stages) (other : Method) :
    printer.expiring other +
        (if (method, new) = (other, .inside .expiresAt) then 1 else 0) =
      next.expiring other +
        if (method, old) = (other, .inside .expiresAt) then 1 else 0 :=
  replaces.countP_one fun token => token = (other, .inside .expiresAt)

theorem remaining_of_one (replaces : Replaces {(method, old)} {(method, new)}
    printer.executor.stages next.executor.stages) :
    printer.remaining + eventsLeft new + 7 * (kCount - (next.cnt + next.printing)) =
      next.remaining + eventsLeft old + 7 * (kCount - (printer.cnt + printer.printing)) := by
  have left : (printer.executor.stages.map fun token => eventsLeft token.2).sum + eventsLeft new =
      (next.executor.stages.map fun token => eventsLeft token.2).sum + eventsLeft old :=
    replaces.sum_one fun token => eventsLeft token.2
  simp only [remaining]
  omega

/-- A piece that leaves the counter alone is one event less. -/
theorem remaining_of_quiet (replaces : Replaces {(method, old)} {(method, new)}
    printer.executor.stages next.executor.stages) (cnt : next.cnt = printer.cnt)
    (printing : isPrinting new = isPrinting old) (fewer : eventsLeft new + 1 = eventsLeft old) :
    next.remaining + 1 = printer.remaining := by
  have left := remaining_of_one replaces
  have same := Nat.add_right_cancel (printing ▸ printing_of_one replaces)
  rw [cnt, same] at left
  omega

/-- Passing the check reserves the line that will be printed. -/
theorem remaining_of_check (replaces : Replaces {(method, .inside .check)}
    {(method, .inside .load)} printer.executor.stages next.executor.stages)
    (cnt : next.cnt = printer.cnt) (alone : printer.printing = 0) (room : printer.cnt < kCount) :
    next.remaining + 1 = printer.remaining := by
  have left := remaining_of_one replaces
  have reserved : printer.printing + 1 = next.printing + 0 := printing_of_one replaces
  simp only [cnt, alone, eventsLeft] at left reserved
  have one : next.printing = 1 := by omega
  rw [one] at left
  omega

/-- Printing uses up what has been reserved. -/
theorem remaining_of_store {value : Nat} (replaces : Replaces {(method, .inside (.store value))}
    {(method, .inside .expiresAt)} printer.executor.stages next.executor.stages)
    (cnt : next.cnt = printer.cnt + 1) : next.remaining + 1 = printer.remaining := by
  have left := remaining_of_one replaces
  have used : printer.printing + 0 = next.printing + 1 := printing_of_one replaces
  have total : printer.cnt + printer.printing = next.cnt + next.printing := by omega
  simp only [total, eventsLeft] at left
  omega

/-- The last invocation of a method has only the check. -/
theorem remaining_of_gone (replaces : Replaces {(method, .inside .check)} 0
    printer.executor.stages next.executor.stages) (cnt : next.cnt = printer.cnt) :
    next.remaining + 1 = printer.remaining := by
  have left : (printer.executor.stages.map fun token => eventsLeft token.2).sum =
      (next.executor.stages.map fun token => eventsLeft token.2).sum + 1 :=
    replaces.sum_gone fun token => eventsLeft token.2
  have same : printer.printing = next.printing + 0 :=
    replaces.countP_gone fun token => isPrinting token.2 = true
  simp only [remaining, cnt, same, left]
  omega

end Counts

namespace Lawful

variable {printer next : Printer}

/-- A piece that neither prints nor moves a timer. -/
theorem quiet (lawful : printer.Lawful) {method : Method} {old new : Stage Point}
    (replaces : Replaces {(method, old)} {(method, new)}
      printer.executor.stages next.executor.stages)
    (cnt : next.cnt = printer.cnt) (output : next.output = printer.output)
    (expiry : next.expiry = printer.expiry)
    (elsewhere : old ≠ .inside .expiresAt ∧ new ≠ .inside .expiresAt)
    (single : next.executor.running.length ≤ 1)
    (fits : ∀ execution ∈ next.executor.running, printer.Fits execution.place) : next.Lawful where
  single := single
  values := by
    rw [cnt, output]
    exact lawful.values
  fits := by
    intro execution among
    have found := fits execution among
    unfold Fits at found ⊢
    rw [cnt]
    exact found
  bounded := cnt ▸ lawful.bounded
  chain := fun other => chains_of_one replaces other ▸ lawful.chain other
  lasting := by
    intro room other
    rw [cnt] at room
    exact (chains_of_one replaces other).trans (lawful.lasting room other)
  expiries := by
    intro other
    have counted := expiring_of_one replaces other
    have first : ¬ (method, old) = (other, .inside .expiresAt) :=
      fun same => elsewhere.1 (congrArg Prod.snd same)
    have second : ¬ (method, new) = (other, .inside .expiresAt) :=
      fun same => elsewhere.2 (congrArg Prod.snd same)
    rw [if_neg first, if_neg second, Nat.add_zero, Nat.add_zero] at counted
    rw [← counted, printsBy, output, expiry]
    exact lawful.expiries other

/-- A method that finds that all lines have been printed does not come back. -/
theorem gone (lawful : printer.Lawful) {method : Method}
    (replaces : Replaces {(method, .inside .check)} 0
      printer.executor.stages next.executor.stages)
    (full : ¬ printer.cnt < kCount) (cnt : next.cnt = printer.cnt)
    (output : next.output = printer.output) (expiry : next.expiry = printer.expiry)
    (idle : next.executor.running = []) : next.Lawful where
  single := idle ▸ Nat.zero_le 1
  values := by
    rw [cnt, output]
    exact lawful.values
  fits := by
    rw [idle]
    exact List.forall_mem_nil _
  bounded := cnt ▸ lawful.bounded
  chain := by
    intro other
    have fewer := chains_of_gone replaces other
    exact Nat.le_trans (fewer ▸ Nat.le_add_right _ _) (lawful.chain other)
  lasting := fun room => absurd (cnt ▸ room) full
  expiries := by
    intro other
    have same : printer.expiring other = next.expiring other + if _ then 1 else 0 :=
      replaces.countP_gone fun token => token = (other, .inside .expiresAt)
    have different : ¬ ((method, .inside .check) : Method × Stage Point) =
        (other, .inside .expiresAt) := fun same => by cases congrArg Prod.snd same
    rw [if_neg different, Nat.add_zero] at same
    rw [← same, printsBy, output, expiry]
    exact lawful.expiries other

/-- A timer expires. -/
theorem expire (lawful : printer.Lawful) {method : Method} {executor : Executor Method Point}
    (completed : printer.executor.complete method = some executor) :
    ({ printer with executor := executor } : Printer).Lawful ∧
      ({ printer with executor := executor } : Printer).remaining + 1 = printer.remaining := by
  have replaces : Replaces {(method, .waiting)} {(method, .ready)} printer.executor.stages
      ({ printer with executor := executor } : Printer).executor.stages :=
    Executor.replaces_complete completed
  have running : executor.running = printer.executor.running := by
    unfold Executor.complete at completed
    split at completed
    · rw [← Option.some.inj completed]
    · cases completed
  refine ⟨?_, remaining_of_quiet replaces rfl rfl rfl⟩
  refine lawful.quiet replaces rfl rfl rfl (by decide) (running ▸ lawful.single) ?_
  intro execution among
  exact lawful.fits execution (running ▸ among)

/-- A handler begins, and it is the only one. -/
theorem start (lawful : printer.Lawful) {thread : Nat} {executor : Executor Method Point}
    (begun : printer.executor.start true thread (fun _ => .check) = some executor) :
    ({ printer with executor := executor } : Printer).Lawful ∧
      ({ printer with executor := executor } : Printer).remaining + 1 = printer.remaining := by
  rcases Executor.replaces_start begun with ⟨method, replaced⟩
  have replaces : Replaces {(method, .ready)} {(method, .inside .check)} printer.executor.stages
      ({ printer with executor := executor } : Printer).executor.stages := replaced
  rcases Executor.running_of_start begun with ⟨_, running⟩
  refine ⟨?_, remaining_of_quiet replaces rfl rfl rfl⟩
  refine lawful.quiet replaces rfl rfl rfl (by decide) ?_ ?_
  · exact Nat.le_of_eq (congrArg List.length running)
  · intro execution among
    have only : execution ∈ executor.running := among
    rw [running, List.mem_singleton] at only
    rw [only]
    trivial

/-- The method of an execution waits for nothing. -/
theorem notMem_waiting (lawful : printer.Lawful) {index : Nat} {execution : Execution Method Point}
    (listed : printer.executor.running[index]? = some execution) :
    execution.handler ∉ printer.executor.waiting := by
  intro waits
  -- Without the execution no invocation of its method is left, so none waits.
  have fewer := (Executor.replaces_finish listed).countP_gone
    fun token => token.1 = execution.handler
  have among : (execution.handler, .waiting) ∈ (printer.executor.finish index).stages :=
    Multiset.mem_add.mpr (Or.inl (Multiset.mem_add.mpr (Or.inl
      (Multiset.mem_map.mpr ⟨execution.handler, waits, rfl⟩))))
  have another : 0 < (printer.executor.finish index).stages.countP
      fun token => token.1 = execution.handler := Multiset.countP_pos_of_mem among rfl
  have single := lawful.chain execution.handler
  rw [if_pos rfl] at fewer
  unfold chains at single
  omega

/-- Where one execution is left, what it has found out is all that has to hold. -/
theorem fits_of_running {execution : Execution Method Point}
    (running : next.executor.running = [execution]) (fits : next.Fits execution.place) :
    ∀ other ∈ next.executor.running, next.Fits other.place := by
  rw [running]
  exact List.forall_mem_singleton.mpr fits

/-- A line is printed. -/
theorem print (lawful : printer.Lawful) {thread value : Nat} {method : Method}
    (replaces : Replaces {(method, .inside (.store value))} {(method, .inside .expiresAt)}
      printer.executor.stages next.executor.stages)
    (fits : printer.Fits (.store value)) (cnt : next.cnt = value + 1)
    (output : next.output = printer.output ++ [(thread, method, value)])
    (expiry : next.expiry = printer.expiry)
    (running : next.executor.running =
      [{ thread := thread, handler := method, place := .expiresAt }]) : next.Lawful where
  single := Nat.le_of_eq (congrArg List.length running)
  values := by
    rw [cnt, output, List.map_append, lawful.values, fits.1, List.range_succ]
    rfl
  fits := fits_of_running running trivial
  bounded := by
    rw [cnt, fits.1]
    exact fits.2
  chain := fun other => chains_of_one replaces other ▸ lawful.chain other
  lasting := fun _ other => (chains_of_one replaces other).trans (lawful.lasting fits.2 other)
  expiries := by
    intro other
    have counted := expiring_of_one replaces other
    have prints : next.printsBy other =
        printer.printsBy other + if method = other then 1 else 0 := by
      rw [printsBy, output, List.countP_append, List.countP_singleton]
      simp only [decide_eq_true_eq]
      rfl
    simp only [Prod.mk.injEq, and_true, Stage.inside.injEq, reduceCtorEq, and_false, if_false,
      Nat.add_zero] at counted
    rw [← counted, prints, expiry, Nat.mul_add, ← Nat.add_assoc, lawful.expiries other,
      ← Nat.mul_add, Nat.add_assoc]

/-- The timer of the execution is moved. -/
theorem expiresAt (lawful : printer.Lawful) {thread : Nat} {method : Method}
    (replaces : Replaces {(method, .inside .expiresAt)} {(method, .inside .asyncWait)}
      printer.executor.stages next.executor.stages)
    (cnt : next.cnt = printer.cnt) (output : next.output = printer.output)
    (expiry : next.expiry =
      Function.update printer.expiry method (printer.expiry method + kStep))
    (running : next.executor.running =
      [{ thread := thread, handler := method, place := .asyncWait }]) : next.Lawful where
  single := Nat.le_of_eq (congrArg List.length running)
  values := by
    rw [cnt, output]
    exact lawful.values
  fits := fits_of_running running trivial
  bounded := cnt ▸ lawful.bounded
  chain := fun other => chains_of_one replaces other ▸ lawful.chain other
  lasting := by
    intro room other
    rw [cnt] at room
    exact (chains_of_one replaces other).trans (lawful.lasting room other)
  expiries := by
    intro other
    have counted := expiring_of_one replaces other
    have before := lawful.expiries other
    have prints : next.printsBy other = printer.printsBy other := by
      rw [printsBy, output]
      rfl
    simp only [Prod.mk.injEq, and_true, Stage.inside.injEq, reduceCtorEq, and_false, if_false,
      Nat.add_zero] at counted
    rw [prints, expiry, ← before, counted]
    by_cases same : method = other
    · rw [same, Function.update_self, if_pos rfl, Nat.mul_succ]
      omega
    · rw [Function.update_of_ne (Ne.symm same), if_neg same, Nat.add_zero]

/-- An execution goes on. -/
theorem advance (lawful : printer.Lawful) {index : Nat} {execution : Execution Method Point}
    (listed : printer.executor.running[index]? = some execution) :
    (printer.advance index execution).Lawful ∧
      (printer.advance index execution).remaining + 1 = printer.remaining := by
  rcases execution with ⟨thread, method, place⟩
  rcases eq_singleton_of_listed lawful.single listed with ⟨running, first⟩
  have fits : printer.Fits place := lawful.fits ⟨thread, method, place⟩
    (running ▸ List.mem_singleton_self _)
  have goes : ∀ other : Point, Replaces {(method, .inside place)} {(method, .inside other)}
      printer.executor.stages (printer.executor.move index
        { thread := thread, handler := method, place := other }).stages :=
    fun other => Executor.replaces_move listed
      { thread := thread, handler := method, place := other }
  have moved : ∀ other : Point, (printer.executor.move index
      { thread := thread, handler := method, place := other }).running =
        [{ thread := thread, handler := method, place := other }] := by
    intro other
    rw [Executor.move, running, first]
    rfl
  have alone := fun other => Nat.le_of_eq (congrArg List.length (moved other))
  have printing := printer.printing_eq
  rw [running, List.countP_singleton] at printing
  cases place with
  | check =>
      have gone := Executor.replaces_finish listed
      by_cases room : printer.cnt < kCount
      · rw [Printer.advance, if_pos room]
        refine ⟨?_, remaining_of_check (goes .load) rfl printing room⟩
        refine lawful.quiet (goes .load) rfl rfl rfl (by decide) (alone _) ?_
        intro execution among
        have only : execution ∈ [_] := moved _ ▸ among
        rw [List.mem_singleton.mp only]
        exact room
      · rw [Printer.advance, if_neg room]
        exact ⟨lawful.gone gone room rfl rfl rfl (by rw [Executor.finish, running, first]; rfl),
          remaining_of_gone gone rfl⟩
  | load =>
      refine ⟨?_, remaining_of_quiet (goes (.store printer.cnt)) rfl rfl rfl⟩
      refine lawful.quiet (goes (.store printer.cnt)) rfl rfl rfl (by simp) (alone _) ?_
      intro execution among
      have only : execution ∈ [_] := moved _ ▸ among
      rw [List.mem_singleton.mp only]
      exact ⟨rfl, fits⟩
  | store value =>
      have counted : value + 1 = printer.cnt + 1 := congrArg (· + 1) fits.1
      exact ⟨lawful.print (goes .expiresAt) fits rfl rfl rfl (moved _),
        remaining_of_store (goes .expiresAt) counted⟩
  | expiresAt =>
      have kept := Executor.cancel_of_notMem (lawful.notMem_waiting listed)
      simp only [Printer.advance, kept]
      exact ⟨lawful.expiresAt (goes .asyncWait) rfl rfl rfl (moved _),
        remaining_of_quiet (goes .asyncWait) rfl rfl rfl⟩
  | asyncWait =>
      have waits : Replaces {(method, .inside .asyncWait)} {(method, .waiting)}
          printer.executor.stages ((printer.executor.finish index).wait method).stages :=
        (Executor.replaces_finish listed).andThen (Executor.replaces_wait _ _)
      have idle : ((printer.executor.finish index).wait method).running = [] := by
        rw [Executor.wait, Executor.finish, running, first]
        rfl
      refine ⟨?_, remaining_of_quiet waits rfl rfl rfl⟩
      refine lawful.quiet waits rfl rfl rfl (by decide) ?_ ?_
      · exact Nat.le_trans (Nat.le_of_eq (congrArg List.length idle)) (Nat.zero_le 1)
      · intro execution among
        have nothing : execution ∈ [] := idle ▸ among
        cases nothing

end Lawful

/-- One event keeps the law and is one of those that were to come. -/
theorem step_lawful {printer next : Printer} {event : Event} (lawful : printer.Lawful)
    (step : (machine true).step printer event = some next) :
    next.Lawful ∧ next.remaining + 1 = printer.remaining := by
  cases event with
  | expire method =>
      rcases Option.map_eq_some_iff.mp step with ⟨executor, completed, same⟩
      exact same ▸ lawful.expire completed
  | start thread =>
      rcases Option.map_eq_some_iff.mp step with ⟨executor, begun, same⟩
      exact same ▸ lawful.start begun
  | advance index =>
      rcases Option.map_eq_some_iff.mp step with ⟨execution, listed, same⟩
      exact same ▸ lawful.advance listed

/-! ## Whole runs -/

theorem lawful_initial : ({} : Printer).Lawful where
  single := Nat.zero_le 1
  values := rfl
  fits := List.forall_mem_nil _
  bounded := Nat.zero_le _
  chain := by
    intro method
    cases method <;> decide
  lasting := by
    intro _ method
    cases method <;> decide
  expiries := by
    intro method
    cases method <;> decide

/-- As long as something is left, something can happen. -/
theorem enabled {needSync : Bool} {printer : Printer} (busy : ¬ printer.executor.Idle) :
    ∃ event next, (machine needSync).step printer event = some next := by
  cases running : printer.executor.running with
  | cons execution rest =>
      refine ⟨.advance 0, printer.advance 0 execution, ?_⟩
      change (printer.executor.running[0]?).map _ = _
      rw [running]
      rfl
  | nil =>
      cases ready : printer.executor.ready with
      | cons method rest =>
          have filled : printer.executor.ready ≠ [] := ready ▸ List.cons_ne_nil _ _
          rcases Executor.exists_start needSync 0 (fun _ => Point.check) filled running with
            ⟨executor, begun⟩
          exact ⟨.start 0, _, Option.map_eq_some_iff.mpr ⟨executor, begun, rfl⟩⟩
      | nil =>
          cases waiting : printer.executor.waiting with
          | cons method rest =>
              have waits : method ∈ printer.executor.waiting := waiting ▸ List.mem_cons_self
              exact ⟨.expire method, _, Option.map_eq_some_iff.mpr ⟨_, if_pos waits, rfl⟩⟩
          | nil => exact absurd ⟨waiting, ready, running⟩ busy

/-- When nothing is left, all lines have been printed and both timers stand one
step behind their last line. -/
theorem Lawful.ends {printer : Printer} (lawful : printer.Lawful)
    (idle : printer.executor.Idle) : printer.cnt = kCount ∧ printer.remaining = 0 ∧
      ∀ method, printer.expiry method = kStep * (1 + printer.printsBy method) := by
  have nothing : printer.executor.stages = 0 := by
    rw [Executor.stages, idle.waiting, idle.ready, idle.running]
    rfl
  have full : printer.cnt = kCount := by
    refine Nat.le_antisymm lawful.bounded (Nat.le_of_not_lt fun room => ?_)
    have going := lawful.lasting room .print1
    rw [chains, nothing] at going
    cases going
  refine ⟨full, ?_, fun method => ?_⟩
  · rw [remaining, nothing, full, Nat.sub_eq_zero_of_le (Nat.le_add_right _ _)]
    rfl
  · have expiries := lawful.expiries method
    rw [expiring, nothing] at expiries
    exact expiries

/-- What is known after some events of a run with a strand. -/
structure InTurn (printer : Printer) (events : List Event) : Prop where
  alone : printer.executor.running.length ≤ 1
  values : printer.output.map (fun line => line.2.2) = List.range printer.cnt
  bounded : printer.cnt ≤ kCount
  steps : events.length + printer.remaining = 7 * kCount + 6
  continues : ¬ printer.executor.Idle →
    ∃ event next, (machine true).step printer event = some next
  ends : printer.executor.Idle → printer.cnt = kCount ∧ events.length = 7 * kCount + 6 ∧
    ∀ method, printer.expiry method = kStep * (1 + printer.printsBy method)

/-- The law along a run, with the number of its events. -/
theorem lawful_of_run {printer final : Printer} {events : List Event} (lawful : printer.Lawful)
    (steps : (machine true).run printer events = some final) :
    final.Lawful ∧ events.length + final.remaining = printer.remaining := by
  induction events generalizing printer with
  | nil =>
      cases steps
      exact ⟨lawful, Nat.zero_add _⟩
  | cons event rest inductionHypothesis =>
      rcases (System.run_cons_eq_some _).mp steps with ⟨next, moved, arrived⟩
      rcases step_lawful lawful moved with ⟨kept, fewer⟩
      rcases inductionHypothesis kept arrived with ⟨still, total⟩
      refine ⟨still, ?_⟩
      rw [List.length_cons]
      omega

/-- With a strand, whatever threads run the loop and however their events mix, the
lines are printed one by one with the numbers from zero on, the loop comes to its
end after one and the same number of events, and the timers have not drifted. -/
theorem inTurn_of_run {final : Printer} {events : List Event}
    (steps : (machine true).run (machine true).initial events = some final) :
    final.InTurn events := by
  rcases lawful_of_run lawful_initial steps with ⟨lawful, total⟩
  have all : events.length + final.remaining = 7 * kCount + 6 := total
  refine ⟨lawful.single, lawful.values, lawful.bounded, all, enabled, ?_⟩
  intro idle
  rcases lawful.ends idle with ⟨full, none, expiries⟩
  rw [none] at all
  exact ⟨full, all, expiries⟩

/-- A line of each method, on two threads. -/
theorem twoLines_inTurn : ∃ final, (machine true).run (machine true).initial
    ([.expire .print2, .expire .print1, .start 4] ++ List.replicate 5 (.advance 0) ++ [.start 7] ++
      List.replicate 5 (.advance 0)) = some final ∧
    final.output = [(4, .print2, 0), (7, .print1, 1)] ∧
    final.InTurn ([.expire .print2, .expire .print1, .start 4] ++
      List.replicate 5 (.advance 0) ++ [.start 7] ++ List.replicate 5 (.advance 0)) := by
  have outcome : ((machine true).run (machine true).initial
      ([.expire .print2, .expire .print1, .start 4] ++ List.replicate 5 (.advance 0) ++
        [.start 7] ++ List.replicate 5 (.advance 0))).map Printer.output =
      some [(4, .print2, 0), (7, .print1, 1)] := by decide +kernel
  rcases Option.map_eq_some_iff.mp outcome with ⟨final, steps, printed⟩
  exact ⟨final, steps, printed, inTurn_of_run steps⟩

/-- Without a strand one thread may be in the middle of `cnt_++` when another one looks
at `cnt_`. -/
example : ((machine false).run (machine false).initial [.expire .print1, .expire .print2,
    .start 0, .start 1, .advance 0, .advance 0]).map (fun printer =>
      decide (printer.executor.Racy access)) = some true := by decide +kernel

end Printer
end Basics
end LearnAsio
