import LearnAsio.Scheduling.Executor
import LearnAsio.Transition.System
import Mathlib.Algebra.Order.Ring.Nat
import Mathlib.Data.List.Range
import Mathlib.Data.Multiset.Filter

namespace LearnAsio
namespace Basics

open Scheduling Transition

/-!
# Handlers that start threads

`timer1_hander` and `timer2_handler` do the same with different timers: each counts
its calls in a static variable of its own, and until the tenth call it waits again
and detaches one more thread that runs the loop.  There is no strand, so the pieces
of any two executions can mix.

The clock is part of the state.  A wait may end any time after its expiry, and
`expires_after` counts from the time at which it is called.

Steady clock: the timers are `system_timer`s, whose clock may be set.  It is assumed
here that nobody does, so that the clock only moves forward, and it is read to the
second.
-/

/-- The two completion handlers. -/
inductive TimerHandler where
  | timer1Hander | timer2Handler
  deriving DecidableEq, Repr

namespace TimerHandler

/-- The seconds that `expires_after` is given in the handler. -/
def period : TimerHandler → Nat
  | timer1Hander => 10
  | timer2Handler => 100

end TimerHandler

/-- The pieces of their common body. -/
inductive Piece where
  | load
  | store (value : Nat)
  | check
  | expiresAfter
  | asyncWait
  | spawn
  deriving DecidableEq, Repr

/-- A line of the output, with the time at which it is printed. -/
structure Line where
  thread : Nat
  handler : TimerHandler
  cnt : Nat
  time : Nat
  deriving DecidableEq, Repr

/-- The program after `main` has begun to wait for the two timers, the second of
them some time after the first. -/
structure Threads where
  now : Nat
  cnt : TimerHandler → Nat := fun _ => 0
  expiry : TimerHandler → Nat
  threads : Nat := 1
  executor : Executor TimerHandler Piece := { waiting := [.timer1Hander, .timer2Handler] }
  output : List Line := []

/-- What an execution does next with the static variable of its handler. -/
def staticAccess (execution : Execution TimerHandler Piece) : Option (Access TimerHandler) :=
  match execution.place with
  | .load | .check => some { location := execution.handler, writes := false }
  | .store _ => some { location := execution.handler, writes := true }
  | .expiresAfter | .asyncWait | .spawn => none

namespace Threads

/-- One piece of a handler. -/
def advance (threads : Threads) (index : Nat) (execution : Execution TimerHandler Piece) :
    Threads :=
  let handler := execution.handler
  match execution.place with
  | .load =>
      { threads with
        executor := threads.executor.move index
          { execution with place := .store (threads.cnt handler) } }
  | .store value =>
      { threads with
        cnt := Function.update threads.cnt handler (value + 1)
        output := threads.output ++ [{ thread := execution.thread, handler := handler
                                       cnt := value, time := threads.now }]
        executor := threads.executor.move index { execution with place := .check } }
  | .check =>
      if threads.cnt handler < 10 then
        { threads with
          executor := threads.executor.move index { execution with place := .expiresAfter } }
      else { threads with executor := threads.executor.finish index }
  | .expiresAfter =>
      { threads with
        expiry := Function.update threads.expiry handler (threads.now + handler.period)
        executor := (threads.executor.cancel handler).move index
          { execution with place := .asyncWait } }
  | .asyncWait =>
      { threads with
        executor := (threads.executor.move index { execution with place := .spawn }).wait handler }
  | .spawn =>
      { threads with
        threads := threads.threads + 1
        executor := threads.executor.finish index }

/-- Time passes, a wait ends, a thread begins a handler, or an execution goes on. -/
inductive Event where
  | pass (seconds : Nat)
  | expire (handler : TimerHandler)
  | start (thread : Nat)
  | advance (index : Nat)
  deriving DecidableEq, Repr

def step (threads : Threads) : Event → Option Threads
  | .pass seconds => some { threads with now := threads.now + seconds }
  | .expire handler =>
      if threads.expiry handler ≤ threads.now then
        (threads.executor.complete handler).map fun executor =>
          { threads with executor := executor }
      else none
  | .start thread =>
      if thread < threads.threads then
        (threads.executor.start false thread fun _ => .load).map fun executor =>
          { threads with executor := executor }
      else none
  | .advance index =>
      (threads.executor.running[index]?).map fun execution => threads.advance index execution

/-- The first expiry of a timer. -/
def first (delay : Nat) : TimerHandler → Nat
  | .timer1Hander => 2
  | .timer2Handler => delay + 2

/-- The two calls of `expires_after` in `main` are so many seconds apart. -/
def machine (delay : Nat) : System Threads Event where
  initial := { now := delay, expiry := first delay }
  step := step

/-! ## What is known of an invocation -/

/-- The invocation has not begun the next wait of its handler. -/
def carries : Stage Piece → Bool
  | .inside .spawn => false
  | _ => true

/-- The call of the invocation has not been counted. -/
def uncounted : Stage Piece → Bool
  | .waiting | .ready | .inside .load | .inside (.store _) => true
  | _ => false

/-- The events that are left, if each call that is not counted is taken for
twenty. -/
def weight : Stage Piece → Nat
  | .waiting => 5
  | .ready => 4
  | .inside .load => 3
  | .inside (.store _) => 2
  | .inside .check => 9
  | .inside .expiresAfter => 8
  | .inside .asyncWait => 7
  | .inside .spawn => 1

/-- The earliest time of a call, by the number of calls before it. -/
def due (delay : Nat) (handler : TimerHandler) (calls : Nat) : Nat :=
  first delay handler + handler.period * calls

theorem due_succ (delay : Nat) (handler : TimerHandler) (calls : Nat) :
    due delay handler (calls + 1) = due delay handler calls + handler.period := by
  rw [due, due, Nat.mul_succ, Nat.add_assoc]

/-- What an invocation relies on. -/
def Fits (delay : Nat) (threads : Threads) (handler : TimerHandler) : Stage Piece → Prop
  | .waiting => threads.cnt handler < 10 ∧
      due delay handler (threads.cnt handler) ≤ threads.expiry handler
  | .ready | .inside .load => threads.cnt handler < 10 ∧
      due delay handler (threads.cnt handler) ≤ threads.now
  | .inside (.store value) => value = threads.cnt handler ∧ threads.cnt handler < 10 ∧
      due delay handler (threads.cnt handler) ≤ threads.now
  | .inside .check => 0 < threads.cnt handler ∧
      due delay handler (threads.cnt handler) ≤ threads.now + handler.period
  | .inside .expiresAfter => 0 < threads.cnt handler ∧ threads.cnt handler < 10 ∧
      due delay handler (threads.cnt handler) ≤ threads.now + handler.period
  | .inside .asyncWait => threads.cnt handler < 10 ∧
      due delay handler (threads.cnt handler) ≤ threads.expiry handler
  | .inside .spawn => True

/-- The invocations of a handler that have not begun its next wait. -/
def chains (threads : Threads) (handler : TimerHandler) : Nat :=
  threads.executor.stages.countP fun token => token.1 = handler ∧ carries token.2 = true

/-- All of this holds between any two pieces. -/
structure Lawful (delay : Nat) (threads : Threads) : Prop where
  alive : 0 < threads.threads
  fits : ∀ token ∈ threads.executor.stages, Fits delay threads token.1 token.2
  bounded : ∀ handler, threads.cnt handler ≤ 10
  chain : ∀ handler, threads.chains handler ≤ 1
  lasting : ∀ handler, threads.cnt handler < 10 → threads.chains handler = 1
  values : ∀ handler, (threads.output.filter fun line => decide (line.handler = handler)).map
    Line.cnt = List.range (threads.cnt handler)
  times : ∀ line ∈ threads.output, due delay line.handler line.cnt ≤ line.time
  spawned : threads.threads + 1 +
      threads.executor.stages.countP (fun token => carries token.2 = false) =
    threads.cnt .timer1Hander + threads.cnt .timer2Handler +
      threads.executor.stages.countP fun token => uncounted token.2 = true

/-- The calls that have not been counted. -/
def callsLeft (threads : Threads) : Nat :=
  (10 - threads.cnt .timer1Hander) + (10 - threads.cnt .timer2Handler)

/-- What is left of the calls and of the invocations under way. -/
def remaining (threads : Threads) : Nat :=
  20 * threads.callsLeft + (threads.executor.stages.map fun token => weight token.2).sum

/-! ## One piece -/

section Tokens

variable {delay : Nat} {threads next : Threads} {handler : TimerHandler} {old new : Stage Piece}

/-- What another invocation relies on does not change with the values of one
handler. -/
theorem fits_of_others {other : TimerHandler} {stage : Stage Piece}
    (fits : Fits delay threads other stage) (now : threads.now ≤ next.now)
    (cnt : next.cnt other = threads.cnt other) (expiry : next.expiry other = threads.expiry other) :
    Fits delay next other stage := by
  cases stage with
  | waiting =>
      rw [Fits, cnt, expiry]
      exact fits
  | ready =>
      rw [Fits, cnt]
      exact ⟨fits.1, Nat.le_trans fits.2 now⟩
  | inside place =>
      cases place with
      | load =>
          rw [Fits, cnt]
          exact ⟨fits.1, Nat.le_trans fits.2 now⟩
      | store value =>
          rw [Fits, cnt]
          exact ⟨fits.1, fits.2.1, Nat.le_trans fits.2.2 now⟩
      | check =>
          rw [Fits, cnt]
          exact ⟨fits.1, Nat.le_trans fits.2 (Nat.add_le_add_right now _)⟩
      | expiresAfter =>
          rw [Fits, cnt]
          exact ⟨fits.1, fits.2.1, Nat.le_trans fits.2.2 (Nat.add_le_add_right now _)⟩
      | asyncWait =>
          rw [Fits, cnt, expiry]
          exact fits
      | spawn => trivial

/-- While an invocation counts, every other one of its handler only starts a
thread. -/
theorem carries_of_rest (lawful : Lawful delay threads) (carried : carries old = true)
    {rest : Multiset (TimerHandler × Stage Piece)}
    (whole : threads.executor.stages = {(handler, old)} + rest) {token : TimerHandler × Stage Piece}
    (among : token ∈ rest) (same : token.1 = handler) : carries token.2 = false := by
  have single := lawful.chain handler
  rw [chains, whole, Multiset.countP_add, Replaces.countP_singleton,
    if_pos ⟨rfl, carried⟩] at single
  have none : rest.countP (fun token => token.1 = handler ∧ carries token.2 = true) = 0 := by
    omega
  rw [Multiset.countP_eq_zero] at none
  exact Bool.eq_false_iff.mpr fun holds => none token among ⟨same, holds⟩

theorem fits_of_not_carries {other : TimerHandler} {stage : Stage Piece}
    (done : carries stage = false) : Fits delay next other stage := by
  cases stage with
  | waiting => cases done
  | ready => cases done
  | inside place =>
      cases place with
      | spawn => trivial
      | _ => cases done

/-- An invocation goes on, which may change the values of its handler. -/
theorem fits_of_replaces (lawful : Lawful delay threads) {tokens : Multiset _}
    (replaces : Replaces {(handler, old)} tokens threads.executor.stages next.executor.stages)
    (carried : carries old = true) (now : next.now = threads.now)
    (cnt : ∀ other, other ≠ handler → next.cnt other = threads.cnt other)
    (expiry : ∀ other, other ≠ handler → next.expiry other = threads.expiry other)
    (come : ∀ token ∈ tokens, Fits delay next token.1 token.2) :
    ∀ token ∈ next.executor.stages, Fits delay next token.1 token.2 := by
  refine replaces.forall_after come fun rest whole token among => ?_
  by_cases same : token.1 = handler
  · exact fits_of_not_carries (carries_of_rest lawful carried whole among same)
  · have stayed : token ∈ threads.executor.stages := by
      rw [whole]
      exact Multiset.mem_add.mpr (Or.inr among)
    exact fits_of_others (lawful.fits token stayed) (Nat.le_of_eq now.symm) (cnt _ same)
      (expiry _ same)

/-- An invocation that goes on stays one of its handler. -/
theorem chains_of_one (replaces : Replaces {(handler, old)} {(handler, new)}
    threads.executor.stages next.executor.stages) (carried : carries old = true)
    (carries : carries new = true) (other : TimerHandler) :
    next.chains other = threads.chains other := by
  have counted := replaces.countP_one fun token => token.1 = other ∧ Threads.carries token.2 = true
  simp only [carried, carries, and_true] at counted
  exact (Nat.add_right_cancel counted).symm

end Tokens

namespace Lawful

variable {delay : Nat} {threads next : Threads} {handler : TimerHandler} {old new : Stage Piece}

/-- A piece that neither counts nor starts a thread. -/
theorem quiet (lawful : Lawful delay threads)
    (replaces : Replaces {(handler, old)} {(handler, new)}
      threads.executor.stages next.executor.stages)
    (carried : carries old = true ∧ carries new = true)
    (counted : uncounted new = uncounted old)
    (now : next.now = threads.now) (cnt : next.cnt = threads.cnt)
    (expiry : ∀ other, other ≠ handler → next.expiry other = threads.expiry other)
    (output : next.output = threads.output) (same : next.threads = threads.threads)
    (fits : Fits delay next handler new) : Lawful delay next where
  alive := same ▸ lawful.alive
  fits := by
    refine fits_of_replaces lawful replaces carried.1 now (fun other _ => congrFun cnt other)
      expiry fun token come => ?_
    rw [Multiset.mem_singleton.mp come]
    exact fits
  bounded := fun other => cnt ▸ lawful.bounded other
  chain := fun other => chains_of_one replaces carried.1 carried.2 other ▸ lawful.chain other
  lasting := by
    intro other room
    rw [cnt] at room
    exact (chains_of_one replaces carried.1 carried.2 other).trans (lawful.lasting other room)
  values := by
    rw [cnt, output]
    exact lawful.values
  times := output ▸ lawful.times
  spawned := by
    have spawning := replaces.countP_one fun token => carries token.2 = false
    have calls := replaces.countP_one fun token => uncounted token.2 = true
    simp only [carried.1, carried.2, counted] at spawning calls
    rw [same, cnt, ← Nat.add_right_cancel spawning, ← Nat.add_right_cancel calls]
    exact lawful.spawned

/-- A call is counted and its line printed. -/
theorem store (lawful : Lawful delay threads) {thread value : Nat}
    (replaces : Replaces {(handler, .inside (.store value))} {(handler, .inside .check)}
      threads.executor.stages next.executor.stages)
    (fits : Fits delay threads handler (.inside (.store value)))
    (now : next.now = threads.now)
    (cnt : next.cnt = Function.update threads.cnt handler (value + 1))
    (expiry : next.expiry = threads.expiry)
    (output : next.output = threads.output ++
      [{ thread := thread, handler := handler, cnt := value, time := threads.now }])
    (same : next.threads = threads.threads) : Lawful delay next := by
  rcases fits with ⟨fresh, room, due⟩
  have self : next.cnt handler = threads.cnt handler + 1 := by
    rw [cnt, Function.update_self, fresh]
  have others : ∀ other, other ≠ handler → next.cnt other = threads.cnt other := by
    intro other different
    rw [cnt, Function.update_of_ne different]
  constructor
  case alive => exact same ▸ lawful.alive
  case fits =>
    refine fits_of_replaces lawful replaces rfl now others (fun _ _ => by rw [expiry]) ?_
    intro token come
    rw [Multiset.mem_singleton.mp come]
    refine ⟨self ▸ Nat.succ_pos _, ?_⟩
    rw [self, due_succ, now]
    exact Nat.add_le_add_right due _
  case bounded =>
    intro other
    by_cases here : other = handler
    · rw [here, self]
      exact room
    · rw [others other here]
      exact lawful.bounded other
  case chain => exact fun other => chains_of_one replaces rfl rfl other ▸ lawful.chain other
  case lasting =>
    intro other open_
    refine (chains_of_one replaces rfl rfl other).trans (lawful.lasting other ?_)
    by_cases here : other = handler
    · exact here ▸ room
    · exact others other here ▸ open_
  case values =>
    intro other
    rw [output, List.filter_append, List.map_append, lawful.values]
    by_cases here : handler = other
    · subst here
      rw [self, fresh, List.range_succ]
      simp
    · rw [others other (Ne.symm here)]
      simp [here]
  case times =>
    intro line listed
    rw [output, List.mem_append, List.mem_singleton] at listed
    rcases listed with earlier | new
    · exact lawful.times line earlier
    · rw [new, fresh]
      exact due
  case spawned =>
    have spawning : _ + 0 = _ + 0 :=
      replaces.countP_one fun token => carries token.2 = false
    have calls : _ + 0 = _ + 1 :=
      replaces.countP_one fun token => uncounted token.2 = true
    have total : next.cnt .timer1Hander + next.cnt .timer2Handler =
        threads.cnt .timer1Hander + threads.cnt .timer2Handler + 1 := by
      cases handler with
      | timer1Hander =>
          rw [self, others .timer2Handler (by decide)]
          omega
      | timer2Handler =>
          rw [self, others .timer1Hander (by decide)]
          omega
    have before := lawful.spawned
    rw [same, total]
    omega

/-- The last call begins no other. -/
theorem gone (lawful : Lawful delay threads)
    (replaces : Replaces {(handler, .inside .check)} 0
      threads.executor.stages next.executor.stages)
    (full : ¬ threads.cnt handler < 10) (now : next.now = threads.now)
    (cnt : next.cnt = threads.cnt) (expiry : next.expiry = threads.expiry)
    (output : next.output = threads.output) (same : next.threads = threads.threads) :
    Lawful delay next := by
  have fewer : ∀ other,
      threads.chains other = next.chains other + if handler = other then 1 else 0 := by
    intro other
    have counted := replaces.countP_gone fun token => token.1 = other ∧ carries token.2 = true
    simp only [carries, and_true] at counted
    exact counted
  constructor
  case alive => exact same ▸ lawful.alive
  case fits =>
    refine fits_of_replaces lawful replaces rfl now (fun _ _ => by rw [cnt])
      (fun _ _ => by rw [expiry]) fun token come => ?_
    exact absurd come (Multiset.notMem_zero token)
  case bounded => exact fun other => cnt ▸ lawful.bounded other
  case chain =>
    intro other
    have before := lawful.chain other
    have less := fewer other
    omega
  case lasting =>
    intro other room
    rw [cnt] at room
    have different : ¬ handler = other := fun here => full (here ▸ room)
    have less := fewer other
    rw [if_neg different, Nat.add_zero] at less
    exact less.symm.trans (lawful.lasting other room)
  case values =>
    rw [cnt, output]
    exact lawful.values
  case times => exact output ▸ lawful.times
  case spawned =>
    have spawning : _ = _ + 0 := replaces.countP_gone fun token => carries token.2 = false
    have calls : _ = _ + 0 := replaces.countP_gone fun token => uncounted token.2 = true
    have before := lawful.spawned
    rw [same, cnt]
    omega

/-- A handler waits again and goes on to start a thread. -/
theorem wait (lawful : Lawful delay threads)
    (replaces : Replaces {(handler, .inside .asyncWait)}
      ({(handler, .waiting)} + {(handler, .inside .spawn)})
      threads.executor.stages next.executor.stages)
    (now : next.now = threads.now) (cnt : next.cnt = threads.cnt)
    (expiry : next.expiry = threads.expiry) (output : next.output = threads.output)
    (same : next.threads = threads.threads) (fits : Fits delay next handler .waiting) :
    Lawful delay next := by
  have chains : ∀ other, next.chains other = threads.chains other := by
    intro other
    have counted := replaces.countP_add fun token => token.1 = other ∧ carries token.2 = true
    have done : ¬ (handler = other ∧ carries (.inside .spawn) = true) :=
      fun spawns => Bool.false_ne_true spawns.2
    rw [Multiset.countP_add, Replaces.countP_singleton, Replaces.countP_singleton,
      Replaces.countP_singleton, if_neg done, Nat.add_zero] at counted
    exact (Nat.add_right_cancel counted).symm
  constructor
  case alive => exact same ▸ lawful.alive
  case fits =>
    refine fits_of_replaces lawful replaces rfl now (fun _ _ => by rw [cnt])
      (fun _ _ => by rw [expiry]) fun token come => ?_
    rcases Multiset.mem_add.mp come with waits | spawns
    · rw [Multiset.mem_singleton.mp waits]
      exact fits
    · rw [Multiset.mem_singleton.mp spawns]
      trivial
  case bounded => exact fun other => cnt ▸ lawful.bounded other
  case chain => exact fun other => chains other ▸ lawful.chain other
  case lasting =>
    intro other room
    rw [cnt] at room
    exact (chains other).trans (lawful.lasting other room)
  case values =>
    rw [cnt, output]
    exact lawful.values
  case times => exact output ▸ lawful.times
  case spawned =>
    have spawning : _ + 1 = _ + 0 := replaces.countP_add fun token => carries token.2 = false
    have calls : _ + 1 = _ + 0 := replaces.countP_add fun token => uncounted token.2 = true
    have before := lawful.spawned
    rw [same, cnt]
    omega

/-- A thread is started. -/
theorem spawn (lawful : Lawful delay threads)
    (replaces : Replaces {(handler, .inside .spawn)} 0
      threads.executor.stages next.executor.stages)
    (now : next.now = threads.now) (cnt : next.cnt = threads.cnt)
    (expiry : next.expiry = threads.expiry) (output : next.output = threads.output)
    (more : next.threads = threads.threads + 1) : Lawful delay next := by
  have chains : ∀ other, next.chains other = threads.chains other := by
    intro other
    have counted := replaces.countP_gone fun token => token.1 = other ∧ carries token.2 = true
    have done : ¬ (handler = other ∧ carries (.inside .spawn) = true) :=
      fun spawns => Bool.false_ne_true spawns.2
    rw [if_neg done] at counted
    exact counted.symm
  constructor
  case alive => exact more ▸ Nat.succ_pos _
  case fits =>
    refine replaces.forall_after (fun token come => absurd come (Multiset.notMem_zero token)) ?_
    intro rest whole token among
    have stayed : token ∈ threads.executor.stages := by
      rw [whole]
      exact Multiset.mem_add.mpr (Or.inr among)
    exact fits_of_others (lawful.fits token stayed) (Nat.le_of_eq now.symm) (by rw [cnt])
      (by rw [expiry])
  case bounded => exact fun other => cnt ▸ lawful.bounded other
  case chain => exact fun other => chains other ▸ lawful.chain other
  case lasting =>
    intro other room
    rw [cnt] at room
    exact (chains other).trans (lawful.lasting other room)
  case values =>
    rw [cnt, output]
    exact lawful.values
  case times => exact output ▸ lawful.times
  case spawned =>
    have spawning : _ = _ + 1 := replaces.countP_gone fun token => carries token.2 = false
    have calls : _ = _ + 0 := replaces.countP_gone fun token => uncounted token.2 = true
    have before := lawful.spawned
    rw [more, cnt]
    omega

/-- Time passes. -/
theorem pass (lawful : Lawful delay threads) (seconds : Nat) :
    Lawful delay { threads with now := threads.now + seconds } where
  alive := lawful.alive
  fits := fun token among =>
    fits_of_others (lawful.fits token among) (Nat.le_add_right _ _) rfl rfl
  bounded := lawful.bounded
  chain := lawful.chain
  lasting := lawful.lasting
  values := lawful.values
  times := lawful.times
  spawned := lawful.spawned

end Lawful

/-! ## Every event -/

/-- Something other than the passing of time. -/
def Event.acts : Event → Bool
  | .pass _ => false
  | _ => true

variable {delay : Nat} {threads next : Threads}

theorem remaining_lt {handler : TimerHandler} {old : Stage Piece}
    {tokens : Multiset (TimerHandler × Stage Piece)}
    (replaces : Replaces {(handler, old)} tokens threads.executor.stages next.executor.stages)
    (fewer : 20 * next.callsLeft + (tokens.map fun token => weight token.2).sum <
      20 * threads.callsLeft + weight old) : next.remaining < threads.remaining := by
  have left := replaces.sum_add fun token => weight token.2
  rw [Multiset.map_singleton, Multiset.sum_singleton] at left
  change _ = _ + weight old at left
  unfold remaining
  omega

/-- A piece that counts no call leaves less to do. -/
theorem remaining_lt_of_same {handler : TimerHandler} {old : Stage Piece}
    {tokens : Multiset (TimerHandler × Stage Piece)}
    (replaces : Replaces {(handler, old)} tokens threads.executor.stages next.executor.stages)
    (cnt : next.cnt = threads.cnt)
    (fewer : (tokens.map fun token => weight token.2).sum < weight old) :
    next.remaining < threads.remaining := by
  refine remaining_lt replaces ?_
  rw [callsLeft, cnt, ← callsLeft]
  omega

/-- The handler of an execution that has not begun the next wait waits for nothing
else. -/
theorem notMem_waiting (lawful : Lawful delay threads) {index : Nat}
    {execution : Execution TimerHandler Piece}
    (listed : threads.executor.running[index]? = some execution)
    (carried : carries (.inside execution.place) = true) :
    execution.handler ∉ threads.executor.waiting := by
  intro waits
  rcases Executor.replaces_finish listed with ⟨rest, whole, finished⟩
  have among : (execution.handler, .waiting) ∈ (threads.executor.finish index).stages :=
    Multiset.mem_add.mpr (Or.inl (Multiset.mem_add.mpr (Or.inl
      (Multiset.mem_map.mpr ⟨execution.handler, waits, rfl⟩))))
  rw [finished, zero_add] at among
  cases carries_of_rest lawful carried whole among rfl

/-- One piece of an execution. -/
theorem advance_lawful (lawful : Lawful delay threads) {index : Nat}
    {execution : Execution TimerHandler Piece}
    (listed : threads.executor.running[index]? = some execution) :
    Lawful delay (threads.advance index execution) ∧
      (threads.advance index execution).remaining < threads.remaining := by
  have gone := Executor.replaces_finish listed
  have waiting := notMem_waiting lawful listed
  rcases execution with ⟨thread, handler, place⟩
  have goes : ∀ other : Piece, Replaces {(handler, .inside place)} {(handler, .inside other)}
      threads.executor.stages (threads.executor.move index
        { thread := thread, handler := handler, place := other }).stages :=
    fun other => Executor.replaces_move listed
      { thread := thread, handler := handler, place := other }
  have fits : Fits delay threads handler (.inside place) := lawful.fits _ gone.mem_before
  cases place with
  | load =>
      have replaces := goes (.store (threads.cnt handler))
      exact ⟨lawful.quiet replaces ⟨rfl, rfl⟩ rfl rfl rfl (fun _ _ => rfl) rfl rfl
          ⟨rfl, fits.1, fits.2⟩, remaining_lt_of_same replaces rfl (by simp [weight])⟩
  | store value =>
      have replaces := goes .check
      refine ⟨lawful.store replaces fits rfl rfl rfl rfl rfl, remaining_lt replaces ?_⟩
      rcases fits with ⟨fresh, room, _⟩
      have fewer : (threads.advance index ⟨thread, handler, .store value⟩).callsLeft + 1 =
          threads.callsLeft := by
        change 10 - Function.update threads.cnt handler (value + 1) .timer1Hander +
          (10 - Function.update threads.cnt handler (value + 1) .timer2Handler) + 1 = _
        rw [fresh, callsLeft]
        cases handler with
        | timer1Hander =>
            rw [Function.update_self, Function.update_of_ne (by decide)]
            omega
        | timer2Handler =>
            rw [Function.update_self, Function.update_of_ne (by decide)]
            omega
      rw [← fewer]
      simp [weight]
      omega
  | check =>
      by_cases room : threads.cnt handler < 10
      · have replaces := goes .expiresAfter
        rw [Threads.advance, if_pos room]
        exact ⟨lawful.quiet replaces ⟨rfl, rfl⟩ rfl rfl rfl (fun _ _ => rfl) rfl rfl
          ⟨fits.1, room, fits.2⟩, remaining_lt_of_same replaces rfl (by simp [weight])⟩
      · rw [Threads.advance, if_neg room]
        exact ⟨lawful.gone gone room rfl rfl rfl rfl rfl,
          remaining_lt_of_same gone rfl (by simp [weight])⟩
  | expiresAfter =>
      have kept := Executor.cancel_of_notMem (waiting rfl)
      have replaces := goes .asyncWait
      simp only [Threads.advance, kept]
      have later : due delay handler (threads.cnt handler) ≤
          Function.update threads.expiry handler (threads.now + handler.period) handler := by
        rw [Function.update_self]
        exact fits.2.2
      exact ⟨lawful.quiet replaces ⟨rfl, rfl⟩ rfl rfl rfl
          (fun _ different => Function.update_of_ne different _ _) rfl rfl ⟨fits.2.1, later⟩,
        remaining_lt_of_same replaces rfl (by simp [weight])⟩
  | asyncWait =>
      have replaces := (goes .spawn).andThen (Executor.replaces_wait _ handler)
      exact ⟨lawful.wait replaces rfl rfl rfl rfl rfl fits,
        remaining_lt_of_same replaces rfl (by simp [weight])⟩
  | spawn =>
      exact ⟨lawful.spawn gone rfl rfl rfl rfl rfl,
        remaining_lt_of_same gone rfl (by simp [weight])⟩

/-- One event keeps the law, and leaves less to do unless time passes. -/
theorem step_lawful (lawful : Lawful delay threads) {event : Event}
    (step : (machine delay).step threads event = some next) :
    Lawful delay next ∧ next.remaining + event.acts.toNat ≤ threads.remaining := by
  cases event with
  | pass seconds =>
      cases step
      exact ⟨lawful.pass seconds, Nat.le_refl _⟩
  | expire handler =>
      change (if _ then _ else _) = _ at step
      split at step
      next late =>
        rcases Option.map_eq_some_iff.mp step with ⟨executor, completed, same⟩
        subst same
        have replaces := Executor.replaces_complete completed
        have fits : Fits delay threads handler .waiting := lawful.fits _ replaces.mem_before
        exact ⟨lawful.quiet replaces ⟨rfl, rfl⟩ rfl rfl rfl (fun _ _ => rfl) rfl rfl
          ⟨fits.1, Nat.le_trans fits.2 late⟩,
          remaining_lt_of_same replaces rfl (by simp [weight])⟩
      next => cases step
  | start thread =>
      change (if _ then _ else _) = _ at step
      split at step
      next =>
        rcases Option.map_eq_some_iff.mp step with ⟨executor, begun, same⟩
        subst same
        rcases Executor.replaces_start begun with ⟨handler, replaces⟩
        have fits : Fits delay threads handler .ready := lawful.fits _ replaces.mem_before
        exact ⟨lawful.quiet replaces ⟨rfl, rfl⟩ rfl rfl rfl (fun _ _ => rfl) rfl rfl fits,
          remaining_lt_of_same replaces rfl (by simp [weight])⟩
      next => cases step
  | advance index =>
      rcases Option.map_eq_some_iff.mp step with ⟨execution, listed, same⟩
      exact same ▸ advance_lawful lawful listed

/-! ## Whole runs -/

theorem lawful_initial (delay : Nat) : Lawful delay (machine delay).initial where
  alive := Nat.one_pos
  fits := by
    have tokens : (machine delay).initial.executor.stages =
        (.timer1Hander, .waiting) ::ₘ {(.timer2Handler, .waiting)} := rfl
    intro token among
    rw [tokens] at among
    rcases Multiset.mem_cons.mp among with one | other
    · rw [one]
      exact ⟨Nat.succ_pos 9, Nat.le_refl _⟩
    · rw [Multiset.mem_singleton.mp other]
      exact ⟨Nat.succ_pos 9, Nat.le_refl _⟩
  bounded := fun _ => Nat.zero_le _
  chain := by
    intro handler
    cases handler with
    | timer1Hander => exact Nat.le_refl 1
    | timer2Handler => exact Nat.le_refl 1
  lasting := by
    intro handler _
    cases handler with
    | timer1Hander => rfl
    | timer2Handler => rfl
  values := fun _ => rfl
  times := List.forall_mem_nil _
  spawned := rfl

/-- What has not been counted is one of the first ten calls, and begins the next
wait. -/
theorem of_uncounted {handler : TimerHandler} {stage : Stage Piece}
    (fits : Fits delay threads handler stage) (calls : uncounted stage = true) :
    threads.cnt handler < 10 ∧ carries stage = true := by
  cases stage with
  | waiting => exact ⟨fits.1, rfl⟩
  | ready => exact ⟨fits.1, rfl⟩
  | inside place =>
      cases place with
      | load => exact ⟨fits.1, rfl⟩
      | store value => exact ⟨fits.2.1, rfl⟩
      | _ => cases calls

/-- The calls of a handler never are more than ten. -/
theorem cnt_add_uncounted_le (lawful : Lawful delay threads) (handler : TimerHandler) :
    threads.cnt handler + threads.executor.stages.countP
      (fun token => uncounted token.2 = true ∧ token.1 = handler) ≤ 10 := by
  have bounded := lawful.bounded handler
  by_cases none : threads.executor.stages.countP
      (fun token => uncounted token.2 = true ∧ token.1 = handler) = 0
  · omega
  · rcases Multiset.countP_pos.mp (Nat.pos_of_ne_zero none) with ⟨token, among, calls, same⟩
    have room := (of_uncounted (lawful.fits token among) calls).1
    rw [same] at room
    have fewer : threads.executor.stages.countP
        (fun token => uncounted token.2 = true ∧ token.1 = handler) ≤ threads.chains handler :=
      countP_le_of_imp fun other listed holds =>
        ⟨holds.2, (of_uncounted (lawful.fits other listed) holds.1).2⟩
    have single := lawful.chain handler
    omega

/-- There are never more than nineteen threads. -/
theorem threads_le (lawful : Lawful delay threads) : threads.threads ≤ 19 := by
  have one := cnt_add_uncounted_le lawful .timer1Hander
  have two := cnt_add_uncounted_le lawful .timer2Handler
  have spawned := lawful.spawned
  have split := Multiset.countP_eq_countP_filter_add threads.executor.stages
    (fun token => uncounted token.2 = true) fun token => token.1 = .timer1Hander
  have other : (threads.executor.stages.filter fun token => ¬ token.1 = .timer1Hander).countP
      (fun token => uncounted token.2 = true) ≤ threads.executor.stages.countP
        fun token => uncounted token.2 = true ∧ token.1 = .timer2Handler := by
    rw [Multiset.countP_filter]
    refine countP_le_of_imp fun token _ holds => ⟨holds.1, ?_⟩
    cases handler : token.1 with
    | timer1Hander => exact absurd handler holds.2
    | timer2Handler => rfl
  rw [Multiset.countP_filter] at split
  omega

/-- No two executions are about to access the same static variable, be it only to read
it. -/
def Apart (threads : Threads) : Prop :=
  threads.executor.running.Pairwise fun first second =>
    ∀ one ∈ staticAccess first, ∀ other ∈ staticAccess second, one.location ≠ other.location

/-- Whatever is accessed belongs to an invocation that has not begun the next wait. -/
theorem carries_of_access {execution : Execution TimerHandler Piece}
    {access : Access TimerHandler} (accesses : staticAccess execution = some access) :
    carries (.inside execution.place) = true ∧ access.location = execution.handler := by
  rcases execution with ⟨thread, handler, place⟩
  cases place <;> cases accesses <;> exact ⟨rfl, rfl⟩

/-- Two executions that access the same static variable are one. -/
theorem apart (lawful : Lawful delay threads) : threads.Apart := by
  have single : ∀ handler, threads.executor.stages.countP
      (fun token => token.1 = handler ∧ carries token.2 = true) ≤ 1 := lawful.chain
  refine (Executor.pairwise_of_countP_le single).imp ?_
  intro one other apart first access second accesses same
  have here := carries_of_access access
  have there := carries_of_access accesses
  exact apart here.1 there.1 (here.2.symm.trans (same.trans there.2))

theorem not_racy (apart : threads.Apart) : ¬ threads.executor.Racy staticAccess := by
  refine not_not.mpr (apart.imp ?_)
  rintro one other apart ⟨first, access, second, accesses, same, _⟩
  exact apart first access second accesses same

/-- As long as something is left, something happens, if need be after some time. -/
theorem enabled (lawful : Lawful delay threads) (busy : ¬ threads.executor.Idle) :
    ∃ seconds event next, event.acts = true ∧
      (machine delay).run threads [.pass seconds, event] = some next := by
  have runs : ∀ {seconds event next}, step { threads with now := threads.now + seconds } event =
      some next → (machine delay).run threads [.pass seconds, event] = some next :=
    fun moved => (System.run_cons_eq_some _).mpr
      ⟨_, rfl, (System.run_cons_eq_some _).mpr ⟨_, moved, rfl⟩⟩
  cases running : threads.executor.running with
  | cons execution rest =>
      have listed : threads.executor.running[0]? = some execution := running ▸ rfl
      exact ⟨0, .advance 0, _, rfl, runs (Option.map_eq_some_iff.mpr ⟨execution, listed, rfl⟩)⟩
  | nil =>
      cases ready : threads.executor.ready with
      | cons handler rest =>
          have filled : threads.executor.ready ≠ [] := ready ▸ List.cons_ne_nil _ _
          rcases Executor.exists_start false 0 (fun _ => Piece.load) filled running with
            ⟨executor, begun⟩
          refine ⟨0, .start 0, { threads with executor := executor }, rfl, runs ?_⟩
          rw [step, if_pos lawful.alive, begun]
          rfl
      | nil =>
          cases waiting : threads.executor.waiting with
          | cons handler rest =>
              have waits : handler ∈ threads.executor.waiting := waiting ▸ List.mem_cons_self
              have late : threads.expiry handler ≤ threads.now + threads.expiry handler :=
                Nat.le_add_left _ _
              have completed : ∃ executor, threads.executor.complete handler = some executor :=
                ⟨_, if_pos waits⟩
              rcases completed with ⟨executor, completed⟩
              refine ⟨threads.expiry handler, .expire handler, { threads with
                now := threads.now + threads.expiry handler, executor := executor }, rfl, runs ?_⟩
              rw [step, if_pos late, completed]
              rfl
          | nil => exact absurd ⟨waiting, ready, running⟩ busy

/-- When nothing is left, both handlers have been called ten times. -/
theorem ends (lawful : Lawful delay threads) (idle : threads.executor.Idle) :
    (∀ handler, threads.cnt handler = 10) ∧ threads.threads = 19 := by
  have nothing : threads.executor.stages = 0 := by
    rw [Executor.stages, idle.waiting, idle.ready, idle.running]
    rfl
  have full : ∀ handler, threads.cnt handler = 10 := by
    intro handler
    refine Nat.le_antisymm (lawful.bounded handler) (Nat.le_of_not_lt fun room => ?_)
    have going := lawful.lasting handler room
    rw [chains, nothing] at going
    cases going
  have spawned := lawful.spawned
  rw [nothing, full, full] at spawned
  simp only [Multiset.countP_zero] at spawned
  exact ⟨full, by omega⟩

/-- What is known after some events of a run. -/
structure TenEach (delay : Nat) (threads : Threads) (events : List Event) : Prop where
  apart : threads.Apart
  raceFree : ¬ threads.executor.Racy staticAccess
  values : ∀ handler, (threads.output.filter fun line => decide (line.handler = handler)).map
    Line.cnt = List.range (threads.cnt handler)
  bounded : ∀ handler, threads.cnt handler ≤ 10
  times : ∀ line ∈ threads.output, due delay line.handler line.cnt ≤ line.time
  fewThreads : threads.threads ≤ 19
  steps : events.countP Event.acts ≤ 410
  continues : ¬ threads.executor.Idle → ∃ seconds event next, event.acts = true ∧
    (machine delay).run threads [.pass seconds, event] = some next
  ends : threads.executor.Idle →
    (∀ handler, threads.cnt handler = 10) ∧ threads.threads = 19

theorem lawful_of_run (lawful : Lawful delay threads) {events : List Event} {final : Threads}
    (steps : (machine delay).run threads events = some final) :
    Lawful delay final ∧ events.countP Event.acts + final.remaining ≤ threads.remaining := by
  induction events generalizing threads with
  | nil =>
      cases steps
      exact ⟨lawful, Nat.le_of_eq (Nat.zero_add _)⟩
  | cons event rest inductionHypothesis =>
      rcases (System.run_cons_eq_some _).mp steps with ⟨next, moved, arrived⟩
      rcases step_lawful lawful moved with ⟨kept, fewer⟩
      rcases inductionHypothesis kept arrived with ⟨still, total⟩
      refine ⟨still, ?_⟩
      rw [List.countP_cons]
      cases acts : event.acts with
      | true =>
          rw [acts] at fewer
          have one : true.toNat = 1 := rfl
          rw [if_pos rfl]
          omega
      | false =>
          rw [acts] at fewer
          have none : false.toNat = 0 := rfl
          rw [if_neg Bool.false_ne_true]
          omega

/-- However the threads interleave and however late the waits end: no static
variable is accessed by two executions at once, so there is no race; each handler
counts its calls from zero to nine and is never called before its time, no more than
nineteen threads are started, and after at most so many events both handlers have been
called ten times. -/
theorem tenEach_of_run {events : List Event} {final : Threads}
    (steps : (machine delay).run (machine delay).initial events = some final) :
    TenEach delay final events := by
  rcases lawful_of_run (lawful_initial delay) steps with ⟨lawful, total⟩
  have initially : (machine delay).initial.remaining = 410 := rfl
  refine ⟨apart lawful, not_racy (apart lawful), lawful.values, lawful.bounded, lawful.times,
    threads_le lawful, ?_, enabled lawful, ends lawful⟩
  omega

/-- The first call of each handler, the second of them on the thread that the first
has started. -/
theorem firstCalls_tenEach : ∃ final, (machine 3).run (machine 3).initial
    ([.pass 4, .expire .timer1Hander, .start 0] ++ List.replicate 6 (.advance 0) ++
      [.pass 1, .expire .timer2Handler, .start 1] ++ List.replicate 2 (.advance 0)) = some final ∧
    final.output = [⟨0, .timer1Hander, 0, 7⟩, ⟨1, .timer2Handler, 0, 8⟩] ∧
    TenEach 3 final ([.pass 4, .expire .timer1Hander, .start 0] ++
      List.replicate 6 (.advance 0) ++ [.pass 1, .expire .timer2Handler, .start 1] ++
        List.replicate 2 (.advance 0)) := by
  have outcome : ((machine 3).run (machine 3).initial ([.pass 4, .expire .timer1Hander, .start 0] ++
      List.replicate 6 (.advance 0) ++ [.pass 1, .expire .timer2Handler, .start 1] ++
        List.replicate 2 (.advance 0))).map Threads.output =
      some [⟨0, .timer1Hander, 0, 7⟩, ⟨1, .timer2Handler, 0, 8⟩] := by decide +kernel
  rcases Option.map_eq_some_iff.mp outcome with ⟨final, steps, printed⟩
  exact ⟨final, steps, printed, tenEach_of_run steps⟩

end Threads
end Basics
end LearnAsio
