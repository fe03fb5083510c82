import LearnAsio.Transition.System
import Mathlib.Logic.Function.Basic

namespace LearnAsio
namespace Queue

open Transition

universe u v w

/-!
# One log and its readers

Everything that is said is written into one log, in one order.  A reader joins
with the first notice of the log that says so.  It is given some opening
messages then, and from there on what each later notice shows to it.  So what a
reader is ever given is a function of the log, and all that is left to the world
is how far each reader has got.

The machine at the end has this and nothing else as its state.  It is what a
server may be compared with that keeps a queue for each of its clients.
-/

/-- What the notices of a log mean to the readers, and which notice may come
next. -/
structure Audience (Notice : Type u) (Reader : Type v) (Message : Type w) where
  permits : List Notice → Notice → Bool
  joins : Reader → Notice → Bool
  opening : List Message
  shown : Reader → Notice → List Message

namespace Audience

variable {Notice : Type u} {Reader : Type v} {Message : Type w}
  (audience : Audience Notice Reader Message)

/-- Everything that a reader is given in a log. -/
def feed (reader : Reader) : List Notice → List Message
  | [] => []
  | notice :: rest =>
      if audience.joins reader notice = true then
        audience.opening ++ rest.flatMap (audience.shown reader)
      else feed reader rest

def Joined (log : List Notice) (reader : Reader) : Prop :=
  ∃ notice ∈ log, audience.joins reader notice = true

instance (log : List Notice) (reader : Reader) : Decidable (audience.Joined log reader) :=
  inferInstanceAs (Decidable (∃ notice ∈ log, audience.joins reader notice = true))

variable {audience} {reader : Reader} {log : List Notice} {notice : Notice}

theorem joined_concat : audience.Joined (log ++ [notice]) reader ↔
    audience.Joined log reader ∨ audience.joins reader notice = true := by
  simp only [Joined, List.mem_append, List.mem_singleton, or_and_right, exists_or,
    exists_eq_left]

theorem feed_of_not_joined (absent : ¬ audience.Joined log reader) :
    audience.feed reader log = [] := by
  induction log with
  | nil => rfl
  | cons notice rest inductionHypothesis =>
      have here : ¬ audience.joins reader notice = true :=
        fun joins => absent ⟨notice, List.mem_cons_self, joins⟩
      rw [feed, if_neg here]
      apply inductionHypothesis
      rintro ⟨later, listed, joins⟩
      exact absent ⟨later, List.mem_cons_of_mem _ listed, joins⟩

/-- A reader that has joined is shown the next notice. -/
theorem feed_concat_of_joined (joined : audience.Joined log reader) :
    audience.feed reader (log ++ [notice]) =
      audience.feed reader log ++ audience.shown reader notice := by
  induction log with
  | nil =>
      rcases joined with ⟨_, impossible, _⟩
      cases impossible
  | cons first rest inductionHypothesis =>
      by_cases here : audience.joins reader first = true
      · simp only [List.cons_append, feed, if_pos here, List.flatMap_append,
          List.flatMap_singleton, List.append_assoc]
      · simp only [List.cons_append, feed, if_neg here]
        apply inductionHypothesis
        rcases joined with ⟨other, listed, joins⟩
        rcases List.mem_cons.mp listed with same | later
        · exact absurd (same ▸ joins) here
        · exact ⟨other, later, joins⟩

/-- A notice with which a reader joins gives it the opening. -/
theorem feed_concat_of_joins (absent : ¬ audience.Joined log reader)
    (joins : audience.joins reader notice = true) :
    audience.feed reader (log ++ [notice]) = audience.opening := by
  induction log with
  | nil => rw [List.nil_append, feed, if_pos joins, List.flatMap_nil, List.append_nil]
  | cons first rest inductionHypothesis =>
      have here : ¬ audience.joins reader first = true :=
        fun joins => absent ⟨first, List.mem_cons_self, joins⟩
      rw [List.cons_append, feed, if_neg here]
      apply inductionHypothesis
      rintro ⟨later, listed, joins⟩
      exact absent ⟨later, List.mem_cons_of_mem _ listed, joins⟩

/-- Any other reader is given nothing by it. -/
theorem feed_concat_of_not_joined (absent : ¬ audience.Joined (log ++ [notice]) reader) :
    audience.feed reader (log ++ [notice]) = audience.feed reader log := by
  have before : ¬ audience.Joined log reader :=
    fun joined => absent (joined_concat.mpr (Or.inl joined))
  rw [feed_of_not_joined absent, feed_of_not_joined before]

variable (audience)

/-! ## The board -/

/-- The log, and how many messages each reader has taken. -/
structure Board (Notice : Type u) (Reader : Type v) where
  log : List Notice := []
  taken : Reader → Nat := fun _ => 0

/-- A notice is put up, or a reader takes its next message. -/
inductive Act (Notice : Type u) (Reader : Type v) where
  | publish (notice : Notice)
  | take (reader : Reader)

variable [DecidableEq Reader]

/-- A permitted notice goes to the end of the log.  A reader can only take what
it is given. -/
def board : System (Board Notice Reader) (Act Notice Reader) where
  initial := {}
  step := fun board act =>
    match act with
    | .publish notice =>
        if audience.permits board.log notice = true then
          some { board with log := board.log ++ [notice] }
        else none
    | .take reader =>
        if board.taken reader < (audience.feed reader board.log).length then
          some { board with
            taken := Function.update board.taken reader (board.taken reader + 1) }
        else none

/-- What a reader has taken so far. -/
def seen (board : Board Notice Reader) (reader : Reader) : List Message :=
  (audience.feed reader board.log).take (board.taken reader)

variable {audience} {board : Board Notice Reader}

theorem board_publish (permitted : audience.permits board.log notice = true) :
    audience.board.step board (.publish notice) =
      some { board with log := board.log ++ [notice] } := if_pos permitted

theorem board_take (more : board.taken reader < (audience.feed reader board.log).length) :
    audience.board.step board (.take reader) =
      some { board with taken := Function.update board.taken reader (board.taken reader + 1) } :=
  if_pos more

end Audience
end Queue
end LearnAsio
