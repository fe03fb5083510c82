import LearnAsio.Transition.Outstanding
import Mathlib.Tactic.Common

namespace LearnAsio
namespace Queue

universe u

/-!
# A queue with one writer

A sender keeps its messages in a queue.  The message at the front stays there
while it is being written; it is taken off when its write has succeeded, and the
next write is begun then.  A message that is posted to an empty queue is written
at once.  After a failed write the front stays and nothing is written any more.

`Lawful` is the discipline that follows: one write at a time, of the front, and
none only when there is nothing to write or a write has failed.  What has been
sent is then always a prefix of what has been posted.
-/

/-- The queue, the writes whose outcome is not known yet, and the histories of
what was posted and what was sent. -/
structure Writer (Message : Type u) where
  queue : List Message := []
  writing : List Message := []
  posted : List Message := []
  sent : List Message := []
  failed : Bool := false

namespace Writer

variable {Message : Type u}

/-- Append a message, and write it if the queue was empty. -/
def post (writer : Writer Message) (message : Message) : Writer Message :=
  { writer with
    queue := writer.queue ++ [message]
    writing := if writer.queue = [] then writer.writing ++ [message] else writer.writing
    posted := writer.posted ++ [message] }

/-- A write has succeeded: take the front off and write the next message. -/
def wrote (writer : Writer Message) (message : Message) : Writer Message :=
  { writer with
    queue := writer.queue.tail
    writing := writer.queue.tail.head?.toList
    sent := writer.sent ++ [message] }

/-- A write has failed. -/
def fail (writer : Writer Message) : Writer Message :=
  { writer with writing := [], failed := true }

/-- The single-writer discipline. -/
structure Lawful (writer : Writer Message) : Prop where
  history : writer.sent ++ writer.queue = writer.posted
  front : ∀ message ∈ writer.writing, writer.queue.head? = some message
  single : writer.writing.length ≤ 1
  idle : writer.failed = false → writer.writing = [] → writer.queue = []
  stuck : writer.failed = true → writer.writing = [] ∧ writer.queue ≠ []

namespace Lawful

variable {writer : Writer Message}

theorem empty : Lawful ({} : Writer Message) where
  history := rfl
  front := fun _ listed => absurd listed List.not_mem_nil
  single := Nat.zero_le 1
  idle := fun _ _ => rfl
  stuck := by
    intro impossible
    cases impossible

/-- Nothing is being written when the queue is empty. -/
theorem writing_of_empty (lawful : writer.Lawful) (none : writer.queue = []) :
    writer.writing = [] := by
  cases writing : writer.writing with
  | nil => rfl
  | cons message rest =>
      have front := lawful.front message (writing ▸ List.mem_cons_self)
      rw [none] at front
      cases front

theorem post (lawful : writer.Lawful) (message : Message) : (writer.post message).Lawful where
  history := by
    change writer.sent ++ (writer.queue ++ [message]) = writer.posted ++ [message]
    rw [← List.append_assoc, lawful.history]
  front := by
    intro other listed
    change (writer.queue ++ [message]).head? = some other
    by_cases none : writer.queue = []
    · rw [Writer.post, if_pos none, lawful.writing_of_empty none] at listed
      rw [none, List.mem_singleton.mp listed]
      rfl
    · rw [Writer.post, if_neg none] at listed
      rw [List.head?_append, lawful.front other listed]
      rfl
  single := by
    by_cases none : writer.queue = []
    · rw [Writer.post, if_pos none, lawful.writing_of_empty none]
      exact Nat.le_refl 1
    · rw [Writer.post, if_neg none]
      exact lawful.single
  idle := by
    intro healthy quiet
    by_cases none : writer.queue = []
    · rw [Writer.post, if_pos none] at quiet
      cases (List.append_eq_nil_iff.mp quiet).2
    · rw [Writer.post, if_neg none] at quiet
      exact absurd (lawful.idle healthy quiet) none
  stuck := by
    intro broken
    have before := lawful.stuck broken
    refine ⟨?_, List.append_ne_nil_of_right_ne_nil _ (List.cons_ne_nil _ _)⟩
    rw [Writer.post, if_neg before.2]
    exact before.1

/-- The written message is the front of the queue, so the history grows by what
the queue loses. -/
theorem wrote (lawful : writer.Lawful) {message : Message} (listed : message ∈ writer.writing) :
    (writer.wrote message).Lawful := by
  have front := lawful.front message listed
  have healthy : writer.failed = false := by
    cases broken : writer.failed with
    | false => rfl
    | true =>
        rw [(lawful.stuck broken).1] at listed
        cases listed
  cases shape : writer.queue with
  | nil =>
      rw [shape] at front
      cases front
  | cons head tail =>
      rw [shape, List.head?_cons, Option.some.injEq] at front
      subst front
      refine ⟨?_, ?_, ?_, ?_, ?_⟩
      · change writer.sent ++ [head] ++ writer.queue.tail = writer.posted
        rw [shape, List.tail_cons, ← lawful.history, shape, List.append_assoc]
        rfl
      · intro other next
        exact Option.mem_toList.mp next
      · change writer.queue.tail.head?.toList.length ≤ 1
        cases writer.queue.tail with
        | nil => exact Nat.zero_le 1
        | cons _ _ => exact Nat.le_refl 1
      · intro _ quiet
        change writer.queue.tail.head?.toList = [] at quiet
        change writer.queue.tail = []
        cases next : writer.queue.tail with
        | nil => rfl
        | cons _ _ =>
            rw [next] at quiet
            cases quiet
      · intro broken
        rw [show (writer.wrote head).failed = writer.failed from rfl, healthy] at broken
        cases broken

theorem fail (lawful : writer.Lawful) {message : Message} (listed : message ∈ writer.writing) :
    writer.fail.Lawful where
  history := lawful.history
  front := fun _ impossible => absurd impossible List.not_mem_nil
  single := Nat.zero_le 1
  idle := by
    intro impossible
    cases impossible
  stuck := by
    intro _
    refine ⟨rfl, fun none => ?_⟩
    have front := lawful.front message listed
    rw [show writer.queue = [] from none] at front
    cases front

/-- What has been sent is a prefix of what has been posted. -/
theorem sent_prefix (lawful : writer.Lawful) : writer.sent <+: writer.posted :=
  ⟨writer.queue, lawful.history⟩

/-- As long as no write has failed, something is being written exactly when there
is something to write. -/
theorem writing_ne_nil_iff (lawful : writer.Lawful) (healthy : writer.failed = false) :
    writer.writing ≠ [] ↔ writer.queue ≠ [] := by
  constructor
  · intro busy none
    exact busy (lawful.writing_of_empty none)
  · intro filled quiet
    exact filled (lawful.idle healthy quiet)

/-- What is being written is the only write, and the front. -/
theorem writing_eq (lawful : writer.Lawful) {message : Message}
    (listed : message ∈ writer.writing) :
    writer.writing = [message] ∧ writer.queue.head? = some message := by
  refine ⟨?_, lawful.front message listed⟩
  rcases List.mem_iff_getElem?.mp listed with ⟨index, found⟩
  exact (Transition.eq_singleton_of_listed lawful.single found).1

end Lawful

/-- What an observer of the queue can rely on: at most one write, of the front,
and one exactly if there is something to write, unless a write has failed; and
what has been sent, followed by the queue, is what has been posted. -/
structure Law (writer : Writer Message) : Prop where
  atMostOne : writer.writing.length ≤ 1
  front : ∀ message ∈ writer.writing, writer.queue.head? = some message
  busy : writer.failed = false → (writer.writing ≠ [] ↔ writer.queue ≠ [])
  whole : writer.sent ++ writer.queue = writer.posted

theorem Lawful.law {writer : Writer Message} (lawful : writer.Lawful) : writer.Law where
  atMostOne := lawful.single
  front := lawful.front
  busy := lawful.writing_ne_nil_iff
  whole := lawful.history

/-- What was being written is still the only write, and still the front. -/
def StillWriting (before after : Writer Message) : Prop :=
  ∀ message ∈ before.writing, after.writing = [message] ∧ after.queue.head? = some message

theorem stillWriting_of_subset {before after : Writer Message} (lawful : after.Lawful)
    (kept : before.writing ⊆ after.writing) : StillWriting before after :=
  fun _ listed => lawful.writing_eq (kept listed)

/-- A post takes no write away. -/
theorem writing_subset_post (writer : Writer Message) (message : Message) :
    writer.writing ⊆ (writer.post message).writing := by
  unfold post
  dsimp only
  split
  · exact List.subset_append_left _ _
  · exact List.Subset.refl _

end Writer

/-! ## Two receivers of one log -/

/-- Two senders whose selected posts are the same have sent comparable
selections. -/
theorem filter_sent_comparable {Message : Type u} {first second : Writer Message}
    (firstLawful : first.Lawful) (secondLawful : second.Lawful) (selected : Message → Bool)
    (same : first.posted.filter selected = second.posted.filter selected) :
    first.sent.filter selected <+: second.sent.filter selected ∨
      second.sent.filter selected <+: first.sent.filter selected := by
  have firstPart := firstLawful.sent_prefix.filter selected
  have secondPart := secondLawful.sent_prefix.filter selected
  rw [same] at firstPart
  exact List.prefix_or_prefix_of_prefix firstPart secondPart

end Queue
end LearnAsio
