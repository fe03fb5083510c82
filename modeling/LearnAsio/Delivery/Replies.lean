import Mathlib.Data.List.Basic

namespace LearnAsio
namespace Delivery

universe u v w

/-!
# Answering datagrams

A datagram names its sender.  A program that answers what it has received keeps the
last sender in one variable, which a failed receive leaves alone, and addresses its
answer to whatever that variable holds.  The answers are made one after another,
each at some moment after its receipt.
-/

/-- How a receive ends. -/
inductive Receipt (Peer : Type u) (Error : Type v) where
  | datagram (sender : Peer)
  | failed (error : Error)
  deriving DecidableEq, Repr

variable {Peer : Type u} {Error : Type v} {Moment : Type w} {Text : Type*}

/-- The sender that is on record after a receipt. -/
def Receipt.noted (last : Peer) : Receipt Peer Error → Peer
  | .datagram sender => sender
  | .failed _ => last

/-- The sender on record after several receipts. -/
def lastSender (last : Peer) (receipts : List (Receipt Peer Error)) : Peer :=
  receipts.foldl Receipt.noted last

/-- The answers to as many receipts as there are moments for. -/
def replies (answer : Receipt Peer Error → Moment → Text) :
    Peer → List (Receipt Peer Error) → List Moment → List (Peer × Text)
  | last, receipt :: receipts, moment :: moments =>
      (receipt.noted last, answer receipt moment) ::
        replies answer (receipt.noted last) receipts moments
  | _, _, _ => []

variable {answer : Receipt Peer Error → Moment → Text}

theorem lastSender_concat (last : Peer) (receipts : List (Receipt Peer Error))
    (receipt : Receipt Peer Error) :
    lastSender last (receipts ++ [receipt]) = receipt.noted (lastSender last receipts) := by
  simp [lastSender]

/-- A receipt that has not been answered yet changes no answer. -/
theorem replies_unanswered {receipts : List (Receipt Peer Error)} {moments : List Moment}
    (level : receipts.length = moments.length) (last : Peer) (receipt : Receipt Peer Error) :
    replies answer last (receipts ++ [receipt]) moments = replies answer last receipts moments := by
  induction receipts generalizing last moments with
  | nil =>
      have none : moments = [] := List.eq_nil_of_length_eq_zero level.symm
      rw [none]
      rfl
  | cons first rest inductionHypothesis =>
      cases moments with
      | nil => cases level
      | cons moment moments =>
          rw [List.cons_append, replies, replies,
            inductionHypothesis (Nat.succ.inj level)]

/-- The answer to the last receipt goes to the sender then on record. -/
theorem replies_concat {receipts : List (Receipt Peer Error)} {moments : List Moment}
    (level : receipts.length = moments.length) (last : Peer) (receipt : Receipt Peer Error)
    (moment : Moment) :
    replies answer last (receipts ++ [receipt]) (moments ++ [moment]) =
      replies answer last receipts moments ++
        [(lastSender last (receipts ++ [receipt]), answer receipt moment)] := by
  induction receipts generalizing last moments with
  | nil =>
      have none : moments = [] := List.eq_nil_of_length_eq_zero level.symm
      rw [none]
      rfl
  | cons first rest inductionHypothesis =>
      cases moments with
      | nil => cases level
      | cons moment moments =>
          rw [List.cons_append, List.cons_append, replies, replies,
            inductionHypothesis (Nat.succ.inj level)]
          rfl

end Delivery
end LearnAsio
