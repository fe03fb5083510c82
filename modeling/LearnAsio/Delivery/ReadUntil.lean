import LearnAsio.Delivery.Lines
import Mathlib.Data.List.Infix

namespace LearnAsio
namespace Delivery

universe u

/-!
# Reading in pieces until a separator has come

A stream arrives in pieces and is appended to a buffer until the buffer holds a
separator.  The buffer may hold more than that then, depending on the pieces, but
the first place of the separator is the one in the whole stream.  The second part
is about a loop that takes lines off a buffer until it finds a certain line: what
follows that line cannot change what the loop has taken.
-/

variable {Atom : Type u} [DecidableEq Atom]

/-- Append pieces to the buffer until it holds the separator, and leave the
other pieces. -/
def readUntil (separator : List Atom) :
    List Atom → List (List Atom) → Option (List Atom × List (List Atom))
  | buffer, [] => if separator <:+: buffer then some (buffer, []) else none
  | buffer, piece :: pieces =>
      if separator <:+: buffer then some (buffer, piece :: pieces)
      else readUntil separator (buffer ++ piece) pieces

variable {separator buffer : List Atom} {pieces : List (List Atom)}

/-- Reading neither loses nor invents anything, and only appends. -/
theorem readUntil_spec {after : List Atom} {left : List (List Atom)}
    (read : readUntil separator buffer pieces = some (after, left)) :
    separator <:+: after ∧ after ++ left.flatten = buffer ++ pieces.flatten := by
  induction pieces generalizing buffer with
  | nil =>
      rw [readUntil] at read
      split at read
      next found =>
        cases read
        exact ⟨found, rfl⟩
      next => cases read
  | cons piece pieces inductionHypothesis =>
      rw [readUntil] at read
      split at read
      next found =>
        cases read
        exact ⟨found, rfl⟩
      next =>
        have later := inductionHypothesis read
        rw [List.append_assoc] at later
        exact later

/-- Reading comes to an end exactly if the separator comes. -/
theorem readUntil_eq_none_iff :
    readUntil separator buffer pieces = none ↔ ¬ separator <:+: buffer ++ pieces.flatten := by
  induction pieces generalizing buffer with
  | nil =>
      rw [readUntil, List.flatten_nil, List.append_nil]
      split
      next found => exact iff_of_false (Option.some_ne_none _) fun absent => absent found
      next absent => exact iff_of_true rfl absent
  | cons piece pieces inductionHypothesis =>
      rw [readUntil]
      split
      next found =>
        refine iff_of_false (Option.some_ne_none _) fun absent => absent ?_
        exact found.trans (List.prefix_append _ _).isInfix
      next =>
        rw [inductionHypothesis, List.flatten_cons, List.append_assoc]

/-! ## The first place of a separator -/

theorem breakOn_eq {stream before after : List Atom}
    (found : breakOn separator stream = some (before, after)) :
    stream = before ++ (separator ++ after) := by
  induction stream generalizing before with
  | nil =>
      rw [breakOn] at found
      split at found
      next none =>
        cases found
        rw [none]
        rfl
      next => cases found
  | cons atom rest inductionHypothesis =>
      rw [breakOn] at found
      split at found
      next begins =>
        cases found
        rw [List.nil_append]
        exact (List.prefix_iff_eq_append.mp begins).symm
      next =>
        rcases Option.map_eq_some_iff.mp found with ⟨parts, later, same⟩
        cases same
        rw [List.cons_append, ← inductionHypothesis later]

theorem breakOn_isSome_iff {stream : List Atom} :
    (breakOn separator stream).isSome = true ↔ separator <:+: stream := by
  induction stream with
  | nil =>
      rw [breakOn, List.infix_nil]
      split
      next none => exact iff_of_true rfl none
      next some => exact iff_of_false Bool.false_ne_true some
  | cons atom rest inductionHypothesis =>
      rw [breakOn, List.infix_cons_iff]
      split
      next begins => exact iff_of_true rfl (Or.inl begins)
      next other =>
        rw [Option.isSome_map, inductionHypothesis]
        exact ⟨Or.inr, fun found => found.resolve_left other⟩

/-- More of the stream does not change where the separator has been found. -/
theorem breakOn_concat {stream before after : List Atom}
    (found : breakOn separator stream = some (before, after)) (more : List Atom) :
    breakOn separator (stream ++ more) = some (before, after ++ more) := by
  induction stream generalizing before with
  | nil =>
      rw [breakOn] at found
      split at found
      next none =>
        cases found
        subst none
        cases more with
        | nil => rfl
        | cons atom rest => rfl
      next => cases found
  | cons atom rest inductionHypothesis =>
      rw [List.cons_append, breakOn]
      rw [breakOn] at found
      split at found
      next begins =>
        cases found
        have longer : separator <+: atom :: (rest ++ more) :=
          begins.trans (List.prefix_append (atom :: rest) more)
        rw [if_pos longer, ← List.cons_append,
          List.drop_append_of_le_length begins.length_le]
      next other =>
        rcases Option.map_eq_some_iff.mp found with ⟨parts, later, same⟩
        cases same
        -- The separator fits into the rest, so it does not begin here and end later.
        have inside : separator <:+: rest :=
          breakOn_isSome_iff.mp (Option.isSome_iff_exists.mpr ⟨parts, later⟩)
        have absent : ¬ separator <+: atom :: (rest ++ more) := fun begins =>
          other (List.prefix_of_prefix_length_le begins
            (List.prefix_append (atom :: rest) more)
            (Nat.le_succ_of_le inside.length_le))
        rw [if_neg absent, inductionHypothesis later]
        rfl

/-- A buffer with the separator holds it where the whole stream has it. -/
theorem breakOn_of_readUntil {before after : List Atom} {whole : List Atom}
    {left : List (List Atom)} (first : breakOn separator whole = some (before, after))
    (found : separator <:+: buffer) (rest : buffer ++ left.flatten = whole) :
    ∃ extra, breakOn separator buffer = some (before, extra) ∧
      extra ++ left.flatten = after := by
  rcases Option.isSome_iff_exists.mp (breakOn_isSome_iff.mpr found) with ⟨⟨head, extra⟩, here⟩
  have longer := breakOn_concat here left.flatten
  rw [rest, first, Option.some.injEq, Prod.mk.injEq] at longer
  exact ⟨extra, longer.1 ▸ here, longer.2.symm⟩

end Delivery
end LearnAsio
