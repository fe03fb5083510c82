import LearnAsio.Asio
import LearnAsio.Delivery.Lines

namespace LearnAsio
namespace Delivery

/-!
# Formatted input

A `std::istream` reads words, numbers and lines off a buffer.  It remembers
whether it has come to the end of the buffer and whether an extraction has
failed, and after either it extracts nothing any more.

All of its operations are local: an extraction that has not come to the end does
not depend on what the buffer holds behind the place where it stopped.
-/

/-- A stream over a buffer: what has not been extracted, `eofbit` and
`failbit`. -/
structure Istream where
  rest : Bytes
  eof : Bool := false
  fail : Bool := false
  deriving DecidableEq, Repr

/-- `std::isspace` in the classic locale. -/
def isSpace (byte : UInt8) : Bool := byte = 32 || (9 ≤ byte && byte ≤ 13)

def isDigit (byte : UInt8) : Bool := 48 ≤ byte && byte ≤ 57

/-- The value of a row of digits. -/
def ofDigits (digits : Bytes) : Nat :=
  digits.foldl (fun value digit => 10 * value + (digit.toNat - 48)) 0

/-- The sign in front of a number, and what follows it. -/
def signed : Bytes → Bool × Bytes
  | [] => (false, [])
  | first :: rest =>
      if first = 45 then (true, rest) else if first = 43 then (false, rest)
      else (false, first :: rest)

/-- The value that is stored in an `int`, and whether the extraction fails. -/
def ranged (negative : Bool) (digits : Bytes) : Int × Bool :=
  let value : Int := if negative then -ofDigits digits else ofDigits digits
  if digits = [] then (0, true)
  else if value < -2147483648 then (-2147483648, true)
  else if 2147483647 < value then (2147483647, true)
  else (value, false)

namespace Istream

def good (stream : Istream) : Bool := !stream.eof && !stream.fail

/-- The sentry of an extraction: it fails on a stream that is not good, skips, and
fails if nothing is left then. -/
def sentry {Value : Type} (skips : UInt8 → Bool) (untouched : Value)
    (extract : Bytes → Value × Istream) (stream : Istream) : Value × Istream :=
  if stream.good = false then (untouched, { stream with fail := true })
  else if stream.rest.dropWhile skips = [] then
    (untouched, { rest := [], eof := true, fail := true })
  else extract (stream.rest.dropWhile skips)

def takeWord (text : Bytes) : Bytes × Istream :=
  let after := text.dropWhile fun byte => !isSpace byte
  (text.takeWhile fun byte => !isSpace byte, { rest := after, eof := after.isEmpty })

def takeInt (text : Bytes) : Option Int × Istream :=
  let (negative, unsigned) := signed text
  let (value, fails) := ranged negative (unsigned.takeWhile isDigit)
  let after := unsigned.dropWhile isDigit
  (some value, { rest := after, eof := after.isEmpty, fail := fails })

def takeLine (delimiter : UInt8) (text : Bytes) : Bytes × Istream :=
  if delimiter ∈ text then (firstLine delimiter text, { rest := afterLine delimiter text })
  else (text, { rest := [], eof := true })

/-- `operator>>` into an empty string. -/
def word : Istream → Bytes × Istream := sentry isSpace [] takeWord

/-- `operator>>` into an `int`, which is left alone when nothing is tried. -/
def int : Istream → Option Int × Istream := sentry isSpace none takeInt

/-- `std::getline` into an empty string, which skips nothing. -/
def getline (delimiter : UInt8) : Istream → Bytes × Istream :=
  sentry (fun _ => false) [] (takeLine delimiter)

/-- More bytes come to the buffer. -/
def commit (stream : Istream) (more : Bytes) : Istream :=
  { stream with rest := stream.rest ++ more }

/-- The extraction does not depend on what comes behind it. -/
def Local {Value : Type} (extract : Istream → Value × Istream) : Prop :=
  ∀ stream more, (extract stream).2.eof = false →
    stream.eof = false ∧
      extract (stream.commit more) = ((extract stream).1, (extract stream).2.commit more)

/-- One extraction after another. -/
def andThen {Value Other : Type} (first : Istream → Value × Istream)
    (second : Istream → Other × Istream) (stream : Istream) : (Value × Other) × Istream :=
  let (value, stream) := first stream
  let (other, stream) := second stream
  ((value, other), stream)

theorem Local.andThen {Value Other : Type} {first : Istream → Value × Istream}
    {second : Istream → Other × Istream} (one : Local first) (two : Local second) :
    Local (andThen first second) := by
  intro stream more inside
  rcases two (first stream).2 more inside with ⟨before, later⟩
  rcases one stream more before with ⟨start, same⟩
  refine ⟨start, ?_⟩
  simp only [Istream.andThen, same, later]

/-! ## Each extraction is local -/

/-- A scan that stops inside the text stops there in any longer text. -/
theorem scan_append {passes : UInt8 → Bool} {text : Bytes} (stops : text.dropWhile passes ≠ [])
    (more : Bytes) : (text ++ more).takeWhile passes = text.takeWhile passes ∧
      (text ++ more).dropWhile passes = text.dropWhile passes ++ more := by
  induction text with
  | nil => exact absurd rfl stops
  | cons byte rest inductionHypothesis =>
      cases passed : passes byte with
      | true =>
          rw [List.dropWhile_cons_of_pos passed] at stops
          rcases inductionHypothesis stops with ⟨taken, dropped⟩
          rw [List.cons_append, List.takeWhile_cons_of_pos passed,
            List.takeWhile_cons_of_pos passed, List.dropWhile_cons_of_pos passed,
            List.dropWhile_cons_of_pos passed, taken]
          exact ⟨rfl, dropped⟩
      | false =>
          have stopped : ¬ passes byte = true := Bool.eq_false_iff.mp passed
          rw [List.cons_append, List.takeWhile_cons_of_neg stopped,
            List.takeWhile_cons_of_neg stopped, List.dropWhile_cons_of_neg stopped,
            List.dropWhile_cons_of_neg stopped]
          exact ⟨rfl, rfl⟩

/-- A sentry makes an extraction local that is local on what it is given. -/
theorem local_sentry {Value : Type} (skips : UInt8 → Bool) (untouched : Value)
    {extract : Bytes → Value × Istream}
    (here : ∀ text more, text ≠ [] → (extract text).2.eof = false →
      extract (text ++ more) = ((extract text).1, (extract text).2.commit more)) :
    Local (sentry skips untouched extract) := by
  intro stream more inside
  have same : (stream.commit more).good = stream.good := rfl
  unfold sentry at inside ⊢
  rw [same]
  cases good : stream.good with
  | false =>
      rw [good, if_pos rfl] at inside
      rw [if_pos rfl, if_pos rfl]
      exact ⟨inside, rfl⟩
  | true =>
      have unfailed : ¬ true = false := Bool.noConfusion
      rw [good, if_neg unfailed] at inside
      rw [if_neg unfailed, if_neg unfailed]
      have going : stream.eof = false ∧ stream.fail = false := by
        rwa [Istream.good, Bool.and_eq_true, Bool.not_eq_true', Bool.not_eq_true'] at good
      refine ⟨going.1, ?_⟩
      by_cases blank : stream.rest.dropWhile skips = []
      · rw [if_pos blank] at inside
        cases inside
      · rw [if_neg blank] at inside
        have skipped := (scan_append blank more).2
        have longer : ¬ (stream.commit more).rest.dropWhile skips = [] := by
          rw [commit, skipped]
          exact List.append_ne_nil_of_left_ne_nil blank _
        rw [if_neg longer, if_neg blank]
        have extended : (stream.commit more).rest.dropWhile skips =
            stream.rest.dropWhile skips ++ more := skipped
        exact (congrArg extract extended).trans (here _ more blank inside)

/-- A scan that has not come to the end has stopped before it. -/
theorem ne_nil_of_isEmpty_eq_false {text : Bytes} (inside : text.isEmpty = false) : text ≠ [] := by
  intro none
  rw [none] at inside
  cases inside

theorem isEmpty_append {text : Bytes} (filled : text ≠ []) (more : Bytes) :
    (text ++ more).isEmpty = text.isEmpty := by
  cases text with
  | nil => exact absurd rfl filled
  | cons _ _ => rfl

theorem local_word : Local word := by
  refine local_sentry _ _ fun text more _ inside => ?_
  have stops : text.dropWhile (fun byte => !isSpace byte) ≠ [] :=
    ne_nil_of_isEmpty_eq_false inside
  rcases scan_append stops more with ⟨taken, dropped⟩
  simp only [takeWord, taken, dropped, isEmpty_append stops, commit]

theorem signed_append {text : Bytes} (filled : text ≠ []) (more : Bytes) :
    signed (text ++ more) = ((signed text).1, (signed text).2 ++ more) := by
  cases text with
  | nil => exact absurd rfl filled
  | cons first rest =>
      rw [List.cons_append, signed, signed]
      split
      · rfl
      · split <;> rfl

theorem local_int : Local int := by
  refine local_sentry _ _ fun text more filled inside => ?_
  have stops : (signed text).2.dropWhile isDigit ≠ [] := ne_nil_of_isEmpty_eq_false inside
  rcases scan_append stops more with ⟨taken, dropped⟩
  simp only [takeInt, signed_append filled, taken, dropped, isEmpty_append stops, commit]

theorem local_getline (delimiter : UInt8) : Local (getline delimiter) := by
  refine local_sentry _ _ fun text more _ inside => ?_
  by_cases ended : delimiter ∈ text
  · rcases List.eq_append_cons_of_mem ended with ⟨line, rest, whole, clean⟩
    have longer : text ++ more = line ++ delimiter :: (rest ++ more) := by
      rw [whole, List.append_assoc]
      rfl
    rw [takeLine, if_pos (List.mem_append_left _ ended), takeLine, if_pos ended, longer, whole,
      firstLine_append clean, firstLine_append clean, afterLine_append clean,
      afterLine_append clean]
    rfl
  · rw [takeLine, if_neg ended] at inside
    cases inside

end Istream
end Delivery
end LearnAsio
