import Mathlib.Data.List.Induction
import Mathlib.Data.List.TakeWhile
import Mathlib.Tactic.Common

namespace LearnAsio
namespace Delivery

universe u

/-!
# Lines of a delimited stream

A line ends with a delimiter.  What follows the last delimiter is not a line
yet.
-/

variable {Atom : Type u} [DecidableEq Atom] (delimiter : Atom)

/-- Everything before the first delimiter. -/
def firstLine (stream : List Atom) : List Atom :=
  stream.takeWhile fun atom => atom ≠ delimiter

/-- Everything after the first delimiter. -/
def afterLine (stream : List Atom) : List Atom :=
  (stream.dropWhile fun atom => atom ≠ delimiter).tail

/-- The lines that the stream has completed. -/
def completeLines : List Atom → List (List Atom)
  | [] => []
  | atom :: rest =>
      if atom = delimiter then [] :: completeLines rest
      else
        match completeLines rest with
        | [] => []
        | line :: more => (atom :: line) :: more

variable {delimiter}

/-- A stream with a delimiter consists of its first line and of what follows. -/
theorem completeLines_of_mem {stream : List Atom} (ended : delimiter ∈ stream) :
    completeLines delimiter stream =
      firstLine delimiter stream :: completeLines delimiter (afterLine delimiter stream) := by
  induction stream with
  | nil => cases ended
  | cons atom rest inductionHypothesis =>
      by_cases here : atom = delimiter
      · have first : firstLine delimiter (atom :: rest) = [] :=
          List.takeWhile_cons_of_neg (by simpa using here)
        have after : afterLine delimiter (atom :: rest) = rest := by
          rw [afterLine, List.dropWhile_cons_of_neg (by simpa using here), List.tail_cons]
        rw [completeLines, if_pos here, first, after]
      · have first : firstLine delimiter (atom :: rest) = atom :: firstLine delimiter rest :=
          List.takeWhile_cons_of_pos (by simpa using here)
        have after : afterLine delimiter (atom :: rest) = afterLine delimiter rest := by
          rw [afterLine, List.dropWhile_cons_of_pos (by simpa using here)]
          rfl
        have later := inductionHypothesis ((List.mem_cons.mp ended).resolve_left (Ne.symm here))
        rw [completeLines, if_neg here, later, first, after]

/-! ## Putting lines together -/

theorem notMem_firstLine (stream : List Atom) : delimiter ∉ firstLine delimiter stream := by
  intro found
  have kept := List.mem_takeWhile_imp found
  simp at kept

/-- The first line of a stream that begins with a line. -/
theorem firstLine_append {line : List Atom} (clean : delimiter ∉ line) (rest : List Atom) :
    firstLine delimiter (line ++ delimiter :: rest) = line := by
  have passes : ∀ atom ∈ line, decide (atom ≠ delimiter) = true := by
    intro atom found
    exact decide_eq_true fun same => clean (same ▸ found)
  rw [firstLine, List.takeWhile_append_of_pos passes, List.takeWhile_cons_of_neg (by simp),
    List.append_nil]

theorem afterLine_append {line : List Atom} (clean : delimiter ∉ line) (rest : List Atom) :
    afterLine delimiter (line ++ delimiter :: rest) = rest := by
  have passes : ∀ atom ∈ line, decide (atom ≠ delimiter) = true := by
    intro atom found
    exact decide_eq_true fun same => clean (same ▸ found)
  rw [afterLine, List.dropWhile_append_of_pos passes, List.dropWhile_cons_of_neg (by simp),
    List.tail_cons]

theorem firstLine_append_afterLine {stream : List Atom} (ended : delimiter ∈ stream) :
    firstLine delimiter stream ++ delimiter :: afterLine delimiter stream = stream := by
  rcases List.eq_append_cons_of_mem ended with ⟨line, rest, whole, clean⟩
  rw [whole, firstLine_append clean, afterLine_append clean]

variable (delimiter) in
/-- The stream that consists of some lines. -/
def ofLines (lines : List (List Atom)) : List Atom :=
  lines.flatMap fun line => line ++ [delimiter]

omit [DecidableEq Atom] in
theorem ofLines_concat (lines : List (List Atom)) (line rest : List Atom) :
    ofLines delimiter (lines ++ [line]) ++ rest =
      ofLines delimiter lines ++ (line ++ delimiter :: rest) := by
  rw [ofLines, List.flatMap_append, List.flatMap_singleton, List.append_assoc, List.append_assoc]
  rfl

/-- Lines put together are found again. -/
theorem completeLines_ofLines {lines : List (List Atom)}
    (clean : ∀ line ∈ lines, delimiter ∉ line) (rest : List Atom) :
    completeLines delimiter (ofLines delimiter lines ++ rest) =
      lines ++ completeLines delimiter rest := by
  induction lines with
  | nil => rfl
  | cons line more inductionHypothesis =>
      rcases List.forall_mem_cons.mp clean with ⟨here, later⟩
      have shape : ofLines delimiter (line :: more) ++ rest =
          line ++ delimiter :: (ofLines delimiter more ++ rest) := by
        rw [ofLines, List.flatMap_cons, List.append_assoc, List.append_assoc]
        rfl
      have ended : delimiter ∈ line ++ delimiter :: (ofLines delimiter more ++ rest) :=
        List.mem_append_right _ List.mem_cons_self
      rw [shape, completeLines_of_mem ended, firstLine_append here, afterLine_append here,
        inductionHypothesis later]
      rfl

/-- What follows the first line is shorter than the stream. -/
theorem length_afterLine_lt {stream : List Atom} (filled : stream ≠ []) :
    (afterLine delimiter stream).length < stream.length := by
  have shorter := (List.dropWhile_suffix (l := stream) fun atom => atom ≠ delimiter).length_le
  have positive := List.length_pos_iff.mpr filled
  rw [afterLine, List.length_tail]
  omega

/-! ## Messages as lines

A reader who splits a stream at the delimiter is to find the messages that a
sender has put together.  Here a message has no delimiter before its end. -/

/-- Without a delimiter no line is complete. -/
theorem completeLines_of_notMem {stream : List Atom} (absent : delimiter ∉ stream) :
    completeLines delimiter stream = [] := by
  induction stream with
  | nil => rfl
  | cons atom rest inductionHypothesis =>
      have different : atom ≠ delimiter := Ne.symm (List.ne_of_not_mem_cons absent)
      rw [completeLines, if_neg different,
        inductionHypothesis (List.not_mem_of_not_mem_cons absent)]

/-- A message with a delimiter is one line. -/
theorem firstLine_concat {message : List Atom} (trailing : delimiter ∉ message.dropLast)
    (ended : delimiter ∈ message) : firstLine delimiter message ++ [delimiter] = message := by
  have whole := firstLine_append_afterLine ended
  cases shape : afterLine delimiter message with
  | nil => rwa [shape] at whole
  | cons atom rest =>
      rw [shape] at whole
      refine absurd ?_ trailing
      rw [← whole, List.dropLast_append_of_ne_nil (List.cons_ne_nil _ _)]
      exact List.mem_append_right _ List.mem_cons_self

omit [DecidableEq Atom] in
/-- The delimiter arrives with the last part of a message. -/
theorem notMem_of_proper_prefix {message part : List Atom}
    (trailing : delimiter ∉ message.dropLast) (begins : part <+: message)
    (unfinished : part ≠ message) : delimiter ∉ part := by
  rcases begins with ⟨rest, whole⟩
  subst whole
  have more : rest ≠ [] := by
    intro none
    rw [none, List.append_nil] at unfinished
    exact unfinished rfl
  rw [List.dropLast_append_of_ne_nil more] at trailing
  exact fun found => trailing (List.mem_append_left _ found)

/-- Messages that are lines are found again. -/
theorem completeLines_flatten {messages : List (List Atom)}
    (lines : ∀ message ∈ messages, firstLine delimiter message ++ [delimiter] = message)
    (rest : List Atom) :
    completeLines delimiter (messages.flatten ++ rest) =
      messages.map (firstLine delimiter) ++ completeLines delimiter rest := by
  have whole : ofLines delimiter (messages.map (firstLine delimiter)) = messages.flatten := by
    rw [ofLines, List.flatMap_map, List.flatMap_def, List.map_congr_left lines, List.map_id']
  rw [← whole, completeLines_ofLines]
  intro line listed
  rcases List.mem_map.mp listed with ⟨message, _, rfl⟩
  exact notMem_firstLine message

/-- A reader finds exactly the messages, however many of them have arrived, only
if each of them ends with the delimiter. -/
theorem forall_mem_of_completeLines {messages : List (List Atom)}
    (trailing : ∀ message ∈ messages, delimiter ∉ message.dropLast)
    (recovered : ∀ arrived, arrived <+: messages →
      completeLines delimiter arrived.flatten = arrived.map (firstLine delimiter)) :
    ∀ message ∈ messages, delimiter ∈ message := by
  induction messages using List.reverseRecOn with
  | nil => exact fun _ listed => absurd listed List.not_mem_nil
  | append_singleton earlier last inductionHypothesis =>
      rw [List.forall_mem_append] at trailing ⊢
      have ended := inductionHypothesis trailing.1 fun arrived begins =>
        recovered arrived (begins.trans (List.prefix_append _ _))
      refine ⟨ended, List.forall_mem_singleton.mpr ?_⟩
      by_contra absent
      have lines := completeLines_flatten (fun message listed =>
        firstLine_concat (trailing.1 message listed) (ended message listed)) last
      have all := recovered (earlier ++ [last]) List.prefix_rfl
      rw [List.flatten_append, List.flatten_singleton, lines, completeLines_of_notMem absent,
        List.map_append] at all
      cases List.append_cancel_left all

/-! ## Separators -/

/-- Split a stream at the first place where a separator begins. -/
def breakOn (separator : List Atom) : List Atom → Option (List Atom × List Atom)
  | [] => if separator = [] then some ([], []) else none
  | atom :: rest =>
      if separator <+: atom :: rest then some ([], (atom :: rest).drop separator.length)
      else (breakOn separator rest).map fun parts => (atom :: parts.1, parts.2)

/-- A text without the separator's first atom is read up to the separator. -/
theorem breakOn_append {first : Atom} {text : List Atom} (absent : first ∉ text)
    (more rest : List Atom) :
    breakOn (first :: more) (text ++ (first :: more ++ rest)) = some (text, rest) := by
  induction text with
  | nil =>
      rw [List.nil_append, List.cons_append, breakOn, if_pos, ← List.cons_append,
        List.drop_left]
      exact ⟨rest, List.cons_append⟩
  | cons atom others inductionHypothesis =>
      have different : first ≠ atom := List.ne_of_not_mem_cons absent
      have later : first ∉ others := List.not_mem_of_not_mem_cons absent
      rw [List.cons_append, breakOn, if_neg, inductionHypothesis later]
      · rfl
      · exact fun begins => different (List.cons_prefix_cons.mp begins).1

end Delivery
end LearnAsio
