import LearnAsio.Http.Segmentation

namespace LearnAsio
namespace Http

/-!
# The status of successive calls

`parse` writes its status in two places: `on_message_complete` inside
`http_parser_execute`, and the error check after it.  The status is a member and
survives the call, while the parser never reads it.  It is nevertheless a
function of the bytes given so far: of the errors that the library has reported
and of the completions that it has signalled.
-/

/-- The order in which a status can be reached. -/
def MessageStatus.rank : MessageStatus → Nat
  | .wantMore => 0
  | .complete => 1
  | .faild => 2

namespace HttpMessage

variable {library : HttpParser}

/-- Some call has ended with an error of the parser. -/
def Reported (library : HttpParser) (pieces : List Bytes) : Prop :=
  ∃ part, part <+: pieces ∧ (library.fields (library.after library.init part)).httpErrno ≠ hpeOk

/-- `on_message_complete` has fired. -/
def Fired (library : HttpParser) (pieces : List Bytes) : Prop :=
  .signal .messageComplete ∈ library.callbacks library.init pieces

/-- The status that the law gives to the last of these calls. -/
inductive Owed (library : HttpParser) (pieces : List Bytes) : MessageStatus → Prop
  | faild (reported : Reported library pieces) : Owed library pieces .faild
  | complete (healthy : ¬ Reported library pieces) (fired : Fired library pieces) :
      Owed library pieces .complete
  | wantMore (healthy : ¬ Reported library pieces) (unfired : ¬ Fired library pieces) :
      Owed library pieces .wantMore

/-! ## The error of the parser -/

/-- After an error the parser stays where it is and calls nothing. -/
theorem after_of_error {part : List Bytes}
    (failed : (library.fields (library.after library.init part)).httpErrno ≠ hpeOk)
    (later : List Bytes) :
    library.after library.init (part ++ later) = library.after library.init part := by
  induction later using List.reverseRecOn with
  | nil => rw [List.append_nil]
  | append_singleton rest data inductionHypothesis =>
      rw [← inductionHypothesis] at failed
      rw [← List.append_assoc, (execute_of_error failed data).2, inductionHypothesis]

/-- An error is reported again by every later call. -/
theorem reported_iff (pieces : List Bytes) :
    Reported library pieces ↔
      (library.fields (library.after library.init pieces)).httpErrno ≠ hpeOk := by
  constructor
  · rintro ⟨part, ⟨later, rfl⟩, failed⟩
    rw [after_of_error failed]
    exact failed
  · intro failed
    exact ⟨pieces, List.prefix_refl pieces, failed⟩

theorem Reported.append {earlier : List Bytes} (reported : Reported library earlier)
    (later : List Bytes) : Reported library (earlier ++ later) := by
  rcases reported with ⟨part, isPrefix, failed⟩
  exact ⟨part, isPrefix.trans (List.prefix_append _ _), failed⟩

theorem Fired.append {earlier : List Bytes} (fired : Fired library earlier) (later : List Bytes) :
    Fired library (earlier ++ later) := by
  rw [Fired, HttpParser.callbacks_append]
  exact List.mem_append_left _ fired

end HttpMessage

/-! ## The status of the object -/

/-- What the end of `parse` does to the status. -/
theorem Fields.conclude_messageStatus (message : Fields) (parser : ParserFields) :
    (message.conclude parser).messageStatus =
      if parser.httpErrno ≠ hpeOk then .faild else message.messageStatus := by
  by_cases healthy : parser.httpErrno = hpeOk
  · rw [if_neg (not_not.mpr healthy)]
    by_cases complete : message.messageStatus = .complete
    · rw [conclude_of_complete message healthy complete]
      rfl
    · rw [conclude_of_incomplete message parser complete, markError_of_ok message healthy]
  · rw [conclude_of_error message healthy, if_pos healthy]

/-- What the callbacks of one call do to the status. -/
theorem Fields.foldl_messageStatus (message : Fields) (calls : List Callback) :
    (calls.foldl handle message).messageStatus =
      if .signal .messageComplete ∈ calls then .complete else message.messageStatus := by
  split
  · next present => exact foldl_handle_complete message calls present
  · next absent => exact foldl_handle_messageStatus message calls absent

namespace HttpMessage

variable {library : HttpParser}

/-- The object keeps the status that is owed to the calls made so far. -/
theorem owed_feed (library : HttpParser) (pieces : List Bytes) :
    Owed library pieces ((fresh library).feed pieces).messageStatus := by
  induction pieces using List.reverseRecOn with
  | nil =>
      refine .wantMore ?_ List.not_mem_nil
      rw [reported_iff, not_not]
      exact congrArg ParserFields.httpErrno library.init_fields
  | append_singleton earlier data inductionHypothesis =>
      rw [parse_feed, Fields.conclude_messageStatus, Fields.foldl_messageStatus]
      by_cases healthy : (library.fields
          (library.after library.init (earlier ++ [data]))).httpErrno = hpeOk
      · have unreported : ¬ Reported library (earlier ++ [data]) := by
          rw [reported_iff, not_not]
          exact healthy
        have unreportedBefore : ¬ Reported library earlier :=
          fun reported => unreported (reported.append [data])
        have fired_iff : Fired library (earlier ++ [data]) ↔ Fired library earlier ∨
            .signal .messageComplete ∈
              (library.execute (library.after library.init earlier) data).2 := by
          rw [Fired, HttpParser.callbacks_append, List.mem_append]
          simp only [HttpParser.callbacks, List.append_nil]
          rfl
        rw [if_neg (not_not.mpr healthy)]
        split
        · next present => exact .complete unreported (fired_iff.mpr (Or.inr present))
        · next absent =>
            generalize ((fresh library).feed earlier).messageStatus = kept at inductionHypothesis ⊢
            cases inductionHypothesis with
            | faild reported => exact absurd reported unreportedBefore
            | complete _ fired => exact .complete unreported (fired_iff.mpr (Or.inl fired))
            | wantMore _ unfired =>
                refine .wantMore unreported fun fired => ?_
                rcases fired_iff.mp fired with before | now
                · exact unfired before
                · exact absent now
      · rw [if_pos healthy]
        exact .faild ((reported_iff _).mpr healthy)

/-- A call returns the status that the object keeps. -/
theorem parse_feed_messageStatus (earlier : List Bytes) (data : Bytes) :
    (((fresh library).feed earlier).parse data).2 =
      ((fresh library).feed (earlier ++ [data])).messageStatus := by
  rw [feed_append, feed_singleton]
  rfl

/-- More calls owe a status of at least the same rank. -/
theorem Owed.rank_le {earlier later : List Bytes} {before after : MessageStatus}
    (first : Owed library earlier before) (second : Owed library (earlier ++ later) after) :
    before.rank ≤ after.rank := by
  cases first with
  | wantMore _ _ => exact Nat.zero_le _
  | complete _ fired =>
      cases second with
      | faild _ => decide
      | complete _ _ => decide
      | wantMore _ unfired => exact absurd (fired.append later) unfired
  | faild reported =>
      cases second with
      | faild _ => decide
      | complete healthy _ => exact absurd (reported.append later) healthy
      | wantMore healthy _ => exact absurd (reported.append later) healthy

/-- Every later call returns at least the status that is owed to the calls made
so far. -/
theorem rank_le_of_mem_statuses {earlier later : List Bytes} {status : MessageStatus}
    (listed : status ∈ ((fresh library).feed earlier).statuses later) :
    ((fresh library).feed earlier).messageStatus.rank ≤ status.rank := by
  induction later generalizing earlier with
  | nil => cases listed
  | cons data rest inductionHypothesis =>
      have step := (owed_feed library earlier).rank_le (owed_feed library (earlier ++ [data]))
      rw [statuses, parse_feed_messageStatus, ← feed_singleton, ← feed_append,
        List.mem_cons] at listed
      rcases listed with here | later
      · rw [here]
        exact step
      · exact Nat.le_trans step (inductionHypothesis later)

theorem statuses_pairwise (earlier later : List Bytes) :
    (((fresh library).feed earlier).statuses later).Pairwise
      fun first second => first.rank ≤ second.rank := by
  induction later generalizing earlier with
  | nil => exact List.Pairwise.nil
  | cons data rest inductionHypothesis =>
      rw [statuses, parse_feed_messageStatus, ← feed_singleton, ← feed_append]
      apply List.Pairwise.cons
      · intro status listed
        exact rank_le_of_mem_statuses listed
      · exact inductionHypothesis (earlier ++ [data])

/-- After an error nothing changes any more. -/
theorem feed_of_faild {earlier : List Bytes}
    (faild : ((fresh library).feed earlier).messageStatus = .faild) (later : List Bytes) :
    ((fresh library).feed (earlier ++ later)).toFields =
      ((fresh library).feed earlier).toFields := by
  have failed : (library.fields (library.after library.init earlier)).httpErrno ≠ hpeOk := by
    have owed := owed_feed library earlier
    rw [faild] at owed
    cases owed with
    | faild reported => exact (reported_iff earlier).mp reported
  induction later using List.reverseRecOn with
  | nil => rw [List.append_nil]
  | append_singleton rest data inductionHypothesis =>
      have still := failed
      rw [← after_of_error failed rest] at still
      rw [← List.append_assoc, parse_feed, (execute_of_error still data).1,
        (execute_of_error still data).2, List.foldl_nil, Fields.conclude_of_error _ still,
        inductionHypothesis, ← faild]

/-! ## The law -/

/-- The law of the status: what each call returns, in which order the statuses
can follow each other, and that a failure is final. -/
structure StatusLaw (library : HttpParser) : Prop where
  returned : ∀ earlier data, Owed library (earlier ++ [data])
    (((fresh library).feed earlier).parse data).2
  forward : ∀ pieces, ((fresh library).statuses pieces).Pairwise
    fun first second => first.rank ≤ second.rank
  frozen : ∀ earlier data later, (((fresh library).feed earlier).parse data).2 = .faild →
    ((fresh library).feed (earlier ++ [data] ++ later)).toPublicFields =
      ((fresh library).feed (earlier ++ [data])).toPublicFields

/-- Every parser library gives rise to the law. -/
theorem statusLaw (library : HttpParser) : StatusLaw library where
  returned := by
    intro earlier data
    rw [parse_feed_messageStatus]
    exact owed_feed library (earlier ++ [data])
  forward := statuses_pairwise []
  frozen := by
    intro earlier data later faild
    rw [parse_feed_messageStatus] at faild
    exact congrArg Fields.toPublicFields (feed_of_faild faild later)

end HttpMessage
end Http
end LearnAsio
