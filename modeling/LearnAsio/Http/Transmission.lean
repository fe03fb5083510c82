import LearnAsio.Http.Leak

namespace LearnAsio
namespace Http

open Transition

/-!
# How much of a response is sent

`handle_read` hands the buffers of a response to `async_write_some` once.  The
socket takes a non-empty part of them and reports its length, which the bound
`handle_write` does not even receive: it shuts the socket down either way.

The bad-request reply adds a second way to go wrong.  Its buffers point into a
temporary that is destroyed before the write takes place, so the socket may find
other bytes there.
-/

variable {env : Env}

/-- The bytes that were in the buffers when `handle_read` took them have all
been accepted by the socket. -/
def FullyDelivered (connection : Connection env) (buffers : Buffers) : Prop :=
  connection.accepted = buffers.whole

instance (connection : Connection env) (buffers : Buffers) :
    Decidable (FullyDelivered connection buffers) :=
  inferInstanceAs (Decidable (connection.accepted = buffers.whole))

/-- The single write took everything and found what had been put there. -/
def TakenWhole (connection : Connection env) (buffers : Buffers) (count : Nat) : Prop :=
  count = buffers.whole.length ∧
    (buffers.storage = .response ∨ connection.memory = buffers.whole)

/-- What is known of a write that has succeeded decides whether it was
complete. -/
theorem Connection.Sending.delivered_iff {connection : Connection env} {buffers : Buffers}
    {completion : Completion} (sending : connection.Sending buffers (some completion))
    (success : completion.ec = .success) :
    FullyDelivered connection buffers ↔
      TakenWhole connection buffers completion.bytesTransferred := by
  rcases sending.2 success with ⟨sameLength, bound, accepted, intact⟩
  unfold FullyDelivered TakenWhole
  rw [accepted]
  constructor
  · intro whole
    have count : completion.bytesTransferred = buffers.whole.length := by
      have lengths := congrArg List.length whole
      rw [List.length_take, sameLength, Nat.min_eq_left bound] at lengths
      exact lengths
    rw [count, ← sameLength, List.take_length] at whole
    exact ⟨count, Or.inr whole⟩
  · rintro ⟨count, found⟩
    have memory : connection.memory = buffers.whole := by
      rcases found with stored | same
      · exact intact stored
      · exact same
    rw [memory, count, List.take_length]

/-- When `handle_write` runs with no error and shuts the socket down, the
response chosen by `handle_read` has been delivered exactly when the one write
took it whole. -/
theorem handleWrite_delivered_iff {server next : Server env}
    (reached : (Server.machine env).Reachable server) {id index count : Nat} {throws : Bool}
    {buffers : Buffers}
    (listed : (server.connection id).operations[index]? = some
      { kind := .writeSome buffers
        completion := some { ec := .success, bytesTransferred := count } })
    (step : (Server.machine env).step server (.handleWrite id index throws) = some next)
    (running : next.status = .running) :
    buffers.Taken env ∧
      (buffers.storage = .response → (next.connection id).response = buffers.source) ∧
      (next.connection id).log = (server.connection id).log ++ [.shutdown] ∧
      (FullyDelivered (next.connection id) buffers ↔
        TakenWhole (server.connection id) buffers count) := by
  rcases moves_of_step step with ⟨before, moved⟩
  have invariant := sound_of_reachable reached before
  rcases ((invariant.orderly id).listed listed).2.2 with ⟨taken, sending⟩
  cases moved with
  | handleWrite found =>
      rw [listed] at found
      cases found
      rcases (server.update id fun connection => connection.dequeue index).handleWrite_cases
        id { ec := .success, bytesTransferred := count } throws with
        ⟨_, same⟩ | ⟨_, failed, _⟩ | ⟨_, _, same⟩
      · rw [same] at running
        cases running
      · cases failed
      · rw [same, Server.update_connection_self, Server.update_connection_self]
        exact ⟨taken, sending.1, rfl, sending.delivered_iff rfl⟩

/-! ### Two writes of the same response -/

/-- The queued completion of a write that took the first bytes. -/
def shortReplyTaken (count : Nat) : Operation :=
  { kind := .writeSome shortReply
    completion := some { ec := .success, bytesTransferred := count } }

/-- A socket that takes the whole response delivers it. -/
theorem servedOnce_delivered : ∃ server next : Server shortRequestEnv,
    (Server.machine shortRequestEnv).Reachable server ∧
      (Server.machine shortRequestEnv).step server (.handleWrite 0 0 false) = some next ∧
      FullyDelivered (next.connection 0) shortReply := by
  have outcome : ((Server.machine shortRequestEnv).run (Server.machine shortRequestEnv).initial
      servedOnce).map Server.status = some .running := by decide +kernel
  have queued : ((Server.machine shortRequestEnv).run (Server.machine shortRequestEnv).initial
      (servedBytes shortReply.whole.length)).map
        (fun server => (server.connection 0).operations[0]?) =
      some (some (shortReplyTaken shortReply.whole.length)) := by decide +kernel
  rcases Option.map_eq_some_iff.mp outcome with ⟨next, steps, running⟩
  rcases (Server.machine shortRequestEnv).run_concat_eq_some.mp steps with ⟨server, arrived, step⟩
  rw [arrived, Option.map_some, Option.some.injEq] at queued
  have reached : (Server.machine shortRequestEnv).Reachable server := ⟨_, arrived⟩
  refine ⟨server, next, reached, step, ?_⟩
  exact (handleWrite_delivered_iff reached queued step running).2.2.2.mpr ⟨rfl, Or.inl rfl⟩

/-- A socket that takes one byte of it and reports success leaves the rest
unsent, and the connection shuts down all the same. -/
theorem servedBytes_one_not_delivered : ∃ server next : Server shortRequestEnv,
    (Server.machine shortRequestEnv).Reachable server ∧
      (server.connection 0).operations[0]? = some (shortReplyTaken 1) ∧
      (Server.machine shortRequestEnv).step server (.handleWrite 0 0 false) = some next ∧
      next.status = .running ∧ .shutdown ∈ (next.connection 0).log ∧
      ¬ FullyDelivered (next.connection 0) shortReply := by
  have outcome : ((Server.machine shortRequestEnv).run (Server.machine shortRequestEnv).initial
      (servedBytes 1 ++ [.handleWrite 0 0 false])).map (fun next =>
        decide (next.status = .running ∧ .shutdown ∈ (next.connection 0).log ∧
          ¬ FullyDelivered (next.connection 0) shortReply)) = some true := by decide +kernel
  have queued : ((Server.machine shortRequestEnv).run (Server.machine shortRequestEnv).initial
      (servedBytes 1)).map (fun server => (server.connection 0).operations[0]?) =
      some (some (shortReplyTaken 1)) := by decide +kernel
  rcases Option.map_eq_some_iff.mp outcome with ⟨next, steps, unsent⟩
  rcases (Server.machine shortRequestEnv).run_concat_eq_some.mp steps with ⟨server, arrived, step⟩
  rw [arrived, Option.map_some, Option.some.injEq] at queued
  exact ⟨server, next, ⟨_, arrived⟩, queued, step, of_decide_eq_true unsent⟩

end Http
end LearnAsio
