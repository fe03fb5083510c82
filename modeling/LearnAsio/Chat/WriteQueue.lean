import LearnAsio.Chat.Membership

namespace LearnAsio
namespace Chat

open Queue Transition

/-!
# The write queue of a chat session

Broadcasts, echoes and the welcome are all posted to one queue per session, at
any time.  The invariant has the laws of a queue in one state.  Here it is shown
that only the session's own `on_write` takes the front away, so the message stays
in place for as long as its write is outstanding.
-/

/-- The event runs the session's `on_write`. -/
def Event.IsOnWrite (id : Nat) : Event → Prop
  | .onWrite other _ _ => other = id
  | _ => False

/-- What the session is writing is still being written. -/
def Holds (id : Nat) (before after : Server) : Prop :=
  (before.session id).writer.writing ⊆ (after.session id).writer.writing

theorem Holds.trans {id : Nat} {first second third : Server} (before : Holds id first second)
    (after : Holds id second third) : Holds id first third :=
  List.Subset.trans before after

variable {server : Server}

private theorem completes_writing {id : Nat} {session after : Session} {event : Event}
    (lawful : session.writer.Lawful) (completes : Completes id session event after) :
    session.writer.writing ⊆ after.writer.writing := by
  cases completes with
  | arrive _ _ => exact List.Subset.refl _
  | readFailed _ => exact List.Subset.refl _
  | writeDone listed =>
      rw [Session.writer_completeWrite lawful listed]
      exact List.Subset.refl _
  | writeFailed listed =>
      rw [Session.writer_completeWrite lawful listed]
      exact List.Subset.refl _

private theorem handles_writing {id : Nat} {session after : Session} {event : Event}
    {raised : Bool} (handles : Handles id session event after raised)
    (other : ¬ event.IsOnWrite id) : session.writer.writing ⊆ after.writer.writing := by
  cases handles with
  | readError _ _ =>
      rw [Session.writer_onError]
      exact List.Subset.refl _
  | written _ _ => exact absurd rfl other
  | writeError _ _ => exact absurd rfl other

/-- Every step but the session's own `on_write` leaves its write alone. -/
theorem holds_of_moves {next : Server} {event : Event} {id : Nat} (invariant : Invariant server)
    (unused : Unused server) (moves : Moves server event next) (other : ¬ event.IsOnWrite id) :
    Holds id server next := by
  have maintains : Maintains server event fun owner session => owner = id →
      (server.session id).writer.writing ⊆ session.writer.writing := by
    refine ⟨?_, ?_, ?_, ?_, ?_, ?_, ?_⟩
    · -- The session that `accept` creates has written nothing before.
      intro same
      have absent : id ∉ server.sessions := fun member =>
        absurd (invariant.created id member) (same ▸ Nat.lt_irrefl _)
      rw [unused id absent]
      exact List.nil_subset _
    · intro owner session message kept same
      rw [Session.writer_post]
      exact List.Subset.trans (kept same) (Queue.Writer.writing_subset_post _ _)
    · exact fun _ _ kept => kept
    · exact fun _ _ _ kept => kept
    · exact fun _ _ _ kept => kept
    · intro owner after completes kept same
      exact List.Subset.trans (kept same) (completes_writing (invariant.writing owner) completes)
    · intro owner after raised handles kept same
      exact List.Subset.trans (kept same) (handles_writing handles (same ▸ other))
  exact maintains.moves (fun _ same => same ▸ List.Subset.refl _) moves id rfl

/-- The laws of a session's queue, now and in every run from here on. -/
def QueueLaw (server : Server) (id : Nat) : Prop :=
  (server.session id).writer.Law ∧
    ∀ events final, Server.machine.run server events = some final →
      (∀ event ∈ events, ¬ event.IsOnWrite id) →
        (server.session id).writer.StillWriting (final.session id).writer

theorem queueLaw_of_reachable (reached : Server.machine.Reachable server) (id : Nat) :
    QueueLaw server id := by
  have start : Invariant server ∧ Vacant server :=
    Server.machine.reachable_induction vacant_initial vacant_step reached
  refine ⟨(start.1.writing id).law, fun events final steps others => ?_⟩
  have lawful := ((invariant_of_reachable (reached.run _ steps)).writing id)
  refine Writer.stillWriting_of_subset lawful ?_
  refine Server.machine.run_relates (Holds id) ?_ Holds.trans vacant_step ?_ start steps others
  · exact fun _ => List.Subset.refl _
  · intro state event next before other moved
    rcases moves_of_step moved with ⟨running, moves⟩
    exact holds_of_moves before.1 (before.2 running) moves other

end Chat
end LearnAsio
