import LearnAsio.Chat.Membership
import LearnAsio.Streambuf.Invariant

namespace LearnAsio

open Transition

/-!
# The accepts of the tutorial servers

Both tutorial servers keep listening by beginning the next accept in the handler
of the last one.  The chat server does so at the end of `on_accept` and the
streambuf server in the else branch of its lambda, so both come to it only when
the accept has succeeded.  After a failed one the acceptor stays open and the
loop runs on, but no later client is accepted.
-/

/-! ## The chat server -/

namespace Chat

variable {server : Server}

/-- Exactly one accept is outstanding, as long as no exception has left the loop
and closed the acceptor. -/
def AcceptPending (server : Server) : Prop :=
  server.thrown = false → server.accepts.length = 1

namespace Server

theorem lineRead_accepts (server : Server) (id index bytesTransferred : Nat) :
    (server.lineRead id index bytesTransferred).accepts = server.accepts := by
  rw [lineRead]
  exact broadcast_accepts _ _ _

/-- The accepts after `on_accept` has announced and started a session. -/
theorem joined_accepts (server : Server) (index target : Nat) (endpoint : Bytes) :
    ((((server.dequeueAccept index target .success).welcome target endpoint).update target
      fun session => session.start endpoint).pushBack target).accept.accepts.length =
        (server.accepts.eraseIdx index).length + 1 := by
  rw [accept_accepts, List.length_append, List.length_singleton]
  change ((server.dequeueAccept index target .success).broadcast _ _).accepts.length + 1 = _
  rw [broadcast_accepts]
  rfl

end Server

/-- The accept that a handler is run for was the only one. -/
private theorem dequeued_of_listed (invariant : Invariant server) {index : Nat} {accept : Accept}
    (listed : server.accepts[index]? = some accept) : (server.accepts.eraseIdx index).length = 0 :=
  List.length_eq_zero_iff.mpr (eraseIdx_of_listed invariant.oneAccept listed)

/-- A step keeps an accept outstanding exactly when it does not handle a failed
one. -/
theorem acceptPending_step (server : Server) (event : Event) (next : Server)
    (invariant : Invariant server) (pending : AcceptPending server)
    (moved : Server.machine.step server event = some next) :
    AcceptPending next ↔ AcceptSucceeded server event := by
  rcases moves_of_step moved with ⟨running, moves⟩
  have one := pending running
  cases moves with
  | acceptDone _ _ =>
      refine ⟨fun _ => trivial, fun _ _ => ?_⟩
      rw [List.length_set]
      exact one
  | completes completes => exact ⟨fun _ => succeeded_of_completes completes, fun _ _ => one⟩
  | @handles id _ _ _ handles =>
      refine ⟨fun _ => succeeded_of_handles handles, fun _ _ => ?_⟩
      rw [Server.release_accepts]
      exact one
  | lineRead _ _ =>
      refine ⟨fun _ => trivial, fun _ _ => ?_⟩
      rw [Server.release_accepts, Server.lineRead_accepts]
      exact one
  | @acceptFailed index target ec _ _ _ listed failed =>
      constructor
      · intro armed
        have begun := armed ((Server.release_thrown _ _).trans running)
        rw [Server.release_accepts] at begun
        exact absurd ((dequeued_of_listed invariant listed).symm.trans begun) Nat.zero_ne_one
      · intro succeeded
        exact absurd (succeeded target ec listed) failed
  | joinedThrew listed => exact ⟨fun _ => succeeded_of_listed listed, nofun⟩
  | startThrew listed _ => exact ⟨fun _ => succeeded_of_listed listed, nofun⟩
  | @joined index _ _ listed _ =>
      refine ⟨fun _ => succeeded_of_listed listed, fun _ _ => ?_⟩
      rw [Server.release_accepts, Server.joined_accepts, dequeued_of_listed invariant listed]

theorem acceptPending_along_run {events : List Event} {final : Server}
    (steps : Server.machine.run Server.machine.initial events = some final) :
    Server.machine.Always AcceptPending Server.machine.initial events ↔
      Server.machine.Meets AcceptSucceeded Server.machine.initial events :=
  Server.machine.always_iff_meets (fun _ _ _ invariant moved => invariant.of_step moved)
    acceptPending_step Invariant.initial (fun _ => rfl) steps

end Chat

/-! ## The streambuf server -/

namespace Streambuf

variable {server : Server}

def AcceptPending (server : Server) : Prop :=
  server.thrown = false → server.accepts.length = 1

/-- The event is not the handler of an accept that has failed. -/
def AcceptSucceeded (server : Server) : Event → Prop
  | .onAccept index _ => ∀ target ec,
      server.accepts[index]? = some { target := target, completion := some ec } → ec = .success
  | _ => True

private theorem acceptSucceeded_of_listed {index target : Nat} {gone : Bool}
    (listed : server.accepts[index]? = some { target := target, completion := some .success }) :
    AcceptSucceeded server (.onAccept index gone) := by
  intro other ec found
  rw [listed] at found
  cases found
  rfl

private theorem acceptSucceeded_of_turn {id : Nat} {event : Event} {after : Session}
    {raised : Bool} (turn : Turn id (server.session id) event after raised) :
    AcceptSucceeded server event := by
  cases turn with
  | arrive _ _ => trivial
  | readFailed _ => trivial
  | writeDone _ => trivial
  | writeFailed _ => trivial
  | readError _ _ => trivial
  | lineLost _ _ _ => trivial
  | lineRead _ _ _ => trivial
  | written _ _ => trivial
  | writeError _ _ => trivial

theorem acceptPending_step (server : Server) (event : Event) (next : Server)
    (invariant : Invariant server) (pending : AcceptPending server)
    (moved : Server.machine.step server event = some next) :
    AcceptPending next ↔ AcceptSucceeded server event := by
  rcases moves_of_step moved with ⟨running, moves⟩
  have one := pending running
  cases moves with
  | acceptDone _ _ =>
      refine ⟨fun _ => trivial, fun _ _ => ?_⟩
      rw [List.length_set]
      exact one
  | turn turn => exact ⟨fun _ => acceptSucceeded_of_turn turn, fun _ _ => one⟩
  | @acceptFailed index target ec _ listed failed =>
      constructor
      · intro armed
        have begun := armed running
        rw [eraseIdx_of_listed invariant.oneAccept listed] at begun
        exact absurd begun Nat.zero_ne_one
      · intro succeeded
        exact absurd (succeeded target ec listed) failed
  | acceptThrew listed => exact ⟨fun _ => acceptSucceeded_of_listed listed, nofun⟩
  | @accepted index target listed =>
      refine ⟨fun _ => acceptSucceeded_of_listed listed, fun _ _ => ?_⟩
      have none := (invariant.dequeueAccept listed .success).2.1
      change ((server.dequeueAccept index target .success).accepts ++ [_]).length = 1
      rw [none]
      rfl

theorem acceptPending_along_run {events : List Event} {final : Server}
    (steps : Server.machine.run Server.machine.initial events = some final) :
    Server.machine.Always AcceptPending Server.machine.initial events ↔
      Server.machine.Meets AcceptSucceeded Server.machine.initial events :=
  Server.machine.always_iff_meets (fun _ _ _ invariant moved => invariant.of_step moved)
    acceptPending_step Invariant.initial (fun _ => rfl) steps

end Streambuf

/-! ## Both servers -/

namespace Tutorial

/-- Each server listens throughout its run exactly when none of its accepts
fails. -/
theorem acceptChain_iff {chatEvents : List Chat.Event} {chat : Chat.Server}
    (chatSteps : Chat.Server.machine.run Chat.Server.machine.initial chatEvents = some chat)
    {streambufEvents : List Streambuf.Event} {streambuf : Streambuf.Server}
    (streambufSteps : Streambuf.Server.machine.run Streambuf.Server.machine.initial
      streambufEvents = some streambuf) :
    (Chat.Server.machine.Always Chat.AcceptPending Chat.Server.machine.initial chatEvents ↔
        Chat.Server.machine.Meets Chat.AcceptSucceeded Chat.Server.machine.initial chatEvents) ∧
      (Streambuf.Server.machine.Always Streambuf.AcceptPending Streambuf.Server.machine.initial
          streambufEvents ↔
        Streambuf.Server.machine.Meets Streambuf.AcceptSucceeded Streambuf.Server.machine.initial
          streambufEvents) :=
  ⟨Chat.acceptPending_along_run chatSteps, Streambuf.acceptPending_along_run streambufSteps⟩

/-- One client is accepted by each server. -/
theorem acceptChain_iff_one_client :
    Chat.Server.machine.Always Chat.AcceptPending Chat.Server.machine.initial
        [.acceptDone 0 .success, .onAccept 0 (bytes "10.0.0.1:50000") false false] ∧
      Streambuf.Server.machine.Always Streambuf.AcceptPending Streambuf.Server.machine.initial
        [.acceptDone 0 .success, .onAccept 0 false] := by
  have listens := acceptChain_iff
    (show Chat.Server.machine.run Chat.Server.machine.initial
      [.acceptDone 0 .success, .onAccept 0 (bytes "10.0.0.1:50000") false false] = some _ from rfl)
    (show Streambuf.Server.machine.run Streambuf.Server.machine.initial
      [.acceptDone 0 .success, .onAccept 0 false] = some _ from rfl)
  constructor
  · refine listens.1.mpr ⟨trivial, ?_⟩
    rintro _ ⟨⟩
    refine ⟨?_, fun _ _ => trivial⟩
    rintro target ec ⟨⟩
    rfl
  · refine listens.2.mpr ⟨trivial, ?_⟩
    rintro _ ⟨⟩
    refine ⟨?_, fun _ _ => trivial⟩
    rintro target ec ⟨⟩
    rfl

/-- The process has no descriptor left for the first client. -/
theorem acceptChain_broken :
    ¬ (∀ (events : List Chat.Event) (final : Chat.Server),
        Chat.Server.machine.run Chat.Server.machine.initial events = some final →
          Chat.Server.machine.Always Chat.AcceptPending Chat.Server.machine.initial events) ∧
      ¬ ∀ (events : List Streambuf.Event) (final : Streambuf.Server),
        Streambuf.Server.machine.run Streambuf.Server.machine.initial events = some final →
          Streambuf.Server.machine.Always Streambuf.AcceptPending
            Streambuf.Server.machine.initial events := by
  constructor
  · intro always
    have listening := always [.acceptDone 0 .failure, .onAccept 0 [] false false] _ rfl
    have last := listening.last Chat.Server.machine rfl
    exact absurd (last rfl) (by decide)
  · intro always
    have listening := always [.acceptDone 0 .failure, .onAccept 0 false] _ rfl
    have last := listening.last Streambuf.Server.machine rfl
    exact absurd (last rfl) (by decide)

end Tutorial
end LearnAsio
