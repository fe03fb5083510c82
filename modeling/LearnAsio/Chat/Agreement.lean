import LearnAsio.Chat.Invariant

namespace LearnAsio
namespace Chat

open Queue Transition

/-!
# Agreement on the broadcasts

Two members of `sessions_` have been posted the same broadcasts since the later
one was added, and each queue sends what it has been posted in order.  What the
two clients have been sent of these broadcasts therefore differs by how far their
queues have got and by nothing else.
-/

/-- The broadcasts from a number on that have been completely sent. -/
def Session.sentSince (session : Session) (bound : Nat) : List Post :=
  session.sent.filter (atLeast Post.broadcast bound)

variable {server : Server}

/-- The posts of a member from a later number on are the log from there on. -/
theorem Invariant.posted_since (invariant : Invariant server) {id bound : Nat}
    (member : id ∈ server.sessions) (later : server.addedAt id ≤ bound) :
    (server.session id).posted.filter (atLeast Post.broadcast bound) =
      (server.broadcasts.map Broadcast.post).drop bound := by
  have heard : (server.session id).posted.filter (logged Post.broadcast) = _ :=
    invariant.heard id member
  rw [← filter_atLeast_logged, heard]
  exact invariant.numbered.filter_drop later

/-- No broadcast is skipped, repeated or reordered: a session has been posted the log
from its own addition on, every entry at its place, and has been sent its posts from
the front. -/
structure Server.InOrder (server : Server) (id : Nat) : Prop where
  heard : (server.session id).heard =
    (server.broadcasts.map Broadcast.post).drop (server.addedAt id)
  distinct : (server.session id).heard.Nodup
  sent : (server.session id).sent <+: (server.session id).posted
  sentHeard : (server.session id).sent.filter (logged Post.broadcast) <+:
    (server.broadcasts.map Broadcast.post).drop (server.addedAt id)

theorem Invariant.inOrder (invariant : Invariant server) {id : Nat}
    (member : id ∈ server.sessions) : server.InOrder id where
  heard := invariant.heard id member
  distinct := by
    rw [invariant.heard id member]
    exact invariant.numbered.nodup.sublist (List.drop_sublist _ _)
  sent := Writer.Lawful.sent_prefix (invariant.writing id)
  sentHeard := by
    have sent := Writer.Lawful.sent_prefix (invariant.writing id)
    exact invariant.heard id member ▸ sent.filter (logged Post.broadcast)

/-- A session that was added later has heard the end of what the earlier one has
heard, and has been sent the same since; and both have heard the log in its order. -/
theorem broadcast_agreement (reached : Server.machine.Reachable server) {first second : Nat}
    (order : [first, second].Sublist server.sessions) :
    ((server.session first).sentSince (server.addedAt second) <+:
        (server.session second).sentSince (server.addedAt second) ∨
      (server.session second).sentSince (server.addedAt second) <+:
        (server.session first).sentSince (server.addedAt second)) ∧
      (server.session second).heard <:+ (server.session first).heard ∧
      ∀ id ∈ server.sessions, server.InOrder id := by
  have invariant := invariant_of_reachable reached
  have firstMember : first ∈ server.sessions := order.subset List.mem_cons_self
  have secondMember : second ∈ server.sessions :=
    order.subset (List.mem_cons_of_mem _ List.mem_cons_self)
  have earlier : server.addedAt first ≤ server.addedAt second :=
    List.pairwise_iff_forall_sublist.mp invariant.ordered order
  refine ⟨?_, ?_, fun id member => invariant.inOrder member⟩
  · apply filter_sent_comparable (invariant.writing first) (invariant.writing second)
    have firstSince := invariant.posted_since firstMember earlier
    have secondSince := invariant.posted_since secondMember (Nat.le_refl _)
    exact firstSince.trans secondSince.symm
  · rw [invariant.heard first firstMember, invariant.heard second secondMember]
    have further : ((server.broadcasts.map Broadcast.post).drop (server.addedAt first)).drop
        (server.addedAt second - server.addedAt first) =
          (server.broadcasts.map Broadcast.post).drop (server.addedAt second) := by
      rw [List.drop_drop]
      congr 1
      omega
    rw [← further]
    exact List.drop_suffix _ _

/-- Two clients have joined, the first one has sent a line, and only its own
messages have been written. -/
def twoClients : List Event :=
  [.acceptDone 0 .success, .onAccept 0 (bytes "10.0.0.1:1024") false false,
    .acceptDone 0 .success, .onAccept 0 (bytes "10.0.0.2:1024") false false,
    .arrive 0 0 (bytes "hello\n"), .onRead 0 0 false,
    .writeDone 0 0, .onWrite 0 0 false, .writeDone 0 0, .onWrite 0 0 false,
    .writeDone 0 0, .onWrite 0 0 false]

theorem twoClients_agreement : ∃ server, Server.machine.run Server.machine.initial twoClients =
    some server ∧ ((server.session 0).sentSince (server.addedAt 1) <+:
        (server.session 1).sentSince (server.addedAt 1) ∨
      (server.session 1).sentSince (server.addedAt 1) <+:
        (server.session 0).sentSince (server.addedAt 1)) ∧
      (server.session 1).heard <:+ (server.session 0).heard ∧
      ∀ id ∈ server.sessions, server.InOrder id := by
  have members : (Server.machine.run Server.machine.initial twoClients).map
      (fun server => decide (server.sessions = [0, 1] ∧
        ((server.session 0).sentSince (server.addedAt 1)).length = 1)) = some true := by
    decide +kernel
  rcases Option.map_eq_some_iff.mp members with ⟨server, steps, both⟩
  have order : [0, 1].Sublist server.sessions := (of_decide_eq_true both).1 ▸ List.Sublist.refl _
  exact ⟨server, steps, broadcast_agreement ⟨twoClients, steps⟩ order⟩

end Chat
end LearnAsio
