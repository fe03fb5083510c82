import LearnAsio.Asio
import LearnAsio.Delivery.Replies
import LearnAsio.Transition.History
import LearnAsio.Transition.Pending
import Mathlib.Tactic.Abel

namespace LearnAsio
namespace Basics

open Delivery Transition

/-!
# The UDP daytime server

`UdpServer` receives into one buffer and one endpoint, both of them members.  Its
handler answers to that endpoint, with a message that the send operation owns, and
receives again; the next receipt may overwrite the endpoint before the answer has
left.  A failed receive is answered as well, with the text of its error, to whoever
was received from last.

Only a signal ends the loop.  The clock is part of the state, since an answer shows
the time at which it is made.

Steady clock: `time` reads the system clock, which may be set.  It is assumed here that
nobody does, so that the clock only moves forward, and it is read to the second as
`time_t` is.
-/

/-- An IPv4 endpoint.  The default one is 0.0.0.0:0. -/
structure Endpoint where
  address : UInt32 := 0
  port : UInt16 := 0
  deriving DecidableEq, Repr

/-- An `async_send_to`, with the copy of the endpoint that it was given and the
message that its handler shares.  A send that fails ends with the text of its error. -/
structure Send where
  destination : Endpoint
  message : Bytes
  completion : Option (Option Bytes) := none
  deriving DecidableEq, Repr

namespace Signal

def SIGINT : Nat := 2
def SIGSEGV : Nat := 11
def SIGTERM : Nat := 15

/-- The signals of the set in `main`. -/
def signals : List Nat := [SIGSEGV, SIGINT, SIGTERM]

/-- `handler` stops the context for these. -/
def stops (signalNumber : Nat) : Bool :=
  signalNumber = SIGSEGV || signalNumber = SIGINT || signalNumber = SIGTERM

theorem stops_of_mem {signalNumber : Nat} (registered : signalNumber ∈ signals) :
    stops signalNumber = true := by
  simp only [signals, List.mem_cons, List.not_mem_nil, or_false] at registered
  rcases registered with same | same | same <;> subst same <;> rfl

end Signal

/-- A receive that has been begun, with its outcome. -/
abbrev Receive := Option (Receipt Endpoint Bytes)

/-- The program once its loop runs.  Datagrams that the socket has taken are on the
wire; one that it has refused is kept with the text of the error. -/
structure UdpServer where
  now : Nat := 0
  running : Bool := true
  remoteEndpoint : Endpoint := {}
  receives : List Receive := [none]
  sends : List Send := []
  signal : Option (Option Nat) := some none
  wire : List (Endpoint × Bytes) := []
  refused : List (Endpoint × Bytes × Bytes) := []
  log : List (Bytes × Bytes) := []

namespace UdpServer

/-- What is answered to a receipt, from the time at which its handler runs. -/
def answer (ctime : Nat → Bytes) : Receipt Endpoint Bytes → Nat → Bytes
  | .datagram _, time => ctime time
  | .failed message, _ => message

/-- `start_receive`. -/
def startReceive (server : UdpServer) : UdpServer :=
  { server with receives := server.receives ++ [none] }

/-- A receive ends, and the sender of a datagram is written to the endpoint. -/
def received (server : UdpServer) (index : Nat) (receipt : Receipt Endpoint Bytes) : UdpServer :=
  { server with
    remoteEndpoint := receipt.noted server.remoteEndpoint
    receives := server.receives.set index (some receipt) }

/-- `socket_.async_send_to`. -/
def asyncSendTo (server : UdpServer) (message : Bytes) : UdpServer :=
  { server with
    sends := server.sends ++ [{ destination := server.remoteEndpoint, message := message }] }

/-- `receive`. -/
def receive (ctime : Nat → Bytes) (server : UdpServer) (index : Nat)
    (receipt : Receipt Endpoint Bytes) : UdpServer :=
  let dequeued := { server with receives := server.receives.eraseIdx index }
  (dequeued.asyncSendTo (answer ctime receipt server.now)).startReceive

/-- The socket takes a datagram. -/
def sent (server : UdpServer) (index : Nat) (send : Send) : UdpServer :=
  { server with
    sends := server.sends.set index { send with completion := some none }
    wire := server.wire ++ [(send.destination, send.message)] }

/-- The socket refuses a datagram. -/
def refuse (server : UdpServer) (index : Nat) (send : Send) (error : Bytes) : UdpServer :=
  { server with
    sends := server.sends.set index { send with completion := some (some error) }
    refused := server.refused ++ [(send.destination, send.message, error)] }

/-- `send`. -/
def send (server : UdpServer) (index : Nat) (message : Bytes) (ec : Option Bytes) : UdpServer :=
  { server with
    sends := server.sends.eraseIdx index
    log := server.log ++ (ec.map fun error => (message, error)).toList }

/-- A signal of the set ends the wait for one.  If no wait is left it is queued. -/
def raised (server : UdpServer) (signalNumber : Nat) : UdpServer :=
  if server.signal = some none then { server with signal := some (some signalNumber) } else server

/-- `handler`. -/
def handler (server : UdpServer) (signalNumber : Nat) : UdpServer :=
  { server with
    signal := none
    running := server.running && !Signal.stops signalNumber }

/-- Time passes, an operation ends, or its handler runs. -/
inductive Event where
  | pass (seconds : Nat)
  | received (index : Nat) (receipt : Receipt Endpoint Bytes)
  | receive (index : Nat)
  | sent (index : Nat)
  | refused (index : Nat) (error : Bytes)
  | send (index : Nat)
  | raised (signalNumber : Nat)
  | handler
  deriving DecidableEq, Repr

def step (ctime : Nat → Bytes) (server : UdpServer) (event : Event) : Option UdpServer :=
  if server.running then
    match event with
    | .pass seconds => some { server with now := server.now + seconds }
    | .received index receipt =>
        match server.receives[index]? with
        | some none => some (server.received index receipt)
        | _ => none
    | .receive index =>
        match server.receives[index]? with
        | some (some receipt) => some (server.receive ctime index receipt)
        | _ => none
    | .sent index =>
        match server.sends[index]? with
        | some ⟨destination, message, none⟩ => some (server.sent index ⟨destination, message, none⟩)
        | _ => none
    | .refused index error =>
        match server.sends[index]? with
        | some ⟨destination, message, none⟩ =>
            some (server.refuse index ⟨destination, message, none⟩ error)
        | _ => none
    | .send index =>
        match server.sends[index]? with
        | some ⟨_, message, some ec⟩ => some (server.send index message ec)
        | _ => none
    | .raised signalNumber =>
        if signalNumber ∈ Signal.signals then some (server.raised signalNumber) else none
    | .handler =>
        match server.signal with
        | some (some signalNumber) => some (server.handler signalNumber)
        | _ => none
  else none

def machine (ctime : Nat → Bytes) : System UdpServer Event where
  initial := {}
  step := step ctime

/-- What one step does, and when it can. -/
inductive Moves (ctime : Nat → Bytes) (server : UdpServer) : Event → UdpServer → Prop
  | pass (seconds : Nat) :
      Moves ctime server (.pass seconds) { server with now := server.now + seconds }
  | received {index : Nat} (receipt : Receipt Endpoint Bytes)
      (listed : server.receives[index]? = some none) :
      Moves ctime server (.received index receipt) (server.received index receipt)
  | receive {index : Nat} {receipt : Receipt Endpoint Bytes}
      (listed : server.receives[index]? = some (some receipt)) :
      Moves ctime server (.receive index) (server.receive ctime index receipt)
  | sent {index : Nat} {send : Send} (listed : server.sends[index]? = some send)
      (pending : send.completion = none) :
      Moves ctime server (.sent index) (server.sent index send)
  | refused {index : Nat} {send : Send} (error : Bytes)
      (listed : server.sends[index]? = some send) (pending : send.completion = none) :
      Moves ctime server (.refused index error) (server.refuse index send error)
  | send {index : Nat} {send : Send} {ec : Option Bytes}
      (listed : server.sends[index]? = some send) (complete : send.completion = some ec) :
      Moves ctime server (.send index) (server.send index send.message ec)
  | raised {signalNumber : Nat} (registered : signalNumber ∈ Signal.signals) :
      Moves ctime server (.raised signalNumber) (server.raised signalNumber)
  | handler {signalNumber : Nat} (complete : server.signal = some (some signalNumber)) :
      Moves ctime server .handler (server.handler signalNumber)

theorem moves_of_step {ctime : Nat → Bytes} {server next : UdpServer} {event : Event}
    (moved : (machine ctime).step server event = some next) :
    server.running = true ∧ Moves ctime server event next := by
  change step ctime server event = some next at moved
  unfold step at moved
  split at moved
  next running =>
    refine ⟨running, ?_⟩
    cases event with
    | pass seconds =>
        cases moved
        exact .pass seconds
    | received index receipt =>
        dsimp only at moved
        split at moved
        next listed =>
          cases moved
          exact .received receipt listed
        next => cases moved
    | receive index =>
        dsimp only at moved
        split at moved
        next receipt listed =>
          cases moved
          exact .receive listed
        next => cases moved
    | sent index =>
        dsimp only at moved
        split at moved
        next listed =>
          cases moved
          exact .sent listed rfl
        next => cases moved
    | refused index error =>
        dsimp only at moved
        split at moved
        next listed =>
          cases moved
          exact .refused error listed rfl
        next => cases moved
    | send index =>
        dsimp only at moved
        split at moved
        next listed =>
          cases moved
          exact .send listed rfl
        next => cases moved
    | raised signalNumber =>
        dsimp only at moved
        split at moved
        next registered =>
          cases moved
          exact .raised registered
        next => cases moved
    | handler =>
        dsimp only at moved
        split at moved
        next complete =>
          cases moved
          exact .handler complete
        next => cases moved
  next => cases moved

/-! ## What has happened so far -/

namespace Event

/-- The seconds that an event takes. -/
def duration : Event → Nat
  | .pass seconds => seconds
  | _ => 0

/-- What has been received with an event. -/
def received? : Event → Option (Receipt Endpoint Bytes)
  | .received _ receipt => some receipt
  | _ => none

/-- Whether an event is a call of `receive`. -/
def receive? : Event → Option Unit
  | .receive _ => some ()
  | _ => none

end Event

/-- The receipts of a run, with their times. -/
def arrivals (events : List Event) : List (Nat × Receipt Endpoint Bytes) :=
  moments Event.duration Event.received? 0 events

/-- The times at which `receive` has been called. -/
def calls (events : List Event) : List Nat :=
  (moments Event.duration Event.receive? 0 events).map Prod.fst

/-- All answers that the calls of `receive` have made. -/
def answers (ctime : Nat → Bytes) (events : List Event) : List (Endpoint × Bytes) :=
  replies (answer ctime) {} ((arrivals events).map Prod.snd) (calls events)

/-- The datagram of a send that the socket has not decided on. -/
def undecided (send : Send) : Option (Endpoint × Bytes) :=
  match send.completion with
  | none => some (send.destination, send.message)
  | some _ => none

/-- What the handler of a failed send will report. -/
def unreported (send : Send) : Option (Bytes × Bytes) :=
  send.completion.bind fun ec => ec.map fun error => (send.message, error)

/-- The one receive of the server is waiting, or it has ended since the last call of
its handler. -/
inductive Turn (now : Nat) (arrivals : List (Nat × Receipt Endpoint Bytes)) (calls : List Nat) :
    List Receive → Prop
  | waiting (level : arrivals.length = calls.length) : Turn now arrivals calls [none]
  | complete {time : Nat} {receipt : Receipt Endpoint Bytes}
      {earlier : List (Nat × Receipt Endpoint Bytes)}
      (whole : arrivals = earlier ++ [(time, receipt)]) (level : earlier.length = calls.length)
      (past : time ≤ now) : Turn now arrivals calls [some receipt]

/-- All of this holds after any events. -/
structure Lawful (ctime : Nat → Bytes) (events : List Event) (server : UdpServer) : Prop where
  clock : server.now = elapsed Event.duration events
  turn : Turn server.now (arrivals events) (calls events) server.receives
  noted : server.remoteEndpoint = lastSender {} ((arrivals events).map Prod.snd)
  ordered : ∀ pair ∈ (arrivals events).zip (calls events), pair.1.1 ≤ pair.2
  conserved : held undecided server.sends + (server.wire : Multiset (Endpoint × Bytes)) +
      (server.refused.map fun datagram => (datagram.1, datagram.2.1) : List (Endpoint × Bytes)) =
    (answers ctime events : Multiset (Endpoint × Bytes))
  reported : (server.log : Multiset (Bytes × Bytes)) + held unreported server.sends =
    (server.refused.map Prod.snd : List (Bytes × Bytes))
  registered : ∀ signalNumber, server.signal = some (some signalNumber) →
    signalNumber ∈ Signal.signals
  stopped : server.running = false ↔ Event.handler ∈ events

/-! ## One event -/

section Events

variable {ctime : Nat → Bytes} {events : List Event} {event : Event}

theorem arrivals_of_silent (silent : event.received? = none) :
    arrivals (events ++ [event]) = arrivals events :=
  moments_concat_of_none _ _ silent 0 events

theorem arrivals_received (events : List Event) (index : Nat)
    (receipt : Receipt Endpoint Bytes) :
    arrivals (events ++ [.received index receipt]) =
      arrivals events ++ [(elapsed Event.duration events, receipt)] := by
  have leaves : Event.received? (.received index receipt) = some receipt := rfl
  have arrived := moments_concat_of_mark Event.duration Event.received? leaves 0 events
  rw [Nat.zero_add] at arrived
  exact arrived

theorem calls_receive (events : List Event) (index : Nat) :
    calls (events ++ [.receive index]) = calls events ++ [elapsed Event.duration events] := by
  have leaves : Event.receive? (.receive index) = some () := rfl
  have called := moments_concat_of_mark Event.duration Event.receive? leaves 0 events
  rw [Nat.zero_add] at called
  rw [calls, called, List.map_append]
  rfl

theorem calls_of_uncalled (uncalled : event.receive? = none) :
    calls (events ++ [event]) = calls events := by
  simp only [calls, moments_concat_of_none _ _ uncalled 0 events]

theorem answers_of_quiet (silent : event.received? = none) (uncalled : event.receive? = none) :
    answers ctime (events ++ [event]) = answers ctime events := by
  simp only [answers, arrivals_of_silent silent, calls_of_uncalled uncalled]

/-- Time only makes what has happened more past. -/
theorem Turn.later {now later : Nat} {arrived : List (Nat × Receipt Endpoint Bytes)}
    {called : List Nat} {receives : List Receive} (turn : Turn now arrived called receives)
    (passed : now ≤ later) : Turn later arrived called receives := by
  cases turn with
  | waiting level => exact .waiting level
  | complete whole level past => exact .complete whole level (Nat.le_trans past passed)

end Events

namespace Lawful

variable {ctime : Nat → Bytes} {events : List Event} {server next : UdpServer} {event : Event}

theorem initial : Lawful ctime [] {} where
  clock := rfl
  turn := .waiting rfl
  noted := rfl
  ordered := List.forall_mem_nil _
  conserved := rfl
  reported := rfl
  registered := by
    intro signalNumber same
    cases same
  stopped := by simp

/-- The loop still runs, so no signal has been handled. -/
theorem stopped_concat (lawful : Lawful ctime events server) (running : server.running = true)
    (stopped : next.running = false ↔ event = .handler) :
    next.running = false ↔ Event.handler ∈ events ++ [event] := by
  have earlier : Event.handler ∉ events := fun handled =>
    Bool.false_ne_true ((lawful.stopped.mpr handled).symm.trans running)
  rw [stopped, List.mem_append, List.mem_singleton]
  exact ⟨fun same => Or.inr same.symm, fun among => (among.resolve_left earlier).symm⟩

/-- An event that is neither a receipt nor a call of `receive`. -/
theorem quiet (lawful : Lawful ctime events server) (running : server.running = true)
    (silent : event.received? = none) (uncalled : event.receive? = none)
    (clock : next.now = server.now + event.duration)
    (receives : next.receives = server.receives)
    (remoteEndpoint : next.remoteEndpoint = server.remoteEndpoint)
    (conserved : held undecided next.sends + (next.wire : Multiset (Endpoint × Bytes)) +
        (next.refused.map fun datagram => (datagram.1, datagram.2.1) : List (Endpoint × Bytes)) =
      held undecided server.sends + (server.wire : Multiset (Endpoint × Bytes)) +
        (server.refused.map fun datagram => (datagram.1, datagram.2.1) : List (Endpoint × Bytes)))
    (reported : (next.log : Multiset (Bytes × Bytes)) + held unreported next.sends =
      (next.refused.map Prod.snd : List (Bytes × Bytes)))
    (registered : ∀ signalNumber, next.signal = some (some signalNumber) →
      signalNumber ∈ Signal.signals)
    (stopped : next.running = false ↔ event = .handler) :
    Lawful ctime (events ++ [event]) next where
  clock := by rw [clock, elapsed_concat, lawful.clock]
  turn := by
    rw [arrivals_of_silent silent, calls_of_uncalled uncalled, receives]
    exact lawful.turn.later (clock ▸ Nat.le_add_right _ _)
  noted := by
    rw [arrivals_of_silent silent, remoteEndpoint]
    exact lawful.noted
  ordered := by
    rw [arrivals_of_silent silent, calls_of_uncalled uncalled]
    exact lawful.ordered
  conserved := by
    rw [conserved, answers_of_quiet silent uncalled]
    exact lawful.conserved
  reported := reported
  registered := registered
  stopped := lawful.stopped_concat running stopped

/-- A receive ends.  It is the only one, and every earlier receipt has been answered. -/
theorem received (lawful : Lawful ctime events server) (running : server.running = true)
    {index : Nat} (receipt : Receipt Endpoint Bytes)
    (listed : server.receives[index]? = some none) :
    Lawful ctime (events ++ [.received index receipt]) (server.received index receipt) := by
  have arrived : arrivals (events ++ [.received index receipt]) =
      arrivals events ++ [(server.now, receipt)] := by
    rw [arrivals_received, lawful.clock]
  have called : calls (events ++ [.received index receipt]) = calls events :=
    calls_of_uncalled rfl
  have turn := lawful.turn
  generalize whole : server.receives = receives at turn
  rw [whole] at listed
  cases turn with
  | complete _ _ _ =>
      rcases (List.getElem?_eq_some_iff.mp listed) with ⟨bound, same⟩
      have first : index = 0 := Nat.lt_one_iff.mp bound
      subst first
      cases same
  | waiting level =>
      have bound : index < 1 := (List.getElem?_eq_some_iff.mp listed).1
      have first : index = 0 := Nat.lt_one_iff.mp bound
      subst first
      have unanswered : answers ctime (events ++ [.received 0 receipt]) = answers ctime events := by
        rw [answers, arrived, called, List.map_append]
        exact replies_unanswered (by rw [List.length_map, level]) _ _
      constructor
      case clock =>
        rw [elapsed_concat]
        exact lawful.clock
      case turn =>
        rw [arrived, called]
        change Turn server.now _ _ (server.receives.set 0 (some receipt))
        rw [whole]
        exact .complete rfl level (Nat.le_refl _)
      case noted =>
        rw [arrived, List.map_append, List.map_singleton, lastSender_concat, ← lawful.noted]
        rfl
      case ordered =>
        rw [arrived, called, ← List.append_nil (calls events), List.zip_append level,
          List.zip_nil_right, List.append_nil]
        exact lawful.ordered
      case conserved =>
        rw [unanswered]
        exact lawful.conserved
      case reported => exact lawful.reported
      case registered => exact lawful.registered
      case stopped => exact lawful.stopped_concat running (by simp [UdpServer.received, running])

/-- `receive` answers to the endpoint on record, which is still that of its own
receipt. -/
theorem receive (lawful : Lawful ctime events server) (running : server.running = true)
    {index : Nat} {receipt : Receipt Endpoint Bytes}
    (listed : server.receives[index]? = some (some receipt)) :
    Lawful ctime (events ++ [.receive index]) (server.receive ctime index receipt) := by
  have arrived : arrivals (events ++ [.receive index]) = arrivals events :=
    arrivals_of_silent rfl
  have called : calls (events ++ [.receive index]) = calls events ++ [server.now] := by
    rw [calls_receive, lawful.clock]
  have turn := lawful.turn
  generalize whole : server.receives = receives at turn
  rw [whole] at listed
  have bound : index < 1 := by
    cases turn with
    | waiting _ => exact (List.getElem?_eq_some_iff.mp listed).1
    | complete _ _ _ => exact (List.getElem?_eq_some_iff.mp listed).1
  have first : index = 0 := Nat.lt_one_iff.mp bound
  subst first
  cases turn with
  | waiting _ => cases listed
  | @complete time _ earlier all level past =>
      cases listed
      have length : (arrivals events).length = (calls events).length + 1 := by
        rw [all, List.length_append, level]
        rfl
      have answered : answers ctime (events ++ [.receive 0]) =
          answers ctime events ++ [(server.remoteEndpoint, answer ctime receipt server.now)] := by
        have before : answers ctime events =
            replies (answer ctime) {} (earlier.map Prod.snd) (calls events) := by
          rw [answers, all, List.map_append]
          exact replies_unanswered (by rw [List.length_map, level]) _ _
        rw [answers, arrived, called, lawful.noted, before, all, List.map_append]
        exact replies_concat (by rw [List.length_map, level]) _ _ _
      constructor
      case clock =>
        rw [elapsed_concat]
        exact lawful.clock
      case turn =>
        rw [arrived, called]
        change Turn server.now _ _ (server.receives.eraseIdx 0 ++ [none])
        rw [whole]
        exact .waiting (by rw [length, List.length_append]; rfl)
      case noted =>
        rw [arrived]
        exact lawful.noted
      case ordered =>
        have before : (earlier ++ [(time, receipt)]).zip (calls events) =
            earlier.zip (calls events) := by
          rw [← List.append_nil (calls events), List.zip_append level, List.zip_nil_right,
            List.append_nil, List.append_nil]
        have ordered := lawful.ordered
        rw [all, before] at ordered
        rw [arrived, called, all, List.zip_append level]
        intro pair among
        rcases List.mem_append.mp among with sooner | last
        · exact ordered pair sooner
        · rw [List.zip_cons_cons, List.zip_nil_left, List.mem_singleton] at last
          subst last
          exact past
      case conserved =>
        rw [answered, ← Multiset.coe_add, ← lawful.conserved]
        change held undecided (server.sends ++ [_]) + _ + _ = _
        rw [held_concat]
        change _ + {(server.remoteEndpoint, answer ctime receipt server.now)} + _ + _ =
          _ + {(server.remoteEndpoint, answer ctime receipt server.now)}
        abel
      case reported =>
        change _ + held unreported (server.sends ++ [_]) = _
        rw [held_concat, ← add_assoc]
        exact (add_zero _).trans lawful.reported
      case registered => exact lawful.registered
      case stopped =>
        refine lawful.stopped_concat running ?_
        simp [UdpServer.receive, asyncSendTo, startReceive, running]

/-- The socket decides on a datagram. -/
theorem sent (lawful : Lawful ctime events server) (running : server.running = true)
    {index : Nat} {send : Send} (listed : server.sends[index]? = some send)
    (pending : send.completion = none) :
    Lawful ctime (events ++ [.sent index]) (server.sent index send) := by
  have first : heldBy undecided send = {(send.destination, send.message)} := by
    simp [heldBy, undecided, pending]
  have second : heldBy unreported send = 0 := by
    simp [heldBy, unreported, pending]
  refine lawful.quiet running rfl rfl rfl rfl rfl ?_ ?_ lawful.registered ?_
  · change held undecided (server.sends.set index _) +
      ((server.wire ++ [_] : List (Endpoint × Bytes)) : Multiset (Endpoint × Bytes)) + _ = _
    rw [held_set_of_listed undecided listed, held_of_listed undecided listed, first,
      ← Multiset.coe_add]
    change 0 + _ + (_ + {(send.destination, send.message)}) + _ = _
    abel
  · have reported := lawful.reported
    rw [held_of_listed unreported listed, second] at reported
    change _ + held unreported (server.sends.set index _) = _
    rw [held_set_of_listed unreported listed]
    exact reported
  · simp [UdpServer.sent, running]

theorem refused (lawful : Lawful ctime events server) (running : server.running = true)
    {index : Nat} {send : Send} (error : Bytes) (listed : server.sends[index]? = some send)
    (pending : send.completion = none) :
    Lawful ctime (events ++ [.refused index error]) (server.refuse index send error) := by
  have first : heldBy undecided send = {(send.destination, send.message)} := by
    simp [heldBy, undecided, pending]
  have second : heldBy unreported send = 0 := by
    simp [heldBy, unreported, pending]
  refine lawful.quiet running rfl rfl rfl rfl rfl ?_ ?_ lawful.registered ?_
  · simp only [UdpServer.refuse, List.map_append, ← Multiset.coe_add]
    rw [held_set_of_listed undecided listed, held_of_listed undecided listed, first]
    change 0 + _ + _ + (_ + {(send.destination, send.message)}) = _
    abel
  · have reported := lawful.reported
    rw [held_of_listed unreported listed, second] at reported
    simp only [UdpServer.refuse, List.map_append, ← Multiset.coe_add]
    rw [held_set_of_listed unreported listed, ← reported]
    change _ + ({(send.message, error)} + _) = _ + (0 + _) + {(send.message, error)}
    abel
  · simp [UdpServer.refuse, running]

/-- The handler of a send reports its error, if there is one. -/
theorem send (lawful : Lawful ctime events server) (running : server.running = true)
    {index : Nat} {send : Send} {ec : Option Bytes} (listed : server.sends[index]? = some send)
    (complete : send.completion = some ec) :
    Lawful ctime (events ++ [.send index]) (server.send index send.message ec) := by
  have first : heldBy undecided send = 0 := by
    simp [heldBy, undecided, complete]
  have second : heldBy unreported send =
      ((ec.map fun error => (send.message, error)).toList : List (Bytes × Bytes)) := by
    simp [heldBy, unreported, complete]
  refine lawful.quiet running rfl rfl rfl rfl rfl ?_ ?_ lawful.registered ?_
  · rw [held_of_listed undecided listed, first, zero_add]
    rfl
  · have reported := lawful.reported
    rw [held_of_listed unreported listed, second, ← add_assoc] at reported
    exact reported
  · simp [UdpServer.send, running]

theorem raised (lawful : Lawful ctime events server) (running : server.running = true)
    {signalNumber : Nat} (registered : signalNumber ∈ Signal.signals) :
    Lawful ctime (events ++ [.raised signalNumber]) (server.raised signalNumber) := by
  unfold UdpServer.raised
  split
  · refine lawful.quiet running rfl rfl rfl rfl rfl rfl lawful.reported ?_ (by simp [running])
    rintro _ ⟨⟩
    exact registered
  · exact lawful.quiet running rfl rfl rfl rfl rfl rfl lawful.reported lawful.registered
      (by simp [running])

/-- Every signal of the set stops the context. -/
theorem handler (lawful : Lawful ctime events server) (running : server.running = true)
    {signalNumber : Nat} (complete : server.signal = some (some signalNumber)) :
    Lawful ctime (events ++ [.handler]) (server.handler signalNumber) := by
  have stops := Signal.stops_of_mem (lawful.registered signalNumber complete)
  refine lawful.quiet running rfl rfl rfl rfl rfl rfl lawful.reported ?_
    (by simp [UdpServer.handler, stops])
  rintro _ ⟨⟩

theorem of_step (lawful : Lawful ctime events server)
    (moved : (machine ctime).step server event = some next) :
    Lawful ctime (events ++ [event]) next := by
  rcases moves_of_step moved with ⟨running, moves⟩
  cases moves with
  | pass seconds =>
      exact lawful.quiet running rfl rfl rfl rfl rfl rfl lawful.reported lawful.registered
        (by simp [running])
  | received receipt listed => exact lawful.received running receipt listed
  | receive listed => exact lawful.receive running listed
  | sent listed pending => exact lawful.sent running listed pending
  | refused error listed pending => exact lawful.refused running error listed pending
  | send listed complete => exact lawful.send running listed complete
  | raised registered => exact lawful.raised running registered
  | handler complete => exact lawful.handler running complete

end Lawful

/-! ## Whole runs -/

/-- The server receives as long as it runs and stops only for a signal.  Each
handled receipt is answered once, to its own sender or, after an error, to the last
one, with a time that is not before the receipt; and each answer is about to leave,
on the wire, or refused, which is reported with its text. -/
structure Answering (ctime : Nat → Bytes) (events : List Event) (server : UdpServer) : Prop where
  armed : server.receives.length = 1
  stopped : server.running = false ↔ Event.handler ∈ events
  level : (arrivals events).length = (calls events).length + server.receives.countP Option.isSome
  ordered : ∀ pair ∈ (arrivals events).zip (calls events), pair.1.1 ≤ pair.2
  conserved : held undecided server.sends + (server.wire : Multiset (Endpoint × Bytes)) +
      (server.refused.map fun datagram => (datagram.1, datagram.2.1) : List (Endpoint × Bytes)) =
    (answers ctime events : Multiset (Endpoint × Bytes))
  reported : (server.log : Multiset (Bytes × Bytes)) + held unreported server.sends =
    (server.refused.map Prod.snd : List (Bytes × Bytes))

theorem answering_of_run {ctime : Nat → Bytes} {events : List Event} {server : UdpServer}
    (steps : (machine ctime).run (machine ctime).initial events = some server) :
    Answering ctime events server := by
  have lawful : Lawful ctime events server :=
    (machine ctime).run_history Lawful.initial
      (fun _ _ _ _ holds moved => holds.of_step moved) steps
  have turn := lawful.turn
  have counted : server.receives.length = 1 ∧ (arrivals events).length =
      (calls events).length + server.receives.countP Option.isSome := by
    generalize server.receives = receives at turn
    cases turn with
    | waiting level => exact ⟨rfl, level⟩
    | complete whole level _ => exact ⟨rfl, by rw [whole, List.length_append, level]; rfl⟩
  exact {
    armed := counted.1
    stopped := lawful.stopped
    level := counted.2
    ordered := lawful.ordered
    conserved := lawful.conserved
    reported := lawful.reported }

/-- The second datagram comes before the answer to the first one has left, and the
first of the two answers is refused. -/
theorem twoClients_answering : ∃ server : UdpServer,
    server.wire = [({ address := 2, port := 9 }, [3])] ∧
      server.log = [([2], bytes "unreachable")] ∧
      Answering (fun time => [time.toUInt8])
        [.received 0 (.datagram { address := 1, port := 7 }), .pass 2, .receive 0,
          .received 0 (.datagram { address := 2, port := 9 }), .refused 0 (bytes "unreachable"),
          .pass 1, .receive 0, .sent 1, .send 0] server := by
  refine ⟨_, ?_, ?_, answering_of_run rfl⟩
  · rfl
  · rfl

end UdpServer
end Basics
end LearnAsio
