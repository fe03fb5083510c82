import LearnAsio.Asio
import LearnAsio.Delivery.Lines
import LearnAsio.Queue.NumberedLog
import LearnAsio.Queue.SingleWriter
import LearnAsio.Transition.Outstanding

namespace LearnAsio
namespace Chat

open Delivery Queue Transition

/-!
# One session of the chat server

A session reads lines from its socket into a `streambuf` and writes the messages
of its queue.  Its member functions are translated here as functions of the
session alone; the broadcast that `on_read` passes to the message handler
concerns all sessions and is in the server module.

An asynchronous operation is kept with the session from the call that begins it
until its completion handler runs, with its outcome once that is queued.  Both
handlers hold a shared pointer to the session.

A queued message carries the number of the broadcast it comes from, if any, and
the session remembers what it has received, what has been posted to it and what
it has sent.  The source stores none of this and no function below reads it.
-/

/-- A message in the queue of a session, and the broadcast it belongs to. -/
structure Post where
  message : Bytes
  broadcast : Option Nat := none
  deriving DecidableEq, Repr

/-- The error code and the number of bytes that `on_read` and `on_write` are
given. -/
structure Completion where
  error : ErrorCode
  bytesTransferred : Nat := 0
  deriving DecidableEq, Repr

/-- An `async_read_until` whose handler has not run. -/
structure Read where
  completion : Option Completion := none
  deriving DecidableEq, Repr

/-- An `async_write` whose handler has not run. -/
structure Write where
  post : Post
  completion : Option Completion := none
  deriving DecidableEq, Repr

/-- The delimiter of the lines. -/
def newline : UInt8 := 10

/-- `class session`. -/
structure Session where
  isOpen : Bool := false
  buffer : Bytes := []
  outgoingMessages : List Post := []
  name : Bytes := []
  reads : List Read := []
  writes : List Write := []
  received : Bytes := []
  posted : List Post := []
  sent : List Post := []
  linesRead : Nat := 0
  writeFailed : Bool := false
  hasFailed : Bool := false
  deriving DecidableEq, Repr

namespace Session

/-- How an operation begins on a socket: pending, or failed if it is closed.  A write of
an empty message is taken for one like any other, although `asio` may complete it
without an error and without asking the socket. -/
def initialCompletion (session : Session) : Option Completion :=
  if session.isOpen then none else some { error := .failure }

/-- The completion of `async_read_until` once the buffer holds a line. -/
def lineCompletion (buffer : Bytes) : Option Completion :=
  if newline ∈ buffer then
    some { error := .success, bytesTransferred := (firstLine newline buffer).length + 1 }
  else none

/-- `session::async_read`.  A line that is already in the buffer completes the
read without the socket. -/
def asyncRead (session : Session) : Session :=
  { session with
    reads := session.reads ++
      [{ completion := (lineCompletion session.buffer).or session.initialCompletion }] }

/-- `session::async_write`, which writes the front of the queue. -/
def asyncWrite (session : Session) : Session :=
  { session with
    writes := session.writes ++ session.outgoingMessages.head?.toList.map fun post =>
      { post := post, completion := session.initialCompletion } }

/-- `session::post`. -/
def post (session : Session) (message : Post) : Session :=
  let writeOnIdle := session.outgoingMessages.isEmpty
  let session :=
    { session with
      outgoingMessages := session.outgoingMessages ++ [message]
      posted := session.posted ++ [message] }
  if writeOnIdle then session.asyncWrite else session

/-- `session::start`, after `remote_endpoint` has returned. -/
def start (session : Session) (remoteEndpoint : Bytes) : Session :=
  { session with name := bytes "[" ++ remoteEndpoint ++ bytes "]: " }.asyncRead

/-- `socket_.close()`: pending operations are aborted, queued completions
stay. -/
def close (session : Session) : Session :=
  let abort (completion : Option Completion) : Option Completion :=
    some (completion.getD { error := .operationAborted })
  { session with
    isOpen := false
    reads := session.reads.map fun read => { read with completion := abort read.completion }
    writes := session.writes.map fun write =>
      { write with completion := abort write.completion } }

/-- `session::on_error`. -/
def onError (session : Session) : Session :=
  { session with hasFailed := true }.close

/-- `std::getline` on the buffer and the `consume` after it. -/
def takeLine (session : Session) (bytesTransferred : Nat) : Bytes × Session :=
  (firstLine newline session.buffer,
    { session with
      buffer := (afterLine newline session.buffer).drop bytesTransferred
      linesRead := session.linesRead + 1 })

/-- `session::on_write` without an error. -/
def popFront (session : Session) (written : Post) : Session :=
  let session :=
    { session with
      outgoingMessages := session.outgoingMessages.tail
      sent := session.sent ++ [written] }
  if session.outgoingMessages.isEmpty then session else session.asyncWrite

/-- `session::on_write` with an error. -/
def writeError (session : Session) : Session :=
  { session with writeFailed := true }.onError

/-! ### What happens to the operations of a session -/

/-- Bytes arrive for a pending read. -/
def arrive (session : Session) (index : Nat) (data : Bytes) : Session :=
  { session with
    buffer := session.buffer ++ data
    received := session.received ++ data
    reads := session.reads.set index { completion := lineCompletion (session.buffer ++ data) } }

def failRead (session : Session) (index : Nat) : Session :=
  { session with reads := session.reads.set index { completion := some { error := .failure } } }

def completeWrite (session : Session) (index : Nat) (written : Post) (error : ErrorCode) :
    Session :=
  { session with
    writes := session.writes.set index
      { post := written, completion := some { error := error } } }

/-- Take a read whose handler is about to run out of the queue. -/
def dequeueRead (session : Session) (index : Nat) : Session :=
  { session with reads := session.reads.eraseIdx index }

def dequeueWrite (session : Session) (index : Nat) : Session :=
  { session with writes := session.writes.eraseIdx index }

/-! ## The queue -/

/-- The session as a queue with one writer. -/
def writer (session : Session) : Writer Post where
  queue := session.outgoingMessages
  writing := session.writes.map Write.post
  posted := session.posted
  sent := session.sent
  failed := session.writeFailed

theorem writer_asyncWrite (session : Session) : session.asyncWrite.writer =
    { session.writer with
      writing := session.writer.writing ++ session.outgoingMessages.head?.toList } := by
  simp only [writer, asyncWrite, List.map_append, List.map_map]
  congr 2
  exact List.map_id' _

/-- Posting is posting to the queue. -/
theorem writer_post (session : Session) (message : Post) :
    (session.post message).writer = session.writer.post message := by
  by_cases none : session.outgoingMessages = []
  · have idle : session.writer.queue = [] := none
    simp only [post, none, List.isEmpty_nil, if_true, writer_asyncWrite, Writer.post, idle]
    rfl
  · have busy : session.writer.queue ≠ [] := none
    have filled : ¬ session.outgoingMessages.isEmpty = true := by
      simpa only [List.isEmpty_iff] using none
    simp only [post, if_neg filled, Writer.post, if_neg busy]
    rfl

theorem posted_post (session : Session) (message : Post) :
    (session.post message).posted = session.posted ++ [message] :=
  congrArg Writer.posted (writer_post session message)

/-- Closing the socket does not touch the queue. -/
@[simp] theorem writer_close (session : Session) : session.close.writer = session.writer := by
  simp only [writer, close, List.map_map]
  rfl

@[simp] theorem writer_onError (session : Session) : session.onError.writer = session.writer :=
  writer_close _

theorem length_writes_le_one {session : Session} (lawful : session.writer.Lawful) :
    session.writes.length ≤ 1 := by
  have single := lawful.single
  rwa [show session.writer.writing = session.writes.map Write.post from rfl,
    List.length_map] at single

theorem post_mem_writing {session : Session} {index : Nat} {write : Write}
    (listed : session.writes[index]? = some write) : write.post ∈ session.writer.writing :=
  List.mem_map.mpr ⟨write, List.mem_of_getElem? listed, rfl⟩

/-- The outcome of a write is not part of the queue. -/
theorem writer_completeWrite {session : Session} (lawful : session.writer.Lawful) {index : Nat}
    {write : Write} (listed : session.writes[index]? = some write) (error : ErrorCode) :
    (session.completeWrite index write.post error).writer = session.writer := by
  rcases eq_singleton_of_listed (length_writes_le_one lawful) listed with ⟨whole, first⟩
  subst first
  simp only [writer, completeWrite, whole]
  rfl

/-- A write that has succeeded. -/
theorem writer_popFront {session : Session} (lawful : session.writer.Lawful) {index : Nat}
    {write : Write} (listed : session.writes[index]? = some write) :
    ((session.dequeueWrite index).popFront write.post).writer =
      session.writer.wrote write.post := by
  have quiet := eraseIdx_of_listed (length_writes_le_one lawful) listed
  cases shape : session.outgoingMessages.tail with
  | nil =>
      simp only [popFront, dequeueWrite, quiet, shape, List.isEmpty_nil, if_true, Writer.wrote,
        writer]
      rfl
  | cons next later =>
      simp only [popFront, dequeueWrite, quiet, shape, List.isEmpty_cons, Bool.false_eq_true,
        if_false, Writer.wrote, writer]
      rfl

/-- A write that has failed. -/
theorem writer_writeError {session : Session} (lawful : session.writer.Lawful) {index : Nat}
    {write : Write} (listed : session.writes[index]? = some write) :
    (session.dequeueWrite index).writeError.writer = session.writer.fail := by
  have quiet := eraseIdx_of_listed (length_writes_le_one lawful) listed
  rw [writeError, writer_onError]
  simp only [dequeueWrite, quiet, Writer.fail, writer]
  rfl

/-! ## The input

`on_read` begins no other read, so a session has one read in its life.  Until
its handler runs, the buffer holds everything that has been received. -/

structure Reading (session : Session) : Prop where
  single : session.reads.length ≤ 1
  first : session.reads ≠ [] → session.linesRead = 0
  whole : session.linesRead = 0 → session.buffer = session.received
  ended : ∀ read ∈ session.reads, ∀ completion, read.completion = some completion →
    completion.error = .success → newline ∈ session.buffer

theorem lineCompletion_success {buffer : Bytes} {completion : Completion}
    (found : lineCompletion buffer = some completion) : newline ∈ buffer := by
  by_contra absent
  rw [lineCompletion, if_neg absent] at found
  cases found

/-- Closing the socket begins no read. -/
theorem close_reads {session : Session} (none : session.reads = []) : session.close.reads = [] := by
  rw [close, none]
  rfl

theorem initialCompletion_error {session : Session} {completion : Completion}
    (failed : session.initialCompletion = some completion) : completion.error ≠ .success := by
  unfold initialCompletion at failed
  split at failed
  · cases failed
  · cases failed
    intro impossible
    cases impossible

/-- The part of a session that its queue does not concern. -/
structure Input where
  isOpen : Bool
  buffer : Bytes
  name : Bytes
  reads : List Read
  received : Bytes
  linesRead : Nat

def input (session : Session) : Input where
  isOpen := session.isOpen
  buffer := session.buffer
  name := session.name
  reads := session.reads
  received := session.received
  linesRead := session.linesRead

theorem post_input (session : Session) (message : Post) :
    (session.post message).input = session.input := by
  unfold post
  dsimp only
  split <;> rfl

theorem popFront_input (session : Session) (written : Post) :
    (session.popFront written).input = session.input := by
  unfold popFront
  dsimp only
  split <;> rfl

namespace Reading

variable {session other : Session}

theorem empty : Reading {} where
  single := Nat.zero_le 1
  first := fun _ => rfl
  whole := fun _ => rfl
  ended := fun _ listed => absurd listed List.not_mem_nil

theorem congr (reading : session.Reading) (same : other.input = session.input) :
    other.Reading where
  single := by
    rw [show other.reads = session.reads from congrArg Input.reads same]
    exact reading.single
  first := by
    rw [show other.reads = session.reads from congrArg Input.reads same,
      show other.linesRead = session.linesRead from congrArg Input.linesRead same]
    exact reading.first
  whole := by
    rw [show other.linesRead = session.linesRead from congrArg Input.linesRead same,
      show other.buffer = session.buffer from congrArg Input.buffer same,
      show other.received = session.received from congrArg Input.received same]
    exact reading.whole
  ended := by
    rw [show other.reads = session.reads from congrArg Input.reads same,
      show other.buffer = session.buffer from congrArg Input.buffer same]
    exact reading.ended

theorem post (reading : session.Reading) (message : Post) : (session.post message).Reading :=
  reading.congr (post_input session message)

/-- The read of a session that has just been accepted. -/
theorem start (reading : session.Reading) (none : session.reads = [])
    (unread : session.linesRead = 0) (remoteEndpoint : Bytes) :
    (session.start remoteEndpoint).Reading where
  single := by
    simp only [Session.start, asyncRead, none, List.nil_append, List.length_singleton]
    exact Nat.le_refl 1
  first := fun _ => unread
  whole := reading.whole
  ended := by
    simp only [Session.start, asyncRead, none, List.nil_append, List.mem_singleton]
    rintro read rfl completion outcome success
    cases found : lineCompletion session.buffer with
    | some _ => exact lineCompletion_success found
    | none =>
        rw [found, Option.none_or] at outcome
        exact absurd success (initialCompletion_error outcome)

/-- The delimiter completes the read when it arrives. -/
theorem arrive (reading : session.Reading) {index : Nat} {read : Read}
    (listed : session.reads[index]? = some read) (data : Bytes) :
    (session.arrive index data).Reading where
  single := by
    rw [Session.arrive, List.length_set]
    exact reading.single
  first := fun _ => reading.first (List.ne_nil_of_mem (List.mem_of_getElem? listed))
  whole := fun unread => congrArg (fun buffer => buffer ++ data) (reading.whole unread)
  ended := by
    simp only [Session.arrive, set_of_listed reading.single listed, List.mem_singleton]
    rintro _ rfl completion outcome _
    exact lineCompletion_success outcome

theorem failRead (reading : session.Reading) {index : Nat} {read : Read}
    (listed : session.reads[index]? = some read) : (session.failRead index).Reading where
  single := by
    rw [Session.failRead, List.length_set]
    exact reading.single
  first := fun _ => reading.first (List.ne_nil_of_mem (List.mem_of_getElem? listed))
  whole := reading.whole
  ended := by
    simp only [Session.failRead, set_of_listed reading.single listed, List.mem_singleton]
    rintro _ rfl completion outcome success
    cases outcome
    cases success

/-- An aborted read does not find a delimiter. -/
theorem close (reading : session.Reading) : session.close.Reading where
  single := by
    rw [Session.close, List.length_map]
    exact reading.single
  first := by
    intro pending
    refine reading.first fun none => pending ?_
    rw [Session.close, none]
    rfl
  whole := reading.whole
  ended := by
    intro read listed completion outcome success
    rcases List.mem_map.mp listed with ⟨before, known, rfl⟩
    cases queued : before.completion with
    | some earlier =>
        rw [queued] at outcome
        cases outcome
        exact reading.ended before known earlier queued success
    | none =>
        rw [queued] at outcome
        cases outcome
        cases success

theorem onError (reading : session.Reading) : session.onError.Reading := by
  refine Reading.close ?_
  exact reading.congr rfl

theorem dequeueRead (reading : session.Reading) (index : Nat) :
    (session.dequeueRead index).Reading where
  single := Nat.le_trans (List.length_eraseIdx_le _ _) reading.single
  first := by
    intro pending
    refine reading.first fun none => pending ?_
    rw [Session.dequeueRead, none]
    rfl
  whole := reading.whole
  ended := fun read listed => reading.ended read (List.mem_of_mem_eraseIdx listed)

/-- After its line has been taken a session has no read. -/
theorem takeLine (reading : session.Reading) {index : Nat} {read : Read}
    (listed : session.reads[index]? = some read) (bytesTransferred : Nat) :
    ((session.dequeueRead index).takeLine bytesTransferred).2.Reading where
  single := (reading.dequeueRead index).single
  first := fun pending => absurd (eraseIdx_of_listed reading.single listed) pending
  whole := fun impossible => absurd impossible (Nat.succ_ne_zero _)
  ended := by
    intro other remaining
    have none := eraseIdx_of_listed reading.single listed
    change other ∈ session.reads.eraseIdx index at remaining
    rw [none] at remaining
    cases remaining

end Reading
end Session
end Chat
end LearnAsio
