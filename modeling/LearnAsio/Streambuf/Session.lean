import LearnAsio.Chat.Session

namespace LearnAsio
namespace Streambuf

open Chat (Completion Read newline)
open Delivery Queue Transition

/-!
# One session of the streambuf server

This session reads lines and writes each of them back.  It differs from the
session of the chat server in two ways: `on_read` begins the next read, and the
text for the log is made by `name`, which asks an open socket for its peer.  If
the peer is gone, that call throws, out of `on_read` and out of `on_error`.

Reads and their completions are those of the chat server's session, since both
programs call `async_read_until` with the same delimiter.  What has been
received, pushed and sent is remembered beside the source's members, and so is
whether an error has been met.
-/

/-- An `async_write` whose handler has not run. -/
structure Write where
  message : Bytes
  completion : Option Completion := none
  deriving DecidableEq, Repr

/-- `class session`. -/
structure Session where
  isOpen : Bool := false
  buffer : Bytes := []
  messages : List Bytes := []
  reads : List Read := []
  writes : List Write := []
  received : Bytes := []
  pushed : List Bytes := []
  sent : List Bytes := []
  writeFailed : Bool := false
  hasFailed : Bool := false
  deriving DecidableEq, Repr

namespace Session

/-- How an operation begins on a socket: pending, or failed if it is closed.  A write of
an empty message is taken for one like any other, although `asio` may complete it
without an error and without asking the socket. -/
def initialCompletion (session : Session) : Option Completion :=
  if session.isOpen then none else some { error := .failure }

/-- `session::read`. -/
def read (session : Session) : Session :=
  { session with
    reads := session.reads ++
      [{ completion :=
          (Chat.Session.lineCompletion session.buffer).or session.initialCompletion }] }

/-- `session::write`, which writes the front of the queue. -/
def write (session : Session) : Session :=
  { session with
    writes := session.writes ++ session.messages.head?.toList.map fun message =>
      { message := message, completion := session.initialCompletion } }

/-- `session::start`. -/
def start (session : Session) : Session := session.read

/-- Does `session::name` throw when the peer is gone or still there? -/
def nameThrows (session : Session) (gone : Bool) : Bool := session.isOpen && gone

/-- `socket_.close()`: pending operations are aborted, queued completions
stay. -/
def close (session : Session) : Session :=
  let abort (completion : Option Completion) : Option Completion :=
    some (completion.getD { error := .operationAborted })
  { session with
    isOpen := false
    reads := session.reads.map fun read => { read with completion := abort read.completion }
    writes := session.writes.map fun write =>
      { write with completion := abort write.completion } }

/-- `session::on_error`, and whether an exception leaves it. -/
def onError (session : Session) (gone closeThrows : Bool) : Session × Bool :=
  let failed := { session with hasFailed := true }
  if session.nameThrows gone then (failed, true)
  else (failed.close, session.isOpen && closeThrows)

/-- `std::getline` on the buffer. -/
def getline (session : Session) : Bytes × Session :=
  (firstLine newline session.buffer,
    { session with buffer := afterLine newline session.buffer })

/-- `buffer_.consume`. -/
def consume (session : Session) (count : Nat) : Session :=
  { session with buffer := session.buffer.drop count }

/-- The line goes to the end of the queue, and is written at once if the queue
was empty. -/
def pushBack (session : Session) (line : Bytes) : Session :=
  let writeIdle := session.messages.isEmpty
  let session :=
    { session with messages := session.messages ++ [line], pushed := session.pushed ++ [line] }
  if writeIdle then session.write else session

/-- `session::on_read`, and whether an exception leaves it. -/
def onRead (session : Session) (completion : Completion) (gone closeThrows : Bool) :
    Session × Bool :=
  if completion.error ≠ .success then session.onError gone closeThrows
  else
    let (line, session) := session.getline
    if session.nameThrows gone then ({ session with hasFailed := true }, true)
    else (((session.consume completion.bytesTransferred).pushBack line).read, false)

/-- The part of `session::on_write` after the error check. -/
def popFront (session : Session) (written : Bytes) : Session :=
  let session :=
    { session with messages := session.messages.tail, sent := session.sent ++ [written] }
  if session.messages.isEmpty then session else session.write

/-- `session::on_write`, and whether an exception leaves it. -/
def onWrite (session : Session) (written : Bytes) (error : ErrorCode) (gone closeThrows : Bool) :
    Session × Bool :=
  if error ≠ .success then { session with writeFailed := true }.onError gone closeThrows
  else (session.popFront written, false)

/-! ### What happens to the operations of a session -/

/-- Bytes arrive for a pending read. -/
def arrive (session : Session) (index : Nat) (data : Bytes) : Session :=
  { session with
    buffer := session.buffer ++ data
    received := session.received ++ data
    reads := session.reads.set index
      { completion := Chat.Session.lineCompletion (session.buffer ++ data) } }

def failRead (session : Session) (index : Nat) : Session :=
  { session with reads := session.reads.set index { completion := some { error := .failure } } }

def completeWrite (session : Session) (index : Nat) (written : Bytes) (error : ErrorCode) :
    Session :=
  { session with
    writes := session.writes.set index
      { message := written, completion := some { error := error } } }

/-- Take a read whose handler is about to run out of the queue. -/
def dequeueRead (session : Session) (index : Nat) : Session :=
  { session with reads := session.reads.eraseIdx index }

def dequeueWrite (session : Session) (index : Nat) : Session :=
  { session with writes := session.writes.eraseIdx index }

/-! ## The queue -/

/-- The session as a queue with one writer. -/
def writer (session : Session) : Writer Bytes where
  queue := session.messages
  writing := session.writes.map Write.message
  posted := session.pushed
  sent := session.sent
  failed := session.writeFailed

@[simp] theorem writer_read (session : Session) : session.read.writer = session.writer := rfl

theorem writer_write (session : Session) : session.write.writer =
    { session.writer with
      writing := session.writer.writing ++ session.messages.head?.toList } := by
  simp only [writer, write, List.map_append, List.map_map]
  congr 2
  exact List.map_id' _

/-- Pushing a line is posting it to the queue. -/
theorem writer_pushBack (session : Session) (line : Bytes) :
    (session.pushBack line).writer = session.writer.post line := by
  by_cases none : session.messages = []
  · have idle : session.writer.queue = [] := none
    simp only [pushBack, none, List.isEmpty_nil, if_true, writer_write, Writer.post, idle]
    rfl
  · have busy : session.writer.queue ≠ [] := none
    have filled : ¬ session.messages.isEmpty = true := by
      simpa only [List.isEmpty_iff] using none
    simp only [pushBack, if_neg filled, Writer.post, if_neg busy]
    rfl

/-- Closing the socket does not touch the queue. -/
@[simp] theorem writer_close (session : Session) : session.close.writer = session.writer := by
  simp only [writer, close, List.map_map]
  rfl

@[simp] theorem writer_onError (session : Session) (gone closeThrows : Bool) :
    (session.onError gone closeThrows).1.writer = session.writer := by
  unfold onError
  dsimp only
  split
  · rfl
  · exact writer_close _

theorem length_writes_le_one {session : Session} (lawful : session.writer.Lawful) :
    session.writes.length ≤ 1 := by
  have single := lawful.single
  rwa [show session.writer.writing = session.writes.map Write.message from rfl,
    List.length_map] at single

theorem message_mem_writing {session : Session} {index : Nat} {write : Write}
    (listed : session.writes[index]? = some write) : write.message ∈ session.writer.writing :=
  List.mem_map.mpr ⟨write, List.mem_of_getElem? listed, rfl⟩

/-- The outcome of a write is not part of the queue. -/
theorem writer_completeWrite {session : Session} (lawful : session.writer.Lawful) {index : Nat}
    {write : Write} (listed : session.writes[index]? = some write) (error : ErrorCode) :
    (session.completeWrite index write.message error).writer = session.writer := by
  rcases eq_singleton_of_listed (length_writes_le_one lawful) listed with ⟨whole, first⟩
  subst first
  simp only [writer, completeWrite, whole]
  rfl

/-- A write that has succeeded. -/
theorem writer_popFront {session : Session} (lawful : session.writer.Lawful) {index : Nat}
    {write : Write} (listed : session.writes[index]? = some write) :
    ((session.dequeueWrite index).popFront write.message).writer =
      session.writer.wrote write.message := by
  have quiet := eraseIdx_of_listed (length_writes_le_one lawful) listed
  cases shape : session.messages.tail with
  | nil =>
      simp only [popFront, dequeueWrite, quiet, shape, List.isEmpty_nil, if_true, Writer.wrote,
        writer]
      rfl
  | cons next later =>
      simp only [popFront, dequeueWrite, quiet, shape, List.isEmpty_cons, Bool.false_eq_true,
        if_false, Writer.wrote, writer]
      rfl

/-- A write that has failed, before `on_error`. -/
theorem writer_writeFailed {session : Session} (lawful : session.writer.Lawful) {index : Nat}
    {write : Write} (listed : session.writes[index]? = some write) :
    ({ session.dequeueWrite index with writeFailed := true } : Session).writer =
      session.writer.fail := by
  have quiet := eraseIdx_of_listed (length_writes_le_one lawful) listed
  simp only [dequeueWrite, quiet, Writer.fail, writer]
  rfl

end Session
end Streambuf
end LearnAsio
