/-
  Network/IoTasks.lean
  ====================
  **A connection and its four tasks** — `spawn_io_tasks` gives each end of a connection a reader task
  and a writer task.  The reader forwards what `read_frame` returns into the inbound channel, the
  writer writes what it takes from the outbound channel; a task that leaves its loop closes both
  channels, discards what is left in the outbound one, and drops its half of the stream.

  The tasks run in parallel with each other and with the application, so every close, every frame
  that is discarded and every write of the socket is a step of its own (`Event`).  The network keeps
  the bytes of each direction in their order; it may break at any time.

  A direction holds a bounded number of bytes (`capacity`): where it is full, `write_all` waits, and
  the writer does not listen to the token while it waits.

  Left out: the branches of `select!` that only log, and the fallback coordinator's registration.
  The fallback token ends a task as the cancellation token does.
-/
import Sv2Apps.Network.NoiseStream

namespace Sv2Apps.Network

variable {c : Codec}

/-! ## 1. One end -/

/-- An unbounded `async_channel`. -/
structure Channel (α : Type) where
  queue : List α
  closed : Bool

namespace Channel

def unbounded {α : Type} : Channel α := ⟨[], false⟩

def push {α : Type} (ch : Channel α) (a : α) : Channel α := { ch with queue := ch.queue ++ [a] }

def close {α : Type} (ch : Channel α) : Channel α := { ch with closed := true }

/-- One turn of the loop of `close_and_drain`. -/
def pop {α : Type} (ch : Channel α) : Channel α := { ch with queue := ch.queue.tail }

end Channel

inductive App where
  | pool
  | jdServer
  | jdClient
  | translator
deriving DecidableEq

/-- The server of job declarations only closes the outbound channel. -/
def App.drains : App → Bool
  | .jdServer => false
  | _ => true

inductive Task where
  | reader
  | writer
deriving DecidableEq

inductive TaskState where
  /-- In its loop. -/
  | running
  /-- Past its loop. -/
  | leaving
  /-- Its half of the stream is dropped. -/
  | exited
deriving DecidableEq

inductive Pipe where
  | inbound
  | outbound
deriving DecidableEq

structure Endpoint (c : Codec) where
  app : App
  /-- The token that the tasks listen to has fired. -/
  cancelled : Bool
  inbound : Channel c.SerializedFrame
  outbound : Channel c.SerializedFrame
  reader : Inbound c
  readerTask : TaskState
  writer : NoiseTcpWriteHalf c
  /-- What `write_all` has still to write. -/
  writing : Option (List UInt8)
  writerTask : TaskState
  /-- The frames that the application has put into the outbound channel. -/
  handed : List c.SerializedFrame
  /-- The frames that the writer has taken out of it, and the number of those that were discarded. -/
  taken : List c.SerializedFrame
  drained : Nat
  /-- What the writer has put on the wire. -/
  sent : List UInt8
  /-- The frames that the application has taken out of the inbound channel. -/
  received : List c.SerializedFrame

namespace Endpoint

def new (app : App) (decoder : c.Decoder) (decrypt : c.DecryptState) (writer : NoiseTcpWriteHalf c) :
    Endpoint c where
  app := app
  cancelled := false
  inbound := .unbounded
  outbound := .unbounded
  reader := .start decoder decrypt
  readerTask := .running
  writer := writer
  writing := none
  writerTask := .running
  handed := []
  taken := []
  drained := 0
  sent := []
  received := []

def task (e : Endpoint c) : Task → TaskState
  | .reader => e.readerTask
  | .writer => e.writerTask

def setTask (e : Endpoint c) (task : Task) (state : TaskState) : Endpoint c :=
  match task with
  | .reader => { e with readerTask := state }
  | .writer => { e with writerTask := state }

/-- A reader that leaves its loop drops the call of `read_frame`. -/
def leave (e : Endpoint c) (task : Task) : Endpoint c :=
  match task with
  | .reader => { e with reader := e.reader.step .dropCall, readerTask := .leaving }
  | .writer => { e with writerTask := .leaving }

def pipe (e : Endpoint c) : Pipe → Channel c.SerializedFrame
  | .inbound => e.inbound
  | .outbound => e.outbound

def close (e : Endpoint c) : Pipe → Endpoint c
  | .inbound => { e with inbound := e.inbound.close }
  | .outbound => { e with outbound := e.outbound.close }

/-- The match of the reader on the result of `read_frame`, once it has returned. -/
def serve (e : Endpoint c) (reader : Inbound c)
    (p : NoiseTcpReadHalf c × Poll c.SerializedFrame c.CodecError) : Endpoint c :=
  let e := { e with reader := reader.settle p }
  match p.2 with
  | .pending _ => e
  | .ready (.error _) => { e with readerTask := .leaving }
  | .ready (.ok frame) =>
    if e.inbound.closed then { e with readerTask := .leaving }
    else { e with inbound := e.inbound.push frame }

/-- The writer has taken a frame. -/
def write (e : Endpoint c) (frame : c.SerializedFrame) : Endpoint c :=
  let e := { e with outbound := e.outbound.pop, taken := e.taken ++ [frame] }
  match e.writer.encode frame with
  | (writer, .ok bytes) => { e with writer, writing := if bytes.isEmpty then none else some bytes }
  | (writer, .error _) => { e with writer, writerTask := .leaving }

end Endpoint

/-! ## 2. The steps of one end -/

inductive Event (Frame : Type) where
  /-- The application: it uses its ends of the two channels, and cancels. -/
  | send (frame : Frame)
  | receive
  | appCloses (pipe : Pipe)
  | cancel
  /-- A task meets the token in its `select!`. -/
  | stop (task : Task)
  /-- The reader: `read_frame` is called, goes on with bytes, at the end of the stream, and after a
  yield. -/
  | read
  | poll (n : Nat)
  | eof
  | wake
  /-- The writer: `recv` returns a frame or an error, `write_all` writes some bytes, or it fails as
  the other end has dropped both halves. -/
  | take
  | outboundClosed
  | writeSome (n : Nat)
  | refused
  /-- The network: a read or a write fails. -/
  | lost
  | writeFails
  /-- A task that has left its loop. -/
  | closes (task : Task) (pipe : Pipe)
  | drains (task : Task)
  | exits (task : Task)
deriving DecidableEq

/-- Neither the application nor the network is needed. -/
def Event.ofTasks {Frame : Type} : Event Frame → Bool
  | .send _ | .receive | .appCloses _ | .cancel | .lost | .writeFails => false
  | _ => true

/-- A call of `read_frame` begins or goes on. -/
def Event.ofReader {Frame : Type} : Event Frame → Bool
  | .read | .poll _ | .eof | .wake | .lost => true
  | _ => false

/-- What an end meets at the other side of its socket. -/
structure Remote where
  /-- The write half there is dropped. -/
  writerGone : Bool
  /-- Both halves are. -/
  gone : Bool
  /-- The number of bytes that the direction to it still takes. -/
  room : Nat

namespace Endpoint

/-- The task is in its `select!`; a writer is not while it writes. -/
def selects (e : Endpoint c) : Task → Bool
  | .reader => e.readerTask = .running
  | .writer => e.writerTask = .running && e.writing.isNone

/-- The call of the reader is suspended there. -/
def awaits (e : Endpoint c) (at_ : Await) : Bool :=
  e.readerTask = .running && e.reader.call = some at_

def can (e : Endpoint c) (remote : Remote) : Event c.SerializedFrame → Bool
  | .send _ => !e.outbound.closed
  | .receive => !e.inbound.queue.isEmpty
  | .appCloses _ => true
  | .cancel => true
  | .stop task => e.cancelled && e.selects task
  | .read => e.readerTask = .running && e.reader.call.isNone
  | .poll n => e.awaits .read && !e.reader.socket.isEmpty && 0 < n
  | .eof => e.awaits .read && e.reader.socket.isEmpty && remote.writerGone
  | .wake => e.awaits .yieldNow
  | .take => e.selects .writer && !e.outbound.queue.isEmpty
  | .outboundClosed => e.selects .writer && e.outbound.queue.isEmpty && e.outbound.closed
  | .writeSome n => e.writerTask = .running && e.writing.isSome && 0 < n && n ≤ remote.room
  | .refused => e.writerTask = .running && e.writing.isSome && remote.gone
  | .lost => e.awaits .read
  | .writeFails => e.writerTask = .running && e.writing.isSome
  | .closes task pipe => e.task task = .leaving && !(e.pipe pipe).closed
  | .drains task => e.task task = .leaving && e.app.drains && e.outbound.closed &&
      !e.outbound.queue.isEmpty
  | .exits task => e.task task = .leaving && e.inbound.closed && e.outbound.closed &&
      (!e.app.drains || e.outbound.queue.isEmpty)

def perform (e : Endpoint c) : Event c.SerializedFrame → Endpoint c
  | .send frame => { e with outbound := e.outbound.push frame, handed := e.handed ++ [frame] }
  | .receive =>
    { e with inbound := e.inbound.pop, received := e.received ++ e.inbound.queue.head?.toList }
  | .appCloses pipe => e.close pipe
  | .cancel => { e with cancelled := true }
  | .stop task => e.leave task
  | .read => e.serve e.reader e.reader.half.readFrame
  | .poll n =>
    let a := Inbound.answer e.reader.half e.reader.socket (.upTo n)
    e.serve { e.reader with socket := a.2 } (e.reader.half.resume .read a.1)
  | .eof | .lost => e.serve e.reader (e.reader.half.resume .read .closed)
  | .wake => e.serve e.reader (e.reader.half.resume .yieldNow .wouldBlock)
  | .take =>
    match e.outbound.queue with
    | frame :: _ => e.write frame
    | [] => e
  | .outboundClosed | .refused | .writeFails => e.leave .writer
  | .writeSome n =>
    let rest := (e.writing.getD []).drop n
    { e with
      writing := if rest.isEmpty then none else some rest
      sent := e.sent ++ (e.writing.getD []).take n }
  | .closes _ pipe => e.close pipe
  | .drains _ => { e with outbound := e.outbound.pop, drained := e.drained + 1 }
  | .exits task => e.setTask task .exited

/-- What the step puts on the wire. -/
def written (e : Endpoint c) : Event c.SerializedFrame → List UInt8
  | .writeSome n => (e.writing.getD []).take n
  | _ => []

def arrive (e : Endpoint c) (bytes : List UInt8) : Endpoint c :=
  { e with reader := e.reader.step (.arrive bytes) }

end Endpoint

/-! ## 3. Both ends -/

inductive Side where
  | initiator
  | responder
deriving DecidableEq

def Side.peer : Side → Side
  | .initiator => .responder
  | .responder => .initiator

@[simp] theorem Side.peer_peer (side : Side) : side.peer.peer = side := by cases side <;> rfl

theorem Side.peer_ne (side : Side) : side.peer ≠ side := by cases side <;> simp [peer]

theorem Side.eq_or_eq_peer (side other : Side) : other = side ∨ other = side.peer := by
  cases side <;> cases other <;> simp [peer]

def Connection (c : Codec) : Type := Side → Endpoint c

namespace Connection

def start (app : Side → App) (decoder : Side → c.Decoder) (decrypt : Side → c.DecryptState)
    (writer : Side → NoiseTcpWriteHalf c) : Connection c :=
  fun side => .new (app side) (decoder side) (decrypt side) (writer side)

/-- `capacity side` is the number of bytes that can be on their way to `side`. -/
def remote (capacity : Side → Nat) (s : Connection c) (side : Side) : Remote where
  writerGone := (s side.peer).writerTask = .exited
  gone := (s side.peer).readerTask = .exited ∧ (s side.peer).writerTask = .exited
  room := capacity side.peer - (s side.peer).reader.socket.length

def enabled (capacity : Side → Nat) (s : Connection c) (side : Side)
    (e : Event c.SerializedFrame) : Bool :=
  (s side).can (s.remote capacity side) e

def step (capacity : Side → Nat) (s : Connection c) (a : Side × Event c.SerializedFrame) :
    Connection c :=
  if s.enabled capacity a.1 a.2 then
    fun side =>
      if side = a.1 then (s a.1).perform a.2 else (s side).arrive ((s a.1).written a.2)
  else s

end Connection

end Sv2Apps.Network
