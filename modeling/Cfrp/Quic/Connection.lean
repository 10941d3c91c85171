import Cfrp.Lib.Table
import Cfrp.Quic.Stream
import Cfrp.Quic.Write

/-!
# A QUIC session with its streams

`streams_` and the write queue of one session, and every `QuicStream` that was made for it.
The streams keep only a weak pointer, so they can outlive the session. What ngtcp2 does is
the environment: it opens streams, delivers blocks and the end of a stream, and answers the
calls of `do_write`. A posted handler is called once, so the calls of a handler are its
posts; those are kept with the stream, and for the writes in `posted` of the session.

`write_stream` looks at `closed_notified_` before it takes the lock, and `close_session` is
not run on the strand: it can come in between. So a write is two steps, and in between
nothing happens that needs the strand.
-/

namespace Cfrp.Quic

open Lib Mux

/-- A stream object. `asked` and `completions` are the handlers of its reads, as they came in
and as they were posted; `closeCalled` is whether `close` has been called. -/
structure StreamObj where
  id : StreamId
  stream : QuicStream := {}
  asked : List Handler := []
  completions : List Completion := []
  closeCalled : Bool := false

/-- A write as it came in. `hollow` is whether it went into the queue with nothing but empty
buffers. -/
structure Submission where
  streamId : StreamId
  handler : HandlerId
  hollow : Bool

/-- A write that has found the session open and has not taken the lock. -/
structure Entering where
  streamId : StreamId
  buffers : List (List Byte)

structure Connection where
  /-- Whether the session still exists. -/
  alive : Bool := true
  session : QuicSession Byte := {}
  objs : List StreamObj := []
  /-- `streams_`. -/
  streams : Table StreamId Nat := ∅
  submitted : List Submission := []
  entering : Option Entering := none

/-- Buffers, but no byte in them. -/
def hollow (buffers : List (List Byte)) : Bool := !buffers.isEmpty && buffers.flatten.isEmpty

def StreamObj.after (r : QuicStream × List StreamEffect) (obj : StreamObj) : StreamObj :=
  { obj with stream := r.1, completions := obj.completions ++ posts r.2 }

namespace Connection

def modifyObj (c : Connection) (o : Nat) (f : StreamObj → StreamObj) : Connection :=
  { c with objs := c.objs.modify o f }

/-- `handle_close` of every stream of `streams_`, which is emptied. -/
def closeStreams (c : Connection) : Connection :=
  { c with
    streams := ∅
    objs := c.objs.mapIdx fun o obj =>
      if c.streams.lookup obj.id = some o then obj.after obj.stream.handleClose else obj }

/-- `close_session`, and `check_closed` when ngtcp2 has closed the connection. -/
def closeSession (c : Connection) : Connection :=
  if c.session.closedNotified then c
  else { c with session := c.session.closeSession }.closeStreams

/-- `do_write` has run. A send that fails in it closes the session. -/
def afterWrite (c : Connection) (session : QuicSession Byte) : Connection :=
  if session.closedNotified && !c.session.closedNotified then
    { c with session }.closeStreams
  else { c with session }

/-- `QuicStream::async_write`, up to the lock of `write_stream`. -/
def write (c : Connection) (streamId : StreamId) (buffers : List (List Byte)) : Connection :=
  if c.alive && !c.session.closedNotified then
    { c with entering := some ⟨streamId, buffers⟩ }
  else
    { c with
      session := c.session.refuse c.submitted.length .connectionReset
      submitted := c.submitted ++ [⟨streamId, c.submitted.length, false⟩] }

/-- Whether there is room in the queue. -/
def room (c : Connection) : Bool :=
  decide (c.session.writeQueue.length < QuicSession.maxPendingWrites)

/-- The rest of `write_stream`. -/
def push (c : Connection) (w : Entering) (calls : List Writev) : Connection :=
  let submission : Submission :=
    ⟨w.streamId, c.submitted.length, c.room && hollow w.buffers⟩
  { c with entering := none, submitted := c.submitted ++ [submission] }.afterWrite
    (c.session.pushWrite w.streamId w.buffers c.submitted.length calls)

/-- `on_stream_data`. -/
def streamData (c : Connection) (streamId : StreamId) (bytes : List Byte) : Connection :=
  match c.streams.lookup streamId with
  | some o => c.modifyObj o fun obj => obj.after (obj.stream.handleData bytes)
  | none =>
      let obj : StreamObj := { id := streamId }
      { c with
        objs := c.objs ++ [obj.after (obj.stream.handleData bytes)]
        streams := c.streams.insert streamId c.objs.length }

/-- `on_stream_close`. -/
def streamClose (c : Connection) (streamId : StreamId) : Connection :=
  match c.streams.lookup streamId with
  | some o =>
      { c with streams := c.streams.erase streamId }.modifyObj o fun obj =>
        obj.after obj.stream.handleClose
  | none => c

inductive Event where
  /-- `open_stream`, with the identifier ngtcp2 gives it. -/
  | openStream (streamId : StreamId)
  | streamData (streamId : StreamId) (bytes : List Byte)
  | streamClose (streamId : StreamId)
  | asyncRead (o : Nat) (size : Nat) (readAll : Bool)
  | asyncWrite (o : Nat) (buffers : List (List Byte))
  /-- `write_stream` takes the lock. The write owns the session until then. -/
  | enqueue (calls : List Writev)
  /-- From `send_packets`, or from the retry timer. -/
  | doWrite (calls : List Writev)
  /-- `close` of a stream. What `close_stream` goes on to send is an event of its own. -/
  | close (o : Nat)
  | closeSession
  /-- The last owner of the session lets it go. -/
  | expire

/-- What needs no strand, or is on it already. -/
def offStrand : Event → Bool
  | .openStream _ | .enqueue _ | .closeSession => true
  | _ => false

/-- An event, once its turn has come. -/
def act (c : Connection) : Event → Option Connection
  | .openStream streamId =>
      if c.alive && !c.session.closedNotified && (c.streams.lookup streamId).isNone then
        some { c with
          objs := c.objs ++ [{ id := streamId }]
          streams := c.streams.insert streamId c.objs.length }
      else none
  | .streamData streamId bytes =>
      if c.alive && !c.session.closedNotified then some (c.streamData streamId bytes) else none
  | .streamClose streamId =>
      if c.alive && !c.session.closedNotified then some (c.streamClose streamId) else none
  | .asyncRead o size readAll =>
      (c.objs[o]?).map fun _ => c.modifyObj o fun obj =>
        { obj with asked := obj.asked ++ [obj.asked.length] }.after
          (obj.stream.asyncRead size obj.asked.length readAll)
  | .asyncWrite o buffers => (c.objs[o]?).map fun obj => c.write obj.id buffers
  | .enqueue calls => if c.alive then c.entering.map fun w => c.push w calls else none
  | .doWrite calls => if c.alive then some (c.afterWrite (c.session.doWrite calls)) else none
  | .close o =>
      (c.objs[o]?).map fun _ => c.modifyObj o fun obj =>
        { obj with closeCalled := true }.after obj.stream.close
  | .closeSession => if c.alive then some c.closeSession else none
  | .expire =>
      -- the destructor's `handle_close` finds no session any more and completes nothing
      if c.alive then
        some { c with
          alive := false
          streams := ∅
          objs := c.objs.mapIdx fun o obj =>
            let closed := obj.stream.closed || decide (c.streams.lookup obj.id = some o)
            { obj with stream := { obj.stream with session := false, closed } } }
      else none

def step (c : Connection) (e : Event) : Option Connection :=
  if c.entering.isSome && !offStrand e then none else c.act e

end Connection

end Cfrp.Quic
