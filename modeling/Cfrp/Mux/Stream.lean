import Cfrp.Lib.Loop
import Cfrp.Mux.Header

/-!
# One stream of a session

`MuxStream` and its operations, as they run on the stream's strand. What an operation
does outside the stream is a list of effects: a handler posted to the strand, a frame
given to `Session::async_send_frame`, the call of `Session::remove_stream`. A handler
is a number, and a completion says what it is called with; for a read that includes
the bytes copied into the caller's buffer.

The two loops, `do_write` and `do_read_from_buffer`, are given by their bodies.
-/

namespace Cfrp.Mux

open Lib

abbrev Handler := Nat

/-- The error codes handlers are called with. -/
inductive ErrorCode where
  | success
  | eof
  | operationAborted
  | noBufferSpace
  | connectionReset
  | ioError
  deriving DecidableEq, Repr

/-- A call of a handler. `bytes` is what a read put into the caller's buffer. -/
structure Completion where
  handler : Handler
  ec : ErrorCode := .success
  count : Nat := 0
  bytes : List Byte := []
  deriving DecidableEq, Repr

/-- The handlers given to `async_send_frame`. -/
inductive Callback where
  | none
  /-- After a partial send: an error fails the pending writes of the stream. -/
  | failPending
  /-- After a full send: the handler of the write, and the length it reports. -/
  | invoke (handler : Handler) (toSend : Nat)
  deriving DecidableEq, Repr

inductive Effect where
  | post (c : Completion)
  | send (f : Frame) (cb : Callback)
  | removeStream
  deriving DecidableEq, Repr

structure PendingRead where
  size : Nat
  handler : Handler
  readAll : Bool
  deriving DecidableEq, Repr

structure PendingWrite where
  buffers : List (List Byte)
  handler : Handler
  deriving DecidableEq, Repr

/-- The window both ends of a stream start with. -/
def initialWindowSize : Nat := 131072

/-- Consumed bytes are credited in batches of at least this many. -/
def windowUpdateThreshold : Nat := 32768

/-- `kMuxStreamMaxPendingReads`. -/
def maxPendingReads : Nat := 1024

/-- `kMuxStreamMaxPendingWrites`. -/
def maxPendingWrites : Nat := 1024

structure MuxStream where
  id : UInt32
  /-- Whether `session_.lock()` still finds the session. -/
  session : Bool := true
  remoteWindowSize : Nat := initialWindowSize
  consumedSinceLastUpdate : Nat := 0
  readQueue : List (List Byte) := []
  readQueueOffset : Nat := 0
  pendingReads : List PendingRead := []
  pendingWrites : List PendingWrite := []
  localClosed : Bool := false
  remoteClosed : Bool := false
  deriving DecidableEq, Repr

/-! ## do_write -/

/-- The number of bytes in a buffer sequence. -/
def totalLength (bufs : List (List Byte)) : Nat := (bufs.map List.length).sum

/-- The first `n` bytes of a buffer sequence, as buffers. -/
def sliceBuffers : List (List Byte) → Nat → List (List Byte)
  | [], _ => []
  | b :: bs, remaining =>
      if remaining = 0 then []
      else
        let take := min remaining b.length
        b.take take :: sliceBuffers bs (remaining - take)

/-- A buffer sequence without its first `skipped` bytes. -/
def skipBuffers : List (List Byte) → Nat → List (List Byte)
  | [], _ => []
  | b :: bs, skipped =>
      if skipped ≥ b.length then skipBuffers bs (skipped - b.length)
      else b.drop skipped :: skipBuffers bs 0

namespace MuxStream

def dataHeader (s : MuxStream) (flags : UInt16) (length : Nat) : Header :=
  { version := 0, type := FrameType.data, flags, streamId := s.id, length := UInt32.ofNat length }

def windowUpdateHeader (s : MuxStream) (length : Nat) : Header :=
  { version := 0, type := FrameType.windowUpdate, flags := 0, streamId := s.id,
    length := UInt32.ofNat length }

/-- The body of the loop of `do_write`. -/
def writeTurn (s : MuxStream) : Option (MuxStream × List Effect) :=
  match s.pendingWrites with
  | [] => none
  | pw :: rest =>
      if s.remoteWindowSize = 0 then none
      else if totalLength pw.buffers = 0 then
        some ({ s with pendingWrites := rest }, [.post { handler := pw.handler }])
      else
        -- never more than the receiver accepts in one frame
        let toSend := min (min (totalLength pw.buffers) s.remoteWindowSize) maxMessageSize
        if !s.session then
          some ({ s with pendingWrites := rest },
            [.post { handler := pw.handler, ec := .connectionReset }])
        else
          let f : Frame := ⟨s.dataHeader 0 toSend, sliceBuffers pw.buffers toSend⟩
          let window := s.remoteWindowSize - toSend
          if toSend < totalLength pw.buffers then
            let pw' := { pw with buffers := skipBuffers pw.buffers toSend }
            some ({ s with remoteWindowSize := window, pendingWrites := pw' :: rest },
              [.send f .failPending])
          else
            some ({ s with remoteWindowSize := window, pendingWrites := rest },
              [.send f (.invoke pw.handler toSend)])

/-- Every turn of `do_write` takes a write off the queue or some of the window. -/
def writeMeasure (s : MuxStream) : Nat := s.pendingWrites.length + s.remoteWindowSize

def doWrite (s : MuxStream) : MuxStream × List Effect := loop writeTurn s.writeMeasure s

/-! ## do_read_from_buffer -/

/-- `a - b` on `size_t`. -/
def sizeSub (a b : Nat) : Nat := if b ≤ a then a - b else 18446744073709551616 + a - b

/-- The copying loop: what it copies and how many bytes it counts, and the queue and the
offset it leaves. With an offset beyond the block it would read outside it; those bytes
are left out. -/
def copyOut : List (List Byte) → Nat → Nat → (List Byte × Nat) × (List (List Byte) × Nat)
  | [], offset, _ => (([], 0), ([], offset))
  | block :: q, offset, remaining =>
      if remaining = 0 then (([], 0), (block :: q, offset))
      else
        let toCopy := min remaining (sizeSub block.length offset)
        let here := (block.drop offset).take toCopy
        if offset + toCopy = block.length then
          let r := copyOut q 0 (remaining - toCopy)
          ((here ++ r.1.1, toCopy + r.1.2), r.2)
        else ((here, toCopy), (block :: q, offset + toCopy))

/-- `available`, as `do_read_from_buffer` computes it for a `read_all`. -/
def available (s : MuxStream) : Nat := sizeSub (totalLength s.readQueue) s.readQueueOffset

/-- The body of the loop of `do_read_from_buffer`. -/
def readTurn (s : MuxStream) : Option (MuxStream × List Effect) :=
  match s.pendingReads with
  | [] => none
  | pr :: rest =>
      if s.readQueue.isEmpty then
        if s.remoteClosed then
          some ({ s with pendingReads := rest }, [.post { handler := pr.handler, ec := .eof }])
        else none
      else if pr.readAll && decide (s.available < pr.size) && !s.remoteClosed then none
      else
        let r := copyOut s.readQueue s.readQueueOffset pr.size
        let consumed := s.consumedSinceLastUpdate + r.1.2
        let done : Effect := .post { handler := pr.handler, count := r.1.2, bytes := r.1.1 }
        let s' := { s with readQueue := r.2.1, readQueueOffset := r.2.2, pendingReads := rest }
        if consumed ≥ windowUpdateThreshold ∧ s.session = true then
          some ({ s' with consumedSinceLastUpdate := 0 },
            [done, .send ⟨s.windowUpdateHeader consumed, []⟩ .none])
        else some ({ s' with consumedSinceLastUpdate := consumed }, [done])

/-- `check_cleanup`. -/
def checkCleanup (s : MuxStream) : List Effect :=
  if s.localClosed && s.remoteClosed && s.readQueue.isEmpty && s.session then [.removeStream]
  else []

/-- `do_read_from_buffer`. -/
def doRead (s : MuxStream) : MuxStream × List Effect :=
  let r := loop readTurn s.pendingReads.length s
  (r.1, r.2 ++ r.1.checkCleanup)

/-! ## The operations -/

/-- `async_read` and `async_read_some`. -/
def asyncRead (s : MuxStream) (size : Nat) (handler : Handler) (readAll : Bool) :
    MuxStream × List Effect :=
  if s.pendingReads.length ≥ maxPendingReads then
    (s, [.post { handler, ec := .noBufferSpace }])
  else doRead { s with pendingReads := s.pendingReads ++ [⟨size, handler, readAll⟩] }

def asyncWrite (s : MuxStream) (buffers : List (List Byte)) (handler : Handler) :
    MuxStream × List Effect :=
  if s.pendingWrites.length ≥ maxPendingWrites then
    (s, [.post { handler, ec := .noBufferSpace }])
  else doWrite { s with pendingWrites := s.pendingWrites ++ [⟨buffers, handler⟩] }

/-- Every pending operation is posted with an error. -/
def abortEffects (s : MuxStream) : List Effect :=
  s.pendingReads.map (fun pr => .post { handler := pr.handler, ec := .operationAborted }) ++
    s.pendingWrites.map fun pw => .post { handler := pw.handler, ec := .operationAborted }

def close (s : MuxStream) : MuxStream × List Effect :=
  if s.localClosed then (s, [])
  else
    let fin : List Effect :=
      if s.session then [.send ⟨s.dataHeader Flags.fin 0, []⟩ .none] else []
    -- `read_queue_offset_` keeps its value
    let s' := { s with
      localClosed := true, pendingReads := [], pendingWrites := [], readQueue := [] }
    (s', fin ++ s.abortEffects ++ s'.checkCleanup)

/-- `~MuxStream`. -/
def destroy (s : MuxStream) : MuxStream × List Effect :=
  ({ s with localClosed := true, pendingReads := [], pendingWrites := [] }, s.abortEffects)

def handleData (s : MuxStream) (bytes : List Byte) : MuxStream × List Effect :=
  doRead { s with readQueue := s.readQueue ++ [bytes] }

def handleWindowUpdate (s : MuxStream) (delta : UInt32) : MuxStream × List Effect :=
  doWrite { s with remoteWindowSize := min (s.remoteWindowSize + delta.toNat) maxMessageSize }

def handleClose (s : MuxStream) : MuxStream × List Effect :=
  let r := doRead { s with remoteClosed := true }
  (r.1, r.2 ++ r.1.checkCleanup)

/-- What a stream does with what `handle_frame` passes to it. -/
def handle (s : MuxStream) : Arrival → MuxStream × List Effect
  | .data bytes => s.handleData bytes
  | .windowUpdate delta => s.handleWindowUpdate delta
  | .close => s.handleClose

/-- What the handler of a failed partial send posts to the strand. -/
def failWrites (s : MuxStream) (ec : ErrorCode) : MuxStream × List Effect :=
  ({ s with pendingWrites := [] },
    s.pendingWrites.map fun pw => .post { handler := pw.handler, ec })

end MuxStream

end Cfrp.Mux
