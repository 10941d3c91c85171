import Cfrp.Lib.Draining
import Cfrp.Lib.Transition
import Cfrp.Websocket.Frame

/-!
# WebsocketStream

One end of a WebSocket connection after the handshake. What is posted to `strand_` runs
in its order; `handed` is what the stream has handed to the transport. On the other side
`input` is what has come from the transport and is not read, and `awaiting` the
`async_read` that is pending there. One user read is outstanding at a time. `accepted`,
`handed`, `fed`, `writes` and `reads` are history.

`do_write` binds the handler of a write to the strand, but a `std::function` does not keep
that, so the handler runs on the thread of the transport, in between the steps of the strand.
Each of them is one step here.
-/

namespace Cfrp.Websocket

open Lib
open Mux (maxMessageSize)

/-- What is posted to the strand. -/
inductive Job where
  | write (buffers : List (List Byte))
  | pong (payload : List Byte)
  deriving DecidableEq

/-- `struct WriteOp`. The handler of an `async_write` reports its length; that of a pong
reports nothing. -/
structure WriteOp where
  buffers : List (List Byte)
  reports : Option Nat

inductive ReadError where
  | success
  | eof
  | noBufferSpace
  /-- Any error of the transport. -/
  | transport
  deriving DecidableEq

/-- A user's read: `async_read`, which fills its buffer, or `async_read_some`. -/
structure ReadOp where
  all : Bool
  /-- The size of the user's buffer, and what is left of it. -/
  want : Nat
  size : Nat
  got : List Byte := []
  deriving DecidableEq

structure ReadResult where
  op : ReadOp
  ec : ReadError
  deriving DecidableEq

/-- The read that `ReadWsFrame` is at. -/
inductive Awaiting where
  | header
  | ext16 (opcode : Byte) (masked : Bool)
  | ext64 (opcode : Byte) (masked : Bool)
  | payload (opcode : Byte) (masked : Bool) (len : Nat)
  deriving DecidableEq

/-- The bytes it asks for. -/
def Awaiting.size : Awaiting → Nat
  | .header => 2
  | .ext16 _ _ => 2
  | .ext64 _ _ => 8
  | .payload _ masked len => len + if masked then 4 else 0

structure Stream where
  isClient : Bool
  posted : List Job := []
  writeQueue : List WriteOp := []
  isWriting : Bool := false
  completing : Completing := .idle
  /-- The strand has queued a frame and has yet to look at `is_writing_`. -/
  looking : Bool := false
  readBuffer : List Byte := []
  readOffset : Nat := 0
  readRemaining : Nat := 0
  awaiting : Option Awaiting := none
  readOp : Option ReadOp := none
  /-- Closed, or the transport failed. -/
  down : Bool := false
  input : List Byte := []
  accepted : List Job := []
  handed : List Byte := []
  fed : List Byte := []
  writes : List (Bool × Nat) := []
  reads : List ReadResult := []

/-! ## Writing -/

/-- The header `async_write` builds, without the mask. -/
def writeHeader (isClient : Bool) (len : Nat) : List Byte :=
  let maskBit : Byte := if isClient then 0x80 else 0x00
  if len ≤ 125 then [0x82, maskBit ||| UInt8.ofNat len]
  else if len ≤ 65535 then
    [0x82, maskBit ||| 126, UInt8.ofNat (len >>> 8), UInt8.ofNat len]
  else [0x82, maskBit ||| 127] ++ be 8 len

/-- The rest of `async_write`, on the strand. -/
def writeOp (isClient : Bool) (mask : Mask) (buffers : List (List Byte)) : WriteOp :=
  let payload := buffers.flatten
  let header := writeHeader isClient payload.length
  if isClient then
    { buffers := [header ++ mask.bytes, mask.apply payload], reports := some payload.length }
  else
    { buffers := header :: buffers.filter fun b => b.length > 0, reports := some payload.length }

/-- The rest of `SendPong`. -/
def pongOp (isClient : Bool) (mask : Mask) (payload : List Byte) : WriteOp :=
  if isClient then
    { buffers := [[0x8A, UInt8.ofNat payload.length ||| 0x80] ++ mask.bytes, mask.apply payload]
      reports := none }
  else { buffers := [[0x8A, UInt8.ofNat payload.length], payload], reports := none }

def Job.op (isClient : Bool) (mask : Mask) : Job → WriteOp
  | .write buffers => writeOp isClient mask buffers
  | .pong payload => pongOp isClient mask payload

namespace Stream

def post (s : Stream) (j : Job) : Stream :=
  { s with posted := s.posted ++ [j], accepted := s.accepted ++ [j] }

/-- `do_write`. -/
def doWrite (s : Stream) : Stream :=
  match s.writeQueue with
  | [] => s
  | op :: _ => { s with isWriting := true, handed := s.handed ++ op.buffers.flatten }

/-- What `async_write` or `SendPong` does once the frame is queued. -/
def look (s : Stream) : Stream :=
  if s.isWriting then { s with looking := false } else { s with looking := false }.doWrite

/-- The handler of the transport's `async_write`, up to where it looks at the queue. -/
def onWritten (s : Stream) (op : WriteOp) (queue : List WriteOp) (ok : Bool) : Stream :=
  { s with
    writeQueue := queue
    completing := .handling
    writes := s.writes ++ op.reports.toList.map fun n => (ok, n) }

/-- It goes on to the next frame, or finds none. -/
def proceed (s : Stream) : Stream :=
  if s.writeQueue ≠ [] then { s with completing := .idle }.doWrite
  else { s with completing := .ending }

/-- `is_writing_ = false`. -/
def reset (s : Stream) : Stream := { s with isWriting := false, completing := .idle }

/-- Nothing is being written, and nothing is about to be. -/
def idle (s : Stream) : Prop :=
  s.isWriting = false ∧ s.completing = .idle ∧ s.looking = false

/-! ## Reading -/

/-- The user's handler. -/
def complete (s : Stream) (op : ReadOp) (ec : ReadError) : Stream :=
  { s with readOp := none, reads := s.reads ++ [⟨op, ec⟩] }

/-- The handler `ReadWsFrame` was given is called with an error. -/
def fail (s : Stream) (ec : ReadError) : Stream :=
  match s.readOp with
  | none => s
  | some op => s.complete op ec

def close (s : Stream) : Stream := { s with down := true }

/-- `ReadWsFrame` for the given read. -/
def readWsFrame (s : Stream) (op : ReadOp) : Stream :=
  { s with readOp := some op, awaiting := some .header }

/-- The bytes of `read_buffer_` from `read_offset_` on. -/
def copyOut (s : Stream) (n : Nat) : List Byte := (s.readBuffer.drop s.readOffset).take n

/-- What is left of the last frame goes to the user first. -/
def copyLeft (s : Stream) (op : ReadOp) : Stream × ReadOp :=
  let toCopy := min s.readRemaining op.size
  ({ s with
      readOffset := s.readOffset + toCopy
      readRemaining := s.readRemaining - toCopy
      readBuffer := if s.readRemaining - toCopy = 0 then [] else s.readBuffer },
    { op with size := op.size - toCopy, got := op.got ++ s.copyOut toCopy })

/-- `async_read_some`. -/
def asyncReadSome (s : Stream) (op : ReadOp) : Stream :=
  if op.size = 0 then s.complete op .success
  else if s.readRemaining > 0 then (s.copyLeft op).1.complete (s.copyLeft op).2 .success
  else s.readWsFrame op

/-- `async_read`, which calls itself for what is left of the buffer. -/
def asyncRead (s : Stream) (op : ReadOp) : Stream :=
  if op.size = 0 then s.complete op .success
  else if s.readRemaining > 0 then
    if min s.readRemaining op.size < op.size then (s.copyLeft op).1.asyncRead (s.copyLeft op).2
    else (s.copyLeft op).1.complete (s.copyLeft op).2 .success
  else s.readWsFrame op
termination_by op.size
decreasing_by
  show op.size - min s.readRemaining op.size < op.size
  omega

/-- The handlers `async_read_some` and `async_read` give to `ReadWsFrame`. -/
def onFrame (s : Stream) (len : Nat) : Stream :=
  match s.readOp with
  | none => s
  | some op =>
      let toCopy := min len op.size
      let op' := { op with size := op.size - toCopy, got := op.got ++ s.copyOut toCopy }
      let s :=
        if len > toCopy then
          { s with readOffset := s.readOffset + toCopy, readRemaining := len - toCopy }
        else { s with readOffset := 0, readRemaining := 0, readBuffer := [] }
      if op.all ∧ toCopy < op.size then s.asyncRead op' else s.complete op' .success

/-- `next_step`, when the length is known. -/
def nextStep (s : Stream) (opcode : Byte) (masked : Bool) (len : Nat) : Stream :=
  if len > maxMessageSize then s.close.fail .noBufferSpace
  else { s with awaiting := some (.payload opcode masked len) }

/-- `ReadWsFrame` again, after a control frame. -/
def nextFrame (s : Stream) : Stream :=
  match s.readOp with
  | none => s
  | some op => s.readWsFrame op

/-- The handlers of the reads of `ReadWsFrame`. -/
def onRead (s : Stream) (data : List Byte) : Awaiting → Stream
  | .header =>
      let b0 := data.getD 0 0
      let b1 := data.getD 1 0
      let opcode := b0 &&& 0x0F
      let fin : Bool := b0 &&& 0x80 ≠ 0
      let masked : Bool := b1 &&& 0x80 ≠ 0
      let payloadLen := b1 &&& 0x7F
      if opcode ≥ 0x08 ∧ (fin = false ∨ payloadLen > 125) then s.close.fail .noBufferSpace
      else if payloadLen = 126 then { s with awaiting := some (.ext16 opcode masked) }
      else if payloadLen = 127 then { s with awaiting := some (.ext64 opcode masked) }
      else s.nextStep opcode masked payloadLen.toNat
  | .ext16 opcode masked => s.nextStep opcode masked (ofBE data)
  | .ext64 opcode masked => s.nextStep opcode masked (ofBE data)
  | .payload opcode masked len =>
      -- the mask stays at the front of the buffer
      let front := if masked then data.take 4 else []
      let payload := if masked then (Mask.ofBytes data).apply (data.drop 4) else data
      if opcode = 0x08 then s.close.fail .eof
      else if opcode = 0x09 then (s.post (.pong payload)).nextFrame
      else if opcode = 0x0A then s.nextFrame
      else
        { s with
          readBuffer := front ++ payload
          readOffset := if masked then 4 else 0
          readRemaining := len }.onFrame len

/-! ## The transition system -/

inductive Event where
  /-- The user's `async_write`. -/
  | write (buffers : List (List Byte))
  /-- The strand runs what is posted next, and queues its frame; a client draws the mask. -/
  | run (mask : Mask)
  | look
  /-- The transport's `async_write` completes. -/
  | written (ok : Bool)
  | proceed
  | reset
  /-- The user's `async_read` or `async_read_some`, with a buffer of `n` bytes. -/
  | read (all : Bool) (n : Nat)
  /-- Bytes come from the transport. -/
  | feed (bytes : List Byte)
  /-- The transport's `async_read` completes. -/
  | readDone
  /-- It fails. -/
  | readFail

def init (isClient : Bool) : Stream := { isClient }

def step (s : Stream) : Event → Option Stream
  | .write buffers => some (s.post (.write buffers))
  | .run mask =>
      match s.looking, s.posted with
      | false, j :: rest =>
          some { s with
            posted := rest
            writeQueue := s.writeQueue ++ [j.op s.isClient mask]
            looking := true }
      | _, _ => none
  | .look => if s.looking then some s.look else none
  | .written ok =>
      match s.writeQueue with
      | op :: queue =>
          if s.isWriting ∧ s.completing = .idle then some (s.onWritten op queue ok) else none
      | [] => none
  | .proceed => if s.completing = .handling then some s.proceed else none
  | .reset => if s.completing = .ending then some s.reset else none
  | .read all n =>
      if s.readOp.isSome then none
      else
        let op : ReadOp := { all, want := n, size := n }
        some (if all then s.asyncRead op else s.asyncReadSome op)
  | .feed bytes =>
      if s.down then none else some { s with input := s.input ++ bytes, fed := s.fed ++ bytes }
  | .readDone =>
      match s.awaiting with
      | none => none
      | some a =>
          if s.down ∨ s.input.length < a.size then none
          else
            some ({ s with input := s.input.drop a.size, awaiting := none }.onRead
              (s.input.take a.size) a)
  | .readFail =>
      if s.awaiting.isSome then some ({ s with awaiting := none, down := true }.fail .transport)
      else none

/-- The strand does not rely on a handler that has already found the queue empty. -/
def noticed (s : Stream) : Event → Bool
  | .look => s.completing ≠ .ending || s.writeQueue.isEmpty
  | _ => true

end Stream

end Cfrp.Websocket
