import Cfrp.Bridge.Vhost
import Cfrp.Mux.FullRead

/-!
# Two bridges and the stream between them

A `Bridge` carries bytes from `s1`, a raw socket, to `s2`, a work stream, and back, one
operation at a time in each direction. A tunnel is two of them: the work streams are the two
ends of one stream of a session.

Two kinds of memory are kept. A buffer that `BufferPool::Get` returns holds what its last user
left there, and a read that reports success may have filled only a part of it. A queued frame
refers to the buffer of its write, which goes back to the pool when the handler of that write
has run.
-/

namespace Cfrp

open Lib Mux Bridge

namespace Tunnel

/-- What direction 1 waits for. -/
inductive Outward where
  /-- `async_read_some` of `s1`. -/
  | reading
  /-- The rate limiter, with the packet of its `write_op`. -/
  | limited (data packet : List Byte)
  /-- `async_write` of `s2`. -/
  | writing
  | stopped
  deriving DecidableEq

/-- What direction 2 waits for. -/
inductive Inward where
  /-- `async_read_some` of `s2`. -/
  | reading
  /-- `async_read` of `s2` into `header2_`. -/
  | header
  /-- `async_read` of `s2` into the body, which holds this before. -/
  | body (buffer : List Byte) (compressed : Bool)
  | limited (data : List Byte)
  /-- `async_write` of `s1`, which has these bytes left. -/
  | writing (left : List Byte)
  | stopped
  deriving DecidableEq

structure Bridge where
  useCompression : Bool
  compressionLevel : Int
  header2 : List Byte := [0, 0, 0, 0]
  stopped : Bool := false
  outward : Outward := .reading
  inward : Inward := .stopped
  /-- What was read from `s1`, and what was written to it. -/
  rawRead : List Byte := []
  rawWritten : List Byte := []
  deriving DecidableEq

/-- A bridge, its work stream, and what the strand and the session have still to do for that
stream: handlers that are posted, frames of `write_queue_`, `handle_*` calls. -/
structure Side where
  bridge : Bridge
  stream : MuxStream
  /-- `s2_->close()` has been called and has not run. -/
  closing : Bool := false
  posted : List Completion := []
  queue : List (Frame × Callback) := []
  inbox : List Arrival := []
  removed : Bool := false
  deriving DecidableEq

/-- The handlers a bridge gives to its work stream. -/
def writeHandler : Handler := 1
def readHandler : Handler := 2

/-- The frames given to `async_send_frame`, with their handlers. -/
def sends (es : List Effect) : List (Frame × Callback) :=
  es.filterMap fun | .send f cb => some (f, cb) | _ => none

/-- A buffer after a read into it. -/
def fill (buffer bytes : List Byte) : List Byte := bytes ++ buffer.drop bytes.length

namespace Side

/-- An operation of the work stream. -/
def perform (s : Side) (r : MuxStream × List Effect) : Side :=
  { s with
    stream := r.1
    posted := s.posted ++ posts r.2
    queue := s.queue ++ sends r.2
    removed := s.removed || removes r.2 }

def setOutward (s : Side) (outward : Outward) : Side :=
    { s with bridge := { s.bridge with outward } }

def setInward (s : Side) (inward : Inward) : Side := { s with bridge := { s.bridge with inward } }

/-- `HandleStop`. -/
def handleStop (s : Side) : Side :=
  if s.bridge.stopped then s
  else { s with bridge := { s.bridge with stopped := true }, closing := true }

/-- Size, and whether it is a full one, of the read of `s2` that `DoRead(2)` starts. -/
def nextRead (s : Side) : Nat × Bool :=
  if s.bridge.useCompression then (bridgeFraming.width, true) else (chunkSize, false)

/-- `DoRead(2)`. -/
def doRead2 (s : Side) : Side :=
  (s.setInward (if s.bridge.useCompression then .header else .reading)).perform
    (s.stream.asyncRead s.nextRead.1 readHandler s.nextRead.2)

/-- The bytes that direction 1 writes for what it has read. -/
def packet (z : Zstd) (s : Side) (data : List Byte) : List Byte :=
  if s.bridge.useCompression then bridgeFraming.frame z true s.bridge.compressionLevel data
  else data

/-- The handler of the write to `s2`: `DoRead(1)`, or the end. -/
def onWorkWritten (s : Side) (ec : ErrorCode) : Side :=
  if ec = .success then s.setOutward .reading else (s.setOutward .stopped).handleStop

/-- The handler of a read of `s2`. `recycled` is what the pool's buffer for the body holds. -/
def onWorkRead (z : Zstd) (s : Side) (c : Completion) (recycled : List Byte) : Option Side :=
  if c.ec ≠ .success then some (s.setInward .stopped).handleStop
  else
    match s.bridge.inward with
    | .reading => some (s.setInward (.limited c.bytes))
    | .header =>
        let header2 := fill s.bridge.header2 c.bytes
        let (length, compressed) := bridgeFraming.splitHeader header2
        let s := { s with bridge := { s.bridge with header2 } }
        if length > bridgeFraming.maxLength then some (s.setInward .stopped).handleStop
        else if recycled.length = length then
          some ((s.setInward (.body recycled compressed)).perform
            (s.stream.asyncRead length readHandler true))
        else none
    | .body buffer compressed =>
        match bridgeFraming.contents z compressed (fill buffer c.bytes) with
        | none => some (s.setInward .stopped).handleStop
        | some data => some (s.setInward (.limited data))
    | _ => none

inductive Event where
  /-- `s1` reports bytes. -/
  | rawRead (data : List Byte)
  | rawFail
  /-- The rate limiter lets a write go. -/
  | limited1
  | limited2
  /-- `s1` takes the next `n` bytes of the write. -/
  | rawWrite (n : Nat)
  /-- The handler of the write to `s1`. -/
  | rawWritten (ok : Bool)
  /-- `s2_->close()` runs. -/
  | workClose
  /-- The strand of `s2` runs the next handler. -/
  | workHandler (recycled : List Byte)
  /-- The strand of `s2` runs the next `handle_*`. -/
  | workHandle
  /-- The next owner of a buffer that queued frame `i` refers to writes to it. -/
  | reuse (i : Nat) (bytes : List Byte)
  deriving DecidableEq

/-- The buffer of the last write is back in the pool: a packet when the handler of its write
has run, `data1_` when the bridge is gone. -/
def returned (s : Side) : Bool :=
  decide (s.bridge.outward = .stopped) &&
    (s.bridge.useCompression || decide (s.bridge.inward = .stopped))

def step (z : Zstd) (s : Side) : Event → Option Side
  | .rawRead data =>
      if s.bridge.outward = .reading ∧ s.bridge.stopped = false ∧ data.length ≤ chunkSize then
        some { s with
          bridge := { s.bridge with
            outward := .limited data (s.packet z data)
            rawRead := s.bridge.rawRead ++ data } }
      else none
  | .rawFail =>
      if s.bridge.outward = .reading then some (s.setOutward .stopped).handleStop else none
  | .limited1 =>
      match s.bridge.outward with
      | .limited _ packet =>
          some ((s.setOutward .writing).perform (s.stream.asyncWrite [packet] writeHandler))
      | _ => none
  | .limited2 =>
      match s.bridge.inward with
      | .limited data => some (s.setInward (.writing data))
      | _ => none
  | .rawWrite n =>
      match s.bridge.inward with
      | .writing left =>
          if s.bridge.stopped = false ∧ n ≤ left.length then
            some { s with
              bridge := { s.bridge with
                inward := .writing (left.drop n)
                rawWritten := s.bridge.rawWritten ++ left.take n } }
          else none
      | _ => none
  | .rawWritten ok =>
      match s.bridge.inward with
      | .writing left =>
          if ok then (if left = [] then some s.doRead2 else none)
          else some (s.setInward .stopped).handleStop
      | _ => none
  | .workClose =>
      if s.closing then some ({ s with closing := false }.perform s.stream.close) else none
  | .workHandler recycled =>
      match s.posted with
      | [] => none
      | c :: posted =>
          if c.handler = writeHandler then some ({ s with posted }.onWorkWritten c.ec)
          else { s with posted }.onWorkRead z c recycled
  | .workHandle =>
      match s.inbox with
      | [] => none
      | a :: inbox => some ({ s with inbox }.perform (s.stream.handle a))
  | .reuse i bytes =>
      match s.queue[i]? with
      | none => none
      | some (f, cb) =>
          if s.returned ∧ bytes.length = f.body.length then
            some { s with queue := s.queue.set i ({ f with bodies := [bytes] }, cb) }
          else none

/-- The transport has written the next frame of `write_queue_`. -/
def transmit (s : Side) : Option (Frame × Side) :=
  match s.queue with
  | [] => none
  | (f, cb) :: queue =>
      let s := { s with queue }
      match cb with
      | .invoke _ _ => some (f, s.onWorkWritten .success)
      | _ => some (f, s)

/-- The steps of a side, one case for each way through the handler of an event. The handler
of a read has its own cases, `onWorkRead_cases`. -/
inductive Stepped (z : Zstd) (s : Side) : Event → Side → Prop where
  | rawRead {data : List Byte} : s.bridge.outward = .reading → s.bridge.stopped = false →
      data.length ≤ chunkSize → Stepped z s (.rawRead data) { s with
        bridge := { s.bridge with
          outward := .limited data (s.packet z data)
          rawRead := s.bridge.rawRead ++ data } }
  | rawFail : s.bridge.outward = .reading →
      Stepped z s .rawFail (s.setOutward .stopped).handleStop
  | limited1 {data packet : List Byte} : s.bridge.outward = .limited data packet →
      Stepped z s .limited1
        ((s.setOutward .writing).perform (s.stream.asyncWrite [packet] writeHandler))
  | limited2 {data : List Byte} : s.bridge.inward = .limited data →
      Stepped z s .limited2 (s.setInward (.writing data))
  | rawWrite {left : List Byte} {n : Nat} : s.bridge.inward = .writing left →
      s.bridge.stopped = false → n ≤ left.length → Stepped z s (.rawWrite n) { s with
        bridge := { s.bridge with
          inward := .writing (left.drop n)
          rawWritten := s.bridge.rawWritten ++ left.take n } }
  | rawWritten : s.bridge.inward = .writing [] → Stepped z s (.rawWritten true) s.doRead2
  | rawWriteFail {left : List Byte} : s.bridge.inward = .writing left →
      Stepped z s (.rawWritten false) (s.setInward .stopped).handleStop
  | workClose : s.closing = true →
      Stepped z s .workClose ({ s with closing := false }.perform s.stream.close)
  | workWritten {c : Completion} {posted : List Completion} {recycled : List Byte} :
      s.posted = c :: posted → c.handler = writeHandler →
      Stepped z s (.workHandler recycled) ({ s with posted }.onWorkWritten c.ec)
  | workRead {c : Completion} {posted : List Completion} {recycled : List Byte} {s' : Side} :
      s.posted = c :: posted → c.handler ≠ writeHandler →
      { s with posted }.onWorkRead z c recycled = some s' →
      Stepped z s (.workHandler recycled) s'
  | workHandle {a : Arrival} {inbox : List Arrival} : s.inbox = a :: inbox →
      Stepped z s .workHandle ({ s with inbox }.perform (s.stream.handle a))
  | reuse {i : Nat} {bytes : List Byte} {f : Frame} {cb : Callback} :
      s.queue[i]? = some (f, cb) → s.returned = true → bytes.length = f.body.length →
      Stepped z s (.reuse i bytes)
        { s with queue := s.queue.set i ({ f with bodies := [bytes] }, cb) }

theorem stepped_of_step {z : Zstd} {s s' : Side} {e : Event} (hstep : s.step z e = some s') :
    Stepped z s e s' := by
  cases e with
  | rawRead data =>
      obtain ⟨⟨hout, hrunning, hlen⟩, hs⟩ := Option.ite_none_right_eq_some.mp hstep
      cases hs
      exact .rawRead hout hrunning hlen
  | rawFail =>
      obtain ⟨hout, hs⟩ := Option.ite_none_right_eq_some.mp hstep
      cases hs
      exact .rawFail hout
  | limited1 =>
      simp only [step] at hstep
      split at hstep
      · rename_i data packet hout
        cases hstep
        exact .limited1 hout
      · cases hstep
  | limited2 =>
      simp only [step] at hstep
      split at hstep
      · rename_i data hin
        cases hstep
        exact .limited2 hin
      · cases hstep
  | rawWrite n =>
      simp only [step] at hstep
      split at hstep
      · rename_i left hin
        obtain ⟨⟨hrunning, hle⟩, hs⟩ := Option.ite_none_right_eq_some.mp hstep
        cases hs
        exact .rawWrite hin hrunning hle
      · cases hstep
  | rawWritten ok =>
      simp only [step] at hstep
      split at hstep
      · rename_i left hin
        cases ok with
        | true =>
            obtain ⟨hleft, hs⟩ := Option.ite_none_right_eq_some.mp hstep
            cases hs
            exact .rawWritten (hleft ▸ hin)
        | false =>
            cases hstep
            exact .rawWriteFail hin
      · cases hstep
  | workClose =>
      obtain ⟨hclosing, hs⟩ := Option.ite_none_right_eq_some.mp hstep
      cases hs
      exact .workClose hclosing
  | workHandler recycled =>
      simp only [step] at hstep
      split at hstep
      · cases hstep
      · rename_i c posted hposted
        split at hstep
        · rename_i hc
          cases hstep
          exact .workWritten hposted hc
        · rename_i hc
          exact .workRead hposted hc hstep
  | workHandle =>
      simp only [step] at hstep
      split at hstep
      · cases hstep
      · rename_i a inbox hinbox
        cases hstep
        exact .workHandle hinbox
  | reuse i bytes =>
      simp only [step] at hstep
      split at hstep
      · cases hstep
      · rename_i f cb hi
        obtain ⟨⟨hreturned, hlen⟩, hs⟩ := Option.ite_none_right_eq_some.mp hstep
        cases hs
        exact .reuse hi hreturned hlen

end Side

end Tunnel

/-- `wire x` is what `x` has written to the transport and the other side has not read. -/
structure Tunnel where
  sides : Bool → Tunnel.Side
  wire : Bool → List Frame

namespace Tunnel

inductive Event where
  | act (x : Bool) (e : Side.Event)
  | transmit (x : Bool)
  /-- The session of `x` reads the next frame and posts it to the stream. -/
  | receive (x : Bool)
  deriving DecidableEq

def setSide (t : Tunnel) (x : Bool) (s : Side) : Tunnel :=
  { t with sides := Function.update t.sides x s }

def step (z : Zstd) (t : Tunnel) : Event → Option Tunnel
  | .act x e => ((t.sides x).step z e).map (t.setSide x)
  | .transmit x => (t.sides x).transmit.map fun r =>
      { t.setSide x r.2 with wire := Function.update t.wire x (t.wire x ++ [r.1]) }
  | .receive x =>
      match t.wire !x with
      | [] => none
      | f :: frames =>
          let s := t.sides x
          -- nobody is found in the table: the frame is dropped
          let s := if s.removed then s else { s with inbox := s.inbox ++ f.arrivals }
          some { t.setSide x s with wire := Function.update t.wire (!x) frames }

/-- A bridge before `Start`. Its stream may have carried something before, all of which was
read. -/
def base (useCompression : Bool) (level : Bool → Int) (id : UInt32) (window consumed : Bool → Nat)
    (x : Bool) : Side where
  bridge := { useCompression, compressionLevel := level x }
  stream := { id, remoteWindowSize := window x, consumedSinceLastUpdate := consumed x }

/-- `Start` of both bridges. -/
def start (useCompression : Bool) (level : Bool → Int) (id : UInt32)
    (window consumed : Bool → Nat) : Tunnel where
  sides x := (base useCompression level id window consumed x).doRead2
  wire _ := []

/-! ## What the bridges rely on -/

namespace Side

/-- The stream as `do_read_from_buffer` finds it, where an event leads to it. -/
def beforeRead (s : Side) : Event → Option MuxStream
  | .rawWritten true =>
      some { s.stream with
        pendingReads := s.stream.pendingReads ++ [⟨s.nextRead.1, readHandler, s.nextRead.2⟩] }
  | .workHandler _ =>
      match s.posted with
      | [] => none
      | c :: _ =>
          let length := (bridgeFraming.splitHeader (fill s.bridge.header2 c.bytes)).1
          if c.handler ≠ writeHandler ∧ c.ec = .success ∧ s.bridge.inward = .header then
            some { s.stream with
              pendingReads := s.stream.pendingReads ++ [⟨length, readHandler, true⟩] }
          else none
  | .workHandle =>
      match s.inbox with
      | .data block :: _ => some { s.stream with readQueue := s.stream.readQueue ++ [block] }
      | .close :: _ => some { s.stream with remoteClosed := true }
      | _ => none
  | _ => none

/-- No read of a running bridge is answered with a part of what it asks for, and no buffer is
reused while a queued frame refers to it. -/
def sound (s : Side) : Event → Bool
  | .reuse _ _ => false
  | e => s.bridge.stopped || (s.beforeRead e).all fun stream => stream.buffer.fine

end Side

def sound (t : Tunnel) : Event → Bool
  | .act x e => (t.sides x).sound e
  | _ => true

end Tunnel

end Cfrp
