import Cfrp.Lib.Keyed
import Cfrp.Mux.Link
import Cfrp.Mux.Session

/-!
# Two sessions

A client session and a server session joined by a reliable FIFO byte channel in each
direction: what one has written is what the other will read, in order. `view` looks at
one stream identifier and forgets the rest: what it sees is a `Link`.

The bytes on the wire are parsed the way their reader will parse them, from the point
its outstanding read has reached.
-/

namespace Cfrp.Mux

open Lib

/-! ## What is on the wire -/

/-- The number of body bytes that follow a header. -/
def bodyLength (h : Header) : Nat := if h.type = FrameType.data then h.length.toNat else 0

/-- The frames that a reader will find, starting at a header. -/
def parseFrames (wire : List Byte) : List (Header × List Byte) :=
  if wire.length < Header.size then []
  else
    let h := Header.decode (wire.take Header.size)
    let rest := wire.drop Header.size
    (h, rest.take (bodyLength h)) :: parseFrames (rest.drop (bodyLength h))
termination_by wire.length
decreasing_by
  simp only [List.length_drop, Header.size] at *
  omega

/-- The frames that a session will find, from where it is. -/
def parseFrom : Reading → List Byte → List (Header × List Byte)
  | .header, wire => parseFrames wire
  | .body h, wire => (h, wire.take (bodyLength h)) :: parseFrames (wire.drop (bodyLength h))
  | .idle, _ => []

/-! ## The pair -/

/-- The client is `false`, the server is `true`. -/
abbrev Pair := Bool → Session

namespace Pair

def init : Pair := fun x => { isServer := x }

inductive Event where
  /-- Session `x` does something that needs nothing from the other session. -/
  | act (x : Bool) (e : Session.Event)
  /-- A read of session `x` completes with what the other session wrote. -/
  | recv (x : Bool)

/-- The bytes a read of `x` completes with, and what is left on the wire. -/
def nextRead (p : Pair) (x : Bool) : Option (Session.Event × List Byte) :=
  let wire := (p !x).wire
  match (p x).reading with
  | .header =>
      if Header.size ≤ wire.length then
        some (.recvHeader (wire.take Header.size), wire.drop Header.size)
      else none
  | .body h =>
      if h.length.toNat ≤ wire.length then
        some (.recvBody (wire.take h.length.toNat), wire.drop h.length.toNat)
      else none
  | .idle => none

def step (p : Pair) : Event → Option Pair
  | .act _ (.recvHeader _) => none
  | .act _ (.recvBody _) => none
  | .act x e => ((p x).step e).map fun s => Function.update p x s
  | .recv x =>
      (p.nextRead x).bind fun r =>
        ((p x).step r.1).map fun s =>
          Function.update (Function.update p x s) (!x) { p !x with wire := r.2 }

/-- The stream identifier that `open_stream` takes next is not in use. -/
def notWrapped (s : Session) : Bool := s.objs.all fun obj => obj.id ≠ s.nextStreamId

/-- What the two sessions are assumed to do: stream identifiers do not wrap, frames come
from the sessions themselves, and the transport does not fail before one of them has
stopped. -/
def conforming (p : Pair) : Event → Bool
  | .act x (.openStream _) => notWrapped (p x)
  | .act _ (.sendFrame ..) => false
  | .act x .writeError => (p x).stopped || (p !x).stopped
  | .act x .readError => (p x).stopped || (p !x).stopped
  | _ => true

/-- Neither session has stopped. -/
def Running (p : Pair) : Prop := ∀ x, (p x).stopped = false

/-! ## One stream of the pair -/

/-- The object of a stream identifier. -/
def find (s : Session) (i : UInt32) : Option StreamObj := findKey StreamObj.id s.objs i

/-- What the strand still has to pass to the stream. -/
def inbox (tasks : List Task) : List Arrival :=
  tasks.filterMap fun | .arrival a => some a | _ => none

/-- The completions the strand still has to run. -/
def completions (tasks : List Task) : List Completion :=
  tasks.filterMap fun | .complete c => some c | _ => none

/-- A stream object as an end of a link. -/
def endOf (s : Session) (obj : StreamObj) : End where
  stream := obj.stream
  inbox := inbox obj.tasks
  removed := (s.streams.lookup obj.id).isNone
  log := obj.reported ++ completions obj.tasks
  accepted := obj.accepted
  sent := obj.sent
  lateWrite := obj.lateWrite

/-- The frames of the write queue whose bytes are not yet on the wire. -/
def unsent (s : Session) : List PendingFrame :=
  if s.writing then s.writeQueue.tail else s.writeQueue

/-- A frame as its receiver sees it. -/
def asReceived (pw : PendingFrame) : Header × List Byte := (pw.frame.header, pw.frame.body)

/-- The frames of a session that its peer, whose read has come to `r`, has not received. -/
def flight (r : Reading) (s : Session) : List (Header × List Byte) :=
  parseFrom r s.wire ++ (unsent s).map asReceived

/-- The frames the session's strand still has to queue. -/
def postedFrames (s : Session) : List (Header × List Byte) :=
  s.posted.filterMap fun | .sendFrame pw => some (asReceived pw) | .stop => none

/-- The frames from `x` that the other session has not received: on the wire, queued or
posted. -/
def inFlight (p : Pair) (x : Bool) : List (Header × List Byte) :=
  flight (p !x).reading (p x) ++ postedFrames (p x)

/-- What they say to the stream `i`. -/
def said (fs : List (Header × List Byte)) (i : UInt32) : List Arrival :=
  (fs.filter fun f => f.1.streamId = i).flatMap fun f => arrivals f.1 f.2

/-- The stream `i` of a session. Where there is no object yet, there is an unused end. -/
def endAt (s : Session) (i : UInt32) : End :=
    ((find s i).map (endOf s)).getD { stream := { id := i } }

/-- The stream `i` of the pair. -/
def view (p : Pair) (i : UInt32) : Link where
  ends x := endAt (p x) i
  pipe x := said (p.inFlight x) i

end Pair

end Cfrp.Mux
