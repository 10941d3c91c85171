import Cfrp.Lib.Table
import Cfrp.Mux.StreamSpec

/-!
# A session

`Session` multiplexes its streams over one underlying byte stream. Its own strand and
the strands of its streams run one task at a time; the completion handlers of the
underlying stream are not bound to the strand, so what they ask for is posted. An event
is one such task or handler, or a call made by a user of the session.

The underlying stream is an environment: `wire` is what the session has written to it
and nobody has read yet, `recvHeader` and `recvBody` bring what was read from it, and
`writeOk`, `writeError` and `readError` are the outcomes of outstanding operations.
`stop` closes it, so no write succeeds afterwards.
-/

namespace Cfrp.Mux

open Lib

/-- What a stream's strand has to run. -/
inductive Task where
  | arrival (a : Arrival)
  | failWrites (ec : ErrorCode)
  | complete (c : Completion)
  deriving DecidableEq, Repr

/-- A stream object and its strand. `accepted`, `lateWrite`, `sent` and `reported` are
history: the payload accepted by `async_write` and whether some of it came after `close`,
the payload put into frames, and the completions the strand has run. -/
structure StreamObj where
  stream : MuxStream
  tasks : List Task := []
  destroyed : Bool := false
  accepted : List Byte := []
  lateWrite : Bool := false
  sent : List Byte := []
  reported : List Completion := []
  deriving DecidableEq, Repr

def StreamObj.id (obj : StreamObj) : UInt32 := obj.stream.id

/-- `std::make_shared<MuxStream>`. -/
def StreamObj.new (id : UInt32) : StreamObj := { stream := { id } }

/-- The handler of a frame. The stream of a partial send is named by its object. -/
inductive FrameHandler where
  | none
  | failPending (o : Nat)
  | invoke (handler : Handler) (toSend : Nat)
  | user (handler : Handler)
  deriving DecidableEq, Repr

/-- `struct PendingWrite` of the session. -/
structure PendingFrame where
  frame : Frame
  handler : FrameHandler := .none
  deriving DecidableEq, Repr

/-- What the session's strand has to run. -/
inductive SessionTask where
  | sendFrame (f : PendingFrame)
  | stop
  deriving DecidableEq, Repr

/-- The outstanding read of the underlying stream. -/
inductive Reading where
  | header
  | body (h : Header)
  | idle
  deriving DecidableEq, Repr

/-- `alive` is whether anybody still holds the session. `submitted` and `invoked` are
history: the handlers given to the session and its streams, and those called. -/
structure Session where
  isServer : Bool
  alive : Bool := true
  stopped : Bool := false
  nextStreamId : UInt32 := if isServer then 2 else 1
  streams : Table UInt32 Nat := ∅
  objs : List StreamObj := []
  posted : List SessionTask := []
  writeQueue : List PendingFrame := []
  isWriting : Bool := false
  /-- A write of the underlying stream is outstanding. -/
  writing : Bool := false
  reading : Reading := .header
  wire : List Byte := []
  submitted : List Handler := []
  invoked : List Completion := []

namespace Session

/-! ## Sending -/

/-- `do_write`. -/
def doWrite (s : Session) : Session :=
  match s.writeQueue with
  | [] => { s with isWriting := false }
  | pw :: _ =>
      let wire := if s.stopped then s.wire else s.wire ++ pw.frame.writeBuffers.flatten
      { s with writing := true, wire }

/-- `async_send_frame`, on the strand. -/
def asyncSendFrame (s : Session) (pw : PendingFrame) : Session :=
  let s' := { s with writeQueue := s.writeQueue ++ [pw] }
  if s.isWriting then s' else doWrite { s' with isWriting := true }

/-- `async_send_frame`, off the strand. -/
def postFrame (s : Session) (pw : PendingFrame) : Session :=
  { s with posted := s.posted ++ [.sendFrame pw] }

def postStop (s : Session) : Session := { s with posted := s.posted ++ [.stop] }

def synFrame (id : UInt32) : Frame := ⟨⟨0, FrameType.data, Flags.syn, id, 0⟩, []⟩
def ackFrame (id : UInt32) : Frame := ⟨⟨0, FrameType.data, Flags.ack, id, 0⟩, []⟩
def pingFrame : Frame := ⟨⟨0, FrameType.ping, Flags.syn, 0, 0⟩, []⟩
def pongFrame : Frame := ⟨⟨0, FrameType.ping, Flags.ack, 0, 0⟩, []⟩

/-! ## Streams -/

def modifyObj (s : Session) (o : Nat) (f : StreamObj → StreamObj) : Session :=
  { s with objs := s.objs.modify o f }

def pushTasks (s : Session) (o : Nat) (tasks : List Task) : Session :=
  s.modifyObj o fun obj => { obj with tasks := obj.tasks ++ tasks }

/-- The frames among the effects of a stream, with the handlers the session calls. -/
def pendingFrames (o : Nat) (es : List Effect) : List PendingFrame :=
  es.filterMap fun
    | .send f .none => some ⟨f, .none⟩
    | .send f .failPending => some ⟨f, .failPending o⟩
    | .send f (.invoke handler toSend) => some ⟨f, .invoke handler toSend⟩
    | _ => none

def afterOp (r : MuxStream × List Effect) (obj : StreamObj) : StreamObj :=
  { obj with
    stream := r.1
    tasks := obj.tasks ++ (posts r.2).map Task.complete
    sent := obj.sent ++ dataOf (told r.2) }

/-- The outcome of an operation of stream object `o`: handlers go to its strand, frames
to the write queue, and `remove_stream` to the table. -/
def perform (s : Session) (o : Nat) (r : MuxStream × List Effect) : Session :=
  let s' := s.modifyObj o (afterOp r)
  let streams := if removes r.2 then s.streams.erase r.1.id else s.streams
  (pendingFrames o r.2).foldl asyncSendFrame { s' with streams }

/-- `handle_close` of an object, called by `stop`. On the object's own strand it runs at
once. -/
def closeObj (running : Option Nat) (s : Session) (o : Nat) : Session :=
  match s.objs[o]? with
  | none => s
  | some obj =>
      if running = some o then s.perform o obj.stream.handleClose
      else s.pushTasks o [.arrival .close]

/-- `stop`, on the strand. `running` is the stream whose strand is running, if any. -/
def stop (s : Session) (running : Option Nat) : Session :=
  if s.stopped then s
  else
    (s.streams.entries.map Sigma.snd).foldl (closeObj running)
    { s with stopped := true, streams := ∅ }

/-- `open_stream`. -/
def openStream (s : Session) (onStrand : Bool) : Session :=
  let id := s.nextStreamId
  let s' := { s with
    nextStreamId := id + 2
    objs := s.objs ++ [StreamObj.new id]
    streams := s.streams.insert id s.objs.length }
  if onStrand then s'.asyncSendFrame ⟨synFrame id, .none⟩ else s'.postFrame ⟨synFrame id, .none⟩

/-! ## Receiving -/

/-- The stream a frame is for; a SYN creates it. -/
def streamFor (s : Session) (h : Header) : Session × Option Nat :=
  match s.streams.lookup h.streamId with
  | some o => (s, some o)
  | none =>
      if h.type = FrameType.data ∧ h.flags &&& Flags.syn ≠ 0 then
        let s' := { s with
          objs := s.objs ++ [StreamObj.new h.streamId]
          streams := s.streams.insert h.streamId s.objs.length }
        (s'.postFrame ⟨ackFrame h.streamId, .none⟩, some s.objs.length)
      else (s, none)

/-- `handle_frame`. -/
def handleFrame (s : Session) (h : Header) (body : List Byte) : Session :=
  if h.type = FrameType.data ∨ h.type = FrameType.windowUpdate then
    match s.streamFor h with
    | (s', some o) => s'.pushTasks o ((arrivals h body).map Task.arrival)
    | (s', none) => s'
  else if h.type = FrameType.ping then
    if h.flags &&& Flags.syn ≠ 0 then s.postFrame ⟨pongFrame, .none⟩ else s
  else
    -- GoAway and unknown types
    s.postStop

/-- The handler of the header read. -/
def headerRead (s : Session) (buf : List Byte) : Session :=
  if s.stopped then { s with reading := .idle }
  else
    let h := Header.decode buf
    if h.type = FrameType.data ∧ h.length > 0 then
      if h.length.toNat > maxMessageSize then { s.postStop with reading := .idle }
      else { s with reading := .body h }
    else { s.handleFrame h [] with reading := .header }

/-- The handler of the body read. -/
def bodyRead (s : Session) (h : Header) (body : List Byte) : Session :=
  if s.stopped then { s with reading := .idle }
  else { s.handleFrame h body with reading := .header }

/-- Either handler, with an error. -/
def readFailed (s : Session) : Session :=
  if s.stopped then { s with reading := .idle } else { s.postStop with reading := .idle }

/-! ## The end of a write -/

/-- The call of a frame's handler. -/
def callHandler (s : Session) (ec : ErrorCode) : FrameHandler → Session
  | .none => s
  | .failPending o => if ec = .success then s else s.pushTasks o [.failWrites ec]
  | .invoke handler toSend =>
      let count := if ec = .success then toSend else 0
      { s with invoked := s.invoked ++ [{ handler, ec, count }] }
  | .user handler => { s with invoked := s.invoked ++ [{ handler, ec }] }

/-- The handler of the underlying write. -/
def writeDone (s : Session) (ec : ErrorCode) : Option Session :=
  match s.writeQueue with
  | [] => none
  | pw :: rest =>
      let s' := { s with writeQueue := rest, writing := false }.callHandler ec pw.handler
      some (if ec = .success then s'.doWrite else s'.postStop)

/-! ## Events -/

inductive Event where
  | openStream (onStrand : Bool)
  | asyncRead (o : Nat) (size : Nat) (handler : Handler) (readAll : Bool)
  | asyncWrite (o : Nat) (buffers : List (List Byte)) (handler : Handler)
  | close (o : Nat)
  /-- The last owner of a stream object lets it go. -/
  | destroy (o : Nat)
  | sendFrame (onStrand : Bool) (f : Frame) (handler : Option Handler)
  /-- The heartbeat timer fires and the connection is not idle for too long. -/
  | heartbeat
  /-- `stop` is called on the strand: by the heartbeat or by a handler of a stream. -/
  | stop (running : Option Nat)
  | postStop
  | runStream (o : Nat)
  | runPosted
  | writeOk
  | writeError
  | recvHeader (buf : List Byte)
  | recvBody (body : List Byte)
  | readError
  /-- The last owner of the session lets it go. -/
  | expire
  deriving DecidableEq, Repr

/-- A call on a stream is posted after the SYN that `open_stream` posts. -/
def synPosted (s : Session) (id : UInt32) : Bool :=
  s.posted.any fun
    | .sendFrame pw => pw.frame.header.streamId = id ∧ pw.frame.header.flags = Flags.syn ∧
        pw.frame.header.type = FrameType.data
    | .stop => false

/-- The object of a call by a user. -/
def callee (s : Session) (o : Nat) : Option StreamObj :=
  (s.objs[o]?).filter fun obj => !obj.destroyed && !s.synPosted obj.stream.id

def submit (s : Session) (handler : Handler) : Session :=
  { s with submitted := s.submitted ++ [handler] }

/-- The payload of a write counts as accepted unless the queue is full. -/
def acceptPayload (obj : StreamObj) (buffers : List (List Byte)) : StreamObj :=
  if obj.stream.pendingWrites.length ≥ maxPendingWrites then obj
  else
    { obj with
      accepted := obj.accepted ++ buffers.flatten
      lateWrite := obj.lateWrite || obj.stream.localClosed }

/-- Nothing but the caller holds the object: it is not in the table, and no task and no
frame handler refers to it. -/
def unowned (s : Session) (o : Nat) (obj : StreamObj) : Bool :=
  !obj.destroyed && (s.streams.entries.all fun e => e.2 ≠ o) &&
    (obj.tasks.all fun | .complete _ => true | _ => false) &&
    s.writeQueue.all fun pw => pw.handler ≠ .failPending o

/-- Run one task of an object's strand. -/
def runTask (s : Session) (o : Nat) (obj : StreamObj) : Task → Session
  | .arrival a => s.perform o (obj.stream.handle a)
  | .failWrites ec => s.perform o (obj.stream.failWrites ec)
  | .complete c =>
      { s.modifyObj o fun obj => { obj with reported := obj.reported ++ [c] } with
        invoked := s.invoked ++ [c] }

def step (s : Session) : Event → Option Session
  | .openStream onStrand => if s.alive then some (s.openStream onStrand) else none
  | .asyncRead o size handler readAll =>
      (s.callee o).map fun obj =>
        (s.submit handler).perform o (obj.stream.asyncRead size handler readAll)
  | .asyncWrite o buffers handler =>
      (s.callee o).map fun obj =>
        ((s.submit handler).modifyObj o fun obj => acceptPayload obj buffers).perform o
          (obj.stream.asyncWrite buffers handler)
  | .close o => (s.callee o).map fun obj => s.perform o obj.stream.close
  | .destroy o =>
      (s.objs[o]?).bind fun obj =>
        if s.unowned o obj then
          some ((s.perform o obj.stream.destroy).modifyObj o fun obj => { obj with
            destroyed := true })
        else none
  | .sendFrame onStrand f handler =>
      if s.alive then
        let pw : PendingFrame := ⟨f, handler.elim .none .user⟩
        let s' := handler.elim s s.submit
        some (if onStrand then s'.asyncSendFrame pw else s'.postFrame pw)
      else none
  | .heartbeat => if s.alive then some (s.asyncSendFrame ⟨pingFrame, .none⟩) else none
  | .stop running => if s.alive then some (s.stop running) else none
  | .postStop => if s.alive then some s.postStop else none
  | .runStream o =>
      (s.objs[o]?).bind fun obj =>
        match obj.tasks with
        | [] => none
        | t :: tasks => some ((s.modifyObj o fun obj => { obj with tasks }).runTask o obj t)
  | .runPosted =>
      match s.posted with
      | [] => none
      | .sendFrame pw :: posted => some ({ s with posted }.asyncSendFrame pw)
      | .stop :: posted => some ({ s with posted }.stop none)
  | .writeOk => if s.writing && !s.stopped then s.writeDone .success else none
  | .writeError => if s.writing then s.writeDone .ioError else none
  | .recvHeader buf =>
      if s.reading = .header ∧ buf.length = Header.size then some (s.headerRead buf) else none
  | .recvBody body =>
      match s.reading with
      | .body h => if body.length = h.length.toNat then some (s.bodyRead h body) else none
      | _ => none
  | .readError => if s.reading = .idle then none else some s.readFailed
  | .expire =>
      -- every outstanding operation and every posted task holds the session; what is left in
      -- the write queue goes with it
      if s.alive && s.posted.isEmpty && !s.writing && decide (s.reading = .idle) then
        some { s with
          alive := false
          streams := ∅
          writeQueue := []
          objs := s.objs.map fun obj => { obj with
            stream := { obj.stream with session := false } } }
      else none

/-! ## What a step does -/

variable {s s' : Session}

theorem getElem?_modifyObj {o : Nat} {obj : StreamObj} (ho : s.objs[o]? = some obj)
    (f : StreamObj → StreamObj) : (s.modifyObj o f).objs[o]? = some (f obj) := by
  show (s.objs.modify o f)[o]? = _
  rw [List.getElem?_modify_eq, ho]
  rfl

@[simp] theorem acceptPayload_stream (obj : StreamObj) (buffers : List (List Byte)) :
    (acceptPayload obj buffers).stream = obj.stream := by
  rw [acceptPayload]
  split <;> rfl

@[simp] theorem acceptPayload_tasks (obj : StreamObj) (buffers : List (List Byte)) :
    (acceptPayload obj buffers).tasks = obj.tasks := by
  rw [acceptPayload]
  split <;> rfl

@[simp] theorem acceptPayload_destroyed (obj : StreamObj) (buffers : List (List Byte)) :
    (acceptPayload obj buffers).destroyed = obj.destroyed := by
  rw [acceptPayload]
  split <;> rfl

/-- The end of a read, of either handler. -/
def Event.isRead : Event → Bool
  | .recvHeader _ | .recvBody _ | .readError => true
  | _ => false

/-- The steps of a session, one case for each way through the handler of an event. -/
inductive Stepped (s : Session) : Event → Session → Prop where
  | openStream (onStrand : Bool) : s.alive = true →
      Stepped s (.openStream onStrand) (s.openStream onStrand)
  | asyncRead {o : Nat} {obj : StreamObj} (size : Nat) (handler : Handler) (readAll : Bool) :
      s.callee o = some obj → Stepped s (.asyncRead o size handler readAll)
        ((s.submit handler).perform o (obj.stream.asyncRead size handler readAll))
  | asyncWrite {o : Nat} {obj : StreamObj} (buffers : List (List Byte)) (handler : Handler) :
      s.callee o = some obj → Stepped s (.asyncWrite o buffers handler)
        (((s.submit handler).modifyObj o fun obj => acceptPayload obj buffers).perform o
          (obj.stream.asyncWrite buffers handler))
  | close {o : Nat} {obj : StreamObj} : s.callee o = some obj →
      Stepped s (.close o) (s.perform o obj.stream.close)
  | destroy {o : Nat} {obj : StreamObj} : s.objs[o]? = some obj → s.unowned o obj = true →
      Stepped s (.destroy o) ((s.perform o obj.stream.destroy).modifyObj o fun obj => { obj with
        destroyed := true })
  | sendFrame (f : Frame) (handler : Option Handler) : s.alive = true →
      Stepped s (.sendFrame true f handler)
        ((handler.elim s s.submit).asyncSendFrame ⟨f, handler.elim .none .user⟩)
  | postFrame (f : Frame) (handler : Option Handler) : s.alive = true →
      Stepped s (.sendFrame false f handler)
        ((handler.elim s s.submit).postFrame ⟨f, handler.elim .none .user⟩)
  | heartbeat : s.alive = true → Stepped s .heartbeat (s.asyncSendFrame ⟨pingFrame, .none⟩)
  | stop (running : Option Nat) : s.alive = true → Stepped s (.stop running) (s.stop running)
  | postStop : s.alive = true → Stepped s .postStop s.postStop
  | runStream {o : Nat} {obj : StreamObj} {t : Task} {tasks : List Task} :
      s.objs[o]? = some obj → obj.tasks = t :: tasks → Stepped s (.runStream o)
        ((s.modifyObj o fun obj => { obj with tasks }).runTask o obj t)
  | sendPosted {pw : PendingFrame} {posted : List SessionTask} :
      s.posted = .sendFrame pw :: posted →
      Stepped s .runPosted ({ s with posted }.asyncSendFrame pw)
  | stopPosted {posted : List SessionTask} : s.posted = .stop :: posted →
      Stepped s .runPosted ({ s with posted }.stop none)
  | writeOk {s' : Session} : s.writing = true → s.stopped = false →
      s.writeDone .success = some s' → Stepped s .writeOk s'
  | writeError {s' : Session} : s.writing = true → s.writeDone .ioError = some s' →
      Stepped s .writeError s'
  /-- The session has stopped since the read was started. -/
  | late {e : Event} : e.isRead = true → s.reading ≠ .idle → s.stopped = true →
      Stepped s e { s with reading := .idle }
  | header {buf : List Byte} : s.reading = .header → s.stopped = false →
      (Header.decode buf).type = FrameType.data → 0 < (Header.decode buf).length →
      (Header.decode buf).length.toNat ≤ maxMessageSize →
      Stepped s (.recvHeader buf) { s with reading := .body (Header.decode buf) }
  | tooLong {buf : List Byte} : s.reading = .header → s.stopped = false →
      (Header.decode buf).type = FrameType.data →
      maxMessageSize < (Header.decode buf).length.toNat →
      Stepped s (.recvHeader buf) { s.postStop with reading := .idle }
  /-- The header is all of the frame. -/
  | headerFrame {buf : List Byte} : s.reading = .header → s.stopped = false →
      ¬((Header.decode buf).type = FrameType.data ∧ (Header.decode buf).length > 0) →
      Stepped s (.recvHeader buf) { s.handleFrame (Header.decode buf) [] with reading := .header }
  | bodyFrame {h : Header} {body : List Byte} : s.reading = .body h → s.stopped = false →
      body.length = h.length.toNat →
      Stepped s (.recvBody body) { s.handleFrame h body with reading := .header }
  | readError : s.reading ≠ .idle → s.stopped = false →
      Stepped s .readError { s.postStop with reading := .idle }
  | expire : s.alive = true → s.posted = [] → s.writing = false → s.reading = .idle →
      Stepped s .expire { s with
        alive := false
        streams := ∅
        writeQueue := []
        objs := s.objs.map fun obj => { obj with
          stream := { obj.stream with session := false } } }

theorem stepped_headerRead {buf : List Byte} (hreading : s.reading = .header) :
    Stepped s (.recvHeader buf) (s.headerRead buf) := by
  rw [headerRead]
  by_cases hstopped : s.stopped = true
  · rw [if_pos hstopped]
    exact .late rfl (by rw [hreading]; exact Reading.noConfusion) hstopped
  · rw [if_neg hstopped]
    rw [Bool.not_eq_true] at hstopped
    dsimp only
    split
    · rename_i hdata
      split
      · rename_i hlong
        exact .tooLong hreading hstopped hdata.1 hlong
      · rename_i hfits
        exact .header hreading hstopped hdata.1 hdata.2 (Nat.le_of_not_lt hfits)
    · rename_i hall
      exact .headerFrame hreading hstopped hall

/-- **Inversion.** A step is one of these, and every invariant of a session is proved by
going through them. -/
theorem stepped_of_step {e : Event} (h : s.step e = some s') : Stepped s e s' := by
  cases e with
  | openStream onStrand =>
      obtain ⟨halive, heq⟩ := Option.ite_none_right_eq_some.mp h
      cases heq
      exact .openStream onStrand halive
  | asyncRead o size handler readAll =>
      obtain ⟨obj, hcallee, rfl⟩ := Option.map_eq_some_iff.mp h
      exact .asyncRead size handler readAll hcallee
  | asyncWrite o buffers handler =>
      obtain ⟨obj, hcallee, rfl⟩ := Option.map_eq_some_iff.mp h
      exact .asyncWrite buffers handler hcallee
  | close o =>
      obtain ⟨obj, hcallee, rfl⟩ := Option.map_eq_some_iff.mp h
      exact .close hcallee
  | destroy o =>
      obtain ⟨obj, ho, h⟩ := Option.bind_eq_some_iff.mp h
      obtain ⟨hunowned, heq⟩ := Option.ite_none_right_eq_some.mp h
      cases heq
      exact .destroy ho hunowned
  | sendFrame onStrand f handler =>
      obtain ⟨halive, heq⟩ := Option.ite_none_right_eq_some.mp h
      cases heq
      cases onStrand with
      | true => exact .sendFrame f handler halive
      | false => exact .postFrame f handler halive
  | heartbeat =>
      obtain ⟨halive, heq⟩ := Option.ite_none_right_eq_some.mp h
      cases heq
      exact .heartbeat halive
  | stop running =>
      obtain ⟨halive, heq⟩ := Option.ite_none_right_eq_some.mp h
      cases heq
      exact .stop running halive
  | postStop =>
      obtain ⟨halive, heq⟩ := Option.ite_none_right_eq_some.mp h
      cases heq
      exact .postStop halive
  | runStream o =>
      obtain ⟨obj, ho, h⟩ := Option.bind_eq_some_iff.mp h
      split at h
      · cases h
      · rename_i t tasks htasks
        cases h
        exact .runStream ho htasks
  | runPosted =>
      simp only [step] at h
      split at h
      · cases h
      · rename_i pw posted hposted
        cases h
        exact .sendPosted hposted
      · rename_i posted hposted
        cases h
        exact .stopPosted hposted
  | writeOk =>
      obtain ⟨hcan, hdone⟩ := Option.ite_none_right_eq_some.mp h
      rw [Bool.and_eq_true, Bool.not_eq_true'] at hcan
      exact .writeOk hcan.1 hcan.2 hdone
  | writeError =>
      obtain ⟨hwriting, hdone⟩ := Option.ite_none_right_eq_some.mp h
      exact .writeError hwriting hdone
  | recvHeader buf =>
      obtain ⟨⟨hreading, -⟩, heq⟩ := Option.ite_none_right_eq_some.mp h
      cases heq
      exact stepped_headerRead hreading
  | recvBody body =>
      simp only [step] at h
      split at h
      · rename_i hd hreading
        obtain ⟨hlength, heq⟩ := Option.ite_none_right_eq_some.mp h
        cases heq
        rw [bodyRead]
        by_cases hstopped : s.stopped = true
        · rw [if_pos hstopped]
          exact .late rfl (by rw [hreading]; exact Reading.noConfusion) hstopped
        · rw [if_neg hstopped]
          exact .bodyFrame hreading (Bool.not_eq_true _ ▸ hstopped) hlength
      · cases h
  | readError =>
      obtain ⟨hreading, heq⟩ := Option.ite_none_left_eq_some.mp h
      cases heq
      rw [readFailed]
      by_cases hstopped : s.stopped = true
      · rw [if_pos hstopped]
        exact .late rfl hreading hstopped
      · rw [if_neg hstopped]
        exact .readError hreading (Bool.not_eq_true _ ▸ hstopped)
  | expire =>
      obtain ⟨hidle, heq⟩ := Option.ite_none_right_eq_some.mp h
      cases heq
      simp only [Bool.and_eq_true, Bool.not_eq_true', decide_eq_true_eq,
        List.isEmpty_iff] at hidle
      exact .expire hidle.1.1.1 hidle.1.1.2 hidle.1.2 hidle.2

end Session

end Cfrp.Mux
