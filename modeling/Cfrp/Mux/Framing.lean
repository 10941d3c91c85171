import Cfrp.Lib.Draining
import Cfrp.Lib.Transition
import Cfrp.Mux.Refine

/-!
# Frames from end to end

Calls of `async_send_frame` on one session, made on its strand or posted to it, by anybody and
so also by the handler of a frame, and the reads with which `do_read_header` and
`do_read_body` of the peer cut the bytes. `Transfer` counts the writes of the underlying
stream that are outstanding, and keeps the frames in the order in which they were queued next
to what the peer handed to `handle_frame`.

`do_write` binds the handler of a write to the strand, but a `std::function` does not keep
that: the handler runs on the thread of the underlying stream, in between the steps of the
strand. Each of them is one step here. The invariant follows the frames: received, on the
wire, or still in the queue.
-/

namespace Cfrp.Mux

open Lib Session

/-! ## Model -/

/-- A frame whose header tells its body: a Data frame announces its length, every other
frame has no body, whatever its length field says. -/
def Frame.Sendable (f : Frame) : Prop :=
  (f.header.type = FrameType.data ∧ f.header.length.toNat = f.body.length ∧
      f.body.length ≤ maxMessageSize) ∨
    ((f.header.type = FrameType.windowUpdate ∨ f.header.type = FrameType.ping) ∧ f.body = [])

instance (f : Frame) : Decidable f.Sendable := by
  unfold Frame.Sendable
  infer_instance

theorem Frame.Sendable.known {f : Frame} (h : f.Sendable) : f.header.type = FrameType.data ∨
    f.header.type = FrameType.windowUpdate ∨ f.header.type = FrameType.ping := by
  rcases h with ⟨ht, -, -⟩ | ⟨ht | ht, -⟩
  · exact Or.inl ht
  · exact Or.inr (Or.inl ht)
  · exact Or.inr (Or.inr ht)

/-- A Data frame with a length has a body of that length; any other frame has none. -/
theorem Frame.Sendable.body {f : Frame} (h : f.Sendable) :
    (f.header.type = FrameType.data ∧ f.header.length > 0 ∧
        f.header.length.toNat = f.body.length ∧ f.body.length ≤ maxMessageSize) ∨
      (¬(f.header.type = FrameType.data ∧ f.header.length > 0) ∧ f.body = []) := by
  rcases h with ⟨ht, hlen, hmax⟩ | ⟨ht, hnil⟩
  · by_cases hpos : f.header.length > 0
    · exact Or.inl ⟨ht, hpos, hlen, hmax⟩
    · refine Or.inr ⟨fun h => hpos h.2, ?_⟩
      have hzero : f.header.length.toNat = 0 := by
        have hle : ¬0 < f.header.length.toNat := fun h => hpos (UInt32.lt_iff_toNat_lt.mpr h)
        omega
      rw [hzero] at hlen
      exact List.length_eq_zero_iff.mp hlen.symm
  · refine Or.inr ⟨fun h => ?_, hnil⟩
    rcases ht with ht | ht
    · rw [ht] at h
      exact absurd h.1 (by decide)
    · rw [ht] at h
      exact absurd h.1 (by decide)

def Frame.seen (f : Frame) : Header × List Byte := (f.header, f.body)

structure Transfer where
  sender : Session
  peer : Session
  /-- The frames of `write_queue_`, all that ever entered it. -/
  enqueued : List Frame := []
  /-- The writes of the underlying stream that have begun and not ended. -/
  outstanding : Nat := 0
  completing : Completing := .idle
  /-- `async_send_frame` has queued a frame and has yet to look at `is_writing_`. -/
  looking : Bool := false
  /-- What the peer has passed to `handle_frame`. -/
  received : List (Header × List Byte) := []

namespace Transfer

/-- A call of `async_send_frame`. -/
structure Call where
  onStrand : Bool
  frame : PendingFrame

inductive Event where
  | call (c : Call)
  /-- The strand runs what was posted to it first. -/
  | runPosted
  /-- The rest of `async_send_frame`. -/
  | look
  /-- The write of the front of the queue succeeds, and its handler is called. What that
  sends is a call of its own. -/
  | writeOk
  /-- `do_write` looks at the queue. -/
  | proceed
  /-- `is_writing_ = false`. -/
  | reset
  /-- The outstanding read of the peer completes. -/
  | recv

def start (isServer : Bool) : Transfer where
  sender := { isServer }
  peer := { isServer := !isServer }

/-- `async_send_frame` on the strand, up to the point where it looks at `is_writing_`. -/
def push (t : Transfer) (pw : PendingFrame) : Transfer :=
  { t with
    sender := { t.sender with writeQueue := t.sender.writeQueue ++ [pw] }
    enqueued := t.enqueued ++ [pw.frame]
    looking := true }

/-- `do_write` begins a write unless the queue is empty. -/
def doWrite (t : Transfer) : Transfer :=
  { t with
    sender := t.sender.doWrite
    outstanding := t.outstanding + if t.sender.writeQueue.isEmpty then 0 else 1 }

def look (t : Transfer) : Transfer :=
  if t.sender.isWriting then { t with looking := false }
  else { t with sender := { t.sender with isWriting := true }, looking := false }.doWrite

/-- The front of the queue has been written, and its handler has been called. -/
def written (t : Transfer) (pw : PendingFrame) (rest : List PendingFrame) : Transfer :=
  { t with
    sender := { t.sender with writeQueue := rest, writing := false }.callHandler .success pw.handler
    outstanding := t.outstanding - 1
    completing := .handling }

def proceed (t : Transfer) : Transfer :=
  if t.sender.writeQueue.isEmpty then { t with completing := .ending }
  else { t with completing := .idle }.doWrite

def reset (t : Transfer) : Transfer :=
  { t with sender := { t.sender with isWriting := false }, completing := .idle }

/-- The header read of the peer completes with `buf`. -/
def headerRead (t : Transfer) (buf rest : List Byte) : Transfer :=
  let h := Header.decode buf
  { t with
    sender := { t.sender with wire := rest }
    peer := t.peer.headerRead buf
    received := if h.type = FrameType.data ∧ h.length > 0 then t.received
      else t.received ++ [(h, [])] }

def bodyRead (t : Transfer) (h : Header) (body rest : List Byte) : Transfer :=
  { t with
    sender := { t.sender with wire := rest }
    peer := t.peer.bodyRead h body
    received := t.received ++ [(h, body)] }

def step (t : Transfer) : Event → Option Transfer
  | .call c =>
      if c.onStrand then
        if t.looking then none else some (t.push c.frame)
      else some { t with sender := t.sender.postFrame c.frame }
  | .runPosted =>
      match t.looking, t.sender.posted with
      | false, .sendFrame pw :: posted =>
          some ({ t with sender := { t.sender with posted } }.push pw)
      | _, _ => none
  | .look => if t.looking then some t.look else none
  | .writeOk =>
      match t.sender.writeQueue with
      | [] => none
      | pw :: rest => if t.outstanding = 0 then none else some (t.written pw rest)
  | .proceed => if t.completing = .handling then some t.proceed else none
  | .reset => if t.completing = .ending then some t.reset else none
  | .recv =>
      match t.peer.reading with
      | .header =>
          if Header.size ≤ t.sender.wire.length then
            some (t.headerRead (t.sender.wire.take Header.size) (t.sender.wire.drop Header.size))
          else none
      | .body h =>
          if h.length.toNat ≤ t.sender.wire.length then
            some (t.bodyRead h (t.sender.wire.take h.length.toNat)
              (t.sender.wire.drop h.length.toNat))
          else none
      | .idle => none

/-- The session's `async_send_frame` is both parts, one right after the other. -/
theorem asyncSendFrame_eq (t : Transfer) (pw : PendingFrame) :
    t.sender.asyncSendFrame pw = (t.push pw).look.sender := by
  unfold asyncSendFrame look push
  dsimp only
  split
  · rfl
  · rfl

theorem doWrite_nil {s : Session} (hq : s.writeQueue = []) :
    s.doWrite = { s with isWriting := false } := by
  unfold Session.doWrite
  split
  · rfl
  · rename_i heq
    rw [hq] at heq
    cases heq

/-- The session's `writeDone` is what the parts of the handler come to when nothing happens
between them. -/
theorem writeDone_eq {t : Transfer} {pw : PendingFrame} {rest : List PendingFrame}
    (hq : t.sender.writeQueue = pw :: rest) : t.sender.writeDone .success =
      some (if rest.isEmpty then (t.written pw rest).proceed.reset.sender
        else (t.written pw rest).proceed.sender) := by
  have hrest : (t.written pw rest).sender.writeQueue = rest := by
    unfold written
    cases pw.handler <;> rfl
  have hdone : t.sender.writeDone .success = some (t.written pw rest).sender.doWrite := by
    unfold writeDone
    rw [hq]
    rfl
  rw [hdone, proceed, hrest]
  cases rest with
  | nil =>
      exact congrArg some (doWrite_nil hrest)
  | cons pw' rest => rfl

/-- Nothing is being written, and nothing is about to be. -/
def idle (t : Transfer) : Prop := t.outstanding = 0 ∧ t.completing = .idle ∧ t.looking = false

/-- Every frame that is sent announces its body. -/
def sendable : Event → Bool
  | .call c => decide c.frame.frame.Sendable
  | _ => true

/-- `async_send_frame` does not rely on a handler that has already found the queue empty. -/
def noticed (t : Transfer) : Event → Bool
  | .look => t.completing ≠ .ending || t.sender.writeQueue.isEmpty
  | _ => true

/-! ## The invariant -/

/-- The frames whose bytes, or the rest of them, are on the wire. -/
def OnWire (wire : List Byte) : Reading → List Frame → Prop
  | .header, fs => wire = fs.flatMap encodeFrame
  | .body h, fs => ∃ f rest, fs = f :: rest ∧ f.header = h ∧ h.type = FrameType.data ∧
      wire = f.body ++ rest.flatMap encodeFrame
  | .idle, _ => False

/-- Every frame is accounted for: `unsent` are those whose bytes are not on the wire. -/
structure Carried (t : Transfer) (unsent : List PendingFrame) : Prop where
  running : t.sender.stopped = false
  queued : ∀ pw ∈ t.sender.writeQueue, pw.frame.Sendable
  posted : ∀ task ∈ t.sender.posted, ∃ pw, task = .sendFrame pw ∧ pw.frame.Sendable
  peerRunning : t.peer.stopped = false
  accepted : .stop ∉ t.peer.posted
  account : ∃ fs, OnWire t.sender.wire t.peer.reading fs ∧ (∀ f ∈ fs, f.Sendable) ∧
    t.enqueued.map Frame.seen =
      t.received ++ fs.map Frame.seen ++ unsent.map fun pw => pw.frame.seen

/-- The frame that is being written is at the front of the queue. -/
structure Inv (t : Transfer) : Prop where
  carried : Carried t (if t.outstanding = 0 then t.sender.writeQueue else t.sender.writeQueue.tail)
  front : t.outstanding ≠ 0 → t.sender.writeQueue ≠ []
  turn : Turn t.sender.isWriting t.completing t.outstanding

/-- When nobody is left to look at the queue, it is empty. -/
def Attended (t : Transfer) : Prop :=
  t.looking = false → t.completing = .ending ∨ t.sender.isWriting = false →
    t.sender.writeQueue = []

theorem inv_start (isServer : Bool) : Inv (start isServer) where
  carried :=
    { running := rfl
      queued := by
        intro pw hpw
        cases hpw
      posted := by
        intro task htask
        cases htask
      peerRunning := rfl
      accepted := List.not_mem_nil
      account := ⟨[], rfl, fun f hf => (List.not_mem_nil hf).elim, rfl⟩ }
  front h := absurd rfl h
  turn := .free

/-! ## Sending -/

/-- A frame begun on the wire goes behind the frames there. -/
theorem OnWire.append {wire : List Byte} {r : Reading} {fs : List Frame} (h : OnWire wire r fs)
    (f : Frame) : OnWire (wire ++ encodeFrame f) r (fs ++ [f]) := by
  cases r with
  | header =>
      have hwire : wire = fs.flatMap encodeFrame := h
      show wire ++ encodeFrame f = (fs ++ [f]).flatMap encodeFrame
      rw [hwire, List.flatMap_append, List.flatMap_singleton]
  | body hd =>
      obtain ⟨g, rest, rfl, hg, hdata, rfl⟩ := h
      refine ⟨g, rest ++ [f], rfl, hg, hdata, ?_⟩
      rw [List.flatMap_append, List.flatMap_singleton, List.append_assoc]
  | idle => exact h.elim

theorem Carried.push {t : Transfer} {unsent : List PendingFrame} (h : Carried t unsent)
    {pw : PendingFrame} (hpw : pw.frame.Sendable) : Carried (t.push pw) (unsent ++ [pw]) := by
  refine ⟨h.running, ?_, h.posted, h.peerRunning, h.accepted, ?_⟩
  · intro p hp
    rcases List.mem_append.mp hp with hp | hp
    · exact h.queued p hp
    · rw [List.mem_singleton.mp hp]
      exact hpw
  · obtain ⟨fs, hwire, hfs, heq⟩ := h.account
    refine ⟨fs, hwire, hfs, ?_⟩
    show (t.enqueued ++ [pw.frame]).map Frame.seen = _
    rw [List.map_append, heq, List.map_append, ← List.append_assoc]
    rfl

/-- A frame is queued behind the one that is being written. -/
theorem Inv.push {t : Transfer} (h : Inv t) {pw : PendingFrame} (hpw : pw.frame.Sendable) :
    Inv (t.push pw) := by
  have hcarried := h.carried.push hpw
  refine ⟨?_, fun _ => ?_, h.turn⟩
  · show Carried (t.push pw) (if t.outstanding = 0 then t.sender.writeQueue ++ [pw]
      else (t.sender.writeQueue ++ [pw]).tail)
    split
    · rename_i hnone
      rw [if_pos hnone] at hcarried
      exact hcarried
    · rename_i hone
      rw [if_neg hone] at hcarried
      rw [List.tail_append_of_ne_nil (h.front hone)]
      exact hcarried
  · show t.sender.writeQueue ++ [pw] ≠ []
    simp

/-- A write begins for the front of the queue. -/
theorem Carried.begin {t : Transfer} {pw : PendingFrame} {rest : List PendingFrame}
    (h : Carried t (pw :: rest)) (hq : t.sender.writeQueue = pw :: rest) :
    Carried t.doWrite rest := by
  have hdo := Pair.doWrite_cons pw rest hq h.running
  unfold Transfer.doWrite
  rw [hdo]
  refine ⟨h.running, h.queued, h.posted, h.peerRunning, h.accepted, ?_⟩
  obtain ⟨fs, hwire, hfs, heq⟩ := h.account
  refine ⟨fs ++ [pw.frame], hwire.append pw.frame, ?_, ?_⟩
  · intro f hf
    rcases List.mem_append.mp hf with hf | hf
    · exact hfs f hf
    · rw [List.mem_singleton.mp hf]
      exact h.queued pw (by rw [hq]; exact List.mem_cons_self)
  · rw [heq, List.map_append, List.map_cons]
    simp only [List.append_assoc]
    rfl

/-- **`do_write`** begins the write of the next frame, or ends the writing. -/
theorem inv_doWrite {t : Transfer} (hcarried : Carried t t.sender.writeQueue)
    (hw : t.sender.isWriting = true) (hidle : t.completing = .idle) (hnone : t.outstanding = 0) :
    Inv t.doWrite ∧ Attended t.doWrite := by
  cases hq : t.sender.writeQueue with
  | nil =>
      have hempty : t.sender.writeQueue.isEmpty = true := by
        rw [hq]
        rfl
      rw [hq] at hcarried
      unfold Transfer.doWrite
      rw [doWrite_nil hq, hempty, hnone]
      refine ⟨⟨⟨hcarried.running, hcarried.queued, hcarried.posted, hcarried.peerRunning,
        hcarried.accepted, ?_⟩, fun hone => absurd rfl hone, ?_⟩, fun _ _ => hq⟩
      · show ∃ fs, OnWire t.sender.wire t.peer.reading fs ∧ (∀ f ∈ fs, f.Sendable) ∧
          t.enqueued.map Frame.seen =
            t.received ++ fs.map Frame.seen ++ t.sender.writeQueue.map fun pw => pw.frame.seen
        rw [hq]
        exact hcarried.account
      · show Turn false t.completing 0
        rw [hidle]
        exact .free
  | cons pw rest =>
      have hdo := Pair.doWrite_cons pw rest hq hcarried.running
      rw [hq] at hcarried
      -- the next frame goes on the wire while its entry stays at the head of the queue
      have hbegun := hcarried.begin hq
      have hqueue : t.doWrite.sender.writeQueue = pw :: rest := by
        show t.sender.doWrite.writeQueue = _
        rw [hdo]
        exact hq
      have hbusy : t.doWrite.sender.isWriting = true := by
        show t.sender.doWrite.isWriting = true
        rw [hdo]
        exact hw
      have hone : t.doWrite.outstanding = 1 := by
        show t.outstanding + (if t.sender.writeQueue.isEmpty then 0 else 1) = 1
        rw [hq, hnone]
        rfl
      have hstill : t.doWrite.completing = .idle := hidle
      refine ⟨⟨?_, fun _ => ?_, ?_⟩, fun _ hend => ?_⟩
      · rw [hone, if_neg Nat.one_ne_zero, hqueue]
        exact hbegun
      · rw [hqueue]
        exact List.cons_ne_nil _ _
      · rw [hbusy, hone, hstill]
        exact .writing
      · rw [hstill, hbusy] at hend
        rcases hend with hend | hend
        · cases hend
        · cases hend

/-- Only the handler of a write, or `async_send_frame` when there is none, begins the next. -/
theorem Inv.look {t : Transfer} (h : Inv t) :
    Inv t.look ∧ (t.noticed .look = true → Attended t.look) := by
  unfold Transfer.look
  split
  · rename_i hw
    have hcarried := h.carried
    refine ⟨⟨⟨hcarried.running, hcarried.queued, hcarried.posted, hcarried.peerRunning,
      hcarried.accepted, hcarried.account⟩, h.front, h.turn⟩, fun hok _ hend => ?_⟩
    rw [noticed, Bool.or_eq_true, List.isEmpty_iff, decide_eq_true_eq] at hok
    refine hok.resolve_left fun hne => ?_
    rcases hend with hend | hend
    · exact hne hend
    · have hidle : t.sender.isWriting = false := hend
      rw [hw] at hidle
      cases hidle
  · rename_i hw
    have hfree : t.sender.isWriting = false := Bool.not_eq_true _ ▸ hw
    have hturn := h.turn
    rw [hfree] at hturn
    obtain ⟨hcompleting, hnone⟩ := hturn.of_free
    have hcarried := h.carried
    rw [if_pos hnone] at hcarried
    obtain ⟨hinv, hattended⟩ := inv_doWrite (t := { t with
      sender := { t.sender with isWriting := true }, looking := false })
      ⟨hcarried.running, hcarried.queued, hcarried.posted, hcarried.peerRunning,
        hcarried.accepted, hcarried.account⟩ rfl hcompleting hnone
    exact ⟨hinv, fun _ => hattended⟩

/-- A call that is posted to the strand. -/
theorem Carried.post {t : Transfer} {unsent : List PendingFrame} (h : Carried t unsent)
    {pw : PendingFrame} (hpw : pw.frame.Sendable) :
    Carried { t with sender := t.sender.postFrame pw } unsent := by
  refine ⟨h.running, h.queued, ?_, h.peerRunning, h.accepted, h.account⟩
  intro task htask
  rcases List.mem_append.mp htask with hold | hnew
  · exact h.posted task hold
  · exact ⟨pw, List.mem_singleton.mp hnew, hpw⟩

/-! ## The handler of a write -/

/-- A handler that is told of success only counts as invoked. -/
theorem callHandler_success (s : Session) (handler : FrameHandler) :
    s.callHandler .success handler =
      { s with invoked := (s.callHandler .success handler).invoked } := by
  cases handler <;> rfl

/-- **The end of a write.** -/
theorem Inv.written {t : Transfer} (h : Inv t) {pw : PendingFrame} {rest : List PendingFrame}
    (hq : t.sender.writeQueue = pw :: rest) (hone : t.outstanding ≠ 0) :
    Inv (t.written pw rest) ∧ Attended (t.written pw rest) := by
  have hcarried := h.carried
  rw [if_neg hone, hq] at hcarried
  obtain ⟨hw, -, hn⟩ := h.turn.of_outstanding hone
  unfold Transfer.written
  rw [callHandler_success, hn]
  refine ⟨⟨⟨hcarried.running, ?_, hcarried.posted, hcarried.peerRunning, hcarried.accepted,
    hcarried.account⟩, fun hne => absurd rfl hne, ?_⟩, fun _ hend => ?_⟩
  · intro p hp
    exact hcarried.queued p (by rw [hq]; exact List.mem_cons_of_mem _ hp)
  · show Turn t.sender.isWriting .handling 0
    rw [hw]
    exact .handling
  · rcases hend with hend | hend
    · cases hend
    · have hidle : t.sender.isWriting = false := hend
      rw [hw] at hidle
      cases hidle

theorem Inv.proceed {t : Transfer} (h : Inv t) (hcompleting : t.completing = .handling) :
    Inv t.proceed ∧ Attended t.proceed := by
  obtain ⟨hw, hn⟩ := h.turn.of_completing (by rw [hcompleting]; decide)
  have hcarried := h.carried
  rw [if_pos hn] at hcarried
  unfold Transfer.proceed
  split
  · rename_i hempty
    refine ⟨⟨?_, fun hone => absurd hn hone, ?_⟩, fun _ _ => List.isEmpty_iff.mp hempty⟩
    · show Carried _ (if t.outstanding = 0 then t.sender.writeQueue else t.sender.writeQueue.tail)
      rw [if_pos hn]
      exact ⟨hcarried.running, hcarried.queued, hcarried.posted, hcarried.peerRunning,
        hcarried.accepted, hcarried.account⟩
    · show Turn t.sender.isWriting .ending t.outstanding
      rw [hw, hn]
      exact .ending
  · exact inv_doWrite (t := { t with completing := .idle })
      ⟨hcarried.running, hcarried.queued, hcarried.posted, hcarried.peerRunning,
        hcarried.accepted, hcarried.account⟩ hw rfl hn

/-- A frame that has come since the handler found the queue empty stays. -/
theorem Inv.reset {t : Transfer} (h : Inv t) (hcompleting : t.completing = .ending) :
    Inv t.reset ∧ (Attended t → Attended t.reset) := by
  obtain ⟨-, hn⟩ := h.turn.of_completing (by rw [hcompleting]; decide)
  have hcarried := h.carried
  refine ⟨⟨⟨hcarried.running, hcarried.queued, hcarried.posted, hcarried.peerRunning,
    hcarried.accepted, hcarried.account⟩, h.front, ?_⟩,
    fun hattended hlooking _ => hattended hlooking (Or.inl hcompleting)⟩
  show Turn false .idle t.outstanding
  rw [hn]
  exact .free

/-! ## Receiving -/

/-- A session that handles a frame of a known type does not post its own end. -/
theorem handleFrame_accepts {s : Session} {h : Header} {body : List Byte}
    (hs : .stop ∉ s.posted) (ht : h.type = FrameType.data ∨ h.type = FrameType.windowUpdate ∨
      h.type = FrameType.ping) : .stop ∉ (s.handleFrame h body).posted := by
  have hpost : ∀ (s : Session) (pw : PendingFrame), .stop ∉ s.posted →
      .stop ∉ (s.postFrame pw).posted := by
    intro s pw hs hmem
    rcases List.mem_append.mp hmem with hmem | hmem
    · exact hs hmem
    · cases List.mem_singleton.mp hmem
  have hfor : .stop ∉ (s.streamFor h).1.posted := by
    unfold streamFor
    split
    · exact hs
    · split
      · exact hpost _ _ hs
      · exact hs
  unfold handleFrame
  split
  · split
    · rename_i s₁ o heq
      rw [heq] at hfor
      exact hfor
    · rename_i s₁ heq
      rw [heq] at hfor
      exact hfor
  · rename_i hneither
    rcases ht with ht | ht | ht
    · exact absurd (Or.inl ht) hneither
    · exact absurd (Or.inr ht) hneither
    · rw [if_pos ht]
      split
      · exact hpost _ _ hs
      · exact hs

/-- The header the peer reads is that of the first frame on the wire. -/
theorem OnWire.header {wire : List Byte} {fs : List Frame} (h : OnWire wire .header fs)
    (hlen : Header.size ≤ wire.length) : ∃ f rest, fs = f :: rest ∧
      Header.decode (wire.take Header.size) = f.header ∧
      wire.drop Header.size = f.body ++ rest.flatMap encodeFrame := by
  have hwire : wire = fs.flatMap encodeFrame := h
  cases fs with
  | nil =>
      rw [hwire] at hlen
      exact absurd hlen (by decide)
  | cons f rest =>
      have hsize : f.header.encode.length = Header.size := f.header.length_encode
      refine ⟨f, rest, rfl, ?_, ?_⟩
      · rw [hwire, List.flatMap_cons, encodeFrame, List.append_assoc, ← hsize, List.take_left,
          Header.decode_encode]
      · rw [hwire, List.flatMap_cons, encodeFrame, List.append_assoc, ← hsize, List.drop_left]

/-- **A header read.** A frame without a body is handed over; for a Data frame with one the
body is asked for. -/
theorem Carried.headerRead {t : Transfer} {unsent : List PendingFrame} (h : Carried t unsent)
    (hreading : t.peer.reading = .header) (hlen : Header.size ≤ t.sender.wire.length) :
    Carried (t.headerRead (t.sender.wire.take Header.size) (t.sender.wire.drop Header.size))
      unsent := by
  obtain ⟨fs, hwire, hfs, heq⟩ := h.account
  rw [hreading] at hwire
  obtain ⟨f, rest, rfl, hheader, hdrop⟩ := hwire.header hlen
  have hf := hfs f List.mem_cons_self
  have hrest : ∀ g ∈ rest, g.Sendable := fun g hg => hfs g (List.mem_cons_of_mem _ hg)
  unfold Transfer.headerRead Session.headerRead
  simp only [h.peerRunning, Bool.false_eq_true, if_false, hheader, hdrop]
  rcases hf.body with ⟨hdata, hpos, hbody, hmax⟩ | ⟨hnone, hnil⟩
  · have hfits : ¬f.header.length.toNat > maxMessageSize := by omega
    rw [if_pos ⟨hdata, hpos⟩, if_neg hfits, if_pos ⟨hdata, hpos⟩]
    exact ⟨h.running, h.queued, h.posted, rfl, h.accepted,
      f :: rest, ⟨f, rest, rfl, rfl, hdata, rfl⟩, hfs, heq⟩
  · rw [if_neg hnone, if_neg hnone, hnil, List.nil_append]
    have hlife := congrArg Prod.snd (handleFrame_lifetime t.peer f.header [])
    refine ⟨h.running, h.queued, h.posted, hlife.trans h.peerRunning,
      handleFrame_accepts h.accepted hf.known, rest, rfl, hrest, ?_⟩
    rw [heq, List.map_cons, Frame.seen, hnil]
    simp only [List.append_assoc, List.cons_append, List.nil_append]

/-- **A body read.** -/
theorem Carried.bodyRead {t : Transfer} {unsent : List PendingFrame} (h : Carried t unsent)
    {hd : Header} (hreading : t.peer.reading = .body hd) :
    Carried (t.bodyRead hd (t.sender.wire.take hd.length.toNat)
      (t.sender.wire.drop hd.length.toNat)) unsent := by
  obtain ⟨fs, hwire, hfs, heq⟩ := h.account
  rw [hreading] at hwire
  obtain ⟨f, rest, rfl, rfl, hdata, hwire⟩ := hwire
  have hf := hfs f List.mem_cons_self
  have hlen : f.header.length.toNat = f.body.length := by
    rcases hf with ⟨-, hlen, -⟩ | ⟨ht, -⟩
    · exact hlen
    · rw [hdata] at ht
      exact absurd ht (by decide)
  have hrest : ∀ g ∈ rest, g.Sendable := fun g hg => hfs g (List.mem_cons_of_mem _ hg)
  have hlife := congrArg Prod.snd (handleFrame_lifetime t.peer f.header f.body)
  unfold Transfer.bodyRead Session.bodyRead
  simp only [h.peerRunning, Bool.false_eq_true, if_false, hlen, hwire, List.take_left,
    List.drop_left]
  refine ⟨h.running, h.queued, h.posted, hlife.trans h.peerRunning,
    handleFrame_accepts h.accepted hf.known, rest, rfl, hrest, ?_⟩
  rw [heq, List.map_cons]
  simp only [List.append_assoc, List.cons_append]
  rfl

theorem inv_step {t t' : Transfer} {e : Event} (h : Inv t) (hok : sendable e = true)
    (hstep : t.step e = some t') : Inv t' ∧ (Attended t → t.noticed e = true → Attended t') := by
  cases e with
  | call c =>
      have hc : c.frame.frame.Sendable := of_decide_eq_true hok
      rw [step] at hstep
      split at hstep
      · rw [Option.ite_none_left_eq_some] at hstep
        cases hstep.2
        exact ⟨h.push hc, fun _ _ hlooking => (by cases hlooking)⟩
      · cases hstep
        exact ⟨⟨h.carried.post hc, h.front, h.turn⟩, fun hattended _ => hattended⟩
  | runPosted =>
      rw [step] at hstep
      split at hstep
      · rename_i pw posted hlooking hposted
        cases hstep
        obtain ⟨pw', heq, hpw⟩ := h.carried.posted (.sendFrame pw) (hposted ▸ List.mem_cons_self)
        cases heq
        have hcarried : Carried { t with sender := { t.sender with posted } }
            (if t.outstanding = 0 then t.sender.writeQueue else t.sender.writeQueue.tail) := by
          refine ⟨h.carried.running, h.carried.queued, fun task htask => ?_,
            h.carried.peerRunning, h.carried.accepted, h.carried.account⟩
          exact h.carried.posted task (hposted ▸ List.mem_cons_of_mem _ htask)
        exact ⟨Inv.push ⟨hcarried, h.front, h.turn⟩ hpw, fun _ _ hlooking => (by cases hlooking)⟩
      · cases hstep
  | look =>
      rw [step, Option.ite_none_right_eq_some] at hstep
      cases hstep.2
      exact ⟨h.look.1, fun _ hnoticed => h.look.2 hnoticed⟩
  | writeOk =>
      rw [step] at hstep
      split at hstep
      · cases hstep
      · rename_i pw rest hq
        rw [Option.ite_none_left_eq_some] at hstep
        cases hstep.2
        have hwritten := h.written hq hstep.1
        exact ⟨hwritten.1, fun _ _ => hwritten.2⟩
  | proceed =>
      rw [step, Option.ite_none_right_eq_some] at hstep
      cases hstep.2
      have hproceed := h.proceed hstep.1
      exact ⟨hproceed.1, fun _ _ => hproceed.2⟩
  | reset =>
      rw [step, Option.ite_none_right_eq_some] at hstep
      cases hstep.2
      have hreset := h.reset hstep.1
      exact ⟨hreset.1, fun hattended _ => hreset.2 hattended⟩
  | recv =>
      rw [step] at hstep
      split at hstep
      · rename_i hreading
        split at hstep
        · rename_i hlen
          cases hstep
          exact ⟨⟨h.carried.headerRead hreading hlen, h.front, h.turn⟩,
            fun hattended _ => hattended⟩
        · cases hstep
      · rename_i hd hreading
        split at hstep
        · cases hstep
          exact ⟨⟨h.carried.bodyRead hreading, h.front, h.turn⟩, fun hattended _ => hattended⟩
        · cases hstep
      · cases hstep

/-- With nothing to write and nothing for the peer to read, every frame has arrived but those
that are left in the queue. -/
theorem Inv.drained {t : Transfer} (h : Inv t) (hnone : t.outstanding = 0)
    (hread : t.step .recv = none) : t.enqueued.map Frame.seen =
      t.received ++ t.sender.writeQueue.map fun pw => pw.frame.seen := by
  have hcarried := h.carried
  rw [if_pos hnone] at hcarried
  obtain ⟨fs, hwire, hfs, heq⟩ := hcarried.account
  -- a frame on the wire is there in whole, so the peer could read its next part
  have hgone : fs = [] := by
    unfold step at hread
    cases hreading : t.peer.reading with
    | header =>
        rw [hreading] at hread hwire
        have hflat : t.sender.wire = fs.flatMap encodeFrame := hwire
        cases fs with
        | nil => rfl
        | cons f rest =>
            have hlen : Header.size ≤ t.sender.wire.length := by
              rw [hflat, List.flatMap_cons, encodeFrame, List.append_assoc, List.length_append,
                Header.length_encode]
              omega
            simp only [if_pos hlen] at hread
            cases hread
    | body hd =>
        rw [hreading] at hread hwire
        obtain ⟨f, rest, rfl, rfl, hdata, hbody⟩ := hwire
        have hlen : f.header.length.toNat ≤ t.sender.wire.length := by
          rcases hfs f List.mem_cons_self with ⟨-, hlen, -⟩ | ⟨ht, -⟩
          · rw [hbody, hlen, List.length_append]
            omega
          · rw [hdata] at ht
            exact absurd ht (by decide)
        simp only [if_pos hlen] at hread
        cases hread
    | idle =>
        rw [hreading] at hwire
        exact hwire.elim
  rw [heq, hgone, List.map_nil, List.append_nil]

theorem inv_of_reach {isServer : Bool} {t : Transfer}
    (h : Reach step (fun _ e => sendable e = true) (start isServer) t) : Inv t :=
  h.invariant (P := Inv) (inv_start isServer) fun _ _ _ hs hok hstep => (inv_step hs hok hstep).1

/-- **Framing.** At most one write is outstanding; what the peer has received is the
beginning of what was queued, and no frame makes the peer end the session. Once nothing is
left to write or to read, all has arrived but what was left in the queue, and nothing is left
there unless `async_send_frame` relied on a handler that was about to end the writing. -/
theorem wire_framing {isServer : Bool} {t : Transfer}
    (h : Reach step (fun _ e => sendable e = true) (start isServer) t) :
    t.outstanding ≤ 1 ∧ t.received <+: t.enqueued.map Frame.seen ∧ t.peer.stopped = false ∧
    .stop ∉ t.peer.posted ∧
    (t.idle → t.step .recv = none → t.enqueued.map Frame.seen =
      t.received ++ t.sender.writeQueue.map fun pw => pw.frame.seen) ∧
    (Reach step (fun t e => (sendable e && t.noticed e) = true) (start isServer) t →
      t.idle → t.step .recv = none → t.received = t.enqueued.map Frame.seen) := by
  have hinv := inv_of_reach h
  refine ⟨hinv.turn.le_one, ?_, hinv.carried.peerRunning, hinv.carried.accepted,
    fun hidle hread => hinv.drained hidle.1 hread, fun hnoticed hidle hread => ?_⟩
  · obtain ⟨fs, -, -, heq⟩ := hinv.carried.account
    exact ⟨_, by rw [heq, List.append_assoc]⟩
  · have hattended : Inv t ∧ Attended t := by
      refine hnoticed.invariant (P := fun t => Inv t ∧ Attended t)
        ⟨inv_start isServer, fun _ _ => rfl⟩ fun s e s' hs hok hstep => ?_
      rw [Bool.and_eq_true] at hok
      obtain ⟨hs', hattended⟩ := inv_step hs.1 hok.1 hstep
      exact ⟨hs', hattended hs.2 hok.2⟩
    obtain ⟨hnone, hcompleting, hlooking⟩ := hidle
    have hfree : t.sender.isWriting = false := by
      have hturn := hinv.turn
      rw [hnone, hcompleting] at hturn
      exact hturn.of_none
    rw [hinv.drained hnone hread, hattended.2 hlooking (Or.inr hfree)]
    exact (List.append_nil _).symm

/-- A frame of credit, and a Ping that comes while the handler of a Data frame runs. -/
theorem wire_framing_reentrant : ∃ t : Transfer,
    t.received.length = 3 ∧ t.enqueued.length = 3 ∧ t.outstanding ≤ 1 ∧
    t.received = t.enqueued.map Frame.seen := by
  obtain ⟨t, ht, hobs⟩ := exists_of_runGuarded step (fun t e => sendable e && t.noticed e)
    [.call ⟨true, ⟨⟨⟨0, FrameType.data, 0, 1, 3⟩, [[7], [8, 9]]⟩, .none⟩⟩, .look,
      .call ⟨false, ⟨⟨⟨0, FrameType.windowUpdate, 0, 1, 70000⟩, []⟩, .none⟩⟩, .recv, .writeOk,
      .runPosted, .call ⟨false, ⟨pingFrame, .none⟩⟩, .proceed, .look, .recv, .runPosted, .writeOk,
      .look, .proceed, .writeOk, .proceed, .reset, .recv, .recv]
    (fun t => (t.received.length, t.enqueued.length, decide (t.outstanding = 0 ∧
      t.completing = .idle ∧ t.looking = false ∧ (t.step .recv).isNone)))
    (s := start false) (a := (3, 3, true)) (by decide)
  simp only [Prod.mk.injEq, decide_eq_true_eq] at hobs
  obtain ⟨hreceived, henqueued, hnone, hcompleting, hlooking, hread⟩ := hobs
  have hany : Reach step (fun _ e => sendable e = true) (start false) t :=
    ht.mono fun _ _ hok => (Bool.and_eq_true _ _ ▸ hok).1
  obtain ⟨hone, -, -, -, -, hall⟩ := wire_framing hany
  exact ⟨t, hreceived, henqueued, hone,
    hall ht ⟨hnone, hcompleting, hlooking⟩ (Option.isNone_iff_eq_none.mp hread)⟩

/-- A frame is queued after the handler of the one before it has found the queue empty, and
before it has set `is_writing_`. Nobody writes it. -/
theorem not_all_written : ¬∀ (isServer : Bool) (t : Transfer),
    Reach step (fun _ e => sendable e = true) (start isServer) t →
    t.idle → t.step .recv = none → t.received = t.enqueued.map Frame.seen := by
  intro hall
  obtain ⟨t, ht, hobs⟩ := exists_of_runGuarded step (fun _ e => sendable e)
    [.call ⟨true, ⟨pingFrame, .none⟩⟩, .look, .recv, .writeOk, .proceed,
      .call ⟨true, ⟨⟨⟨0, FrameType.windowUpdate, 0, 1, 70000⟩, []⟩, .none⟩⟩, .look, .reset]
    (fun t => (t.received.length, t.enqueued.length, decide (t.outstanding = 0 ∧
      t.completing = .idle ∧ t.looking = false ∧ (t.step .recv).isNone)))
    (s := start false) (a := (1, 2, true)) (by decide)
  simp only [Prod.mk.injEq, decide_eq_true_eq] at hobs
  obtain ⟨hreceived, henqueued, hnone, hcompleting, hlooking, hread⟩ := hobs
  have heq := congrArg List.length (hall false t ht ⟨hnone, hcompleting, hlooking⟩
    (Option.isNone_iff_eq_none.mp hread))
  rw [List.length_map, hreceived, henqueued] at heq
  cases heq

end Transfer

end Cfrp.Mux
