import Cfrp.Mux.Dispatch
import Cfrp.Mux.Failure
import Mathlib.Data.Bool.Basic

/-!
# Which object a frame is for

`open_stream` takes the next identifier of its side without a look at `streams_`, and
`next_stream_id_` is a `uint32_t` stepped by two: after 2^31 streams it is back at the first
one. Frames name a stream by its identifier, so the identifier is all that tells the objects
apart.

`IdRun` is the pair of sessions with its history: what each side opened, which object every
frame in the line came from, which object was created for the SYN of which, and which object
each frame was passed to.
-/

namespace Cfrp.Mux

open Lib Session

/-- A frame that entered the write queue, with the stream object it was sent for. -/
structure Sent where
  sender : Option Nat
  frame : Frame

/-- The frame as it is received. -/
def Sent.seen (g : Sent) : Header × List Byte := (g.frame.header, g.frame.body)

structure IdRun where
  pair : Pair := Pair.init
  /-- The identifiers `open_stream` has returned. -/
  opened : Bool → List UInt32 := fun _ => []
  /-- What is posted to the strand of a session, each with the object it was posted for. -/
  waiting : Bool → List (Option Nat × SessionTask) := fun _ => []
  /-- What entered the write queue of a session and was not received, oldest first. -/
  line : Bool → List Sent := fun _ => []
  /-- The objects a SYN created, each with the sender of the SYN. -/
  created : Bool → List (Nat × Option Nat) := fun _ => []
  /-- The objects a frame was passed to, each with the sender of the frame. -/
  passed : Bool → List (Nat × Option Nat) := fun _ => []

namespace IdRun

/-- The object that an event of a session sends frames for. -/
def actor (s : Session) : Session.Event → Option Nat
  | .openStream _ => some s.objs.length
  | .asyncRead o _ _ _ => some o
  | .asyncWrite o _ _ => some o
  | .close o => some o
  | .destroy o => some o
  | .runStream o => some o
  | .stop running => running
  | _ => none

/-- Session `x` has become `s'`, which was done for the object `who`. -/
def put (r : IdRun) (x : Bool) (s' : Session) (who : Option Nat)
    (waiting : List (Option Nat × SessionTask)) : IdRun :=
  let s := r.pair x
  { r with
    pair := Function.update r.pair x s'
    waiting := Function.update r.waiting x
      (waiting ++ (s'.posted.drop s.posted.length).map fun t => (who, t))
    line := Function.update r.line x
      (r.line x ++ (s'.writeQueue.drop s.writeQueue.length).map fun pw => ⟨who, pw.frame⟩) }

/-- The step of session `x` to `s'` by itself. -/
def act (r : IdRun) (x : Bool) (e : Session.Event) (s' : Session) : IdRun :=
  let s := r.pair x
  match e with
  | .openStream _ =>
      { r.put x s' (actor s e) (r.waiting x) with
        opened := Function.update r.opened x (r.opened x ++ [s.nextStreamId]) }
  | .runPosted =>
      -- what was posted is sent for the object it was posted for
      r.put x s' ((r.waiting x).head?.bind Prod.fst) (r.waiting x).tail
  | e => r.put x s' (actor s e) (r.waiting x)

/-- The header of the frame that a read completes. -/
def frameRead (s : Session) (e : Session.Event) : Option Header :=
  if s.stopped then none
  else
    match e, s.reading with
    | .recvHeader buf, _ =>
        let h := Header.decode buf
        if h.type = FrameType.data ∧ h.length > 0 then none else some h
    | .recvBody _, .body h => some h
    | _, _ => none

/-- The object that `handle_frame` passes a frame to. -/
def receiver (s : Session) (h : Header) : Option Nat :=
  if h.type = FrameType.data ∨ h.type = FrameType.windowUpdate then (s.streamFor h).2 else none

/-- The object a read has created. -/
def newObj (s s' : Session) : Option Nat :=
  if s.objs.length < s'.objs.length then some s.objs.length else none

/-- Session `x` has received a frame with the header `h`, and the pair has become `p`. -/
def take (r : IdRun) (x : Bool) (h : Header) (p : Pair) : IdRun :=
  let s := r.pair x
  let sender := (r.line !x).head?.bind Sent.sender
  let new := newObj s (p x)
  { r with
    pair := p
    waiting := Function.update r.waiting x
      (r.waiting x ++ ((p x).posted.drop s.posted.length).map fun t => (new, t))
    line := Function.update r.line (!x) (r.line !x).tail
    created := Function.update r.created x (r.created x ++ new.toList.map fun o => (o, sender))
    passed := Function.update r.passed x
      (r.passed x ++ (receiver s h).toList.map fun o => (o, sender)) }

/-- The step of the pair to `p` by a read of session `x`. -/
def recv (r : IdRun) (x : Bool) (e : Session.Event) (p : Pair) : IdRun :=
  match frameRead (r.pair x) e with
  | none => { r with pair := p }
  | some h => r.take x h p

/-- Only the session itself and its streams call `async_send_frame`. -/
def step (r : IdRun) : Pair.Event → Option IdRun
  | .act _ (.sendFrame ..) => none
  | .act x e => (r.pair.step (.act x e)).map fun p => r.act x e (p x)
  | .recv x =>
      (r.pair.nextRead x).bind fun n => (r.pair.step (.recv x)).map fun p => r.recv x n.1 p

/-- One of the objects was created for the SYN of the other. -/
def Peers (r : IdRun) (x : Bool) (o o' : Nat) : Prop :=
  (o, some o') ∈ r.created x ∨ (o', some o) ∈ r.created !x

/-- A side that opens a stream has opened fewer than 2^31. -/
def mayOpen (r : IdRun) : Pair.Event → Bool
  | .act x (.openStream _) => (r.opened x).length < 2 ^ 31
  | _ => true

/-! ## What a session sends -/

/-- The identifiers of the objects of a session. -/
def ids (s : Session) : List UInt32 := s.objs.map StreamObj.id

/-- A frame names the object it was sent for. -/
inductive Signed (ids : List UInt32) : Sent → Prop where
  | stream {o : Nat} {i : UInt32} {f : Frame} :
      ids[o]? = some i → StreamFrame i f → Signed ids ⟨some o, f⟩
  | syn {o : Nat} {i : UInt32} : ids[o]? = some i → Signed ids ⟨some o, synFrame i⟩
  | ack {o : Nat} {i : UInt32} : ids[o]? = some i → Signed ids ⟨some o, ackFrame i⟩
  | ping : Signed ids ⟨none, pingFrame⟩
  | pong : Signed ids ⟨none, pongFrame⟩

/-- The stream that a frame introduces. -/
def synId (f : Frame) : Option UInt32 :=
  if f.header.flags = Flags.syn ∧ f.header.type = FrameType.data then some f.header.streamId
  else none

/-- Nothing that is queued from now on reaches the wire. -/
def Dead (s : Session) : Prop := s.stopped = true ∨ s.broken = true

/-- The wire holds the first of the frames `line`, and while the session runs the queue holds
the others. -/
def Carried (r : Reading) (s : Session) (line : List (Header × List Byte)) : Prop :=
  s.stopped = false ∧ Pair.Output r s ∧ Pair.flight r s = line ∨
    Dead s ∧ EncodedFrom r s.wire ∧ parseFrom r s.wire <+: line

variable {s s' s'' : Session} {r : Reading} {line : List (Header × List Byte)}

theorem Signed.sessionFrame {l : List UInt32} {g : Sent} (h : Signed l g) :
    SessionFrame g.frame := by
  cases h with
  | stream _ hf => exact .stream _ hf
  | syn _ => exact .control (.syn _)
  | ack _ => exact .control (.ack _)
  | ping => exact .control .ping
  | pong => exact .control .pong

theorem Signed.mono {l : List UInt32} {g : Sent} (h : Signed l g) (new : List UInt32) :
    Signed (l ++ new) g := by
  have hsame : ∀ {o : Nat} {i : UInt32}, l[o]? = some i → (l ++ new)[o]? = some i := by
    intro o i ho
    rw [List.getElem?_append_left (List.getElem?_eq_some_iff.mp ho).1, ho]
  cases h with
  | stream ho hf => exact .stream (hsame ho) hf
  | syn ho => exact .syn (hsame ho)
  | ack ho => exact .ack (hsame ho)
  | ping => exact .ping
  | pong => exact .pong

theorem synId_stream {i : UInt32} {f : Frame} (h : StreamFrame i f) : synId f = none := by
  unfold synId
  split
  · rename_i hsyn
    cases h with
    | data bufs _ _ => exact absurd hsyn.1 (by show (0 : UInt16) ≠ 1; decide)
    | fin => exact absurd hsyn.1 (by show (4 : UInt16) ≠ 1; decide)
    | windowUpdate n => exact absurd hsyn.2 (by show (1 : UInt8) ≠ 0; decide)
  · rfl

/-! ## The wire -/

/-- Nothing that a session does without its wire matters once it is dead. -/
theorem Carried.dead (h : Carried r s line) (hdead : Dead s') (hwire : s'.wire = s.wire) :
    Carried r s' line := by
  refine Or.inr ⟨hdead, ?_⟩
  rw [hwire]
  rcases h with ⟨-, hout, hflight⟩ | ⟨-, hwire, hparse⟩
  · refine ⟨hout.wire, ?_⟩
    rw [← hflight, Pair.flight]
    exact List.prefix_append _ _
  · exact ⟨hwire, hparse⟩

theorem Carried.congr (h : Carried r s line) (hstopped : s'.stopped = s.stopped)
    (hqueue : s'.writeQueue = s.writeQueue) (hbusy : s'.isWriting = s.isWriting)
    (hwriting : s'.writing = s.writing) (hwire : s'.wire = s.wire) : Carried r s' line := by
  rcases h with ⟨hrun, hout, hflight⟩ | ⟨hdead, henc, hparse⟩
  · refine Or.inl ⟨hstopped.trans hrun, ⟨?_, ?_, ?_, ?_, ?_⟩, ?_⟩
    · rw [hbusy, hwriting]
      exact hout.isWriting
    · rw [hwriting, hqueue]
      exact hout.busy
    · rw [hwriting, hqueue]
      exact hout.idle
    · rw [hqueue]
      exact hout.queued
    · rw [hwire]
      exact hout.wire
    · rw [← hflight, Pair.flight, Pair.flight, Pair.unsent, Pair.unsent, hwire, hwriting, hqueue]
  · refine Or.inr ⟨?_, ?_⟩
    · unfold Dead broken
      rw [hstopped, hbusy, hwriting]
      exact hdead
    · rw [hwire]
      exact ⟨henc, hparse⟩

theorem dead_asyncSendFrame (h : Dead s) (pw : PendingFrame) :
    Dead (s.asyncSendFrame pw) ∧ (s.asyncSendFrame pw).wire = s.wire := by
  rcases h with hstopped | hbroken
  · refine ⟨Or.inl ((Pair.asyncSendFrame_same s pw).stopped.trans hstopped), ?_⟩
    unfold Session.asyncSendFrame
    simp only
    split
    · rfl
    · unfold Session.doWrite
      split
      · rfl
      · exact if_pos hstopped
  · have hbusy : s.isWriting = true := (Bool.and_eq_true_iff.mp hbroken).1
    rw [asyncSendFrame_busy hbusy]
    exact ⟨Or.inr hbroken, rfl⟩

/-- A queued frame joins the line. -/
theorem Carried.asyncSendFrame (h : Carried r s line) {pw : PendingFrame}
    (hpw : SessionFrame pw.frame) :
    Carried r (s.asyncSendFrame pw) (line ++ [Pair.asReceived pw]) := by
  rcases h with ⟨hrun, hout, hflight⟩ | ⟨hdead, henc, hparse⟩
  · obtain ⟨hout', hflight'⟩ := hout.asyncSendFrame hrun hpw
    refine Or.inl ⟨(Pair.asyncSendFrame_same s pw).stopped.trans hrun, hout', ?_⟩
    rw [hflight', hflight]
  · obtain ⟨hdead', hwire⟩ := dead_asyncSendFrame hdead pw
    refine Or.inr ⟨hdead', ?_⟩
    rw [hwire]
    exact ⟨henc, hparse.trans (List.prefix_append _ _)⟩

theorem Carried.sendAll (fs : List PendingFrame) (h : Carried r s line)
    (hfs : ∀ pw ∈ fs, SessionFrame pw.frame) :
    Carried r (fs.foldl Session.asyncSendFrame s) (line ++ fs.map Pair.asReceived) := by
  induction fs generalizing s line with
  | nil =>
      rw [List.map_nil, List.append_nil]
      exact h
  | cons pw fs ih =>
      have hone := h.asyncSendFrame (hfs pw List.mem_cons_self)
      have hall := ih hone fun g hg => hfs g (List.mem_cons_of_mem _ hg)
      rw [List.append_assoc] at hall
      exact hall

/-! ## What an event does -/

/-- The frame is one of the object `who` of a session with these identifiers. -/
def SentFor (l : List UInt32) (who : Option Nat) (f : Frame) : Prop :=
  ∃ o i, who = some o ∧ l[o]? = some i ∧ StreamFrame i f

/-- `s` has become `s'` by changes of its objects, with the frames `fs`. -/
structure Sends (s s' : Session) (fs : List PendingFrame) : Prop where
  sameIds : ids s' = ids s
  table : ∀ i o, s'.streams.lookup i = some o → s.streams.lookup i = some o
  next : s'.nextStreamId = s.nextStreamId
  posted : ∃ n, s'.posted = s.posted ++ List.replicate n .stop
  reading : s'.reading = s.reading ∨ s'.reading = .idle
  carried : ∀ {r line}, Carried r s line → (∀ pw ∈ fs, SessionFrame pw.frame) →
    Carried r s' (line ++ fs.map Pair.asReceived)

theorem Sends.trans {fs fs' : List PendingFrame} (h : Sends s s' fs) (h' : Sends s' s'' fs') :
    Sends s s'' (fs ++ fs') where
  sameIds := h'.sameIds.trans h.sameIds
  table i o ho := h.table i o (h'.table i o ho)
  next := h'.next.trans h.next
  posted := by
    obtain ⟨n, hn⟩ := h.posted
    obtain ⟨m, hm⟩ := h'.posted
    refine ⟨n + m, ?_⟩
    rw [hm, hn, List.append_assoc, List.replicate_append_replicate]
  reading := by
    rcases h'.reading with heq | heq
    · rw [heq]
      exact h.reading
    · exact Or.inr heq
  carried hc hfs := by
    have hc' := h.carried hc fun pw hpw => hfs pw (List.mem_append_left _ hpw)
    have hc'' := h'.carried hc' fun pw hpw => hfs pw (List.mem_append_right _ hpw)
    rw [List.map_append, ← List.append_assoc]
    exact hc''

/-- `s` has become `s'`, and the frames it sent are of the object `who`. -/
def Queues (who : Option Nat) (s s' : Session) : Prop :=
  ∃ fs, Sends s s' fs ∧ s'.writeQueue = s.writeQueue ++ fs ∧
    ∀ pw ∈ fs, SentFor (ids s) who pw.frame

variable {who : Option Nat}

theorem Queues.trans (h : Queues who s s') (h' : Queues who s' s'') : Queues who s s'' := by
  obtain ⟨fs, hsends, hqueue, hfs⟩ := h
  obtain ⟨fs', hsends', hqueue', hfs'⟩ := h'
  refine ⟨fs ++ fs', hsends.trans hsends', ?_, fun pw hpw => ?_⟩
  · rw [hqueue', hqueue, List.append_assoc]
  · rcases List.mem_append.mp hpw with hpw | hpw
    · exact hfs pw hpw
    · have hfor := hfs' pw hpw
      rwa [hsends.sameIds] at hfor

/-- Nothing was sent. -/
theorem Sends.queues (h : Sends s s' []) (hqueue : s'.writeQueue = s.writeQueue) :
    Queues who s s' :=
  ⟨[], h, hqueue.trans (List.append_nil _).symm, fun _ hpw => absurd hpw List.not_mem_nil⟩

/-- A change of what neither the table nor the wire sees. -/
theorem sends_unseen (hobjs : s'.objs = s.objs) (hstreams : s'.streams = s.streams)
    (hnext : s'.nextStreamId = s.nextStreamId)
    (hposted : ∃ n, s'.posted = s.posted ++ List.replicate n .stop)
    (hreading : s'.reading = s.reading ∨ s'.reading = .idle) (hstopped : s'.stopped = s.stopped)
    (hqueue : s'.writeQueue = s.writeQueue) (hbusy : s'.isWriting = s.isWriting)
    (hwriting : s'.writing = s.writing) (hwire : s'.wire = s.wire) : Sends s s' [] where
  sameIds := congrArg (List.map StreamObj.id) hobjs
  table := by
    rw [hstreams]
    exact fun _ _ ho => ho
  next := hnext
  posted := hposted
  reading := hreading
  carried hc _ := by
    rw [List.map_nil, List.append_nil]
    exact hc.congr hstopped hqueue hbusy hwriting hwire

/-- A change that nobody who writes sees. -/
theorem queues_unseen (hobjs : s'.objs = s.objs) (hstreams : s'.streams = s.streams)
    (hnext : s'.nextStreamId = s.nextStreamId)
    (hposted : ∃ n, s'.posted = s.posted ++ List.replicate n .stop)
    (hreading : s'.reading = s.reading ∨ s'.reading = .idle) (hstopped : s'.stopped = s.stopped)
    (hqueue : s'.writeQueue = s.writeQueue) (hbusy : s'.isWriting = s.isWriting)
    (hwriting : s'.writing = s.writing) (hwire : s'.wire = s.wire) : Queues who s s' :=
  (sends_unseen hobjs hstreams hnext hposted hreading hstopped hqueue hbusy hwriting hwire).queues
    hqueue

theorem posted_none (s : Session) : ∃ n, s.posted = s.posted ++ List.replicate n .stop :=
  ⟨0, (List.append_nil _).symm⟩

theorem sends_refl (s : Session) : Sends s s [] :=
  sends_unseen rfl rfl rfl (posted_none s) (Or.inl rfl) rfl rfl rfl rfl rfl

theorem ids_modify {o : Nat} {f : StreamObj → StreamObj}
    (hf : ∀ obj, s.objs[o]? = some obj → (f obj).id = obj.id) :
    (s.objs.modify o f).map StreamObj.id = s.objs.map StreamObj.id := by
  cases ho : s.objs[o]? with
  | none => rw [List.modify_eq_self (List.getElem?_eq_none_iff.mp ho)]
  | some obj => exact map_key_modify ho (hf obj ho)

/-- Only the objects have changed. -/
theorem sends_modifyObj {o : Nat} {f : StreamObj → StreamObj}
    (hf : ∀ obj, s.objs[o]? = some obj → (f obj).id = obj.id) :
    Sends s (s.modifyObj o f) [] where
  sameIds := ids_modify hf
  table _ _ ho := ho
  next := rfl
  posted := ⟨0, (List.append_nil _).symm⟩
  reading := Or.inl rfl
  carried hc _ := by
    rw [List.map_nil, List.append_nil]
    exact hc.congr rfl rfl rfl rfl rfl

theorem queues_modifyObj {o : Nat} {f : StreamObj → StreamObj}
    (hf : ∀ obj, s.objs[o]? = some obj → (f obj).id = obj.id) : Queues who s (s.modifyObj o f) :=
  (sends_modifyObj hf).queues rfl

theorem sends_asyncSendFrame (s : Session) (pw : PendingFrame) :
    Sends s (s.asyncSendFrame pw) [pw] := by
  have hsame := Pair.asyncSendFrame_same s pw
  refine ⟨congrArg (List.map StreamObj.id) hsame.objs, ?_, hsame.nextStreamId, ⟨0, ?_⟩,
    Or.inl hsame.reading, fun hc hfs => hc.asyncSendFrame (hfs pw List.mem_cons_self)⟩
  · rw [hsame.streams]
    exact fun _ _ ho => ho
  · rw [hsame.posted, List.replicate_zero, List.append_nil]

theorem sends_perform {o : Nat} {obj : StreamObj} (ho : s.objs[o]? = some obj)
    {res : MuxStream × List Effect} (hop : Pair.StreamOp obj.id res) :
    Sends s (s.perform o res) (pendingFrames o res.2) := by
  have hsame := Pair.perform_same s o res
  refine ⟨?_, ?_, hsame.nextStreamId, ⟨0, ?_⟩, Or.inl hsame.reading, fun hc hfs => ?_⟩
  · show (s.perform o res).objs.map StreamObj.id = _
    rw [hsame.objs]
    exact map_key_modify ho hop.sameId
  · rw [hsame.streams]
    intro i o' hl
    simp only at hl
    split at hl
    · exact Table.lookup_of_lookup_erase hl
    · exact hl
  · rw [hsame.posted, List.replicate_zero, List.append_nil]
    rfl
  · exact Carried.sendAll _ (hc.congr rfl rfl rfl rfl rfl) hfs

theorem queues_perform {o : Nat} {obj : StreamObj} (ho : s.objs[o]? = some obj)
    {res : MuxStream × List Effect} (hop : Pair.StreamOp obj.id res) :
    Queues (some o) s (s.perform o res) := by
  refine ⟨_, sends_perform ho hop, perform_writeQueue s o res, fun pw hpw => ?_⟩
  have hframe : pw.frame ∈ frames res.2 := by
    rw [← Pair.map_pendingFrames o]
    exact List.mem_map_of_mem hpw
  refine ⟨o, obj.id, rfl, ?_, hop.frames _ hframe⟩
  rw [ids, List.getElem?_map, ho]
  rfl

/-- An object is told to close, on its own strand at once. -/
theorem queues_closeObj (running : Option Nat) (s : Session) (o : Nat) :
    Queues running s (closeObj running s o) := by
  unfold closeObj
  split
  · exact (sends_refl s).queues rfl
  · rename_i obj ho
    split
    · rename_i hrunning
      rw [hrunning]
      exact queues_perform ho (Pair.streamOp_handle obj.stream .close)
    · exact queues_modifyObj fun _ _ => rfl

theorem queues_closeAll (running : Option Nat) (os : List Nat) (s : Session) :
    Queues running s (os.foldl (closeObj running) s) := by
  induction os generalizing s with
  | nil => exact (sends_refl s).queues rfl
  | cons o os ih => exact (queues_closeObj running s o).trans (ih _)

theorem queues_stop (s : Session) (running : Option Nat) : Queues running s (s.stop running) := by
  unfold Session.stop
  split
  · exact (sends_refl s).queues rfl
  · have hstopped : Sends s { s with stopped := true, streams := ∅ } [] := by
      refine ⟨rfl, fun _ _ ho => ?_, rfl, posted_none s, Or.inl rfl, fun hc _ => ?_⟩
      · cases ho
      · rw [List.map_nil, List.append_nil]
        exact hc.dead (Or.inl rfl) rfl
    exact (hstopped.queues rfl).trans (queues_closeAll running _ _)

theorem stop_posted (s : Session) (running : Option Nat) : (s.stop running).posted = s.posted := by
  have hone : ∀ (s : Session) (o : Nat), (closeObj running s o).posted = s.posted := by
    intro s o
    unfold closeObj
    split
    · rfl
    · split
      · exact Pair.perform_posted s o _
      · rfl
  have hall : ∀ (os : List Nat) (s : Session),
      (os.foldl (closeObj running) s).posted = s.posted := by
    intro os
    induction os with
    | nil => exact fun _ => rfl
    | cons o os ih => exact fun s => (ih _).trans (hone s o)
  unfold Session.stop
  split
  · rfl
  · exact hall _ _

theorem sends_callHandler (s : Session) (ec : ErrorCode) (handler : FrameHandler) :
    Sends s (s.callHandler ec handler) [] ∧ (s.callHandler ec handler).wire = s.wire ∧
      (s.callHandler ec handler).posted = s.posted ∧
      (s.callHandler ec handler).reading = s.reading := by
  have hinvoked : ∀ c, Sends s { s with invoked := s.invoked ++ [c] } [] := fun c =>
    sends_unseen rfl rfl rfl (posted_none s) (Or.inl rfl) rfl rfl rfl rfl rfl
  cases handler with
  | none => exact ⟨sends_refl s, rfl, rfl, rfl⟩
  | failPending o =>
      unfold Session.callHandler
      simp only
      split
      · exact ⟨sends_refl s, rfl, rfl, rfl⟩
      · exact ⟨sends_modifyObj fun _ _ => rfl, rfl, rfl, rfl⟩
  | invoke handler n => exact ⟨hinvoked _, rfl, rfl, rfl⟩
  | user handler => exact ⟨hinvoked _, rfl, rfl, rfl⟩

/-- `do_write` looks at the queue and the wire only. -/
theorem Carried.doWrite_congr (h : Carried r s.doWrite line) (hstopped : s'.stopped = s.stopped)
    (hqueue : s'.writeQueue = s.writeQueue) (hbusy : s'.isWriting = s.isWriting)
    (hwriting : s'.writing = s.writing) (hwire : s'.wire = s.wire) : Carried r s'.doWrite line := by
  refine h.congr ?_ ?_ ?_ ?_ ?_
  · rw [(Pair.doWrite_same s').stopped, (Pair.doWrite_same s).stopped, hstopped]
  · rw [doWrite_writeQueue, doWrite_writeQueue, hqueue]
  · unfold Session.doWrite
    rw [hqueue]
    split
    · rfl
    · exact hbusy
  · unfold Session.doWrite
    rw [hqueue]
    split
    · exact hwriting
    · rfl
  · unfold Session.doWrite
    rw [hqueue, hstopped, hwire]
    split
    · rfl
    · rfl

/-- The end of a write takes its frame off the queue. -/
theorem sends_writeDone {ec : ErrorCode} (hw : s.writing = true)
    (hrun : ec = .success → s.stopped = false) (h : s.writeDone ec = some s') :
    Sends s s' [] ∧ s'.writeQueue.drop s.writeQueue.length = [] := by
  unfold Session.writeDone at h
  split at h
  · cases h
  · rename_i pw rest hq
    let s₁ : Session := { s with writeQueue := rest, writing := false }
    obtain ⟨hcall, hwire, hposted, hreading⟩ := sends_callHandler s₁ ec pw.handler
    obtain ⟨hqueue, hbusy, hwriting, hstopped⟩ := callHandler_output s₁ ec pw.handler
    have hs' := Option.some.inj h
    have hlen : rest.drop s.writeQueue.length = [] := by
      rw [hq]
      exact List.drop_eq_nil_of_le (Nat.le_succ _)
    split at hs'
    · rename_i hok
      subst hs'
      have hsame := Pair.doWrite_same (s₁.callHandler ec pw.handler)
      refine ⟨⟨?_, ?_, ?_, ⟨0, ?_⟩, Or.inl ?_, fun {r line} hc _ => ?_⟩, ?_⟩
      · show (s₁.callHandler ec pw.handler).doWrite.objs.map StreamObj.id = _
        rw [hsame.objs]
        exact hcall.sameIds
      · rw [hsame.streams]
        exact hcall.table
      · exact hsame.nextStreamId.trans hcall.next
      · rw [hsame.posted, hposted, List.replicate_zero, List.append_nil]
      · exact hsame.reading.trans hreading
      · rw [List.map_nil, List.append_nil]
        rcases hc with ⟨-, hout, hflight⟩ | ⟨hdead, -, -⟩
        · obtain ⟨hout', hflight'⟩ := hout.writeOk (hrun hok) hw hq
          have hstart : Carried r s₁.doWrite line :=
            Or.inl ⟨(Pair.doWrite_same s₁).stopped.trans (hrun hok), hout', hflight'.trans hflight⟩
          exact hstart.doWrite_congr hstopped hqueue hbusy hwriting hwire
        · rcases hdead with hdead | hdead
          · rw [hrun hok] at hdead
            cases hdead
          · rw [broken, hw, Bool.not_true, Bool.and_false] at hdead
            cases hdead
      · show (s₁.callHandler ec pw.handler).doWrite.writeQueue.drop _ = []
        rw [doWrite_writeQueue, hqueue]
        exact hlen
    · subst hs'
      refine ⟨⟨hcall.sameIds, hcall.table, hcall.next, ⟨1, ?_⟩, ?_, fun {r line} hc _ => ?_⟩, ?_⟩
      · show (s₁.callHandler ec pw.handler).posted ++ [.stop] = _
        rw [hposted]
        rfl
      · exact Or.inl hreading
      · rw [List.map_nil, List.append_nil]
        refine hc.dead ?_ hwire
        -- either it had stopped, or its write was under way
        rcases hc with ⟨-, hout, -⟩ | ⟨hdead, -, -⟩
        · refine Or.inr ?_
          show ((s₁.callHandler ec pw.handler).isWriting &&
            !(s₁.callHandler ec pw.handler).writing) = true
          rw [hbusy, hwriting]
          show (s.isWriting && !false) = true
          rw [hout.isWriting, hw]
          rfl
        · rcases hdead with hdead | hdead
          · exact Or.inl (hstopped.trans hdead)
          · rw [broken, hw, Bool.not_true, Bool.and_false] at hdead
            cases hdead
      · show (s₁.callHandler ec pw.handler).writeQueue.drop _ = []
        rw [hqueue]
        exact hlen

/-- What an event does that neither opens a stream nor sends what was posted. -/
def Plays (who : Option Nat) (s s' : Session) : Prop :=
  ∃ fs, Sends s s' fs ∧ s'.writeQueue.drop s.writeQueue.length = fs ∧
    ∀ pw ∈ fs, Signed (ids s) ⟨who, pw.frame⟩ ∧ synId pw.frame = none

theorem Queues.plays (h : Queues who s s') : Plays who s s' := by
  obtain ⟨fs, hsends, hqueue, hfs⟩ := h
  refine ⟨fs, hsends, ?_, fun pw hpw => ?_⟩
  · rw [hqueue, List.drop_left]
  · obtain ⟨o, i, rfl, ho, hframe⟩ := hfs pw hpw
    exact ⟨.stream ho hframe, synId_stream hframe⟩

theorem queues_runTask {o : Nat} {obj : StreamObj} {t : Task} {tasks : List Task}
    (ho : s.objs[o]? = some obj) :
    Queues (some o) s ((s.modifyObj o fun obj => { obj with tasks }).runTask o obj t) := by
  have hpop : Queues (some o) s (s.modifyObj o fun obj => { obj with tasks }) :=
    queues_modifyObj fun _ _ => rfl
  have ho' := getElem?_modifyObj ho fun obj => { obj with tasks }
  refine hpop.trans ?_
  cases t with
  | arrival a => exact queues_perform ho' (Pair.streamOp_handle obj.stream a)
  | failWrites ec =>
      refine queues_perform ho' ⟨rfl, fun f hf => ?_⟩
      rw [MuxStream.failWrites, frames_map_post] at hf
      cases hf
  | complete c =>
      refine Queues.trans (queues_modifyObj (o := o)
        (f := fun obj => { obj with reported := obj.reported ++ [c] }) fun _ _ => rfl) ?_
      exact queues_unseen rfl rfl rfl (posted_none _) (Or.inl rfl) rfl rfl rfl rfl rfl

theorem queues_asyncWrite {o : Nat} {obj : StreamObj} (ho : s.objs[o]? = some obj)
    (buffers : List (List Byte)) (handler : Handler) :
    Queues (some o) s ((s.modifyObj o fun obj => acceptPayload obj buffers).perform o
      (obj.stream.asyncWrite buffers handler)) := by
  have hid : ∀ obj : StreamObj, (acceptPayload obj buffers).id = obj.id := fun obj =>
    congrArg MuxStream.id (acceptPayload_stream obj buffers)
  have ho' := getElem?_modifyObj ho fun obj => acceptPayload obj buffers
  have haccept : Queues (some o) s (s.modifyObj o fun obj => acceptPayload obj buffers) :=
    queues_modifyObj fun obj _ => hid obj
  refine haccept.trans (queues_perform ho' ?_)
  rw [hid]
  exact Pair.streamOp_asyncWrite obj.stream buffers handler

/-- The events that neither open a stream, nor send what was posted, nor read a frame. -/
def Plain : Session.Event → Prop
  | .openStream _ => False
  | .sendFrame .. => False
  | .runPosted => False
  | .recvHeader _ => False
  | .recvBody _ => False
  | _ => True

theorem plays_step {e : Session.Event} (he : Plain e) (h : s.step e = some s') :
    Plays (actor s e) s s' := by
  have hsubmit : ∀ (o : Nat) (handler : Handler), Queues (some o) s (s.submit handler) :=
    fun _ _ => queues_unseen rfl rfl rfl (posted_none s) (Or.inl rfl) rfl rfl rfl rfl rfl
  cases stepped_of_step h with
  | openStream onStrand _ => exact he.elim
  | sendFrame f handler _ => exact he.elim
  | postFrame f handler _ => exact he.elim
  | sendPosted _ => exact he.elim
  | stopPosted _ => exact he.elim
  | header _ _ _ _ _ => exact he.elim
  | tooLong _ _ _ _ => exact he.elim
  | headerFrame _ _ _ => exact he.elim
  | bodyFrame _ _ _ => exact he.elim
  | @asyncRead o obj size handler readAll hcallee =>
      have ho : (s.submit handler).objs[o]? = some obj := (callee_eq hcallee).1
      exact ((hsubmit o handler).trans
        (queues_perform ho (Pair.streamOp_asyncRead obj.stream size handler readAll))).plays
  | @asyncWrite o obj buffers handler hcallee =>
      have ho : (s.submit handler).objs[o]? = some obj := (callee_eq hcallee).1
      exact ((hsubmit o handler).trans (queues_asyncWrite ho buffers handler)).plays
  | close hcallee =>
      exact (queues_perform (callee_eq hcallee).1 (Pair.streamOp_close _)).plays
  | @destroy o obj ho _ =>
      have hmark : Queues (some o) (s.perform o obj.stream.destroy)
          ((s.perform o obj.stream.destroy).modifyObj o fun obj =>
            { obj with destroyed := true }) := queues_modifyObj fun _ _ => rfl
      exact ((queues_perform ho (Pair.streamOp_destroy obj.stream)).trans hmark).plays
  | heartbeat _ =>
      refine ⟨_, sends_asyncSendFrame s ⟨pingFrame, .none⟩, ?_, fun pw hpw => ?_⟩
      · rw [asyncSendFrame_writeQueue, List.drop_left]
      · rw [List.mem_singleton.mp hpw]
        exact ⟨.ping, rfl⟩
  | stop running _ => exact (queues_stop s running).plays
  | postStop _ =>
      exact Queues.plays (queues_unseen rfl rfl rfl ⟨1, rfl⟩ (Or.inl rfl) rfl rfl rfl rfl rfl)
  | runStream ho _ => exact (queues_runTask ho).plays
  | writeOk hwriting hrunning hdone =>
      obtain ⟨hsends, hqueue⟩ := sends_writeDone hwriting (fun _ => hrunning) hdone
      exact ⟨[], hsends, hqueue, fun pw hpw => absurd hpw List.not_mem_nil⟩
  | writeError hwriting hdone =>
      obtain ⟨hsends, hqueue⟩ := sends_writeDone hwriting (fun hok => by cases hok) hdone
      exact ⟨[], hsends, hqueue, fun pw hpw => absurd hpw List.not_mem_nil⟩
  | late _ _ _ =>
      exact Queues.plays
        (queues_unseen rfl rfl rfl (posted_none s) (Or.inr rfl) rfl rfl rfl rfl rfl)
  | readError _ _ =>
      exact Queues.plays (queues_unseen rfl rfl rfl ⟨1, rfl⟩ (Or.inr rfl) rfl rfl rfl rfl rfl)
  | expire _ _ hwriting _ =>
      refine ⟨[], ⟨?_, fun _ _ ho => ?_, rfl, posted_none s, Or.inl rfl, fun {r line} hc _ => ?_⟩,
        List.drop_nil, fun pw hpw => absurd hpw List.not_mem_nil⟩
      · show (s.objs.map _).map StreamObj.id = _
        rw [List.map_map]
        rfl
      · cases ho
      · rw [List.map_nil, List.append_nil]
        rcases hc with ⟨hrun, hout, hflight⟩ | ⟨hdead, hwire⟩
        · -- the queue was empty
          have hnil := hout.idle hwriting
          refine Carried.congr (Or.inl ⟨hrun, hout, hflight⟩) rfl hnil.symm rfl rfl rfl
        · exact Or.inr ⟨hdead, hwire⟩

end IdRun

end Cfrp.Mux
