import Cfrp.Mux.Pair

/-!
# From the write queue to the peer's parser

The frames a session sends are well formed, so the peer's parser finds exactly those
frames, in the order in which they entered the write queue. `Output` is the invariant of
a session's sending half; `flight` is what it has sent and its peer has not received.
-/

namespace Cfrp.Mux

open Lib Session

/-! ## The frames of a session -/

/-- The frames that say nothing to a stream. -/
inductive ControlFrame : Frame → Prop where
  | syn (id : UInt32) : ControlFrame (synFrame id)
  | ack (id : UInt32) : ControlFrame (ackFrame id)
  | ping : ControlFrame pingFrame
  | pong : ControlFrame pongFrame

/-- The frames a session sends of its own accord. -/
inductive SessionFrame : Frame → Prop where
  | control {f : Frame} : ControlFrame f → SessionFrame f
  | stream {f : Frame} (id : UInt32) : StreamFrame id f → SessionFrame f

/-- The header announces the body, and the receiver accepts its length. -/
structure WellFormed (f : Frame) : Prop where
  body : f.body.length = bodyLength f.header
  limit : bodyLength f.header ≤ maxMessageSize

theorem SessionFrame.wellFormed {f : Frame} (h : SessionFrame f) : WellFormed f := by
  cases h with
  | control h => cases h <;> exact ⟨rfl, Nat.zero_le _⟩
  | stream id h =>
      cases h with
      | data bufs hpos hmax =>
          have hM : maxMessageSize = 1048576 := rfl
          have hlen : bodyLength ⟨0, FrameType.data, 0, id, UInt32.ofNat bufs.flatten.length⟩ =
              bufs.flatten.length := by
            show (UInt32.ofNat bufs.flatten.length).toNat = _
            rw [UInt32.toNat_ofNat', Nat.mod_eq_of_lt (by omega)]
          exact ⟨hlen.symm, by rw [hlen]; exact hmax⟩
      | fin => exact ⟨rfl, Nat.zero_le _⟩
      | windowUpdate n => exact ⟨rfl, Nat.zero_le _⟩

/-! ## Parsing -/

def encodeFrame (f : Frame) : List Byte := f.header.encode ++ f.body

/-- A wire that holds frames of a session and ends where a frame ends. -/
def Encoded (wire : List Byte) : Prop :=
  ∃ fs : List Frame, (∀ f ∈ fs, SessionFrame f) ∧ wire = fs.flatMap encodeFrame

theorem encoded_nil : Encoded [] := ⟨[], by simp, rfl⟩

theorem Encoded.append {wire : List Byte} (h : Encoded wire) {f : Frame} (hf : SessionFrame f) :
    Encoded (wire ++ encodeFrame f) := by
  obtain ⟨fs, hfs, rfl⟩ := h
  refine ⟨fs ++ [f], ?_, by simp⟩
  intro g hg
  rcases List.mem_append.mp hg with hg | hg
  · exact hfs g hg
  · exact List.mem_singleton.mp hg ▸ hf

theorem parseFrames_nil : parseFrames [] = [] := by
  rw [parseFrames]
  rfl

/-- The parser finds the frame that was encoded. -/
theorem parseFrames_encode {f : Frame} (hf : WellFormed f) (wire : List Byte) :
    parseFrames (encodeFrame f ++ wire) = (f.header, f.body) :: parseFrames wire := by
  have hsize : (f.header.encode).length = Header.size := f.header.length_encode
  have htake : (encodeFrame f ++ wire).take Header.size = f.header.encode := by
    rw [encodeFrame, List.append_assoc, ← hsize, List.take_left]
  have hdrop : (encodeFrame f ++ wire).drop Header.size = f.body ++ wire := by
    rw [encodeFrame, List.append_assoc, ← hsize, List.drop_left]
  have hlen : ¬(encodeFrame f ++ wire).length < Header.size := by
    rw [encodeFrame, List.append_assoc, List.length_append, hsize]
    omega
  rw [parseFrames, if_neg hlen]
  simp only [htake, hdrop, Header.decode_encode]
  rw [← hf.body, List.take_left, List.drop_left]

theorem parseFrames_flatMap {fs : List Frame} (hfs : ∀ f ∈ fs, SessionFrame f) (wire : List Byte) :
    parseFrames (fs.flatMap encodeFrame ++ wire) =
      fs.map (fun f => (f.header, f.body)) ++ parseFrames wire := by
  induction fs with
  | nil => rfl
  | cons f fs ih =>
      rw [List.flatMap_cons, List.append_assoc,
        parseFrames_encode (hfs f List.mem_cons_self).wellFormed,
        ih fun g hg => hfs g (List.mem_cons_of_mem _ hg)]
      rfl

/-- The wire as far as the outstanding read of its reader is concerned. -/
def EncodedFrom : Reading → List Byte → Prop
  | .header, wire => Encoded wire
  | .body h, wire => h.type = FrameType.data ∧
      ∃ f rest, SessionFrame f ∧ f.header = h ∧ wire = f.body ++ rest ∧ Encoded rest
  | .idle, _ => False

theorem EncodedFrom.append {r : Reading} {wire : List Byte} (h : EncodedFrom r wire) {f : Frame}
    (hf : SessionFrame f) : EncodedFrom r (wire ++ encodeFrame f) := by
  cases r with
  | header => exact Encoded.append h hf
  | body hd =>
      obtain ⟨ht, g, rest, hg, hhd, rfl, hrest⟩ := h
      exact ⟨ht, g, rest ++ encodeFrame f, hg, hhd, by rw [List.append_assoc], hrest.append hf⟩
  | idle => exact h.elim

theorem parseFrames_append {wire : List Byte} (h : Encoded wire) {f : Frame} (hf : SessionFrame f) :
    parseFrames (wire ++ encodeFrame f) = parseFrames wire ++ [(f.header, f.body)] := by
  obtain ⟨fs, hfs, rfl⟩ := h
  have hlast := parseFrames_encode hf.wellFormed []
  have hall := parseFrames_flatMap hfs []
  rw [List.append_nil, parseFrames_nil] at hlast hall
  rw [parseFrames_flatMap hfs, hlast, hall, List.append_nil]

/-- In the middle of a frame, the parser goes on with the body of that frame. -/
theorem parseFrom_body {f : Frame} (hf : WellFormed f) (rest : List Byte) :
    parseFrom (.body f.header) (f.body ++ rest) = (f.header, f.body) :: parseFrames rest := by
  rw [parseFrom, ← hf.body, List.take_left, List.drop_left]

theorem parseFrom_append {r : Reading} {wire : List Byte} (h : EncodedFrom r wire) {f : Frame}
    (hf : SessionFrame f) :
    parseFrom r (wire ++ encodeFrame f) = parseFrom r wire ++ [(f.header, f.body)] := by
  cases r with
  | header => exact parseFrames_append h hf
  | body hd =>
      obtain ⟨-, g, rest, hg, rfl, rfl, hrest⟩ := h
      rw [List.append_assoc, parseFrom_body hg.wellFormed, parseFrom_body hg.wellFormed,
        parseFrames_append hrest hf]
      rfl
  | idle => exact h.elim

/-! ## The sending half of a session -/

namespace Pair

/-- What holds of the sending half of a session that runs, when its peer's read has come
to `r`: a write is outstanding exactly when the queue is not empty. -/
structure Output (r : Reading) (s : Session) : Prop where
  isWriting : s.isWriting = s.writing
  busy : s.writing = true → s.writeQueue ≠ []
  idle : s.writing = false → s.writeQueue = []
  queued : ∀ pw ∈ s.writeQueue, SessionFrame pw.frame
  wire : EncodedFrom r s.wire

variable {r : Reading} {s : Session}

theorem doWrite_cons (pw : PendingFrame) (rest : List PendingFrame)
    (hq : s.writeQueue = pw :: rest) (hrun : s.stopped = false) :
    s.doWrite = { s with writing := true, wire := s.wire ++ encodeFrame pw.frame } := by
  rw [doWrite, hq]
  simp only [hrun, Bool.false_eq_true, if_false, Frame.flatten_writeBuffers]
  rfl

/-- The parts of a session that sending leaves alone. -/
structure SameButOutput (s s' : Session) : Prop where
  alive : s'.alive = s.alive
  stopped : s'.stopped = s.stopped
  nextStreamId : s'.nextStreamId = s.nextStreamId
  streams : s'.streams = s.streams
  objs : s'.objs = s.objs
  posted : s'.posted = s.posted
  reading : s'.reading = s.reading
  submitted : s'.submitted = s.submitted
  invoked : s'.invoked = s.invoked

theorem SameButOutput.refl (s : Session) : SameButOutput s s :=
  ⟨rfl, rfl, rfl, rfl, rfl, rfl, rfl, rfl, rfl⟩

theorem SameButOutput.trans {s s' s'' : Session} (h : SameButOutput s s')
    (h' : SameButOutput s' s'') : SameButOutput s s'' :=
  ⟨h'.alive.trans h.alive, h'.stopped.trans h.stopped, h'.nextStreamId.trans h.nextStreamId,
    h'.streams.trans h.streams, h'.objs.trans h.objs, h'.posted.trans h.posted,
    h'.reading.trans h.reading, h'.submitted.trans h.submitted, h'.invoked.trans h.invoked⟩

theorem doWrite_same (s : Session) : SameButOutput s s.doWrite := by
  rw [doWrite]
  split <;> exact ⟨rfl, rfl, rfl, rfl, rfl, rfl, rfl, rfl, rfl⟩

theorem asyncSendFrame_same (s : Session) (pw : PendingFrame) :
    SameButOutput s (s.asyncSendFrame pw) := by
  have hbase : ∀ w : Bool,
      SameButOutput s { s with writeQueue := s.writeQueue ++ [pw], isWriting := w } :=
    fun _ => ⟨rfl, rfl, rfl, rfl, rfl, rfl, rfl, rfl, rfl⟩
  rw [asyncSendFrame]
  split
  · exact hbase s.isWriting
  · exact (hbase true).trans (doWrite_same _)

theorem sendAll_same (fs : List PendingFrame) (s : Session) :
    SameButOutput s (fs.foldl asyncSendFrame s) := by
  induction fs generalizing s with
  | nil => exact SameButOutput.refl s
  | cons pw fs ih => exact (asyncSendFrame_same s pw).trans (ih _)

/-- **A queued frame is the last one the peer will receive.** -/
theorem Output.asyncSendFrame (h : Output r s) (hrun : s.stopped = false) {pw : PendingFrame}
    (hpw : SessionFrame pw.frame) :
    Output r (s.asyncSendFrame pw) ∧
      flight r (s.asyncSendFrame pw) = flight r s ++ [asReceived pw] := by
  have hqueued : ∀ g ∈ s.writeQueue ++ [pw], SessionFrame g.frame := by
    intro g hg
    rcases List.mem_append.mp hg with hg | hg
    · exact h.queued g hg
    · exact List.mem_singleton.mp hg ▸ hpw
  rw [Session.asyncSendFrame]
  by_cases hw : s.writing = true
  · rw [if_pos (h.isWriting.trans hw)]
    refine ⟨⟨h.isWriting, fun _ => by simp, fun hf => ?_, hqueued, h.wire⟩, ?_⟩
    · exact absurd hw (by rw [show s.writing = false from hf]; simp)
    · have htail : (s.writeQueue ++ [pw]).tail = s.writeQueue.tail ++ [pw] :=
        List.tail_append_of_ne_nil (h.busy hw)
      simp only [flight, unsent, if_pos hw, htail, List.map_append, List.append_assoc]
      rfl
  · have hnil := h.idle (Bool.eq_false_iff.mpr hw)
    rw [if_neg (by rw [h.isWriting]; exact hw)]
    -- the queue is empty: the frame goes on the wire at once
    have hdo := doWrite_cons (s := { s with writeQueue := s.writeQueue ++ [pw], isWriting := true })
      pw [] (by rw [hnil]; rfl) hrun
    simp only at hdo ⊢
    rw [hdo]
    refine ⟨⟨rfl, fun _ => by simp, by simp, hqueued, h.wire.append (f := pw.frame) hpw⟩, ?_⟩
    have hparse := parseFrom_append h.wire hpw
    simp only [flight, unsent, if_neg hw, hnil, if_true, List.nil_append, List.tail_cons,
      List.map_nil, List.append_nil, hparse]
    rfl

/-- Frames are received in the order in which they were queued. -/
theorem Output.sendAll (fs : List PendingFrame) (h : Output r s) (hrun : s.stopped = false)
    (hfs : ∀ pw ∈ fs, SessionFrame pw.frame) :
    Output r (fs.foldl Session.asyncSendFrame s) ∧
      flight r (fs.foldl Session.asyncSendFrame s) = flight r s ++ fs.map asReceived := by
  induction fs generalizing s with
  | nil => exact ⟨h, by simp⟩
  | cons pw fs ih =>
      obtain ⟨hout, hflight⟩ := h.asyncSendFrame hrun (hfs pw List.mem_cons_self)
      have hrun' : (s.asyncSendFrame pw).stopped = false := by
        rw [(asyncSendFrame_same s pw).stopped]
        exact hrun
      obtain ⟨hout', hflight'⟩ := ih hout hrun' fun g hg => hfs g (List.mem_cons_of_mem _ hg)
      refine ⟨hout', ?_⟩
      rw [List.foldl_cons, hflight', hflight, List.map_cons, List.append_assoc]
      rfl

/-- The end of a write puts the next frame on the wire. -/
theorem Output.writeOk (h : Output r s) (hrun : s.stopped = false) (hw : s.writing = true)
    {pw : PendingFrame} {rest : List PendingFrame} (hq : s.writeQueue = pw :: rest) :
    Output r (doWrite { s with writeQueue := rest, writing := false }) ∧
      flight r (doWrite { s with writeQueue := rest, writing := false }) = flight r s := by
  have hqueued : ∀ g ∈ rest, SessionFrame g.frame := fun g hg =>
    h.queued g (by rw [hq]; exact List.mem_cons_of_mem _ hg)
  cases rest with
  | nil =>
      have hdo : doWrite { s with writeQueue := [], writing := false } =
          { s with writeQueue := [], writing := false, isWriting := false } := rfl
      rw [hdo]
      refine ⟨⟨rfl, by simp, fun _ => rfl, by simp, h.wire⟩, ?_⟩
      simp [flight, unsent, hw, hq]
  | cons g rest =>
      have hdo := doWrite_cons (s := { s with writeQueue := g :: rest, writing := false })
        g rest rfl hrun
      have hwf := hqueued g List.mem_cons_self
      rw [hdo]
      refine ⟨⟨h.isWriting.trans hw, fun _ => by simp, by simp, hqueued, h.wire.append hwf⟩, ?_⟩
      have hparse := parseFrom_append h.wire hwf
      simp only [flight, unsent, hw, hq, if_true, List.tail_cons, List.map_cons, hparse,
        List.append_assoc]
      rfl

end Pair

end Cfrp.Mux
