import Cfrp.Mux.Runs

/-!
# What a session has written

A session never looks at `wire`, it only writes behind it. So a step does the same whatever
is in front, and a session that keeps all it has written differs from one whose peer takes
what it reads by that part alone.
-/

namespace Cfrp.Mux

open Lib

namespace Session

variable {s s' : Session}

/-- The session with `w` written before. -/
def behind (w : List Byte) (s : Session) : Session := { s with wire := w ++ s.wire }

/-- The session when its peer has read `n` bytes. -/
def ahead (n : Nat) (s : Session) : Session := { s with wire := s.wire.drop n }

theorem behind_ahead (s : Session) (n : Nat) : (s.ahead n).behind (s.wire.take n) = s := by
  show { s with wire := s.wire.take n ++ s.wire.drop n } = s
  rw [List.take_append_drop]

/-! ## A step does not look in front -/

theorem doWrite_behind (s : Session) (w : List Byte) :
    (s.behind w).doWrite = s.doWrite.behind w := by
  unfold doWrite
  cases hqueue : s.writeQueue with
  | nil => simp only [behind, hqueue]
  | cons pw rest =>
      cases hstopped : s.stopped with
      | true => simp [behind, hqueue, hstopped]
      | false => simp [behind, hqueue, hstopped]

theorem asyncSendFrame_behind (s : Session) (w : List Byte) (pw : PendingFrame) :
    (s.behind w).asyncSendFrame pw = (s.asyncSendFrame pw).behind w := by
  rw [asyncSendFrame, asyncSendFrame]
  show (if s.isWriting = true then _ else _) = _
  split
  · rfl
  · exact doWrite_behind { s with writeQueue := s.writeQueue ++ [pw], isWriting := true } w

theorem sendAll_behind (fs : List PendingFrame) (s : Session) (w : List Byte) :
    fs.foldl asyncSendFrame (s.behind w) = (fs.foldl asyncSendFrame s).behind w := by
  induction fs generalizing s with
  | nil => rfl
  | cons pw fs ih =>
      rw [List.foldl_cons, List.foldl_cons, asyncSendFrame_behind]
      exact ih _

theorem perform_behind (s : Session) (w : List Byte) (o : Nat) (r : MuxStream × List Effect) :
    (s.behind w).perform o r = (s.perform o r).behind w :=
  sendAll_behind _ { s.modifyObj o (afterOp r) with
    streams := if removes r.2 then s.streams.erase r.1.id else s.streams } w

theorem closeObj_behind (running : Option Nat) (s : Session) (w : List Byte) (o : Nat) :
    closeObj running (s.behind w) o = (closeObj running s o).behind w := by
  have hobjs : (s.behind w).objs[o]? = s.objs[o]? := rfl
  rw [closeObj, closeObj, hobjs]
  cases s.objs[o]? with
  | none => rfl
  | some obj =>
      simp only
      split
      · exact perform_behind s w o obj.stream.handleClose
      · rfl

theorem closeAll_behind (running : Option Nat) (os : List Nat) (s : Session) (w : List Byte) :
    os.foldl (closeObj running) (s.behind w) = (os.foldl (closeObj running) s).behind w := by
  induction os generalizing s with
  | nil => rfl
  | cons o os ih =>
      rw [List.foldl_cons, List.foldl_cons, closeObj_behind]
      exact ih _

theorem stop_behind (s : Session) (w : List Byte) (running : Option Nat) :
    (s.behind w).stop running = (s.stop running).behind w := by
  rw [stop, stop]
  show (if s.stopped = true then _ else _) = _
  split
  · rfl
  · exact closeAll_behind running _ { s with stopped := true, streams := ∅ } w

theorem openStream_behind (s : Session) (w : List Byte) (onStrand : Bool) :
    (s.behind w).openStream onStrand = (s.openStream onStrand).behind w := by
  cases onStrand with
  | false => rfl
  | true =>
      exact asyncSendFrame_behind { s with
        nextStreamId := s.nextStreamId + 2
        objs := s.objs ++ [StreamObj.new s.nextStreamId]
        streams := s.streams.insert s.nextStreamId s.objs.length } w _

theorem handleFrame_behind (s : Session) (w : List Byte) (h : Header) (body : List Byte) :
    (s.behind w).handleFrame h body = (s.handleFrame h body).behind w := by
  have hstream : (s.behind w).streamFor h = ((s.streamFor h).1.behind w, (s.streamFor h).2) := by
    have hlookup : (s.behind w).streams.lookup h.streamId = s.streams.lookup h.streamId := rfl
    rw [streamFor, streamFor, hlookup]
    cases s.streams.lookup h.streamId with
    | some o => rfl
    | none =>
        simp only
        split
        · rfl
        · rfl
  rw [handleFrame, handleFrame, hstream]
  obtain ⟨s₁, o⟩ := s.streamFor h
  split
  · cases o with
    | none => rfl
    | some o => rfl
  · split
    · split
      · rfl
      · rfl
    · rfl

theorem headerRead_behind (s : Session) (w : List Byte) (buf : List Byte) :
    (s.behind w).headerRead buf = (s.headerRead buf).behind w := by
  rw [headerRead, headerRead]
  show (if s.stopped = true then _ else _) = _
  split
  · rfl
  · simp only
    split
    · split
      · rfl
      · rfl
    · rw [handleFrame_behind]
      rfl

theorem bodyRead_behind (s : Session) (w : List Byte) (h : Header) (body : List Byte) :
    (s.behind w).bodyRead h body = (s.bodyRead h body).behind w := by
  rw [bodyRead, bodyRead, handleFrame_behind]
  show (if s.stopped = true then _ else _) = _
  split
  · rfl
  · rfl

theorem readFailed_behind (s : Session) (w : List Byte) :
    (s.behind w).readFailed = s.readFailed.behind w := by
  rw [readFailed, readFailed]
  show (if s.stopped = true then _ else _) = _
  split
  · rfl
  · rfl

theorem callHandler_behind (s : Session) (w : List Byte) (ec : ErrorCode) (h : FrameHandler) :
    (s.behind w).callHandler ec h = (s.callHandler ec h).behind w := by
  cases h with
  | none => rfl
  | failPending o =>
      rw [callHandler, callHandler]
      split
      · rfl
      · rfl
  | invoke handler toSend => rfl
  | user handler => rfl

theorem writeDone_behind (s : Session) (w : List Byte) (ec : ErrorCode) :
    (s.behind w).writeDone ec = (s.writeDone ec).map (behind w) := by
  have hqueue : (s.behind w).writeQueue = s.writeQueue := rfl
  rw [writeDone, writeDone, hqueue]
  cases s.writeQueue with
  | nil => rfl
  | cons pw rest =>
      have hcall := callHandler_behind { s with writeQueue := rest, writing := false } w ec
        pw.handler
      refine congrArg some ?_
      show (if ec = .success then _ else _) = behind w (if ec = .success then _ else _)
      split
      · exact (congrArg doWrite hcall).trans (doWrite_behind _ w)
      · exact congrArg postStop hcall

theorem runTask_behind (s : Session) (w : List Byte) (o : Nat) (obj : StreamObj) (t : Task) :
    (s.behind w).runTask o obj t = (s.runTask o obj t).behind w := by
  cases t with
  | arrival a => exact perform_behind s w o _
  | failWrites ec => exact perform_behind s w o _
  | complete c => rfl

/-- **A step does the same whatever was written before.** -/
theorem step_behind (s : Session) (w : List Byte) (e : Event) :
    (s.behind w).step e = (s.step e).map (behind w) := by
  have hite : ∀ {p : Prop} [Decidable p] {t t' : Session}, t' = t.behind w →
      (if p then some t' else none) = (if p then some t else none).map (behind w) := by
    intro p _ t t' ht
    split
    · exact congrArg some ht
    · rfl
  cases e with
  | openStream onStrand => exact hite (openStream_behind s w onStrand)
  | asyncRead o size handler readAll =>
      rw [step, step, Option.map_map]
      exact congrArg (Option.map · (s.callee o)) (funext fun obj =>
        perform_behind (s.submit handler) w o _)
  | asyncWrite o buffers handler =>
      rw [step, step, Option.map_map]
      exact congrArg (Option.map · (s.callee o)) (funext fun obj =>
        perform_behind ((s.submit handler).modifyObj o fun obj => acceptPayload obj buffers) w o _)
  | close o =>
      rw [step, step, Option.map_map]
      exact congrArg (Option.map · (s.callee o)) (funext fun obj => perform_behind s w o _)
  | destroy o =>
      rw [step, step]
      show (s.objs[o]?).bind _ = _
      cases s.objs[o]? with
      | none => rfl
      | some obj =>
          refine hite (p := s.unowned o obj = true) ?_
          rw [perform_behind]
          rfl
  | sendFrame onStrand f handler =>
      rw [step, step]
      refine hite ?_
      cases handler with
      | none =>
          cases onStrand with
          | true => exact asyncSendFrame_behind s w _
          | false => rfl
      | some handler =>
          cases onStrand with
          | true => exact asyncSendFrame_behind (s.submit handler) w _
          | false => rfl
  | heartbeat => exact hite (asyncSendFrame_behind s w _)
  | stop running => exact hite (stop_behind s w running)
  | postStop => exact hite rfl
  | runStream o =>
      rw [step, step]
      show (s.objs[o]?).bind _ = _
      cases s.objs[o]? with
      | none => rfl
      | some obj =>
          rw [Option.bind_some, Option.bind_some]
          cases obj.tasks with
          | nil => rfl
          | cons t tasks =>
              exact congrArg some
                (runTask_behind (s.modifyObj o fun obj => { obj with tasks }) w o obj t)
  | runPosted =>
      have hposted : (s.behind w).posted = s.posted := rfl
      rw [step, step, hposted]
      cases s.posted with
      | nil => rfl
      | cons t posted =>
          cases t with
          | sendFrame pw => exact congrArg some (asyncSendFrame_behind { s with posted } w pw)
          | stop => exact congrArg some (stop_behind { s with posted } w none)
  | writeOk =>
      rw [step, step, writeDone_behind]
      show (if (s.writing && !s.stopped) = true then _ else _) = _
      split
      · rfl
      · rfl
  | writeError =>
      rw [step, step, writeDone_behind]
      show (if s.writing = true then _ else _) = _
      split
      · rfl
      · rfl
  | recvHeader buf => exact hite (headerRead_behind s w buf)
  | recvBody body =>
      have hreading : (s.behind w).reading = s.reading := rfl
      rw [step, step, hreading]
      cases s.reading with
      | header => rfl
      | idle => rfl
      | body h => exact hite (bodyRead_behind s w h body)
  | readError =>
      rw [step, step, readFailed_behind]
      show (if s.reading = .idle then none else _) = _
      split
      · rfl
      · rfl
  | expire => exact hite rfl

/-- **A step writes behind what was written**, and its peer may have read some of that. -/
theorem step_ahead {e : Event} (hs : s.step e = some s') {n : Nat} (hn : n ≤ s.wire.length) :
    (s.ahead n).step e = some (s'.ahead n) ∧ s.wire <+: s'.wire := by
  have hlength : (s.wire.take n).length = n := List.length_take_of_le hn
  have hback := step_behind (s.ahead n) (s.wire.take n) e
  rw [behind_ahead, hs] at hback
  obtain ⟨t, ht, rfl⟩ := Option.map_eq_some_iff.mp hback.symm
  refine ⟨?_, ?_⟩
  · rw [ht]
    show some t = some { t with wire := (s.wire.take n ++ t.wire).drop n }
    rw [List.drop_left' hlength]
  · have hall := step_behind (s.ahead s.wire.length) (s.wire.take s.wire.length) e
    rw [behind_ahead, hs] at hall
    obtain ⟨u, -, hu⟩ := Option.map_eq_some_iff.mp hall.symm
    rw [← hu, List.take_length]
    exact List.prefix_append _ _

theorem handleFrame_wire (s : Session) (h : Header) (body : List Byte) :
    (s.handleFrame h body).wire = s.wire := by
  have hstream : (s.streamFor h).1.wire = s.wire := by
    rw [streamFor]
    split
    · rfl
    · split
      · rfl
      · rfl
  rw [handleFrame]
  split
  · split
    · rename_i s₁ o heq
      rw [heq] at hstream
      exact hstream
    · rename_i s₁ heq
      rw [heq] at hstream
      exact hstream
  · split
    · split
      · rfl
      · rfl
    · rfl

/-- The end of a read writes nothing: what it answers is posted. -/
theorem wire_of_isRead {e : Event} (he : e.isRead = true) (hs : s.step e = some s') :
    s'.wire = s.wire := by
  cases stepped_of_step hs with
  | late => rfl
  | header => rfl
  | tooLong => rfl
  | headerFrame => exact handleFrame_wire s _ _
  | bodyFrame => exact handleFrame_wire s _ _
  | readError => rfl
  | _ => cases he

end Session

/-! ## What a step writes is frames -/

theorem encodeFrame_cancel {f g : Frame} {a b : List Byte} (hf : WellFormed f) (hg : WellFormed g)
    (h : encodeFrame f ++ a = encodeFrame g ++ b) : a = b := by
  have hparse := congrArg parseFrames h
  rw [parseFrames_encode hf, parseFrames_encode hg] at hparse
  obtain ⟨hheader, hbody⟩ := Prod.mk.inj (List.cons.inj hparse).1
  rw [encodeFrame, encodeFrame, hheader, hbody] at h
  exact List.append_cancel_left h

theorem Encoded.concat {wire out : List Byte} (h : Encoded wire) (hout : Encoded out) :
    Encoded (wire ++ out) := by
  obtain ⟨fs, hfs, rfl⟩ := h
  obtain ⟨gs, hgs, rfl⟩ := hout
  exact ⟨fs ++ gs, List.forall_mem_append.mpr ⟨hfs, hgs⟩, List.flatMap_append.symm⟩

theorem Encoded.cancel {wire out : List Byte} (h : Encoded wire) (hall : Encoded (wire ++ out)) :
    Encoded out := by
  obtain ⟨fs, hfs, rfl⟩ := h
  induction fs with
  | nil => exact hall
  | cons f fs ih =>
      have hwf := (hfs f List.mem_cons_self).wellFormed
      refine ih (fun g hg => hfs g (List.mem_cons_of_mem _ hg)) ?_
      obtain ⟨gs, hgs, hsame⟩ := hall
      rw [List.flatMap_cons, List.append_assoc] at hsame
      cases gs with
      | nil =>
          have hlength := congrArg List.length hsame
          rw [encodeFrame, List.length_append, List.length_append,
            f.header.length_encode] at hlength
          exact absurd hlength (by simp [Header.size])
      | cons g gs =>
          have hrest := encodeFrame_cancel hwf (hgs g List.mem_cons_self).wellFormed hsame
          exact ⟨gs, fun g' hg' => hgs g' (List.mem_cons_of_mem _ hg'), hrest⟩

/-- What was written behind frames, up to where a frame ends, is frames. -/
theorem EncodedFrom.cancel {r : Reading} {wire out : List Byte} (h : EncodedFrom r wire)
    (hall : EncodedFrom r (wire ++ out)) : Encoded out := by
  cases r with
  | header => exact Encoded.cancel h hall
  | body hd =>
      obtain ⟨-, f, rest, hf, hfhd, rfl, hrest⟩ := h
      obtain ⟨-, g, rest', hg, hghd, hsame, hrest'⟩ := hall
      have hlength : f.body.length = g.body.length := by
        rw [hf.wellFormed.body, hg.wellFormed.body, hfhd, hghd]
      rw [List.append_assoc] at hsame
      obtain ⟨-, rfl⟩ := List.append_inj hsame hlength
      exact hrest.cancel hrest'
  | idle => exact h.elim

end Cfrp.Mux
