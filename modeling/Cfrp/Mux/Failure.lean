import Cfrp.Mux.Ledger

/-!
# The end of a session

`stop` closes the underlying stream and tells the streams of the table. What fails an
operation after that is the write error of the frame it waits for, a `handle_close`, or the
write error of a partial send. The handler of a write error takes one frame off the write
queue and calls `stop`: the frames behind it are never written, and `is_writing_` stays set,
so neither is any frame queued later. A write that waits for the window is failed only by a
partial send of its own stream that is still queued in front, and a stream that `stop` does
not find in the table is not told.
-/

namespace Cfrp.Mux

open Lib

namespace MuxStream

variable {s s' : MuxStream} {es : List Effect}

/-! ## What is left waiting -/

/-- After an operation a read waits only while the peer may send, and a write only for the
window. -/
structure Drained (s : MuxStream) : Prop where
  reads : s.remoteClosed = true → s.pendingReads = []
  writes : s.pendingWrites = [] ∨ s.remoteWindowSize = 0

theorem drained_new (id : UInt32) : Drained { id } where
  reads _ := rfl
  writes := Or.inl rfl

theorem drained_doRead (hwrites : s.pendingWrites = [] ∨ s.remoteWindowSize = 0) :
    Drained s.doRead.1 where
  reads hclosed := by
    cases hreads : s.doRead.1.pendingReads with
    | nil => rfl
    | cons pr rest =>
        have hopen := (doRead_blocked s pr rest hreads).1
        rw [hclosed] at hopen
        cases hopen
  writes := by
    rw [doRead_same]
    exact hwrites

theorem drained_doWrite (hreads : s.remoteClosed = true → s.pendingReads = []) :
    Drained s.doWrite.1 where
  reads := by
    rw [(doWrite_wrote s).same]
    exact hreads
  writes := doWrite_done s

theorem Drained.handle (h : Drained s) (a : Arrival) : Drained (s.handle a).1 := by
  cases a with
  | data bytes =>
      have hwrites := h.writes
      exact drained_doRead (s := { s with readQueue := s.readQueue ++ [bytes] }) hwrites
  | windowUpdate delta => exact drained_doWrite h.reads
  | close =>
      have hwrites := h.writes
      exact drained_doRead (s := { s with remoteClosed := true }) hwrites

theorem Drained.asyncRead (h : Drained s) (size : Nat) (handler : Handler) (readAll : Bool) :
    Drained (s.asyncRead size handler readAll).1 := by
  rw [MuxStream.asyncRead]
  split
  · exact h
  · exact drained_doRead h.writes

theorem close_nothing (h : Drained s) : Drained s.close.1 ∧
    (s.close.1.pendingReads = s.pendingReads ∨ s.close.1.pendingReads = []) ∧
    (s.close.1.pendingWrites = s.pendingWrites ∨ s.close.1.pendingWrites = []) := by
  rw [close]
  split
  · exact ⟨h, Or.inl rfl, Or.inl rfl⟩
  · exact ⟨⟨fun _ => rfl, Or.inl rfl⟩, Or.inr rfl, Or.inr rfl⟩

/-! ## Writes that are sent whole -/

theorem invokes_doRead (s : MuxStream) : invokes s.doRead.2 = [] := by
  have hloop : invokes (loop readTurn s.pendingReads.length s).2 = [] :=
    loop_induct (R := fun _ es _ => invokes es = []) (fun _ => rfl) (fun s es s' es' _ h h' => by
      rw [invokes_append, h', List.append_nil]
      obtain ⟨pr, rest, -, hcase⟩ := readTurn_cases h
      obtain ⟨-, -, -, rfl⟩ | ⟨r, consumed, done, -, -, rfl, ⟨-, -, rfl⟩ | ⟨-, -, rfl⟩⟩ := hcase
      · rfl
      · rfl
      · rfl) _ s
  rw [doRead, invokes_append, hloop, invokes_checkCleanup]
  rfl

theorem invokes_abortEffects (s : MuxStream) : invokes s.abortEffects = [] := by
  rw [abortEffects, invokes_append, invokes_map_post, invokes_map_post]
  rfl

theorem invokes_close (s : MuxStream) : invokes s.close.2 = [] := by
  rw [close]
  split
  · rfl
  · have hfin : invokes (if s.session then [.send ⟨s.dataHeader Flags.fin 0, []⟩ .none]
        else []) = [] := by
      split <;> rfl
    show invokes (_ ++ s.abortEffects ++ _) = []
    rw [invokes_append, invokes_append, hfin, invokes_abortEffects, invokes_checkCleanup]
    rfl

theorem invokes_asyncRead (s : MuxStream) (size : Nat) (handler : Handler) (readAll : Bool) :
    invokes (s.asyncRead size handler readAll).2 = [] := by
  rw [asyncRead]
  split
  · rfl
  · exact invokes_doRead _

theorem invokes_handleClose (s : MuxStream) : invokes s.handleClose.2 = [] := by
  show invokes ((doRead { s with remoteClosed := true }).2 ++ _) = []
  rw [invokes_append, invokes_doRead, invokes_checkCleanup]
  rfl

/-- Some pending write is no longer than what the writes before it leave of the window. -/
def fits (window : Nat) : List PendingWrite → Bool
  | [] => false
  | pw :: rest =>
      if window = 0 then false
      else if totalLength pw.buffers = 0 then fits window rest
      else decide (totalLength pw.buffers ≤ window)

/-- `do_write` sends the last frame of a write, with the handler. -/
def finishes (s : MuxStream) : Bool := s.session && fits s.remoteWindowSize s.pendingWrites

theorem writeTurn_unfinished (h : s.writeTurn = some (s', es)) (hs : s.finishes = false) :
    invokes es = [] ∧ s'.finishes = false := by
  obtain ⟨pw, rest, hpw, hwin, hcase⟩ := writeTurn_cases h
  have hzero : s.remoteWindowSize ≠ 0 := by omega
  rw [finishes, hpw, fits, if_neg hzero, totalLength_eq] at hs
  obtain ⟨ec, -, hnil, rfl, rfl⟩ | ⟨n, hpos, hle, -, ⟨hlt, rfl, rfl⟩ | ⟨hn, rfl, rfl⟩⟩ := hcase
  · -- the write is completed without a frame
    refine ⟨rfl, ?_⟩
    show (s.session && fits s.remoteWindowSize rest) = false
    cases hsession : s.session with
    | false => rfl
    | true =>
        rw [hsession, (hnil hsession).2] at hs
        exact hs
  · -- the rest of the write is longer than what is left of the window
    refine ⟨rfl, ?_⟩
    show (s.session && fits (s.remoteWindowSize - n) (_ :: rest)) = false
    cases hsession : s.session with
    | false => rfl
    | true =>
        rw [hsession, if_neg (by omega), Bool.true_and, decide_eq_false_iff_not] at hs
        rw [fits, totalLength_eq, flatten_skipBuffers, List.length_drop, Bool.true_and]
        split
        · rfl
        · rw [if_neg (by omega), decide_eq_false_iff_not]
          omega
  · -- a write that is sent whole fits
    have hsession := session_of_send h
    rw [hsession, if_neg (by omega), Bool.true_and, decide_eq_false_iff_not] at hs
    omega

theorem doWrite_unfinished (hs : s.finishes = false) : invokes s.doWrite.2 = [] :=
  loop_induct (R := fun s es _ => s.finishes = false → invokes es = []) (fun _ _ => rfl)
    (fun _ _ _ _ _ h h' hs => by
      obtain ⟨hnone, hs'⟩ := writeTurn_unfinished h hs
      rw [invokes_append, hnone, h' hs']
      rfl) _ s hs

/-- Nothing but the last write is pending, and `do_write` completes it or sends it whole. -/
def Leaves (s : MuxStream) : Prop :=
  s.pendingWrites = [] ∨ 0 < s.remoteWindowSize ∧
    (s.session = false ∨ ∃ pw, s.pendingWrites = [pw] ∧ totalLength pw.buffers ≤ s.remoteWindowSize)

theorem writeTurn_leaves (h : s.writeTurn = some (s', es)) (hs : s.Leaves) : s'.Leaves := by
  obtain ⟨pw, rest, hpw, hwin, hcase⟩ := writeTurn_cases h
  rcases hs with hnil | ⟨-, hdead | ⟨pw', hone, hfits⟩⟩
  · rw [hpw] at hnil
    cases hnil
  · -- without a session every write is completed
    obtain ⟨ec, -, -, rfl, rfl⟩ | ⟨n, -, -, -, ⟨-, -, rfl⟩ | ⟨-, -, rfl⟩⟩ := hcase
    · exact Or.inr ⟨hwin, Or.inl hdead⟩
    · rw [session_of_send h] at hdead
      cases hdead
    · rw [session_of_send h] at hdead
      cases hdead
  · rw [hone] at hpw
    cases hpw
    rw [totalLength_eq] at hfits
    obtain ⟨ec, -, -, rfl, rfl⟩ | ⟨n, hpos, hle, -, ⟨hlt, rfl, rfl⟩ | ⟨-, rfl, rfl⟩⟩ := hcase
    · exact Or.inl rfl
    · refine Or.inr ⟨?_, Or.inr ⟨_, rfl, ?_⟩⟩
      · show 0 < s.remoteWindowSize - n
        omega
      · show totalLength _ ≤ s.remoteWindowSize - n
        rw [totalLength_eq, flatten_skipBuffers, List.length_drop]
        omega
    · exact Or.inl rfl

theorem doWrite_leaves (hs : s.Leaves) : s.doWrite.1.pendingWrites = [] := by
  have hend : s.doWrite.1.Leaves :=
    loop_induct (R := fun s _ s' => Leaves s → Leaves s') (fun _ h => h)
      (fun _ _ _ _ _ h h' hs => h' (writeTurn_leaves h hs)) _ s hs
  rcases doWrite_done s with hnil | hzero
  · exact hnil
  · rcases hend with hnil | ⟨hpos, -⟩
    · exact hnil
    · omega

/-- A write that is longer than the window begins with a partial send. -/
theorem doWrite_partial {pw : PendingWrite} (hone : s.pendingWrites = [pw])
    (hwin : 0 < s.remoteWindowSize) (hlong : s.remoteWindowSize < totalLength pw.buffers)
    (hsession : s.session = true) : ∃ f es, s.doWrite.2 = .send f .failPending :: es := by
  cases hturn : s.writeTurn with
  | none =>
      rw [writeTurn, hone] at hturn
      simp only [if_neg (Nat.ne_of_gt hwin), if_neg (show totalLength pw.buffers ≠ 0 by omega),
        hsession] at hturn
      split at hturn
      · cases hturn
      · split at hturn <;> cases hturn
  | some r =>
      obtain ⟨s₁, es₁⟩ := r
      obtain ⟨pw', rest, hpw, -, hcase⟩ := writeTurn_cases hturn
      rw [hone] at hpw
      cases hpw
      rw [totalLength_eq] at hlong
      have hmeasure : s.writeMeasure = (s.writeMeasure - 1) + 1 := by
        rw [writeMeasure, hone, List.length_singleton]
        omega
      obtain ⟨ec, -, hnil, -, -⟩ | ⟨n, -, hle, -, ⟨-, -, rfl⟩ | ⟨hn, -, -⟩⟩ := hcase
      · rw [(hnil hsession).2, List.length_nil] at hlong
        omega
      · rw [doWrite, hmeasure, loop_of_some hturn]
        exact ⟨_, _, rfl⟩
      · omega

/-- A write is accepted. -/
def plus (s : MuxStream) (pw : PendingWrite) : MuxStream :=
  { s with pendingWrites := s.pendingWrites ++ [pw] }

theorem asyncWrite_plus {buffers : List (List Byte)} {handler : Handler}
    (hroom : ¬s.pendingWrites.length ≥ maxPendingWrites) :
    s.asyncWrite buffers handler = (s.plus ⟨buffers, handler⟩).doWrite := by
  rw [asyncWrite, if_neg hroom]
  rfl

/-- A write to a stream with an open window is completed or sent, or begins with a partial
send. -/
theorem doWrite_open (h : Drained s) (hwin : 0 < s.remoteWindowSize) (pw : PendingWrite) :
    (s.plus pw).doWrite.1.pendingWrites = [] ∨
      s.session = true ∧ s.remoteWindowSize < totalLength pw.buffers ∧
        ∃ f es, (s.plus pw).doWrite.2 = .send f .failPending :: es := by
  -- the window is open, so nothing was pending
  have hnone : s.pendingWrites = [] := h.writes.resolve_right (by omega)
  have hone : (s.plus pw).pendingWrites = [pw] := by
    show s.pendingWrites ++ [pw] = [pw]
    rw [hnone]
    rfl
  by_cases hshort : s.session = false ∨ totalLength pw.buffers ≤ s.remoteWindowSize
  · exact Or.inl (doWrite_leaves (Or.inr ⟨hwin, hshort.imp_right fun hle => ⟨pw, hone, hle⟩⟩))
  · obtain ⟨hsession, hlong⟩ := not_or.mp hshort
    rw [Bool.not_eq_false] at hsession
    rw [Nat.not_le] at hlong
    exact Or.inr ⟨hsession, hlong, doWrite_partial hone hwin hlong hsession⟩

end MuxStream

namespace Session

open Pair MuxStream

variable {s s' : Session} {o : Nat} {obj : StreamObj}

/-! ## When a session ends clean -/

/-- The handler of a write error has run, and nothing is written any more. -/
def broken (s : Session) : Bool := s.isWriting && !s.writing

/-- The frame that is being written is a partial send of object `o`. -/
def outstanding (s : Session) (o : Nat) : Bool :=
  s.writing && s.writeQueue.head?.any fun pw => pw.handler = .failPending o

/-- The pending writes of an object will be failed. -/
def rescued (s : Session) (o : Nat) (obj : StreamObj) : Bool :=
  obj.tasks.contains (.failWrites .ioError) || s.outstanding o

/-- The stream has been told that the session or its peer is at the end. -/
def informed (obj : StreamObj) : Bool :=
  obj.stream.remoteClosed || obj.tasks.contains (.arrival .close)

/-- A write that `async_write` accepts does not end up behind a write error, nor, once the
session has stopped, behind a window that no update opens any more. -/
def writeEnds (s : Session) (o : Nat) (obj : StreamObj) (pw : PendingWrite) : Bool :=
  let stream := obj.stream
  (!s.broken || !(stream.plus pw).finishes) &&
    (!s.stopped || s.rescued o obj ||
      stream.remoteWindowSize > 0 && (!stream.session || !s.isWriting ||
        totalLength pw.buffers ≤ stream.remoteWindowSize))

/-- `stop` leaves nothing of an object waiting. -/
def objEnds (s : Session) (o : Nat) (obj : StreamObj) : Bool :=
  (obj.stream.pendingReads.isEmpty || informed obj || s.streams.entries.any fun e => e.2 = o) &&
    (obj.stream.pendingWrites.isEmpty || s.rescued o obj)

def stopEnds (s : Session) : Bool := s.stopped || s.objs.zipIdx.all fun p => s.objEnds p.2 p.1

/-- No handler is left behind: a write error finds no handler behind its frame, and none is
queued after it; `stop` finds every stream with a pending read in its table and no write
waiting for the window; and a stream that is not told gets no read or write later. -/
def endsClean (s : Session) : Event → Bool
  | .asyncRead o _ _ _ =>
      match s.objs[o]? with
      | some obj => !s.stopped || informed obj
      | none => true
  | .asyncWrite o buffers handler =>
      match s.objs[o]? with
      | some obj => decide (obj.stream.pendingWrites.length ≥ maxPendingWrites) ||
          s.writeEnds o obj ⟨buffers, handler⟩
      | none => true
  | .sendFrame onStrand _ handler => !s.broken || !onStrand || handler.isNone
  | .stop _ => s.stopEnds
  | .runStream o =>
      match s.objs[o]? with
      | some { tasks := .arrival (.windowUpdate delta) :: _, stream, .. } =>
          !s.broken || !MuxStream.finishes { stream with
            remoteWindowSize := min (stream.remoteWindowSize + delta.toNat) maxMessageSize }
      | _ => true
  | .runPosted =>
      match s.posted with
      | .sendFrame pw :: _ => !s.broken || (frameHandlers [pw]).isEmpty
      | .stop :: _ => s.stopEnds
      | [] => true
  | .writeError => (frameHandlers s.writeQueue.tail).isEmpty
  | _ => true

/-- Every posted handler and every outstanding operation has run. -/
structure Over (s : Session) : Prop where
  stopped : s.stopped = true
  posted : s.posted = []
  tasks : ∀ obj ∈ s.objs, obj.tasks = []
  writing : s.writing = false
  reading : s.reading = .idle

/-- **Completion.** Once a session that was stopped is over, every handler it was given has
been called, once for each time it was given. -/
def Completes (s : Session) : Prop :=
  s.Over → ∀ x, (s.invoked.map Completion.handler).count x = s.submitted.count x

/-! ## Frames -/

/-- A session that does not write has nothing to write, and a write error leaves no handler
in the queue. -/
structure Sending (s : Session) : Prop where
  idle : s.isWriting = false → s.writeQueue = [] ∧ s.writing = false
  unsent : s.writing = false → frameHandlers s.writeQueue = []

theorem Sending.congr (h : Sending s) (hqueue : s'.writeQueue = s.writeQueue)
    (hbusy : s'.isWriting = s.isWriting) (hwriting : s'.writing = s.writing) : Sending s' where
  idle := by rw [hqueue, hbusy, hwriting]; exact h.idle
  unsent := by rw [hqueue, hwriting]; exact h.unsent

theorem Sending.isWriting (h : Sending s) (hw : s.writing = true) : s.isWriting = true := by
  cases hb : s.isWriting with
  | true => rfl
  | false =>
      have hidle := (h.idle hb).2
      rw [hw] at hidle
      cases hidle

/-- A frame goes to the stream at once when nothing is being written. -/
theorem asyncSendFrame_idle (hs : s.isWriting = false) (hq : s.writeQueue = [])
    (pw : PendingFrame) :
    (s.asyncSendFrame pw).isWriting = true ∧ (s.asyncSendFrame pw).writing = true := by
  rw [asyncSendFrame]
  simp only [hs, Bool.false_eq_true, if_false, hq, List.nil_append]
  exact ⟨rfl, rfl⟩

theorem asyncSendFrame_busy (hs : s.isWriting = true) (pw : PendingFrame) :
    s.asyncSendFrame pw = { s with writeQueue := s.writeQueue ++ [pw] } := by
  rw [asyncSendFrame]
  simp only [hs, if_true]

theorem Sending.asyncSendFrame (h : Sending s) (pw : PendingFrame)
    (hpw : s.broken = true → frameHandlers [pw] = []) :
    Sending (s.asyncSendFrame pw) ∧ (s.asyncSendFrame pw).broken = s.broken := by
  cases hs : s.isWriting with
  | false =>
      obtain ⟨hbusy, hwriting⟩ := asyncSendFrame_idle hs (h.idle hs).1 pw
      refine ⟨⟨fun hidle => ?_, fun hnot => ?_⟩, ?_⟩
      · rw [hbusy] at hidle
        cases hidle
      · rw [hwriting] at hnot
        cases hnot
      · rw [broken, broken, hbusy, hwriting, hs]
        rfl
  | true =>
      rw [asyncSendFrame_busy hs]
      refine ⟨⟨fun hidle => ?_, fun hnot => ?_⟩, rfl⟩
      · have hbusy : s.isWriting = false := hidle
        rw [hs] at hbusy
        cases hbusy
      · have hwriting : s.writing = false := hnot
        show frameHandlers (s.writeQueue ++ [pw]) = []
        rw [frameHandlers_append, h.unsent hwriting, hpw (by rw [broken, hs, hwriting]; rfl)]
        rfl

theorem Sending.sendAll (fs : List PendingFrame) (h : Sending s)
    (hfs : s.broken = true → frameHandlers fs = []) :
    Sending (fs.foldl Session.asyncSendFrame s) := by
  induction fs generalizing s with
  | nil => exact h
  | cons pw fs ih =>
      have hsplit : frameHandlers (pw :: fs) = frameHandlers [pw] ++ frameHandlers fs :=
        frameHandlers_append [pw] fs
      obtain ⟨hsent, hbroken⟩ := h.asyncSendFrame pw fun hb => by
        have hall := hfs hb
        rw [hsplit, List.append_eq_nil_iff] at hall
        exact hall.1
      refine ih hsent fun hb => ?_
      have hall := hfs (hbroken ▸ hb)
      rw [hsplit, List.append_eq_nil_iff] at hall
      exact hall.2

theorem Sending.perform (h : Sending s) {r : MuxStream × List Effect}
    (hr : s.broken = true → invokes r.2 = []) : Sending (s.perform o r) := by
  refine Sending.sendAll _ (h.congr rfl rfl rfl) fun hb => ?_
  rw [frameHandlers_pendingFrames]
  exact hr hb

/-- A frame in front of the queue stays there. -/
theorem outstanding_asyncSendFrame (pw : PendingFrame) (h : s.outstanding o = true) :
    (s.asyncSendFrame pw).outstanding o = true := by
  have hqueue := asyncSendFrame_writeQueue s pw
  have hwriting : (s.asyncSendFrame pw).writing = true := by
    rw [outstanding, Bool.and_eq_true] at h
    rw [Session.asyncSendFrame]
    simp only
    split
    · exact h.1
    · rw [Session.doWrite]
      split
      · exact h.1
      · rfl
  rw [outstanding, Bool.and_eq_true] at h ⊢
  refine ⟨hwriting, ?_⟩
  rw [hqueue]
  cases hq : s.writeQueue with
  | nil =>
      rw [hq] at h
      cases h.2
  | cons front rest =>
      rw [hq] at h
      exact h.2

theorem outstanding_sendAll (fs : List PendingFrame) (h : s.outstanding o = true) :
    (fs.foldl Session.asyncSendFrame s).outstanding o = true := by
  induction fs generalizing s with
  | nil => exact h
  | cons pw fs ih => exact ih (outstanding_asyncSendFrame pw h)

theorem outstanding_perform {o' : Nat} (r : MuxStream × List Effect) (h : s.outstanding o = true) :
    (s.perform o' r).outstanding o = true :=
  outstanding_sendAll _ h

/-- A partial send by a session that was not writing. -/
theorem outstanding_first (hs : s.isWriting = false) (hq : s.writeQueue = [])
    (f : Frame) (o : Nat) :
    (s.asyncSendFrame ⟨f, .failPending o⟩).outstanding o = true := by
  rw [outstanding, asyncSendFrame_writeQueue, hq, (asyncSendFrame_idle hs hq _).2]
  simp

theorem outstanding_partial (h : Sending s) (hs : s.isWriting = false)
    {r : MuxStream × List Effect} {f : Frame} {es : List Effect}
    (hr : r.2 = .send f .failPending :: es) : (s.perform o r).outstanding o = true := by
  have hframes : pendingFrames o r.2 = ⟨f, .failPending o⟩ :: pendingFrames o es := by
    rw [hr]
    rfl
  rw [Session.perform, hframes]
  have hq := (h.idle hs).1
  have hfirst := outstanding_first (s := { s.modifyObj o (afterOp r) with
    streams := if removes r.2 then s.streams.erase r.1.id else s.streams }) hs hq f o
  exact outstanding_sendAll (pendingFrames o es) hfirst

/-! ## Stream objects -/

/-- What holds of a stream object. `os` are the objects that `stop` still has to tell. -/
structure Ends (s : Session) (os : List Nat) (o : Nat) (obj : StreamObj) : Prop where
  drained : Drained obj.stream
  reads : s.stopped = true →
    obj.stream.pendingReads = [] ∨ Task.arrival .close ∈ obj.tasks ∨ o ∈ os
  writes : s.stopped = true → obj.stream.pendingWrites = [] ∨ s.rescued o obj = true

def AllEnd (s : Session) (os : List Nat) : Prop :=
  ∀ (o : Nat) (obj : StreamObj), s.objs[o]? = some obj → s.Ends os o obj

variable {os : List Nat}

theorem rescued_mono {obj' : StreamObj} (hout : s.outstanding o = true → s'.outstanding o = true)
    (htasks : obj.tasks ⊆ obj'.tasks) (h : s.rescued o obj = true) : s'.rescued o obj' = true := by
  rw [rescued, Bool.or_eq_true, List.contains_iff_mem] at h ⊢
  exact h.imp (fun hmem => htasks hmem) hout

/-- Tasks are added and frames queued, and nothing is taken away. -/
structure Adds (s s' : Session) : Prop where
  stopped : s'.stopped = s.stopped
  sending : Sending s → Sending s'
  outstanding : ∀ o, s.outstanding o = true → s'.outstanding o = true
  objs : ∀ (o : Nat) (obj' : StreamObj), s'.objs[o]? = some obj' →
    (∃ obj : StreamObj, s.objs[o]? = some obj ∧ obj'.stream = obj.stream ∧ obj.tasks ⊆ obj'.tasks) ∨
      ∃ id, obj'.stream = { id := id }

theorem adds_same (hobjs : s'.objs = s.objs) (hstopped : s'.stopped = s.stopped)
    (hqueue : s'.writeQueue = s.writeQueue) (hbusy : s'.isWriting = s.isWriting)
    (hwriting : s'.writing = s.writing) : Adds s s' where
  stopped := hstopped
  sending h := h.congr hqueue hbusy hwriting
  outstanding o h := by rwa [outstanding, hqueue, hwriting]
  objs o obj ho := Or.inl ⟨obj, by rw [← hobjs, ho], rfl, List.Subset.refl _⟩

theorem Adds.trans {s'' : Session} (h : Adds s s') (h' : Adds s' s'') : Adds s s'' where
  stopped := h'.stopped.trans h.stopped
  sending hs := h'.sending (h.sending hs)
  outstanding o ho := h'.outstanding o (h.outstanding o ho)
  objs o obj'' ho := by
    rcases h'.objs o obj'' ho with ⟨obj', ho', hstream', htasks'⟩ | hnew
    · rcases h.objs o obj' ho' with ⟨obj, ho, hstream, htasks⟩ | ⟨id, hnew⟩
      · exact Or.inl ⟨obj, ho, hstream'.trans hstream, List.Subset.trans htasks htasks'⟩
      · exact Or.inr ⟨id, hstream'.trans hnew⟩
    · exact Or.inr hnew

theorem adds_asyncSendFrame {pw : PendingFrame} (hpw : s.broken = true → frameHandlers [pw] = []) :
    Adds s (s.asyncSendFrame pw) where
  stopped := (asyncSendFrame_same s pw).stopped
  sending h := (h.asyncSendFrame _ hpw).1
  outstanding o h := outstanding_asyncSendFrame pw h
  objs o obj ho := by
    rw [(asyncSendFrame_same s pw).objs] at ho
    exact Or.inl ⟨obj, ho, rfl, List.Subset.refl _⟩

theorem adds_modifyObj (f : StreamObj → StreamObj)
    (hf : ∀ obj, (f obj).stream = obj.stream ∧ obj.tasks ⊆ (f obj).tasks) :
    Adds s (s.modifyObj o f) where
  stopped := rfl
  sending h := h.congr rfl rfl rfl
  outstanding _ h := h
  objs o' obj' ho' := by
    have hmod : (s.objs.modify o f)[o']? = some obj' := ho'
    rw [List.getElem?_modify, Option.map_eq_map, Option.map_eq_some_iff] at hmod
    obtain ⟨obj, ho, heq⟩ := hmod
    refine Or.inl ⟨obj, ho, ?_⟩
    rw [← heq]
    split
    · exact hf obj
    · exact ⟨rfl, List.Subset.refl _⟩

theorem adds_pushTasks (s : Session) (o : Nat) (tasks : List Task) : Adds s (s.pushTasks o tasks) :=
  adds_modifyObj _ fun _ => ⟨rfl, List.subset_append_left _ _⟩

theorem adds_addObj (s : Session) (next id : UInt32) : Adds s (addObj s next id) where
  stopped := rfl
  sending h := h.congr rfl rfl rfl
  outstanding _ h := h
  objs o obj' ho := by
    rcases of_getElem?_concat ho with hold | ⟨-, rfl⟩
    · exact Or.inl ⟨obj', hold, rfl, List.Subset.refl _⟩
    · exact Or.inr ⟨id, rfl⟩

theorem AllEnd.adds (h : AllEnd s os) (hadds : Adds s s') : AllEnd s' os := by
  intro o obj' ho'
  rcases hadds.objs o obj' ho' with ⟨obj, ho, hstream, htasks⟩ | ⟨id, hnew⟩
  · have hends := h o obj ho
    refine ⟨hstream ▸ hends.drained, fun hs => ?_, fun hs => ?_⟩
    · rw [hstream]
      rw [hadds.stopped] at hs
      exact (hends.reads hs).imp id (Or.imp_left fun hclose => htasks hclose)
    · rw [hstream]
      rw [hadds.stopped] at hs
      exact (hends.writes hs).imp id (rescued_mono (hadds.outstanding o) htasks)
  · refine ⟨hnew ▸ drained_new id, fun _ => Or.inl (by rw [hnew]), fun _ => Or.inl (by rw [hnew])⟩

theorem perform_stopped (s : Session) (o : Nat) (r : MuxStream × List Effect) :
    (s.perform o r).stopped = s.stopped := (perform_same s o r).stopped

/-- After an operation of an object only the object itself has to be looked at. -/
theorem allEnd_perform (h : ∀ (o' : Nat) (obj' : StreamObj), o' ≠ o → s.objs[o']? = some obj' →
      s.Ends os o' obj') (ho : s.objs[o]? = some obj) {r : MuxStream × List Effect}
    (hself : (s.perform o r).Ends os o (afterOp r obj)) : AllEnd (s.perform o r) os := by
  intro o' obj' ho'
  rw [perform_objs] at ho'
  rcases of_getElem?_modify ho ho' with ⟨rfl, rfl⟩ | ⟨hne, hother⟩
  · exact hself
  · have hends := h o' obj' hne hother
    have hstopped := perform_stopped s o r
    refine ⟨hends.drained, fun hs => hends.reads (hstopped ▸ hs), fun hs => ?_⟩
    exact (hends.writes (hstopped ▸ hs)).imp id
      (rescued_mono (outstanding_perform r) (List.Subset.refl _))

/-- An operation that leaves a read waiting leaves it to a `handle_close`, and a write to a
write error. -/
theorem ends_afterOp {r : MuxStream × List Effect} (hdrained : Drained r.1)
    (hreads : s.stopped = true →
      r.1.pendingReads = [] ∨ Task.arrival .close ∈ obj.tasks ∨ o ∈ os)
    (hwrites : s.stopped = true → r.1.pendingWrites = [] ∨ s.rescued o obj = true) :
    (s.perform o r).Ends os o (afterOp r obj) := by
  have hstopped := perform_stopped s o r
  refine ⟨hdrained, fun hs => ?_, fun hs => ?_⟩
  · exact (hreads (hstopped ▸ hs)).imp id (Or.imp_left fun hclose => List.mem_append_left _ hclose)
  · exact (hwrites (hstopped ▸ hs)).imp id
      (rescued_mono (outstanding_perform r) (List.subset_append_left _ _))

/-! ## Operations -/

/-- No handler is left behind by what the session has done so far. -/
structure Clean (s : Session) (os : List Nat) : Prop where
  sending : Sending s
  objs : AllEnd s os

theorem Clean.adds (h : Clean s os) (hadds : Adds s s') : Clean s' os :=
  ⟨hadds.sending h.sending, h.objs.adds hadds⟩

/-- An operation that sends no handler along. -/
theorem clean_perform (hs : Sending s) (hother : ∀ (o' : Nat) (obj' : StreamObj), o' ≠ o →
      s.objs[o']? = some obj' → s.Ends os o' obj') (ho : s.objs[o]? = some obj)
    {r : MuxStream × List Effect} (hr : s.broken = true → invokes r.2 = []) (hdrained : Drained r.1)
    (hreads : s.stopped = true →
      r.1.pendingReads = [] ∨ Task.arrival .close ∈ obj.tasks ∨ o ∈ os)
    (hwrites : s.stopped = true → r.1.pendingWrites = [] ∨ s.rescued o obj = true) :
    Clean (s.perform o r) os :=
  ⟨hs.perform hr, allEnd_perform hother ho (ends_afterOp hdrained hreads hwrites)⟩

theorem clean_asyncRead (h : Clean s []) (ho : s.objs[o]? = some obj)
    (hok : s.stopped = true → informed obj = true) (size : Nat) (handler : Handler)
    (readAll : Bool) :
    Clean (s.perform o (obj.stream.asyncRead size handler readAll)) [] := by
  have hends := h.objs o obj ho
  have hsame :
      (obj.stream.asyncRead size handler readAll).1.remoteClosed = obj.stream.remoteClosed ∧
      (obj.stream.asyncRead size handler readAll).1.pendingWrites = obj.stream.pendingWrites := by
    rw [MuxStream.asyncRead]
    split
    · exact ⟨rfl, rfl⟩
    · rw [doRead_same]
      exact ⟨rfl, rfl⟩
  have hdrained := hends.drained.asyncRead size handler readAll
  refine clean_perform h.sending (fun o' obj' _ ho' => h.objs o' obj' ho') ho
    (fun _ => invokes_asyncRead _ _ _ _) hdrained (fun hs => ?_) fun hs => ?_
  · have hinformed := hok hs
    rw [informed, Bool.or_eq_true, List.contains_iff_mem] at hinformed
    rcases hinformed with hclosed | hclose
    · exact Or.inl (hdrained.reads (hsame.1.trans hclosed))
    · exact Or.inr (Or.inl hclose)
  · rw [hsame.2]
    exact hends.writes hs

/-- **A write** is completed, goes to the stream whole, waits for an open window, or will be
failed. -/
theorem clean_asyncWrite (h : Clean s []) (ho : s.objs[o]? = some obj)
    (buffers : List (List Byte)) (handler : Handler)
    (hok : obj.stream.pendingWrites.length ≥ maxPendingWrites ∨
      s.writeEnds o obj ⟨buffers, handler⟩ = true) :
    Clean (s.perform o (obj.stream.asyncWrite buffers handler)) [] := by
  have hends := h.objs o obj ho
  have hother : ∀ (o' : Nat) (obj' : StreamObj), o' ≠ o → s.objs[o']? = some obj' →
      s.Ends [] o' obj' :=
    fun o' obj' _ ho' => h.objs o' obj' ho'
  by_cases hroom : obj.stream.pendingWrites.length ≥ maxPendingWrites
  · rw [MuxStream.asyncWrite, if_pos hroom]
    exact clean_perform h.sending hother ho (fun _ => rfl) hends.drained hends.reads hends.writes
  · replace hok := hok.resolve_left hroom
    rw [writeEnds, Bool.and_eq_true] at hok
    obtain ⟨hwhole, hrest⟩ := hok
    rw [asyncWrite_plus hroom]
    -- behind a frame that failed no write may end
    have hinvokes : s.broken = true →
        invokes (obj.stream.plus ⟨buffers, handler⟩).doWrite.2 = [] := by
      intro hb
      rw [hb] at hwhole
      exact doWrite_unfinished (by simpa using hwhole)
    have hdrained : Drained (obj.stream.plus ⟨buffers, handler⟩).doWrite.1 :=
      drained_doWrite hends.drained.reads
    have hreads : (obj.stream.plus ⟨buffers, handler⟩).doWrite.1.pendingReads =
        obj.stream.pendingReads := by
      rw [(doWrite_wrote _).same]
      rfl
    have hstopped := perform_stopped s o (obj.stream.plus ⟨buffers, handler⟩).doWrite
    refine ⟨h.sending.perform hinvokes,
      allEnd_perform hother ho ⟨hdrained, fun hs => ?_, fun hs => ?_⟩⟩
    · replace hs := hstopped.symm.trans hs
      show (MuxStream.doWrite _).1.pendingReads = [] ∨ _
      rw [hreads]
      exact (hends.reads hs).imp id (Or.imp_left fun hclose => List.mem_append_left _ hclose)
    · replace hs := hstopped.symm.trans hs
      rw [hs, Bool.not_true, Bool.false_or, Bool.or_eq_true] at hrest
      -- a stopped session: the failure is on its way, or the window is open
      rcases hrest with hrescued | hopen
      · exact Or.inr (rescued_mono (outstanding_perform _) (List.subset_append_left _ _) hrescued)
      · rw [Bool.and_eq_true, decide_eq_true_eq, Bool.or_eq_true, Bool.or_eq_true,
          decide_eq_true_eq] at hopen
        obtain ⟨hwin, hopen⟩ := hopen
        rcases doWrite_open hends.drained hwin ⟨buffers, handler⟩ with
          hnil | ⟨hsession, hlong, f, es, hes⟩
        · exact Or.inl hnil
        · -- the partial send is written at once, and its error fails the rest
          have hidle : s.isWriting = false := by
            rcases hopen with (hdead | hidle) | hle
            · rw [hsession] at hdead
              cases hdead
            · simpa using hidle
            · exact absurd hle (Nat.not_le.mpr hlong)
          have hfront := outstanding_partial (o := o) h.sending hidle hes
          right
          rw [rescued, hfront, Bool.or_true]

theorem clean_close (h : Clean s []) (ho : s.objs[o]? = some obj) :
    Clean (s.perform o obj.stream.close) [] := by
  have hends := h.objs o obj ho
  obtain ⟨hdrained, hreads, hwrites⟩ := close_nothing hends.drained
  refine clean_perform h.sending (fun o' obj' _ ho' => h.objs o' obj' ho') ho
    (fun _ => invokes_close _) hdrained (fun hs => ?_) fun hs => ?_
  · rcases hreads with hsame | hnil
    · rw [hsame]
      exact hends.reads hs
    · exact Or.inl hnil
  · rcases hwrites with hsame | hnil
    · rw [hsame]
      exact hends.writes hs
    · exact Or.inl hnil

theorem clean_destroy (h : Clean s []) (ho : s.objs[o]? = some obj) :
    Clean (s.perform o obj.stream.destroy) [] :=
  clean_perform h.sending (fun o' obj' _ ho' => h.objs o' obj' ho') ho
    (fun _ => invokes_abortEffects _) ⟨fun _ => rfl, Or.inl rfl⟩
    (fun _ => Or.inl rfl) fun _ => Or.inl rfl

/-! ## Tasks -/

theorem doRead_nothing {st : MuxStream} (h : st.pendingReads = []) :
    st.doRead.1.pendingReads = [] := by
  have hnone : st.readTurn = none := by
    rw [readTurn, h]
  show (loop readTurn _ st).1.pendingReads = []
  rw [loop_of_none hnone]
  exact h

theorem doWrite_nothing {st : MuxStream} (h : st.pendingWrites = []) :
    st.doWrite.1.pendingWrites = [] := by
  have hnone : st.writeTurn = none := by
    rw [writeTurn, h]
  rw [MuxStream.doWrite, loop_of_none hnone]
  exact h

/-- What the other tasks of a strand are for when one of them runs. -/
theorem Ends.pop (h : s.Ends os o obj) {t : Task} {tasks : List Task}
    (htasks : obj.tasks = t :: tasks) :
    (s.stopped = true → t ≠ .arrival .close →
      obj.stream.pendingReads = [] ∨ Task.arrival .close ∈ tasks ∨ o ∈ os) ∧
    (s.stopped = true → t ≠ .failWrites .ioError →
      obj.stream.pendingWrites = [] ∨ s.rescued o { obj with tasks } = true) := by
  refine ⟨fun hs hne => (h.reads hs).imp_right (Or.imp_left fun hclose => ?_), fun hs hne =>
    (h.writes hs).imp_right fun hrescued => ?_⟩
  · rw [htasks] at hclose
    exact (List.mem_cons.mp hclose).resolve_left (Ne.symm hne)
  · rw [rescued, Bool.or_eq_true, List.contains_iff_mem, htasks] at hrescued
    rw [rescued, Bool.or_eq_true, List.contains_iff_mem]
    exact hrescued.imp_left fun hmem => (List.mem_cons.mp hmem).resolve_left (Ne.symm hne)

theorem clean_runTask (h : Clean s []) (ho : s.objs[o]? = some obj) {t : Task} {tasks : List Task}
    (htasks : obj.tasks = t :: tasks) (hok : s.endsClean (.runStream o) = true) :
    Clean ((s.modifyObj o fun obj => { obj with tasks }).runTask o obj t) [] := by
  have hends := h.objs o obj ho
  obtain ⟨hreads, hwrites⟩ := hends.pop htasks
  have hsending : Sending (s.modifyObj o fun obj => { obj with tasks }) :=
    h.sending.congr rfl rfl rfl
  have ho' := getElem?_modifyObj ho fun obj => { obj with tasks }
  -- the other objects are as they were
  have hother : ∀ (o' : Nat) (obj' : StreamObj), o' ≠ o →
      (s.modifyObj o fun obj => { obj with tasks }).objs[o']? = some obj' →
      (s.modifyObj o fun obj => { obj with tasks }).Ends [] o' obj' := by
    intro o' obj' hne ho''
    rcases of_getElem?_modify ho ho'' with ⟨heq, -⟩ | ⟨-, hold⟩
    · exact absurd heq hne
    · obtain ⟨hdrained, hreads', hwrites'⟩ := h.objs o' obj' hold
      exact ⟨hdrained, hreads', hwrites'⟩
  cases t with
  | arrival a =>
      have hdrained := hends.drained.handle a
      cases a with
      | data bytes =>
          refine clean_perform hsending hother ho'
            (fun _ => invokes_doRead _) hdrained (fun hs => ?_)
            fun hs => ?_
          · exact (hreads hs (by simp)).imp_left doRead_nothing
          · show (MuxStream.doRead _).1.pendingWrites = [] ∨ _
            rw [doRead_same]
            exact hwrites hs (by simp)
      | windowUpdate delta =>
          refine clean_perform hsending hother ho' (fun hb => ?_) hdrained
            (fun hs => ?_) fun hs => ?_
          · -- the credit ends no write behind a frame that failed
            obtain ⟨stream, tasks', destroyed, accepted, lateWrite, sent, reported⟩ := obj
            cases htasks
            have hbroken : s.broken = true := hb
            rw [endsClean, ho] at hok
            simp only [hbroken, Bool.not_true, Bool.false_or, Bool.not_eq_true'] at hok
            exact doWrite_unfinished hok
          · show (MuxStream.doWrite _).1.pendingReads = [] ∨ _
            rw [(doWrite_wrote _).same]
            exact hreads hs (by simp)
          · exact (hwrites hs (by simp)).imp_left doWrite_nothing
      | close =>
          refine clean_perform hsending hother ho'
            (fun _ => invokes_handleClose _) hdrained (fun hs => ?_)
            fun hs => ?_
          · -- FIN answers every read
            refine Or.inl (hdrained.reads ?_)
            show (MuxStream.doRead _).1.remoteClosed = true
            rw [doRead_same]
          · show (MuxStream.doRead _).1.pendingWrites = [] ∨ _
            rw [doRead_same]
            exact hwrites hs (by simp)
  | failWrites ec =>
      refine clean_perform hsending hother ho' (fun _ => invokes_map_post _ _)
        ⟨hends.drained.reads, Or.inl rfl⟩ (fun hs => hreads hs (by simp)) fun _ => Or.inl rfl
  | complete c =>
      have hpopped : Clean (s.modifyObj o fun obj => { obj with tasks }) [] := by
        refine ⟨hsending, fun o' obj' ho'' => ?_⟩
        by_cases heq : o' = o
        · subst heq
          rw [ho'] at ho''
          cases ho''
          exact ⟨hends.drained, fun hs => hreads hs (by simp), fun hs => hwrites hs (by simp)⟩
        · exact hother o' obj' heq ho''
      have hreported : Adds (s.modifyObj o fun obj => { obj with tasks })
          ((s.modifyObj o fun obj => { obj with tasks }).modifyObj o
            fun obj => { obj with reported := obj.reported ++ [c] }) :=
        adds_modifyObj _ fun _ => ⟨rfl, List.Subset.refl _⟩
      exact hpopped.adds (hreported.trans (adds_same rfl rfl rfl rfl rfl))

/-! ## Stop -/

theorem Ends.tell {o' : Nat} {obj' : StreamObj} (h : s.Ends (o :: os) o' obj') (hne : o' ≠ o) :
    s.Ends os o' obj' where
  drained := h.drained
  reads hs := (h.reads hs).imp_right
    (Or.imp_right fun hmem => (List.mem_cons.mp hmem).resolve_left hne)
  writes := h.writes

/-- `stop` tells a stream. -/
theorem clean_closeObj (running : Option Nat) (h : Clean s (o :: os)) :
    Clean (closeObj running s o) os := by
  have hother : ∀ (o' : Nat) (obj' : StreamObj), o' ≠ o → s.objs[o']? = some obj' →
      s.Ends os o' obj' :=
    fun o' obj' hne ho' => (h.objs o' obj' ho').tell hne
  rw [closeObj]
  split
  · rename_i hnone
    refine ⟨h.sending, fun o' obj' ho' => hother o' obj' ?_ ho'⟩
    rintro rfl
    rw [hnone] at ho'
    cases ho'
  · rename_i obj ho
    have hends := h.objs o obj ho
    split
    · have hdrained := hends.drained.handle .close
      refine clean_perform h.sending hother ho (fun _ => invokes_handleClose _) hdrained
        (fun _ => Or.inl (hdrained.reads ?_)) fun hs => ?_
      · show (MuxStream.doRead _).1.remoteClosed = true
        rw [doRead_same]
      · show (MuxStream.doRead _).1.pendingWrites = [] ∨ _
        rw [doRead_same]
        exact hends.writes hs
    · refine ⟨h.sending.congr rfl rfl rfl, fun o' obj' ho' => ?_⟩
      rcases of_getElem?_modify ho ho' with ⟨rfl, rfl⟩ | ⟨hne, hold⟩
      · refine ⟨hends.drained, fun _ => Or.inr (Or.inl ?_),
          fun hs => (hends.writes hs).imp_right ?_⟩
        · exact List.mem_append_right _ List.mem_cons_self
        · exact rescued_mono (fun hout => hout) (List.subset_append_left _ _)
      · obtain ⟨hdrained, hreads, hwrites⟩ := hother o' obj' hne hold
        exact ⟨hdrained, hreads, hwrites⟩

theorem clean_stop (h : Clean s []) (hok : s.stopEnds = true) (running : Option Nat) :
    Clean (s.stop running) [] := by
  have hall : ∀ (os : List Nat) (s : Session), Clean s os →
      Clean (os.foldl (closeObj running) s) [] := by
    intro os
    induction os with
    | nil => exact fun s hs => hs
    | cons o os ih =>
        intro s hs
        rw [List.foldl_cons]
        exact ih _ (clean_closeObj running hs)
  rw [Session.stop]
  split
  · exact h
  · rename_i hrunning
    rw [stopEnds, Bool.eq_false_iff.mpr hrunning, Bool.false_or] at hok
    refine hall _ _ ⟨h.sending.congr rfl rfl rfl, fun o obj ho => ?_⟩
    have hends := h.objs o obj ho
    have hobj := List.all_eq_true.mp hok (obj, o) (List.mem_zipIdx_iff_getElem?.mpr ho)
    rw [objEnds, Bool.and_eq_true, Bool.or_eq_true, Bool.or_eq_true, Bool.or_eq_true,
      List.isEmpty_iff, List.isEmpty_iff] at hobj
    obtain ⟨hreads, hwrites⟩ := hobj
    refine ⟨hends.drained, fun _ => ?_, fun _ => hwrites⟩
    rcases hreads with (hnil | hinformed) | htable
    · exact Or.inl hnil
    · rw [informed, Bool.or_eq_true, List.contains_iff_mem] at hinformed
      rcases hinformed with hclosed | hclose
      · exact Or.inl (hends.drained.reads hclosed)
      · exact Or.inr (Or.inl hclose)
    · obtain ⟨e, he, heq⟩ := List.any_eq_true.mp htable
      have heq : e.2 = o := of_decide_eq_true heq
      exact Or.inr (Or.inr (heq ▸ List.mem_map_of_mem he))

/-! ## The other steps -/

theorem adds_handleFrame (s : Session) (hd : Header) (body : List Byte) :
    Adds s (s.handleFrame hd body) := by
  have hrefl : Adds s s := adds_same rfl rfl rfl rfl rfl
  have hfor : Adds s (s.streamFor hd).1 := by
    rw [streamFor]
    split
    · exact hrefl
    · split
      · exact (adds_addObj s s.nextStreamId hd.streamId).trans (adds_same rfl rfl rfl rfl rfl)
      · exact hrefl
  rw [handleFrame]
  split
  · split
    · rename_i s₁ o heq
      rw [heq] at hfor
      exact hfor.trans (adds_pushTasks s₁ o _)
    · rename_i s₁ heq
      rw [heq] at hfor
      exact hfor
  · split
    · split
      · exact adds_same rfl rfl rfl rfl rfl
      · exact hrefl
    · exact adds_same rfl rfl rfl rfl rfl

/-- What calling the handler of a frame leaves as it is. -/
theorem callHandler_output (s : Session) (ec : ErrorCode) (handler : FrameHandler) :
    (s.callHandler ec handler).writeQueue = s.writeQueue ∧
      (s.callHandler ec handler).isWriting = s.isWriting ∧
      (s.callHandler ec handler).writing = s.writing ∧
      (s.callHandler ec handler).stopped = s.stopped := by
  cases handler with
  | none => exact ⟨rfl, rfl, rfl, rfl⟩
  | failPending o =>
      rw [callHandler]
      split <;> exact ⟨rfl, rfl, rfl, rfl⟩
  | invoke handler n => exact ⟨rfl, rfl, rfl, rfl⟩
  | user handler => exact ⟨rfl, rfl, rfl, rfl⟩

theorem sending_doWrite (hbusy : s.isWriting = true) (hwriting : s.writing = false) :
    Sending s.doWrite := by
  rw [Session.doWrite]
  split
  · rename_i hq
    refine ⟨fun _ => ⟨hq, hwriting⟩, fun _ => ?_⟩
    show frameHandlers s.writeQueue = []
    rw [hq]
    rfl
  · refine ⟨fun hidle => ?_, fun hnot => ?_⟩
    · have hidle : s.isWriting = false := hidle
      rw [hbusy] at hidle
      cases hidle
    · cases hnot

theorem clean_writeOk (h : Clean s []) (hs : s.stopped = false) (hw : s.writing = true)
    (hstep : s.writeDone .success = some s') : Clean s' [] := by
  rw [writeDone] at hstep
  split at hstep
  · cases hstep
  · rename_i pw rest hq
    obtain ⟨-, hbusy, hwriting, hstopped⟩ :=
      callHandler_output { s with writeQueue := rest, writing := false } .success pw.handler
    have hobjs :
        ({ s with writeQueue := rest, writing := false }.callHandler .success pw.handler).objs =
        s.objs := by
      cases pw.handler with
      | none => rfl
      | failPending o => rw [callHandler, if_pos rfl]
      | invoke handler n => rfl
      | user handler => rfl
    obtain rfl : ({ s with writeQueue := rest, writing := false }.callHandler .success
      pw.handler).doWrite = s' := Option.some.inj hstep
    refine ⟨sending_doWrite (hbusy.trans (h.sending.isWriting hw)) hwriting, fun o obj ho => ?_⟩
    have hsame := doWrite_same
      ({ s with writeQueue := rest, writing := false }.callHandler .success pw.handler)
    rw [hsame.objs, hobjs] at ho
    -- nothing has to end yet
    have hrunning := hsame.stopped.trans (hstopped.trans hs)
    refine ⟨(h.objs o obj ho).drained, fun hstop => ?_, fun hstop => ?_⟩
    · rw [hrunning] at hstop
      cases hstop
    · rw [hrunning] at hstop
      cases hstop

/-- **A write error** fails the write whose partial send it was, and no handler waits behind
it. -/
theorem clean_writeError (h : Clean s []) (hw : s.writing = true)
    (hok : s.endsClean .writeError = true) (hstep : s.writeDone .ioError = some s') :
    Clean s' [] := by
  rw [endsClean, List.isEmpty_iff] at hok
  rw [writeDone] at hstep
  split at hstep
  · cases hstep
  · rename_i pw rest hq
    obtain ⟨hqueue, hbusy, hwriting, hstopped⟩ :=
      callHandler_output { s with writeQueue := rest, writing := false } .ioError pw.handler
    obtain rfl : ({ s with writeQueue := rest, writing := false }.callHandler .ioError
      pw.handler).postStop = s' := Option.some.inj hstep
    rw [hq] at hok
    refine ⟨⟨fun hidle => ?_, fun _ => ?_⟩, fun o obj' ho' => ?_⟩
    · have hidle := hbusy.symm.trans hidle
      rw [h.sending.isWriting hw] at hidle
      cases hidle
    · -- what stays in the queue has no handlers
      show frameHandlers (callHandler _ _ _).writeQueue = []
      rw [hqueue]
      exact hok
    · -- the handler posts the failure to the object of the frame
      obtain ⟨obj, ho, hstream, htasks, hfail⟩ : ∃ obj : StreamObj, s.objs[o]? = some obj ∧
          obj'.stream = obj.stream ∧ obj.tasks ⊆ obj'.tasks ∧
          (pw.handler = .failPending o → Task.failWrites .ioError ∈ obj'.tasks) := by
        cases hhandler : pw.handler with
        | failPending o₁ =>
            rw [hhandler, callHandler, if_neg (by simp)] at ho'
            have hmod : (s.objs.modify o₁ fun obj =>
              { obj with tasks := obj.tasks ++ [.failWrites .ioError] })[o]? = some obj' := ho'
            rw [List.getElem?_modify, Option.map_eq_map, Option.map_eq_some_iff] at hmod
            obtain ⟨obj, ho, rfl⟩ := hmod
            refine ⟨obj, ho, ?_⟩
            split
            · exact ⟨rfl, List.subset_append_left _ _,
                fun _ => List.mem_append_right _ List.mem_cons_self⟩
            · rename_i hne
              refine ⟨rfl, List.Subset.refl _, fun heq => ?_⟩
              cases heq
              exact absurd rfl hne
        | none =>
            rw [hhandler] at ho'
            exact ⟨obj', ho', rfl, List.Subset.refl _, fun heq => by cases heq⟩
        | invoke handler n =>
            rw [hhandler] at ho'
            exact ⟨obj', ho', rfl, List.Subset.refl _, fun heq => by cases heq⟩
        | user handler =>
            rw [hhandler] at ho'
            exact ⟨obj', ho', rfl, List.Subset.refl _, fun heq => by cases heq⟩
      have hends := h.objs o obj ho
      refine ⟨hstream ▸ hends.drained, fun hs => ?_, fun hs => ?_⟩
      · rw [hstream]
        exact (hends.reads (hstopped.symm.trans hs)).imp_right
          (Or.imp_left fun hclose => htasks hclose)
      · rw [hstream]
        refine (hends.writes (hstopped.symm.trans hs)).imp_right fun hrescued => ?_
        rw [rescued, Bool.or_eq_true, List.contains_iff_mem] at hrescued ⊢
        -- the write that the frame was a part of is failed by the posted task
        refine Or.inl (hrescued.elim (fun hmem => htasks hmem) fun hout => hfail ?_)
        rw [outstanding, hq, Bool.and_eq_true] at hout
        exact of_decide_eq_true hout.2

theorem clean_expire (h : Clean s []) (hstep : s.step .expire = some s') : Clean s' [] := by
  simp only [step] at hstep
  split at hstep
  · rename_i hquiet
    rw [Bool.and_eq_true, Bool.and_eq_true] at hquiet
    have hwriting : s.writing = false := by simpa using hquiet.1.2
    cases Option.some.inj hstep
    refine ⟨⟨fun _ => ⟨rfl, hwriting⟩, fun _ => rfl⟩, fun o obj' ho' => ?_⟩
    rw [List.getElem?_map, Option.map_eq_some_iff] at ho'
    obtain ⟨obj, ho, rfl⟩ := ho'
    obtain ⟨⟨hclosed, hwindow⟩, hreads, hwrites⟩ := h.objs o obj ho
    refine ⟨⟨hclosed, hwindow⟩, hreads, fun hs => (hwrites hs).imp_right fun hrescued => ?_⟩
    rw [rescued, Bool.or_eq_true] at hrescued ⊢
    refine hrescued.imp_right fun hout => ?_
    rw [outstanding, hwriting] at hout
    cases hout
  · cases hstep

/-! ## Every run -/

theorem adds_refl (s : Session) : Adds s s := adds_same rfl rfl rfl rfl rfl

/-- A frame without a handler. -/
theorem adds_quietFrame (s : Session) {pw : PendingFrame} (hpw : frameHandlers [pw] = []) :
    Adds s (s.asyncSendFrame pw) := adds_asyncSendFrame fun _ => hpw

theorem adds_submit (s : Session) (handler : Option Handler) :
    Adds s (handler.elim s s.submit) := by
  cases handler with
  | none => exact adds_refl s
  | some handler => exact adds_same rfl rfl rfl rfl rfl

theorem clean_writeCall (h : Clean s []) (ho : s.objs[o]? = some obj)
    (buffers : List (List Byte)) (handler : Handler)
    (hok : s.endsClean (.asyncWrite o buffers handler) = true) :
    Clean (((s.submit handler).modifyObj o fun obj => acceptPayload obj buffers).perform o
      (obj.stream.asyncWrite buffers handler)) [] := by
  have hsub : Clean ((s.submit handler).modifyObj o fun obj => acceptPayload obj buffers) [] := by
    have hsubmit : Adds s (s.submit handler) := adds_submit s (some handler)
    refine h.adds (hsubmit.trans (adds_modifyObj _ fun obj => ?_))
    rw [acceptPayload_stream, acceptPayload_tasks]
    exact ⟨rfl, List.Subset.refl _⟩
  have ho' := getElem?_modifyObj (s := s.submit handler) ho fun obj => acceptPayload obj buffers
  rw [endsClean, ho, Bool.or_eq_true, decide_eq_true_eq] at hok
  have hclean := clean_asyncWrite hsub ho' buffers handler (by
    rw [acceptPayload_stream]
    refine hok.imp_right fun hends => ?_
    rw [writeEnds] at hends ⊢
    rw [acceptPayload_stream, rescued, acceptPayload_tasks]
    exact hends)
  rw [acceptPayload_stream] at hclean
  exact hclean

/-- **A step that leaves no handler behind.** -/
theorem clean_step {e : Event} (h : Clean s []) (hok : s.endsClean e = true)
    (hstep : s.step e = some s') : Clean s' [] := by
  cases stepped_of_step hstep with
  | openStream onStrand _ =>
      have hadded := adds_addObj s (s.nextStreamId + 2) s.nextStreamId
      refine h.adds ?_
      rw [openStream]
      split
      · exact hadded.trans (adds_quietFrame _ rfl)
      · exact hadded.trans (adds_same rfl rfl rfl rfl rfl)
  | asyncRead size handler readAll hcallee =>
      have ho := (callee_eq hcallee).1
      rw [endsClean, ho] at hok
      have hsub : Clean (s.submit handler) [] := h.adds (adds_submit s (some handler))
      refine clean_asyncRead hsub ho (fun hs => ?_) size handler readAll
      have hstopped : s.stopped = true := hs
      simpa [hstopped] using hok
  | asyncWrite buffers handler hcallee =>
      exact clean_writeCall h (callee_eq hcallee).1 buffers handler hok
  | close hcallee => exact clean_close h (callee_eq hcallee).1
  | destroy ho _ =>
      exact (clean_destroy h ho).adds (adds_modifyObj _ fun _ => ⟨rfl, List.Subset.refl _⟩)
  | sendFrame f handler _ =>
      have hbroken : (handler.elim s s.submit).broken = s.broken := by cases handler <;> rfl
      refine h.adds ((adds_submit s handler).trans (adds_asyncSendFrame fun hb => ?_))
      rw [hbroken] at hb
      rw [endsClean, hb] at hok
      cases handler with
      | none => rfl
      | some handler => cases hok
  | postFrame f handler _ =>
      exact h.adds ((adds_submit s handler).trans (adds_same rfl rfl rfl rfl rfl))
  | heartbeat _ => exact h.adds (adds_quietFrame s rfl)
  | stop running _ => exact clean_stop h hok running
  | postStop _ => exact h.adds (adds_same rfl rfl rfl rfl rfl)
  | runStream ho htasks => exact clean_runTask h ho htasks hok
  | @sendPosted pw posted hposted =>
      rw [endsClean, hposted] at hok
      have hpop : Adds s { s with posted } := adds_same rfl rfl rfl rfl rfl
      refine h.adds (hpop.trans (adds_asyncSendFrame fun hb => ?_))
      have hbroken : s.broken = true := hb
      simpa [hbroken] using hok
  | @stopPosted posted hposted =>
      rw [endsClean, hposted] at hok
      have hpop : Clean { s with posted } [] := h.adds (adds_same rfl rfl rfl rfl rfl)
      exact clean_stop hpop hok none
  | writeOk hwriting hrunning hdone => exact clean_writeOk h hrunning hwriting hdone
  | writeError hwriting hdone => exact clean_writeError h hwriting hok hdone
  | late _ _ _ => exact h.adds (adds_same rfl rfl rfl rfl rfl)
  | header _ _ _ _ _ => exact h.adds (adds_same rfl rfl rfl rfl rfl)
  | tooLong _ _ _ _ => exact h.adds (adds_same rfl rfl rfl rfl rfl)
  | headerFrame _ _ _ =>
      exact h.adds ((adds_handleFrame s _ []).trans (adds_same rfl rfl rfl rfl rfl))
  | bodyFrame _ _ _ =>
      exact h.adds ((adds_handleFrame s _ _).trans (adds_same rfl rfl rfl rfl rfl))
  | readError _ _ => exact h.adds (adds_same rfl rfl rfl rfl rfl)
  | expire _ _ _ _ => exact clean_expire h hstep

/-- No handler gets lost: it has been called, or is where something will call it. -/
structure Kept (s : Session) : Prop where
  clean : Clean s []
  accounted : ∀ x, s.accounted x = s.submitted.count x

theorem kept_step {e : Event} (h : Kept s) (hok : s.endsClean e = true)
    (hstep : s.step e = some s') : Kept s' := by
  refine ⟨clean_step h.clean hok hstep, fun x => ?_⟩
  have hx := h.accounted x
  rw [step_submitted hstep, List.count_append]
  by_cases he : e = .expire
  · -- a session that expires writes nothing, and then no handler is in its queue
    subst he
    have hdropped := (accounted_expire hstep x).1
    have hwriting : s.writing = false := by
      rw [step, Option.ite_none_right_eq_some, Bool.and_eq_true, Bool.and_eq_true] at hstep
      simpa using hstep.1.1.2
    rw [h.clean.sending.unsent hwriting, List.count_nil] at hdropped
    show _ = _ + ([] : List Handler).count x
    rw [List.count_nil]
    omega
  · have hacc := (balanced_step hstep he x).accounted
    omega

theorem Kept.completes (h : Kept s) : s.Completes := by
  rintro ⟨hstopped, hposted, htasks, hwriting, -⟩ x
  have hempty : s.objs.flatMap handlersOf = [] := by
    refine List.flatMap_eq_nil_iff.mpr fun obj hobj => ?_
    obtain ⟨o, ho⟩ := List.getElem?_of_mem hobj
    have hends := h.clean.objs o obj ho
    have hnone := htasks obj hobj
    have hreads : obj.stream.pendingReads = [] := by
      rcases hends.reads hstopped with hnil | hclose | hmem
      · exact hnil
      · rw [hnone] at hclose
        cases hclose
      · cases hmem
    have hwrites : obj.stream.pendingWrites = [] := by
      rcases hends.writes hstopped with hnil | hrescued
      · exact hnil
      · rw [rescued, hnone, outstanding, hwriting] at hrescued
        cases hrescued
    rw [handlersOf, waiting, hreads, hwrites, hnone]
    rfl
  have hacc := h.accounted x
  rw [Session.accounted, hempty, hposted, h.clean.sending.unsent hwriting] at hacc
  have hnothing : (frameHandlers (postedSends [])).count x = 0 := rfl
  rw [hnothing, List.count_nil] at hacc
  omega

end Session

end Cfrp.Mux
