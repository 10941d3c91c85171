import Cfrp.Bridge.Tunnel
import Cfrp.Mux.LinkInv

/-!
# One operation at a time

A bridge has at most one read and one write of its work stream outstanding: pending in the
stream, or finished with the handler still to run. The invariant counts them. It needs no
condition on the run.
-/

namespace Cfrp

open Lib Mux Bridge

namespace Tunnel

/-! ## Counting handlers -/

/-- The completions of reads. -/
def answers (cs : List Completion) : Nat := cs.countP fun c => decide (c.handler ≠ writeHandler)

/-- The completions of writes that failed. -/
def failures (cs : List Completion) : Nat :=
  cs.countP fun c => decide (c.handler = writeHandler ∧ c.ec ≠ .success)

def successes (cs : List Completion) : Nat :=
  cs.countP fun c => decide (c.handler = writeHandler ∧ c.ec = .success)

/-- The frames that finish a write when they have been written. -/
def finals (queue : List (Frame × Callback)) : Nat :=
  queue.countP fun | (_, .invoke _ _) => true | _ => false

@[simp] theorem answers_append (l l' : List Completion) :
    answers (l ++ l') = answers l + answers l' := List.countP_append
@[simp] theorem failures_append (l l' : List Completion) :
    failures (l ++ l') = failures l + failures l' := List.countP_append
@[simp] theorem successes_append (l l' : List Completion) :
    successes (l ++ l') = successes l + successes l' := List.countP_append
@[simp] theorem finals_append (l l' : List (Frame × Callback)) :
    finals (l ++ l') = finals l + finals l' := List.countP_append
@[simp] theorem sends_append (l l' : List Effect) : sends (l ++ l') = sends l ++ sends l' :=
  List.filterMap_append

@[simp] theorem answers_nil : answers [] = 0 := rfl
@[simp] theorem failures_nil : failures [] = 0 := rfl
@[simp] theorem successes_nil : successes [] = 0 := rfl
@[simp] theorem finals_nil : finals [] = 0 := rfl
@[simp] theorem sends_nil : sends [] = [] := rfl
@[simp] theorem sends_post (c : Completion) (es : List Effect) :
    sends (.post c :: es) = sends es := rfl
@[simp] theorem sends_send (f : Frame) (cb : Callback) (es : List Effect) :
    sends (.send f cb :: es) = (f, cb) :: sends es := rfl
@[simp] theorem sends_removeStream (es : List Effect) :
    sends (.removeStream :: es) = sends es := rfl

theorem sends_checkCleanup (m : MuxStream) : sends m.checkCleanup = [] := by
  rcases m.checkCleanup_eq with h | ⟨h, -⟩ <;> rw [h] <;> rfl

/-- What the queued frames tell the peer. -/
theorem told_sends (es : List Effect) :
    ((sends es).map Prod.fst).flatMap Frame.arrivals = told es := by
  induction es with
  | nil => rfl
  | cons e es ih =>
      cases e with
      | post c => exact ih
      | removeStream => exact ih
      | send f cb =>
          rw [sends_send, List.map_cons, List.flatMap_cons, ih, told_send]

/-! ## The two loops -/

/-- `do_write` finishes the writes it takes off the queue, all with success. -/
structure Settles (m : MuxStream) (es : List Effect) (m' : MuxStream) : Prop where
  left : ∀ pw ∈ m'.pendingWrites, pw.handler = writeHandler
  count : m.pendingWrites.length =
    m'.pendingWrites.length + successes (posts es) + finals (sends es)
  failures : failures (posts es) = 0
  answers : answers (posts es) = 0

theorem settles_refl {m : MuxStream} (h : ∀ pw ∈ m.pendingWrites, pw.handler = writeHandler) :
    Settles m [] m := ⟨h, rfl, rfl, rfl⟩

theorem Settles.trans {m m' m'' : MuxStream} {es es' : List Effect} (h : Settles m es m')
    (h' : Settles m' es' m'') : Settles m (es ++ es') m'' where
  left := h'.left
  count := by
    have hc := h.count
    have hc' := h'.count
    simp only [posts_append, sends_append, successes_append, finals_append]
    omega
  failures := by rw [posts_append, failures_append, h.failures, h'.failures]
  answers := by rw [posts_append, answers_append, h.answers, h'.answers]

theorem writeTurn_settles {m m' : MuxStream} {es : List Effect} (hs : m.session = true)
    (hw : ∀ pw ∈ m.pendingWrites, pw.handler = writeHandler) (h : m.writeTurn = some (m', es)) :
    Settles m es m' := by
  obtain ⟨pw, rest, hpw, -, hcase⟩ := MuxStream.writeTurn_cases h
  have hhandler : pw.handler = writeHandler := hw pw (by rw [hpw]; exact List.mem_cons_self)
  have hrest : ∀ pw ∈ rest, pw.handler = writeHandler :=
    fun pw hpw' => hw pw (by rw [hpw]; exact List.mem_cons_of_mem _ hpw')
  have hlen : m.pendingWrites.length = rest.length + 1 := by rw [hpw]; rfl
  obtain ⟨ec, -, hnil, rfl, rfl⟩ | ⟨n, -, -, -, ⟨-, rfl, rfl⟩ | ⟨-, rfl, rfl⟩⟩ := hcase
  · obtain ⟨rfl, -⟩ := hnil hs
    refine ⟨hrest, ?_, ?_, ?_⟩
    · rw [hlen]
      simp [successes, hhandler]
    · simp [Tunnel.failures]
    · simp [Tunnel.answers, hhandler]
  · refine ⟨fun pw' hpw' => ?_, ?_, rfl, rfl⟩
    · rcases List.mem_cons.mp hpw' with rfl | hpw'
      · exact hhandler
      · exact hrest pw' hpw'
    · rw [hlen]
      rfl
  · exact ⟨hrest, hlen, rfl, rfl⟩

theorem doWrite_settles {m : MuxStream} (hs : m.session = true)
    (hw : ∀ pw ∈ m.pendingWrites, pw.handler = writeHandler) :
    Settles m m.doWrite.2 m.doWrite.1 := by
  refine loop_induct (R := fun m es m' => m.session = true →
    (∀ pw ∈ m.pendingWrites, pw.handler = writeHandler) → Settles m es m')
    (fun m _ hw => settles_refl hw) ?_ _ m hs hw
  intro m es m' es' m'' hturn ih hs hw
  have hsettles := writeTurn_settles hs hw hturn
  have hs' : m'.session = true := by
    rw [(MuxStream.writeTurn_wrote hturn).same]
    exact hs
  exact hsettles.trans (ih hs' hsettles.left)

/-- `do_read_from_buffer` answers the reads it takes off the queue. -/
structure Replies (m : MuxStream) (es : List Effect) (m' : MuxStream) : Prop where
  left : ∀ pr ∈ m'.pendingReads, pr ∈ m.pendingReads
  count : m.pendingReads.length = m'.pendingReads.length + answers (posts es)
  each : ∀ c ∈ posts es, c.handler = readHandler
  finals : finals (sends es) = 0

theorem Replies.trans {m m' m'' : MuxStream} {es es' : List Effect} (h : Replies m es m')
    (h' : Replies m' es' m'') : Replies m (es ++ es') m'' where
  left pr hpr := h.left pr (h'.left pr hpr)
  count := by
    have hc := h.count
    have hc' := h'.count
    rw [posts_append, answers_append]
    omega
  each c hc := by
    rw [posts_append, List.mem_append] at hc
    exact hc.elim (h.each c) (h'.each c)
  finals := by rw [sends_append, finals_append, h.finals, h'.finals]

theorem readTurn_replies {m m' : MuxStream} {es : List Effect}
    (hr : ∀ pr ∈ m.pendingReads, pr.handler = readHandler) (h : m.readTurn = some (m', es)) :
    Replies m es m' := by
  obtain ⟨pr, rest, hpr, hcase⟩ := MuxStream.readTurn_cases h
  have hhandler : pr.handler = readHandler := hr pr (by rw [hpr]; exact List.mem_cons_self)
  have hleft : ∀ pr ∈ rest, pr ∈ m.pendingReads :=
    fun pr hpr' => by rw [hpr]; exact List.mem_cons_of_mem _ hpr'
  have hone : ∀ c : Completion, c.handler = readHandler → answers [c] = 1 := by
    intro c hc
    simp [answers, hc, readHandler, writeHandler]
  have hlen : m.pendingReads.length = rest.length + 1 := by rw [hpr]; rfl
  obtain ⟨-, -, rfl, rfl⟩ | ⟨r, consumed, done, -, -, rfl, ⟨-, rfl, rfl⟩ | ⟨-, rfl, rfl⟩⟩ := hcase
  · exact ⟨hleft, hlen.trans (by rw [posts_post, posts_nil, hone _ hhandler]),
      by simpa using hhandler, rfl⟩
  · refine ⟨hleft, hlen.trans ?_, by simpa using hhandler, rfl⟩
    rw [posts_post, posts_send, posts_nil, hone _ hhandler]
    rfl
  · refine ⟨hleft, hlen.trans ?_, by simpa using hhandler, rfl⟩
    rw [posts_post, posts_nil, hone _ hhandler]
    rfl

theorem doRead_replies {m : MuxStream} (hr : ∀ pr ∈ m.pendingReads, pr.handler = readHandler) :
    Replies m m.doRead.2 m.doRead.1 := by
  have hloop : Replies m (loop MuxStream.readTurn m.pendingReads.length m).2
      (loop MuxStream.readTurn m.pendingReads.length m).1 := by
    refine loop_induct (R := fun m es m' => (∀ pr ∈ m.pendingReads, pr.handler = readHandler) →
      Replies m es m') (fun m _ => ⟨fun pr hpr => hpr, rfl, by simp, rfl⟩) ?_ _ m hr
    intro m es m' es' m'' hturn ih hr
    have hreplies := readTurn_replies hr hturn
    exact hreplies.trans (ih fun pr hpr => hr pr (hreplies.left pr hpr))
  refine ⟨hloop.left, ?_, ?_, ?_⟩
  · rw [MuxStream.posts_doRead]
    exact hloop.count
  · rw [MuxStream.posts_doRead]
    exact hloop.each
  · rw [MuxStream.doRead, sends_append, sends_checkCleanup, List.append_nil]
    exact hloop.finals

/-! ## Closing -/

/-- `close` fails what is pending and sends FIN. -/
theorem posts_close {m : MuxStream} (hopen : m.localClosed = false) :
    posts m.close.2 =
      (m.pendingReads.map fun pr => { handler := pr.handler, ec := .operationAborted }) ++
        m.pendingWrites.map fun pw => { handler := pw.handler, ec := .operationAborted } := by
  have hfin : ∀ fin : List Effect, fin = (if m.session then
      [.send ⟨m.dataHeader Flags.fin 0, []⟩ .none] else []) → posts fin = [] := by
    intro fin hfin
    rw [hfin]
    split <;> rfl
  rw [MuxStream.close, if_neg (by rw [hopen]; exact Bool.false_ne_true)]
  show posts (_ ++ m.abortEffects ++ _) = _
  rw [posts_append, posts_append, hfin _ rfl, MuxStream.posts_checkCleanup, MuxStream.abortEffects,
    posts_append, posts_map_post, posts_map_post, List.nil_append, List.append_nil]

theorem finals_close (m : MuxStream) : finals (sends m.close.2) = 0 := by
  have hposts : ∀ {α : Type} (l : List α) (f : α → Completion),
      sends (l.map fun a => Effect.post (f a)) = [] := by
    intro α l f
    induction l with
    | nil => rfl
    | cons a l ih => exact ih
  rw [MuxStream.close]
  split
  · rfl
  · show finals (sends (_ ++ m.abortEffects ++ _)) = 0
    rw [sends_append, sends_append, sends_checkCleanup, MuxStream.abortEffects,
      sends_append, hposts, hposts, List.append_nil, List.append_nil]
    split <;> rfl

/-! ## The invariant -/

/-- Size, and whether it is a full one, of the read of `s2` that direction 2 waits for. -/
def Bridge.awaits (b : Bridge) : Option (Nat × Bool) :=
  match b.inward with
  | .reading => some (chunkSize, false)
  | .header => some (bridgeFraming.width, true)
  | .body buffer _ => some (buffer.length, true)
  | _ => none

namespace Side

variable {z : Zstd} {s s' : Side} {m : MuxStream} {r : MuxStream × List Effect}

/-- A write of the work stream is outstanding exactly while direction 1 waits for one. -/
structure Writing (z : Zstd) (s : Side) : Prop where
  handlers : ∀ pw ∈ s.stream.pendingWrites, pw.handler = writeHandler
  count : s.stream.pendingWrites.length + successes s.posted + finals s.queue + failures s.posted =
    if s.bridge.outward = .writing then 1 else 0
  packet : ∀ data packet, s.bridge.outward = .limited data packet →
    packet = s.packet z data ∧ data.length ≤ chunkSize

/-- A read of the work stream is outstanding exactly while direction 2 waits for one. -/
structure Reading (s : Side) : Prop where
  handlers : ∀ pr ∈ s.stream.pendingReads,
    pr.handler = readHandler ∧ s.bridge.awaits = some (pr.size, pr.readAll)
  count : s.stream.pendingReads.length + answers s.posted = if s.bridge.awaits.isSome then 1 else 0
  plain : s.bridge.inward = .reading → s.bridge.useCompression = false
  framed : s.bridge.inward ≠ .reading → s.bridge.awaits.isSome → s.bridge.useCompression = true

/-- The work stream is closed by `HandleStop` only. -/
structure Open (s : Side) : Prop where
  session : s.stream.session = true
  closed : s.stream.localClosed = true → s.bridge.stopped = true
  closing : s.closing = true → s.bridge.stopped = true
  removed : s.removed = true → s.bridge.stopped = true

structure Sequential (z : Zstd) (s : Side) : Prop where
  writing : Writing z s
  reading : Reading s
  opened : Open s

theorem successes_reads {cs : List Completion} (h : ∀ c ∈ cs, c.handler = readHandler) :
    successes cs = 0 := by
  refine List.countP_eq_zero.mpr fun c hc => ?_
  rw [h c hc]
  simp [readHandler, writeHandler]

theorem failures_reads {cs : List Completion} (h : ∀ c ∈ cs, c.handler = readHandler) :
    failures cs = 0 := by
  refine List.countP_eq_zero.mpr fun c hc => ?_
  rw [h c hc]
  simp [readHandler, writeHandler]

/-- `do_write`, from what an operation makes of the stream before it. -/
theorem Writing.doWrite (h : Writing z { s with stream := m }) (hs : m.session = true) :
    Writing z (s.perform m.doWrite) where
  handlers := (doWrite_settles hs h.handlers).left
  count := by
    have hsettles := doWrite_settles hs h.handlers
    have hcount := hsettles.count
    have hfailures := hsettles.failures
    refine Eq.trans ?_ h.count
    simp only [perform, successes_append, finals_append, failures_append]
    omega
  packet := h.packet

/-- The loop of the reads leaves the writes alone. -/
theorem Writing.read (h : Writing z { s with stream := m })
    (hwrites : r.1.pendingWrites = m.pendingWrites) (hr : Replies m r.2 r.1) :
    Writing z (s.perform r) where
  handlers := by
    show ∀ pw ∈ r.1.pendingWrites, _
    rw [hwrites]
    exact h.handlers
  count := by
    have hsuccesses := successes_reads hr.each
    have hfailures := failures_reads hr.each
    have hfinals := hr.finals
    refine Eq.trans ?_ h.count
    simp only [perform, successes_append, finals_append, failures_append, hwrites]
    omega
  packet := h.packet

theorem Reading.doWrite (h : Reading { s with stream := m }) (hs : m.session = true)
    (hw : ∀ pw ∈ m.pendingWrites, pw.handler = writeHandler) : Reading (s.perform m.doWrite) where
  handlers := by
    show ∀ pr ∈ m.doWrite.1.pendingReads, _
    rw [m.doWrite_wrote.same]
    exact h.handlers
  count := by
    have hanswers := (doWrite_settles hs hw).answers
    have hsame : m.doWrite.1.pendingReads = m.pendingReads := by rw [m.doWrite_wrote.same]
    refine Eq.trans ?_ h.count
    simp only [perform, answers_append, hanswers, hsame, Nat.add_zero]
  plain := h.plain
  framed := h.framed

theorem Reading.read (h : Reading { s with stream := m }) (hr : Replies m r.2 r.1) :
    Reading (s.perform r) where
  handlers pr hpr := h.handlers pr (hr.left pr hpr)
  count := by
    have hcount := hr.count
    refine Eq.trans ?_ h.count
    simp only [perform, answers_append]
    omega
  plain := h.plain
  framed := h.framed

theorem Open.perform (h : Open { s with stream := m }) (hsession : r.1.session = m.session)
    (hclosed : r.1.localClosed = m.localClosed)
    (hremoves : removes r.2 = true → m.localClosed = true) : Open (s.perform r) where
  session := hsession.trans h.session
  closed hc := h.closed (hclosed.symm.trans hc)
  closing := h.closing
  removed hr := (Bool.or_eq_true_iff.mp hr).elim h.removed fun hr => h.closed (hremoves hr)

/-- An operation of the work stream that ends in `do_write`. -/
theorem Sequential.doWrite (h : Sequential z { s with stream := m }) :
    Sequential z (s.perform m.doWrite) where
  writing := h.writing.doWrite h.opened.session
  reading := h.reading.doWrite h.opened.session h.writing.handlers
  opened := by
    have hwrote := m.doWrite_wrote
    refine h.opened.perform (by rw [hwrote.same]) (by rw [hwrote.same]) fun hr => ?_
    rw [hwrote.keeps] at hr
    cases hr

/-- An operation of the work stream that ends in `do_read_from_buffer`, which itself may be
followed by `check_cleanup`. -/
structure EndsInRead (m : MuxStream) (r : MuxStream × List Effect) : Prop where
  state : r.1 = m.doRead.1
  posts : posts r.2 = posts m.doRead.2
  sends : sends r.2 = sends m.doRead.2
  removes : removes r.2 = true → m.localClosed = true

theorem endsInRead_doRead (m : MuxStream) : EndsInRead m m.doRead where
  state := rfl
  posts := rfl
  sends := rfl
  removes hr := by
    have hclosed := (MuxStream.closed_of_doRead hr).1
    rwa [m.doRead_same] at hclosed

theorem endsInRead_handleClose (m : MuxStream) :
    EndsInRead { m with remoteClosed := true } m.handleClose where
  state := rfl
  posts := by
    show posts (_ ++ MuxStream.checkCleanup _) = _
    rw [posts_append, MuxStream.posts_checkCleanup, List.append_nil]
  sends := by
    show sends (_ ++ MuxStream.checkCleanup _) = _
    rw [sends_append, sends_checkCleanup, List.append_nil]
  removes hr := by
    have hr' : removes ((MuxStream.doRead { m with remoteClosed := true }).2 ++
      (MuxStream.doRead { m with remoteClosed := true }).1.checkCleanup) = true := hr
    rw [removes_append, Bool.or_eq_true_iff] at hr'
    have hclosed := hr'.elim (fun h => (MuxStream.closed_of_doRead h).1)
      fun h => (MuxStream.closed_of_checkCleanup h).1
    rw [MuxStream.doRead_same] at hclosed
    exact hclosed

theorem EndsInRead.replies (hr : EndsInRead m r)
    (hhandlers : ∀ pr ∈ m.pendingReads, pr.handler = readHandler) : Replies m r.2 r.1 := by
  have hreplies := doRead_replies hhandlers
  rw [← hr.state] at hreplies
  exact ⟨hreplies.left, by rw [hr.posts]; exact hreplies.count,
    by rw [hr.posts]; exact hreplies.each, by rw [hr.sends]; exact hreplies.finals⟩

theorem Sequential.read (h : Sequential z { s with stream := m }) (hr : EndsInRead m r) :
    Sequential z (s.perform r) := by
  have hreplies := hr.replies fun pr hpr => (h.reading.handlers pr hpr).1
  have hsame := m.doRead_same
  rw [← hr.state] at hsame
  exact ⟨h.writing.read (by rw [hsame]) hreplies, h.reading.read hreplies,
    h.opened.perform (by rw [hsame]) (by rw [hsame]) hr.removes⟩

/-! ## The steps of a bridge -/

theorem Sequential.stop (h : Sequential z s) : Sequential z s.handleStop := by
  rw [handleStop]
  split
  · exact h
  · exact ⟨⟨h.writing.handlers, h.writing.count, h.writing.packet⟩,
      ⟨h.reading.handlers, h.reading.count, h.reading.plain, h.reading.framed⟩,
      ⟨h.opened.session, fun _ => rfl, fun _ => rfl, fun _ => rfl⟩⟩

/-- No write is outstanding. -/
theorem Writing.idle (h : Writing z s) (hout : s.bridge.outward ≠ .writing) :
    s.stream.pendingWrites = [] ∧ successes s.posted = 0 ∧ finals s.queue = 0 ∧
      failures s.posted = 0 := by
  have hcount := h.count
  rw [if_neg hout] at hcount
  exact ⟨List.length_eq_zero_iff.mp (by omega), by omega, by omega, by omega⟩

/-- No read is outstanding. -/
theorem Reading.idle (h : Reading s) (hin : s.bridge.awaits = none) :
    s.stream.pendingReads = [] ∧ answers s.posted = 0 := by
  have hcount := h.count
  rw [hin] at hcount
  have hzero : s.stream.pendingReads.length + answers s.posted = 0 := hcount
  exact ⟨List.length_eq_zero_iff.mp (by omega), by omega⟩

/-- The handler of the one outstanding read is next. -/
theorem Reading.answered (h : Reading s) {c : Completion} {posted : List Completion}
    (hposted : s.posted = c :: posted) (hc : c.handler ≠ writeHandler) :
    s.stream.pendingReads = [] ∧ answers posted = 0 ∧ s.bridge.awaits.isSome = true := by
  have hcount := h.count
  rw [hposted, answers, List.countP_cons_of_pos (by simpa using hc)] at hcount
  split at hcount
  · rename_i hsome
    exact ⟨List.length_eq_zero_iff.mp (by omega), by unfold answers; omega, hsome⟩
  · omega

/-- Direction 1 moves on while no write is outstanding. -/
theorem Sequential.setOutward (h : Sequential z s) {outward : Outward}
    (hbefore : s.bridge.outward ≠ .writing) (hafter : outward ≠ .writing)
    (hpacket : ∀ data packet, outward = .limited data packet →
      packet = s.packet z data ∧ data.length ≤ chunkSize) :
    Sequential z (s.setOutward outward) where
  writing := by
    refine ⟨h.writing.handlers, ?_, hpacket⟩
    have hcount := h.writing.count
    rw [if_neg hbefore] at hcount
    exact hcount.trans (if_neg hafter).symm
  reading := ⟨h.reading.handlers, h.reading.count, h.reading.plain, h.reading.framed⟩
  opened := ⟨h.opened.session, h.opened.closed, h.opened.closing, h.opened.removed⟩

/-- Direction 2 moves on to something other than a read. -/
theorem Sequential.setInward (hw : Writing z s) (ho : Open s) (hreads : s.stream.pendingReads = [])
    (hanswers : answers s.posted = 0) {inward : Inward}
    (hafter : (s.setInward inward).bridge.awaits = none) : Sequential z (s.setInward inward) where
  writing := ⟨hw.handlers, hw.count, hw.packet⟩
  reading := by
    refine ⟨?_, ?_, ?_, ?_⟩
    · show ∀ pr ∈ s.stream.pendingReads, _
      rw [hreads]
      exact fun pr hpr => (List.not_mem_nil hpr).elim
    · show s.stream.pendingReads.length + answers s.posted = _
      rw [hreads, hanswers, hafter]
      rfl
    · intro hin
      have hreading : inward = .reading := hin
      rw [hreading] at hafter
      cases hafter
    · rw [hafter]
      intro _ hsome
      cases hsome
  opened := ⟨ho.session, ho.closed, ho.closing, ho.removed⟩

/-- The read of the work stream that a `DoRead` starts, when none is outstanding. -/
theorem asyncRead_eq (hreads : m.pendingReads = []) (n : Nat) (handler : Handler) (all : Bool) :
    m.asyncRead n handler all =
      MuxStream.doRead { m with pendingReads := m.pendingReads ++ [⟨n, handler, all⟩] } := by
  have hroom : ¬m.pendingReads.length ≥ maxPendingReads := by
    rw [hreads]
    decide
  rw [MuxStream.asyncRead, if_neg hroom]

theorem asyncWrite_eq (hwrites : m.pendingWrites = []) (buffers : List (List Byte))
    (handler : Handler) :
    m.asyncWrite buffers handler =
      MuxStream.doWrite { m with pendingWrites := m.pendingWrites ++ [⟨buffers, handler⟩] } := by
  have hroom : ¬m.pendingWrites.length ≥ maxPendingWrites := by
    rw [hwrites]
    decide
  rw [MuxStream.asyncWrite, if_neg hroom]

/-- Direction 2 asks for a read. -/
theorem Sequential.asked (hw : Writing z s) (ho : Open s) (hreads : s.stream.pendingReads = [])
    (hanswers : answers s.posted = 0) {inward : Inward} {n : Nat} {all : Bool}
    (hawaits : (s.setInward inward).bridge.awaits = some (n, all))
    (hplain : inward = .reading → s.bridge.useCompression = false)
    (hframed : inward ≠ .reading → s.bridge.useCompression = true) :
    Sequential z { s.setInward inward with
      stream := { s.stream with
        pendingReads := s.stream.pendingReads ++ [⟨n, readHandler, all⟩] } } := by
  refine ⟨⟨hw.handlers, hw.count, hw.packet⟩, ⟨?_, ?_, hplain, fun hin _ => hframed hin⟩,
    ⟨ho.session, ho.closed, ho.closing, ho.removed⟩⟩
  · intro pr hpr
    have hpr' : pr ∈ s.stream.pendingReads ++ [⟨n, readHandler, all⟩] := hpr
    rw [hreads, List.nil_append, List.mem_singleton] at hpr'
    rw [hpr']
    exact ⟨rfl, hawaits⟩
  · show (s.stream.pendingReads ++ [_]).length + answers s.posted =
      if (s.setInward inward).bridge.awaits.isSome then 1 else 0
    rw [hreads, hanswers, hawaits]
    rfl

/-- What direction 2 waits for after `DoRead(2)`. -/
def nextInward (s : Side) : Inward := if s.bridge.useCompression then .header else .reading

theorem nextInward_cases (s : Side) : s.nextInward = .header ∨ s.nextInward = .reading := by
  rw [nextInward]
  split
  · exact Or.inl rfl
  · exact Or.inr rfl

theorem Sequential.askNext (h : Sequential z s) (hin : s.bridge.awaits = none) :
    Sequential z { s.setInward s.nextInward with
      stream := { s.stream with
        pendingReads := s.stream.pendingReads ++
          [⟨s.nextRead.1, readHandler, s.nextRead.2⟩] } } := by
  obtain ⟨hreads, hanswers⟩ := h.reading.idle hin
  refine Sequential.asked h.writing h.opened hreads hanswers ?_ ?_ ?_
  · show Bridge.awaits { s.bridge with inward := s.nextInward } = some s.nextRead
    rw [nextRead, nextInward]
    split <;> rfl
  · rw [nextInward]
    intro hread
    cases huse : s.bridge.useCompression with
    | false => rfl
    | true => rw [huse] at hread; cases hread
  · rw [nextInward]
    intro hread
    cases huse : s.bridge.useCompression with
    | false => rw [huse] at hread; exact absurd rfl hread
    | true => rfl

/-- `DoRead(2)` is the question and the loop. -/
theorem doRead2_eq (hreads : s.stream.pendingReads = []) :
    s.doRead2 = (s.setInward s.nextInward).perform (MuxStream.doRead { s.stream with
      pendingReads := s.stream.pendingReads ++ [⟨s.nextRead.1, readHandler, s.nextRead.2⟩] }) := by
  rw [Side.doRead2, asyncRead_eq hreads]
  rfl

theorem Sequential.doRead2 (h : Sequential z s) (hin : s.bridge.awaits = none) :
    Sequential z s.doRead2 := by
  rw [doRead2_eq (h.reading.idle hin).1]
  exact Sequential.read (h.askNext hin) (endsInRead_doRead _)

/-- A packet is given to the work stream. -/
theorem Sequential.write (h : Sequential z s) {data packet : List Byte}
    (hout : s.bridge.outward = .limited data packet) :
    Sequential z { s.setOutward .writing with
      stream := { s.stream with
        pendingWrites := s.stream.pendingWrites ++ [⟨[packet], writeHandler⟩] } } := by
  obtain ⟨hwrites, hsuccesses, hfinals, hfailures⟩ := h.writing.idle (by rw [hout]; simp)
  refine ⟨⟨?_, ?_, fun _ _ heq => by cases heq⟩,
    ⟨h.reading.handlers, h.reading.count, h.reading.plain, h.reading.framed⟩,
    ⟨h.opened.session, h.opened.closed, h.opened.closing, h.opened.removed⟩⟩
  · intro pw hpw
    have hpw' : pw ∈ s.stream.pendingWrites ++ [⟨[packet], writeHandler⟩] := hpw
    rw [hwrites, List.nil_append, List.mem_singleton] at hpw'
    rw [hpw']
  · show (s.stream.pendingWrites ++ [_]).length + successes s.posted + finals s.queue +
      failures s.posted = 1
    rw [hwrites, hsuccesses, hfinals, hfailures]
    rfl

/-- The handler of a write runs. -/
theorem Sequential.written (h : Sequential z s) (posted : List Completion)
    (queue : List (Frame × Callback)) (hanswers : answers posted = answers s.posted)
    (hcount : successes posted + finals queue + failures posted + 1 =
      successes s.posted + finals s.queue + failures s.posted) (ec : ErrorCode) :
    Sequential z ({ s with posted, queue }.onWorkWritten ec) := by
  have hall := h.writing.count
  have hone : s.bridge.outward = .writing := by
    by_contra hne
    rw [if_neg hne] at hall
    omega
  rw [if_pos hone] at hall
  have hmoved : ∀ outward, outward ≠ .writing → (∀ data packet, outward ≠ .limited data packet) →
      Sequential z ({ s with posted, queue }.setOutward outward) := by
    intro outward hne hnot
    refine ⟨⟨h.writing.handlers, ?_, fun data packet heq => absurd heq (hnot data packet)⟩,
      ⟨h.reading.handlers, ?_, h.reading.plain, h.reading.framed⟩,
      ⟨h.opened.session, h.opened.closed, h.opened.closing, h.opened.removed⟩⟩
    · show s.stream.pendingWrites.length + successes posted + finals queue + failures posted =
        if outward = .writing then 1 else 0
      rw [if_neg hne]
      omega
    · exact Eq.trans (congrArg (s.stream.pendingReads.length + ·) hanswers) h.reading.count
  rw [onWorkWritten]
  split
  · exact hmoved .reading (by simp) (by simp)
  · exact (hmoved .stopped (by simp) (by simp)).stop

/-- What the handler of a read can do: stop, pass on what it has read, or start the read of a
body. -/
theorem onWorkRead_cases {c : Completion} {recycled : List Byte}
    (h : s.onWorkRead z c recycled = some s') :
    (∃ header2,
      s' = ({ s with bridge := { s.bridge with header2 } }.setInward .stopped).handleStop) ∨
    c.ec = .success ∧
      ((∃ data, s' = s.setInward (.limited data) ∧
          (s.bridge.inward = .reading ∧ data = c.bytes ∨
            ∃ buffer compressed, s.bridge.inward = .body buffer compressed ∧
              bridgeFraming.contents z compressed (fill buffer c.bytes) = some data)) ∨
        ∃ compressed, s.bridge.inward = .header ∧
          bridgeFraming.splitHeader (fill s.bridge.header2 c.bytes) =
            (recycled.length, compressed) ∧
          recycled.length ≤ bridgeFraming.maxLength ∧
          s' = ({ s with
              bridge := { s.bridge with header2 := fill s.bridge.header2 c.bytes } }.setInward
                (.body recycled compressed)).perform
            (s.stream.asyncRead recycled.length readHandler true)) := by
  unfold onWorkRead at h
  split at h
  · cases h
    exact Or.inl ⟨s.bridge.header2, rfl⟩
  · rename_i hec
    have hok : c.ec = .success := not_not.mp hec
    split at h
    · rename_i hin
      cases h
      exact Or.inr ⟨hok, Or.inl ⟨_, rfl, Or.inl ⟨hin, rfl⟩⟩⟩
    · rename_i hin
      simp only at h
      split at h
      · -- the header announces more than a body may have
        cases h
        exact Or.inl ⟨_, rfl⟩
      · rename_i hle
        obtain ⟨hlength, hs⟩ := Option.ite_none_right_eq_some.mp h
        cases hs
        rw [← hlength] at hle ⊢
        exact Or.inr ⟨hok, Or.inr ⟨_, hin, Prod.ext hlength.symm rfl, Nat.le_of_not_lt hle, rfl⟩⟩
    · rename_i buffer compressed hin
      split at h
      · -- the body cannot be decompressed
        cases h
        exact Or.inl ⟨s.bridge.header2, rfl⟩
      · rename_i data hdata
        cases h
        exact Or.inr ⟨hok, Or.inl ⟨data, rfl, Or.inr ⟨buffer, compressed, hin, hdata⟩⟩⟩
    · cases h

/-- The handler of a read is taken off the queue. -/
theorem Writing.popRead (h : Writing z s) {c : Completion} {posted : List Completion}
    (hposted : s.posted = c :: posted) (hc : c.handler ≠ writeHandler) :
    Writing z { s with posted } ∧ failures posted = failures s.posted := by
  refine ⟨⟨h.handlers, ?_, h.packet⟩, ?_⟩
  · have hcount := h.count
    rwa [hposted, successes, failures, List.countP_cons_of_neg (by simp [hc]),
      List.countP_cons_of_neg (by simp [hc])] at hcount
  · rw [hposted, failures, failures, List.countP_cons_of_neg (by simp [hc])]

/-- The handler of a write is taken off the queue. -/
theorem successes_pop {c : Completion} {posted : List Completion} (hposted : s.posted = c :: posted)
    (hc : c.handler = writeHandler) :
    successes posted + finals s.queue + failures posted + 1 =
      successes s.posted + finals s.queue + failures s.posted := by
  rw [hposted, successes, successes, failures, failures, List.countP_cons, List.countP_cons]
  by_cases hec : c.ec = .success
  · simp [hc, hec]
    omega
  · simp [hc, hec]
    omega

/-- The header is kept, and the read of the body is asked for. -/
theorem Sequential.askBody (h : Sequential z s) {c : Completion} {posted : List Completion}
    (hposted : s.posted = c :: posted) (hc : c.handler ≠ writeHandler)
    (hin : s.bridge.inward = .header) (header2 buffer : List Byte) (compressed : Bool) :
    Sequential z { ({ s with posted, bridge := { s.bridge with header2 } } : Side).setInward
        (.body buffer compressed) with
      stream := { s.stream with
        pendingReads := s.stream.pendingReads ++ [⟨buffer.length, readHandler, true⟩] } } := by
  obtain ⟨hreads, hanswers, -⟩ := h.reading.answered hposted hc
  obtain ⟨hwriting, -⟩ := h.writing.popRead hposted hc
  refine Sequential.asked (s := { s with posted, bridge := { s.bridge with header2 } })
    ⟨hwriting.handlers, hwriting.count, hwriting.packet⟩
    ⟨h.opened.session, h.opened.closed, h.opened.closing, h.opened.removed⟩ hreads hanswers rfl
    (by simp) fun _ => ?_
  exact h.reading.framed (by rw [hin]; simp) (by rw [Bridge.awaits, hin]; rfl)

/-- The handler of a read runs. -/
theorem Sequential.onWorkRead (h : Sequential z s) {c : Completion} {posted : List Completion}
    (hposted : s.posted = c :: posted) (hc : c.handler ≠ writeHandler) {recycled : List Byte}
    (hstep : { s with posted }.onWorkRead z c recycled = some s') : Sequential z s' := by
  obtain ⟨hreads, hanswers, -⟩ := h.reading.answered hposted hc
  obtain ⟨hwriting, -⟩ := h.writing.popRead hposted hc
  have hopened : Open { s with posted } :=
    ⟨h.opened.session, h.opened.closed, h.opened.closing, h.opened.removed⟩
  obtain ⟨header2, rfl⟩ | ⟨-, ⟨data, rfl, -⟩ | ⟨compressed, hin, -, -, rfl⟩⟩ :=
    onWorkRead_cases hstep
  · refine Sequential.stop (Sequential.setInward (s := { s with
      posted, bridge := { s.bridge with header2 } }) ?_ ?_ hreads hanswers rfl)
    · exact ⟨hwriting.handlers, hwriting.count, hwriting.packet⟩
    · exact ⟨hopened.session, hopened.closed, hopened.closing, hopened.removed⟩
  · exact Sequential.setInward hwriting hopened hreads hanswers rfl
  · rw [asyncRead_eq hreads]
    exact Sequential.read (h.askBody hposted hc hin _ recycled compressed) (endsInRead_doRead _)

/-- `close` runs. -/
theorem Sequential.close (h : Sequential z s) (hstopped : s.bridge.stopped = true) :
    Sequential z ({ s with closing := false }.perform s.stream.close) := by
  have hfinals := finals_close s.stream
  cases hclosed : s.stream.localClosed with
  | true =>
      have hnil : s.stream.close = (s.stream, []) := by
        rw [MuxStream.close, hclosed]
        rfl
      rw [hnil]
      refine ⟨⟨h.writing.handlers, ?_, h.writing.packet⟩,
        ⟨h.reading.handlers, ?_, h.reading.plain, h.reading.framed⟩,
        ⟨h.opened.session, h.opened.closed, fun _ => hstopped, fun _ => hstopped⟩⟩
      · refine Eq.trans ?_ h.writing.count
        simp [Side.perform]
      · refine Eq.trans ?_ h.reading.count
        simp [Side.perform]
  | false =>
      have hposts := posts_close hclosed
      obtain ⟨hstream, -, -⟩ := Link.close_eq hclosed h.opened.session
      -- what was pending fails, so it is still counted
      have hcounts : successes (posts s.stream.close.2) = 0 ∧
          failures (posts s.stream.close.2) = s.stream.pendingWrites.length ∧
          answers (posts s.stream.close.2) = s.stream.pendingReads.length := by
        have hwrites := h.writing.handlers
        have hreads := fun pr hpr => (h.reading.handlers pr hpr).1
        refine ⟨?_, ?_, ?_⟩
        · rw [hposts, successes, List.countP_eq_zero]
          intro c hc
          rcases List.mem_append.mp hc with hc | hc <;>
            obtain ⟨_, -, rfl⟩ := List.mem_map.mp hc <;> simp
        · rw [hposts, failures_append, failures_reads (by simpa using hreads), failures,
            List.countP_map, Nat.zero_add]
          exact List.countP_eq_length.mpr fun pw hpw => by simpa using hwrites pw hpw
        · rw [hposts, answers_append, answers, answers, List.countP_map, List.countP_map]
          refine (congrArg₂ (· + ·) (List.countP_eq_length.mpr fun pr hpr => ?_)
            (List.countP_eq_zero.mpr fun pw hpw => ?_)).trans (Nat.add_zero _)
          · simp [hreads pr hpr, readHandler, writeHandler]
          · simp [hwrites pw hpw]
      obtain ⟨hsuccesses, hfailures, hanswers⟩ := hcounts
      refine ⟨⟨?_, ?_, h.writing.packet⟩, ⟨?_, ?_, h.reading.plain, h.reading.framed⟩,
        ⟨?_, fun _ => hstopped, fun _ => hstopped, fun _ => hstopped⟩⟩
      · show ∀ pw ∈ s.stream.close.1.pendingWrites, _
        rw [hstream]
        exact fun pw hpw => (List.not_mem_nil hpw).elim
      · refine Eq.trans ?_ h.writing.count
        simp only [Side.perform, hstream, successes_append, finals_append, failures_append,
          List.length_nil]
        omega
      · show ∀ pr ∈ s.stream.close.1.pendingReads, _
        rw [hstream]
        exact fun pr hpr => (List.not_mem_nil hpr).elim
      · refine Eq.trans ?_ h.reading.count
        simp only [Side.perform, hstream, answers_append, List.length_nil]
        omega
      · show s.stream.close.1.session = true
        rw [hstream]
        exact h.opened.session

/-- What arrives changes neither what is pending nor whether the stream is closed. -/
theorem Sequential.arrive (h : Sequential z s) (inbox : List Arrival)
    (hreads : m.pendingReads = s.stream.pendingReads)
    (hwrites : m.pendingWrites = s.stream.pendingWrites)
    (hsession : m.session = s.stream.session) (hclosed : m.localClosed = s.stream.localClosed) :
    Sequential z { s with inbox, stream := m } := by
  refine ⟨⟨?_, ?_, h.writing.packet⟩, ⟨?_, ?_, h.reading.plain, h.reading.framed⟩,
    ⟨hsession.trans h.opened.session, fun hc => h.opened.closed (hclosed.symm.trans hc),
      h.opened.closing, h.opened.removed⟩⟩
  · show ∀ pw ∈ m.pendingWrites, _
    rw [hwrites]
    exact h.writing.handlers
  · show m.pendingWrites.length + _ + _ + _ = _
    rw [hwrites]
    exact h.writing.count
  · show ∀ pr ∈ m.pendingReads, _
    rw [hreads]
    exact h.reading.handlers
  · show m.pendingReads.length + _ = _
    rw [hreads]
    exact h.reading.count

/-- The stream as the loop of a `handle_*` finds it. -/
def arrived (m : MuxStream) : Arrival → MuxStream
  | .data block => { m with readQueue := m.readQueue ++ [block] }
  | .windowUpdate delta =>
      { m with remoteWindowSize := min (m.remoteWindowSize + delta.toNat) maxMessageSize }
  | .close => { m with remoteClosed := true }

theorem Sequential.arrived (h : Sequential z s) (a : Arrival) (inbox : List Arrival) :
    Sequential z { s with inbox, stream := arrived s.stream a } := by
  cases a with
  | data block => exact h.arrive inbox rfl rfl rfl rfl
  | windowUpdate delta => exact h.arrive inbox rfl rfl rfl rfl
  | close => exact h.arrive inbox rfl rfl rfl rfl

/-- `handle_*` runs. -/
theorem Sequential.handle (h : Sequential z s) (a : Arrival) (inbox : List Arrival) :
    Sequential z ({ s with inbox }.perform (s.stream.handle a)) := by
  have harrived := h.arrived a inbox
  cases a with
  | data block => exact Sequential.read harrived (endsInRead_doRead _)
  | windowUpdate delta => exact Sequential.doWrite harrived
  | close => exact Sequential.read harrived (endsInRead_handleClose s.stream)

/-- A queued frame keeps its handler. -/
theorem finals_set {queue : List (Frame × Callback)} {i : Nat} {f f' : Frame} {cb : Callback}
    (h : queue[i]? = some (f, cb)) : finals (queue.set i (f', cb)) = finals queue := by
  induction queue generalizing i with
  | nil => rfl
  | cons q queue ih =>
      cases i with
      | zero =>
          cases Option.some.inj h
          rw [List.set_cons_zero, finals, finals, List.countP_cons, List.countP_cons]
          cases cb <;> rfl
      | succ i =>
          rw [List.set_cons_succ, finals, finals, List.countP_cons, List.countP_cons]
          exact congrArg (· + _) (ih h)

/-- **One step of a bridge.** -/
theorem Sequential.step (h : Sequential z s) {e : Event} (hstep : s.step z e = some s') :
    Sequential z s' := by
  cases stepped_of_step hstep with
  | @rawRead data hout _ hlen =>
      -- the history of what was read is of no concern here
      have hmoved : Sequential z (s.setOutward (.limited data (s.packet z data))) :=
        h.setOutward (by rw [hout]; simp) (by simp) fun data' packet heq => by
          cases heq
          exact ⟨rfl, hlen⟩
      exact ⟨⟨hmoved.writing.handlers, hmoved.writing.count, hmoved.writing.packet⟩,
        ⟨h.reading.handlers, h.reading.count, h.reading.plain, h.reading.framed⟩,
        ⟨h.opened.session, h.opened.closed, h.opened.closing, h.opened.removed⟩⟩
  | rawFail hout => exact (h.setOutward (by rw [hout]; simp) (by simp) (by simp)).stop
  | limited1 hout =>
      rw [asyncWrite_eq (h.writing.idle (by rw [hout]; simp)).1]
      exact Sequential.doWrite (h.write hout)
  | limited2 hin =>
      obtain ⟨hreads, hanswers⟩ := h.reading.idle (by rw [Bridge.awaits, hin])
      exact Sequential.setInward h.writing h.opened hreads hanswers rfl
  | @rawWrite left n hin _ _ =>
      obtain ⟨hreads, hanswers⟩ := h.reading.idle (by rw [Bridge.awaits, hin])
      have hmoved : Sequential z (s.setInward (.writing (left.drop n))) :=
        Sequential.setInward h.writing h.opened hreads hanswers rfl
      exact ⟨⟨h.writing.handlers, h.writing.count, h.writing.packet⟩,
        ⟨hmoved.reading.handlers, hmoved.reading.count, hmoved.reading.plain,
          hmoved.reading.framed⟩,
        ⟨h.opened.session, h.opened.closed, h.opened.closing, h.opened.removed⟩⟩
  | rawWritten hin => exact h.doRead2 (by rw [Bridge.awaits, hin])
  | rawWriteFail hin =>
      obtain ⟨hreads, hanswers⟩ := h.reading.idle (by rw [Bridge.awaits, hin])
      exact (Sequential.setInward h.writing h.opened hreads hanswers rfl).stop
  | workClose hclosing => exact h.close (h.opened.closing hclosing)
  | @workWritten c posted _ hposted hc =>
      refine h.written posted s.queue ?_ ?_ c.ec
      · rw [hposted, answers, answers, List.countP_cons_of_neg (by simp [hc])]
      · exact successes_pop hposted hc
  | workRead hposted hc hread => exact h.onWorkRead hposted hc hread
  | workHandle _ => exact h.handle _ _
  | @reuse i bytes f cb hi _ _ =>
      refine ⟨⟨h.writing.handlers, ?_, h.writing.packet⟩,
        ⟨h.reading.handlers, h.reading.count, h.reading.plain, h.reading.framed⟩,
        ⟨h.opened.session, h.opened.closed, h.opened.closing, h.opened.removed⟩⟩
      show _ + _ + finals (s.queue.set i _) + _ = _
      rw [finals_set hi]
      exact h.writing.count

/-- The transport has written a frame. -/
theorem Sequential.transmit (h : Sequential z s) {f : Frame} (hstep : s.transmit = some (f, s')) :
    Sequential z s' := by
  rw [Side.transmit] at hstep
  split at hstep
  · cases hstep
  · rename_i g cb queue hqueue
    have hfinals : finals s.queue = finals [(g, cb)] + finals queue := by
      rw [hqueue, ← finals_append]
      rfl
    have hkept : finals [(g, cb)] = 0 → Sequential z { s with queue } := by
      intro hzero
      refine ⟨⟨h.writing.handlers, ?_, h.writing.packet⟩,
        ⟨h.reading.handlers, h.reading.count, h.reading.plain, h.reading.framed⟩,
        ⟨h.opened.session, h.opened.closed, h.opened.closing, h.opened.removed⟩⟩
      rw [hzero, Nat.zero_add] at hfinals
      show _ + _ + finals queue + _ = _
      rw [← hfinals]
      exact h.writing.count
    cases cb with
    | none =>
        cases hstep
        exact hkept rfl
    | failPending =>
        cases hstep
        exact hkept rfl
    | invoke handler n =>
        cases hstep
        refine h.written s.posted queue rfl ?_ .success
        have hone : finals [(f, Callback.invoke handler n)] = 1 := rfl
        omega

end Side

theorem sequential_base (z : Zstd) (useCompression : Bool) (level : Bool → Int) (id : UInt32)
    (window consumed : Bool → Nat) (x : Bool) :
    (base useCompression level id window consumed x).Sequential z := by
  refine ⟨⟨fun pw hpw => (List.not_mem_nil hpw).elim, rfl, by simp [base]⟩,
    ⟨fun pr hpr => (List.not_mem_nil hpr).elim, rfl, by simp [base], by simp [base, Bridge.awaits]⟩,
    ⟨rfl, by simp [base], by simp [base], by simp [base]⟩⟩

theorem sequential_start (z : Zstd) (useCompression : Bool) (level : Bool → Int) (id : UInt32)
    (window consumed : Bool → Nat) (x : Bool) :
    ((start useCompression level id window consumed).sides x).Sequential z :=
  (sequential_base z useCompression level id window consumed x).doRead2 rfl

end Tunnel

end Cfrp
