import Cfrp.Mux.Stream

/-!
# What the operations of a stream do

One lemma for each loop of `MuxStream`, in terms of byte sequences. `Wrote` says where
the bytes of the pending writes and the window went during `do_write`; `ReadFrom` says
where the buffered bytes and the credit went during `do_read_from_buffer`. Both are
closed under composition, so each follows from one turn of its loop.
-/

namespace Cfrp.Mux

open Lib

/-! ## Effects -/

/-- The completions posted to the stream's strand. -/
def posts (es : List Effect) : List Completion :=
  es.filterMap fun | .post c => some c | _ => none

/-- The frames given to the session. -/
def frames (es : List Effect) : List Frame :=
  es.filterMap fun | .send f _ => some f | _ => none

/-- What the frames tell the peer's stream. -/
def told (es : List Effect) : List Arrival := (frames es).flatMap Frame.arrivals

/-- Whether the stream is taken out of the session's table. -/
def removes (es : List Effect) : Bool := es.any fun | .removeStream => true | _ => false

/-- The bytes that completions report. -/
def delivered (cs : List Completion) : List Byte := cs.flatMap Completion.bytes

@[simp] theorem posts_append (l l' : List Effect) : posts (l ++ l') = posts l ++ posts l' :=
  List.filterMap_append
@[simp] theorem frames_append (l l' : List Effect) : frames (l ++ l') = frames l ++ frames l' :=
  List.filterMap_append
@[simp] theorem told_append (l l' : List Effect) : told (l ++ l') = told l ++ told l' := by
  simp [told]
@[simp] theorem removes_append (l l' : List Effect) :
    removes (l ++ l') = (removes l || removes l') := List.any_append
@[simp] theorem delivered_append (l l' : List Completion) :
    delivered (l ++ l') = delivered l ++ delivered l' := List.flatMap_append

@[simp] theorem posts_nil : posts [] = [] := rfl
@[simp] theorem posts_post (c : Completion) (es : List Effect) :
    posts (.post c :: es) = c :: posts es := rfl
@[simp] theorem posts_send (f : Frame) (cb : Callback) (es : List Effect) :
    posts (.send f cb :: es) = posts es := rfl
@[simp] theorem posts_removeStream (es : List Effect) :
    posts (.removeStream :: es) = posts es := rfl

@[simp] theorem frames_nil : frames [] = [] := rfl
@[simp] theorem frames_post (c : Completion) (es : List Effect) :
    frames (.post c :: es) = frames es := rfl
@[simp] theorem frames_send (f : Frame) (cb : Callback) (es : List Effect) :
    frames (.send f cb :: es) = f :: frames es := rfl
@[simp] theorem frames_removeStream (es : List Effect) :
    frames (.removeStream :: es) = frames es := rfl

@[simp] theorem told_nil : told [] = [] := rfl
@[simp] theorem told_post (c : Completion) (es : List Effect) :
    told (.post c :: es) = told es := rfl
@[simp] theorem told_send (f : Frame) (cb : Callback) (es : List Effect) :
    told (.send f cb :: es) = f.arrivals ++ told es := rfl
@[simp] theorem told_removeStream (es : List Effect) : told (.removeStream :: es) = told es := rfl

@[simp] theorem removes_nil : removes [] = false := rfl
@[simp] theorem removes_post (c : Completion) (es : List Effect) :
    removes (.post c :: es) = removes es := rfl
@[simp] theorem removes_send (f : Frame) (cb : Callback) (es : List Effect) :
    removes (.send f cb :: es) = removes es := rfl
@[simp] theorem removes_removeStream (es : List Effect) :
    removes (.removeStream :: es) = true := rfl

theorem posts_map_post {α : Type} (l : List α) (f : α → Completion) :
    posts (l.map fun a => Effect.post (f a)) = l.map f := by
  induction l with
  | nil => rfl
  | cons a l ih => exact congrArg (List.cons (f a)) ih

theorem frames_map_post {α : Type} (l : List α) (f : α → Completion) :
    frames (l.map fun a => .post (f a)) = [] := by
  induction l with
  | nil => rfl
  | cons a l ih => exact ih

theorem removes_map_post {α : Type} (l : List α) (f : α → Completion) :
    removes (l.map fun a => .post (f a)) = false := by
  induction l with
  | nil => rfl
  | cons a l ih => exact ih

@[simp] theorem delivered_nil : delivered [] = [] := rfl
@[simp] theorem delivered_cons (c : Completion) (cs : List Completion) :
    delivered (c :: cs) = c.bytes ++ delivered cs := rfl

/-- After an end of file nothing more is reported. -/
def EofLast (cs : List Completion) : Prop :=
  ∀ l c r, cs = l ++ c :: r → c.ec = .eof → delivered r = []

theorem eofLast_nil : EofLast [] := by
  intro l c r h
  exact absurd h (by simp)

theorem eofLast_singleton (c : Completion) : EofLast [c] := by
  intro l d r h _
  cases l with
  | nil => rw [← (List.cons.inj h).2, delivered_nil]
  | cons a l => exact absurd (List.cons.inj h).2 (by simp)

theorem EofLast.append {cs cs' : List Completion} (h : EofLast cs) (h' : EofLast cs')
    (hnone : ∀ c ∈ cs, c.ec = .eof → delivered cs' = []) : EofLast (cs ++ cs') := by
  intro l c r heq hc
  rcases List.append_eq_append_iff.mp heq with ⟨m, hl, hr⟩ | ⟨m, hcs, hr⟩
  · exact h' m c r hr hc
  · cases m with
    | nil => exact h' [] c r hr.symm hc
    | cons d m =>
        obtain ⟨rfl, rfl⟩ := List.cons.inj hr
        show delivered (m ++ cs') = []
        rw [delivered_append, h l c m hcs hc, hnone c (by rw [hcs]; simp) hc]
        rfl

/-! ## Buffers -/

theorem totalLength_eq (bufs : List (List Byte)) : totalLength bufs = bufs.flatten.length :=
  List.length_flatten.symm

theorem flatten_sliceBuffers (bufs : List (List Byte)) (n : Nat) :
    (sliceBuffers bufs n).flatten = bufs.flatten.take n := by
  induction bufs generalizing n with
  | nil => simp [sliceBuffers]
  | cons b bufs ih =>
      rw [sliceBuffers]
      split
      · rename_i h0
        rw [h0]
        simp
      · rw [List.flatten_cons, List.flatten_cons, ih, List.take_append]
        congr 1
        · rw [List.take_eq_take_iff]
          omega
        · congr 1
          omega

theorem flatten_skipBuffers (bufs : List (List Byte)) (n : Nat) :
    (skipBuffers bufs n).flatten = bufs.flatten.drop n := by
  induction bufs generalizing n with
  | nil => simp [skipBuffers]
  | cons b bufs ih =>
      rw [skipBuffers, List.flatten_cons, List.drop_append]
      split
      · rename_i hge
        rw [ih, List.drop_eq_nil_of_le hge, List.nil_append]
      · rename_i hlt
        rw [List.flatten_cons, ih, List.drop_zero, Nat.sub_eq_zero_of_le (by omega), List.drop_zero]

/-! ## Writing -/

/-- The frames a stream sends: payload that fits the receiver's limit, FIN, credit. -/
inductive StreamFrame (id : UInt32) : Frame → Prop where
  | data (bufs : List (List Byte)) :
      0 < bufs.flatten.length → bufs.flatten.length ≤ maxMessageSize →
      StreamFrame id ⟨⟨0, FrameType.data, 0, id, UInt32.ofNat bufs.flatten.length⟩, bufs⟩
  | fin : StreamFrame id ⟨⟨0, FrameType.data, Flags.fin, id, 0⟩, []⟩
  | windowUpdate (n : Nat) :
      StreamFrame id ⟨⟨0, FrameType.windowUpdate, 0, id, UInt32.ofNat n⟩, []⟩

theorem arrivals_data {h : Header} {bufs : List (List Byte)} (ht : h.type = FrameType.data)
    (hf : h.flags = 0) (hlen : 0 < bufs.flatten.length) :
    Frame.arrivals ⟨h, bufs⟩ = [.data bufs.flatten] := by
  rw [Frame.arrivals, arrivals, Frame.body, if_pos ht, if_pos hlen, hf]
  rfl

theorem arrivals_fin {h : Header} (ht : h.type = FrameType.data) (hf : h.flags = Flags.fin) :
    Frame.arrivals ⟨h, []⟩ = [.close] := by
  have hfin : Flags.fin &&& Flags.fin ≠ 0 := by decide
  rw [Frame.arrivals, arrivals, Frame.body, if_pos ht, hf, if_pos hfin]
  rfl

namespace MuxStream

/-- The bytes accepted by `async_write` and not yet put into a frame. -/
def pendingBytes (s : MuxStream) : List Byte := s.pendingWrites.flatMap fun pw => pw.buffers.flatten

/-- The bytes received and not yet reported. -/
def unread (s : MuxStream) : List Byte := s.readQueue.flatten.drop s.readQueueOffset

/-- What happened between two states of a stream that only wrote. -/
structure Wrote (s : MuxStream) (es : List Effect) (s' : MuxStream) : Prop where
  same : s' = { s with remoteWindowSize := s'.remoteWindowSize, pendingWrites := s'.pendingWrites }
  window : s'.remoteWindowSize + (dataOf (told es)).length = s.remoteWindowSize
  bytes : s.session = true → s.pendingBytes = dataOf (told es) ++ s'.pendingBytes
  onlyData : ∀ a ∈ told es, ∃ b, a = .data b ∧ 0 < b.length
  frames : ∀ f ∈ frames es, StreamFrame s.id f
  posts : ∀ c ∈ posts es, c.bytes = [] ∧ c.ec ≠ .eof
  keeps : removes es = false

theorem Wrote.refl (s : MuxStream) : Wrote s [] s where
  same := rfl
  window := rfl
  bytes _ := rfl
  onlyData := by simp
  frames := by simp
  posts := by simp
  keeps := rfl

theorem Wrote.trans {s s' s'' : MuxStream} {es es' : List Effect} (h : Wrote s es s')
    (h' : Wrote s' es' s'') : Wrote s (es ++ es') s'' where
  same := by rw [h'.same, h.same]
  window := by
    have hw := h.window
    have hw' := h'.window
    rw [told_append, dataOf_append, List.length_append]
    omega
  bytes hs := by
    have hs' : s'.session = true := by rw [h.same]; exact hs
    rw [h.bytes hs, h'.bytes hs', told_append, dataOf_append, List.append_assoc]
  onlyData a ha := by
    rw [told_append, List.mem_append] at ha
    exact ha.elim (h.onlyData a) (h'.onlyData a)
  frames f hf := by
    rw [frames_append, List.mem_append] at hf
    have hid : s'.id = s.id := by rw [h.same]
    exact hf.elim (h.frames f) fun hf => hid ▸ h'.frames f hf
  posts c hc := by
    rw [posts_append, List.mem_append] at hc
    exact hc.elim (h.posts c) (h'.posts c)
  keeps := by rw [removes_append, h.keeps, h'.keeps]; rfl

/-- A write that leaves the queue without a frame being sent for it. -/
theorem wrote_dropped {s : MuxStream} {pw : PendingWrite} {rest : List PendingWrite}
    (hpw : s.pendingWrites = pw :: rest) (c : Completion) (hb : c.bytes = []) (hc : c.ec ≠ .eof)
    (h : s.session = true → pw.buffers.flatten = []) :
    Wrote s [.post c] { s with pendingWrites := rest } where
  same := rfl
  window := rfl
  bytes hs := by rw [pendingBytes, hpw, List.flatMap_cons, h hs]; rfl
  onlyData := by simp
  frames := by simp
  posts := by simp [hb, hc]
  keeps := rfl

/-- The frame that carries the first `n` bytes of a write. -/
def dataFrame (s : MuxStream) (pw : PendingWrite) (n : Nat) : Frame :=
  ⟨s.dataHeader 0 n, sliceBuffers pw.buffers n⟩

/-- A frame with the first `n` bytes of the front write, and what it leaves of that write. -/
theorem wrote_sent {s : MuxStream} {pw : PendingWrite} {rest left : List PendingWrite} {n : Nat}
    {cb : Callback} (hpw : s.pendingWrites = pw :: rest) (hpos : 0 < n)
    (hlen : n ≤ pw.buffers.flatten.length) (hwin : n ≤ s.remoteWindowSize)
    (hmax : n ≤ maxMessageSize) (hleft : (left.flatMap fun pw => pw.buffers.flatten) =
      pw.buffers.flatten.drop n ++ rest.flatMap fun pw => pw.buffers.flatten) :
    Wrote s [.send (s.dataFrame pw n) cb]
      { s with remoteWindowSize := s.remoteWindowSize - n, pendingWrites := left } := by
  have hslice : (sliceBuffers pw.buffers n).flatten.length = n := by
    rw [flatten_sliceBuffers, List.length_take]
    omega
  have htold : told [.send (s.dataFrame pw n) cb] = [.data (pw.buffers.flatten.take n)] := by
    have harr : (s.dataFrame pw n).arrivals =
        [.data (sliceBuffers pw.buffers n).flatten] := arrivals_data rfl rfl (by omega)
    rw [told_send, harr, flatten_sliceBuffers]
    rfl
  refine ⟨rfl, ?_, ?_, ?_, ?_, by simp, rfl⟩
  · show s.remoteWindowSize - n + _ = _
    rw [htold, dataOf_data, dataOf_nil, List.append_nil, List.length_take]
    omega
  · intro _
    show s.pendingBytes = _ ++ left.flatMap _
    rw [pendingBytes, hpw, htold, dataOf_data, dataOf_nil, List.append_nil, hleft,
      List.flatMap_cons, ← List.append_assoc, List.take_append_drop]
  · intro a ha
    rw [htold, List.mem_singleton] at ha
    exact ⟨_, ha, by rw [List.length_take]; omega⟩
  · intro f hf
    rw [frames_send, frames_nil, List.mem_singleton] at hf
    have hframe : StreamFrame s.id _ :=
      StreamFrame.data (sliceBuffers pw.buffers n) (by omega) (by omega)
    rw [hslice] at hframe
    exact hf ▸ hframe

/-- What a turn of `do_write` can do. -/
theorem writeTurn_cases {s s' : MuxStream} {es : List Effect} (h : s.writeTurn = some (s', es)) :
    ∃ pw rest, s.pendingWrites = pw :: rest ∧ 0 < s.remoteWindowSize ∧
      ((∃ ec, ec ≠ .eof ∧ (s.session = true → ec = .success ∧ pw.buffers.flatten = []) ∧
          s' = { s with pendingWrites := rest } ∧ es = [.post { handler := pw.handler, ec }]) ∨
        ∃ n, 0 < n ∧ n ≤ s.remoteWindowSize ∧ n ≤ maxMessageSize ∧
          ((n < pw.buffers.flatten.length ∧
              s' = { s with
                remoteWindowSize := s.remoteWindowSize - n
                pendingWrites := { pw with buffers := skipBuffers pw.buffers n } :: rest } ∧
              es = [.send (s.dataFrame pw n) .failPending]) ∨
            (n = pw.buffers.flatten.length ∧
              s' = { s with remoteWindowSize := s.remoteWindowSize - n, pendingWrites := rest } ∧
              es = [.send (s.dataFrame pw n) (.invoke pw.handler n)]))) := by
  rw [writeTurn] at h
  split at h
  · cases h
  · rename_i pw rest hpw
    split at h
    · cases h
    · rename_i hwin
      refine ⟨pw, rest, hpw, by omega, ?_⟩
      simp only [totalLength_eq] at h
      split at h
      · rename_i hzero
        cases h
        exact Or.inl ⟨.success, by simp, fun _ => ⟨rfl, List.length_eq_zero_iff.mp hzero⟩, rfl, rfl⟩
      · rename_i hne
        split at h
        · rename_i hdead
          cases h
          exact Or.inl ⟨.connectionReset, by simp, fun hs => by simp [hs] at hdead, rfl, rfl⟩
        · have hmax : 0 < maxMessageSize := by decide
          refine Or.inr ⟨min (min pw.buffers.flatten.length s.remoteWindowSize) maxMessageSize,
            by omega, by omega, by omega, ?_⟩
          split at h
          · rename_i hpart
            cases h
            exact Or.inl ⟨hpart, rfl, rfl⟩
          · rename_i hfull
            cases h
            exact Or.inr ⟨by omega, rfl, rfl⟩

/-- Frames are sent only while there is a session. -/
theorem session_of_send {s s' : MuxStream} {f : Frame} {cb : Callback}
    (h : s.writeTurn = some (s', [.send f cb])) : s.session = true := by
  rw [writeTurn] at h
  split at h
  · cases h
  · split at h
    · cases h
    · split at h
      · cases h
      · simp only at h
        split at h
        · cases h
        · rename_i hsession
          simpa using hsession

theorem writeTurn_wrote {s s' : MuxStream} {es : List Effect}
    (h : s.writeTurn = some (s', es)) : Wrote s es s' := by
  obtain ⟨pw, rest, hpw, -, ⟨ec, hec, hnil, rfl, rfl⟩ | ⟨n, hpos, hwin, hmax, hcase⟩⟩ :=
    writeTurn_cases h
  · exact wrote_dropped hpw _ rfl hec fun hs => (hnil hs).2
  · rcases hcase with ⟨hlt, rfl, rfl⟩ | ⟨hn, rfl, rfl⟩
    · -- a partial send keeps the rest of the front write
      refine wrote_sent hpw hpos (by omega) hwin hmax ?_
      rw [List.flatMap_cons, flatten_skipBuffers]
    · refine wrote_sent hpw hpos (by omega) hwin hmax ?_
      rw [List.drop_eq_nil_of_le (by omega), List.nil_append]

theorem doWrite_wrote (s : MuxStream) : Wrote s s.doWrite.2 s.doWrite.1 :=
  loop_induct (R := Wrote) Wrote.refl (fun _ _ _ _ _ h h' => (writeTurn_wrote h).trans h') _ s

theorem writeTurn_measure {s s' : MuxStream} {es : List Effect}
    (h : s.writeTurn = some (s', es)) : s'.writeMeasure < s.writeMeasure := by
  obtain ⟨pw, rest, hpw, -, hcase⟩ := writeTurn_cases h
  have hlen : s.pendingWrites.length = rest.length + 1 := by rw [hpw]; rfl
  obtain ⟨-, -, -, rfl, -⟩ | ⟨n, hpos, hwin, -, ⟨-, rfl, -⟩ | ⟨-, rfl, -⟩⟩ := hcase <;>
    simp only [writeMeasure, List.length_cons] <;> omega

/-- `do_write` stops only when nothing is left to send or the window is used up. -/
theorem doWrite_done (s : MuxStream) :
    s.doWrite.1.pendingWrites = [] ∨ s.doWrite.1.remoteWindowSize = 0 := by
  have hdone : s.doWrite.1.writeTurn = none :=
    loop_done writeMeasure (fun _ _ _ => writeTurn_measure) _ s (Nat.le_refl _)
  rw [writeTurn] at hdone
  split at hdone
  · rename_i hnil
    exact Or.inl hnil
  · split at hdone
    · rename_i hzero
      exact Or.inr hzero
    · simp only at hdone
      repeat' split at hdone
      all_goals cases hdone

/-- A new stream is given more than its window: it sends the window and keeps the rest. -/
theorem writeTurn_first {id : UInt32} {body rest : List Byte} {handler : Handler}
    (hbody : body.length = initialWindowSize) (hrest : 0 < rest.length) :
    writeTurn { id := id, pendingWrites := [⟨[body, rest], handler⟩] } =
      some ({ id := id, remoteWindowSize := 0, pendingWrites := [⟨[rest], handler⟩] },
        [.send ⟨dataHeader { id := id } 0 initialWindowSize, [body]⟩ .failPending]) := by
  have hW : initialWindowSize = 131072 := rfl
  have hM : maxMessageSize = 1048576 := rfl
  have hslice : sliceBuffers [body, rest] initialWindowSize = [body] := by
    rw [sliceBuffers, if_neg (by omega), hbody, Nat.min_self, ← hbody]
    simp [sliceBuffers]
  have hskip : skipBuffers [body, rest] initialWindowSize = [rest] := by
    rw [skipBuffers, if_pos (by omega), hbody, Nat.sub_self, skipBuffers, if_neg (by omega)]
    simp [skipBuffers]
  have htotal : totalLength [body, rest] = initialWindowSize + rest.length := by
    simp [totalLength, hbody]
  have hmin : min (min (initialWindowSize + rest.length) initialWindowSize) maxMessageSize =
      initialWindowSize := by omega
  rw [writeTurn]
  simp only [htotal, hmin, hslice, hskip]
  rw [if_neg (by omega), if_neg (by omega), if_neg (by decide), if_pos (by omega), Nat.sub_self]
  rfl

theorem asyncWrite_first {id : UInt32} {body rest : List Byte} {handler : Handler}
    (hbody : body.length = initialWindowSize) (hrest : 0 < rest.length) :
    asyncWrite { id := id } [body, rest] handler =
      ({ id := id, remoteWindowSize := 0, pendingWrites := [⟨[rest], handler⟩] },
        [.send ⟨dataHeader { id := id } 0 initialWindowSize, [body]⟩ .failPending]) :=
  loop_once (Nat.zero_lt_succ _) (writeTurn_first hbody hrest) rfl

/-! ## Reading -/

/-- The offset lies inside the front block and no block is empty. `close` breaks this:
it drops the blocks and keeps the offset. -/
def QueueOk : List (List Byte) → Nat → Prop
  | [], offset => offset = 0
  | block :: q, offset => offset < block.length ∧ ∀ b ∈ q, 0 < b.length

theorem queueOk_zero {q : List (List Byte)} (h : ∀ b ∈ q, 0 < b.length) : QueueOk q 0 := by
  cases q with
  | nil => rfl
  | cons b q => exact ⟨h b List.mem_cons_self, fun c hc => h c (List.mem_cons_of_mem _ hc)⟩

theorem QueueOk.concat {q : List (List Byte)} {offset : Nat} {b : List Byte}
    (h : QueueOk q offset) (hb : 0 < b.length) : QueueOk (q ++ [b]) offset := by
  cases q with
  | nil =>
      have h0 : offset = 0 := h
      exact ⟨by omega, by simp⟩
  | cons c q =>
      refine ⟨h.1, fun d hd => ?_⟩
      rcases List.mem_append.mp hd with hd | hd
      · exact h.2 d hd
      · rw [List.mem_singleton.mp hd]
        exact hb

theorem QueueOk.le {q : List (List Byte)} {offset : Nat} (h : QueueOk q offset) :
    offset ≤ q.flatten.length := by
  cases q with
  | nil => exact Nat.le_of_eq h
  | cons b q =>
      have hlt := h.1
      rw [List.flatten_cons, List.length_append]
      omega

/-- All that the copying loop needs: it never steps over the end of the front block. -/
def WithinFront : List (List Byte) → Nat → Prop
  | [], offset => offset = 0
  | block :: _, offset => offset ≤ block.length

theorem withinFront_zero (q : List (List Byte)) : WithinFront q 0 := by
  cases q with
  | nil => rfl
  | cons b q => exact Nat.zero_le _

/-- A block that arrives stands behind the front one. -/
theorem WithinFront.concat {q : List (List Byte)} {offset : Nat} (h : WithinFront q offset)
    (block : List Byte) : WithinFront (q ++ [block]) offset := by
  cases q with
  | nil =>
      have hzero : offset = 0 := h
      rw [hzero]
      exact withinFront_zero _
  | cons front q => exact h

theorem QueueOk.withinFront {q : List (List Byte)} {offset : Nat} (h : QueueOk q offset) :
    WithinFront q offset := by
  cases q with
  | nil => exact h
  | cons b q => exact Nat.le_of_lt h.1

/-- The copying loop takes the first unread bytes, as many as fit. -/
theorem copyOut_bytes (q : List (List Byte)) (offset n : Nat) (h : WithinFront q offset) :
    (copyOut q offset n).1.1 = (q.flatten.drop offset).take n ∧
    (copyOut q offset n).1.2 = ((q.flatten.drop offset).take n).length ∧
    (copyOut q offset n).2.1.flatten.drop (copyOut q offset n).2.2 =
      (q.flatten.drop offset).drop n ∧
    WithinFront (copyOut q offset n).2.1 (copyOut q offset n).2.2 := by
  -- only the front block has an offset, so the induction goes on with offset 0
  induction q generalizing offset n with
  | nil =>
      have h0 : offset = 0 := h
      simp [copyOut, WithinFront, h0]
  | cons b q ih =>
      have hle : offset ≤ b.length := h
      have hflat : (b :: q).flatten.drop offset = b.drop offset ++ q.flatten := by
        rw [List.flatten_cons, List.drop_append_of_le_length hle]
      have hsub : sizeSub b.length offset = b.length - offset := if_pos hle
      have hlen : (b.drop offset).length = b.length - offset := List.length_drop
      rw [copyOut]
      by_cases hn : n = 0
      · rw [if_pos hn, hn]
        exact ⟨rfl, rfl, rfl, h⟩
      rw [if_neg hn, hflat, hsub]
      by_cases hall : offset + min n (b.length - offset) = b.length
      · -- the block is used up
        have hmin : min n (b.length - offset) = b.length - offset := by omega
        obtain ⟨hbytes, hcount, hrest, hwithin⟩ :=
          ih 0 (n - (b.length - offset)) (withinFront_zero q)
        rw [List.drop_zero] at hbytes hcount hrest
        have htake : (b.drop offset).take n = b.drop offset :=
          List.take_of_length_le (by omega)
        have hdrop : (b.drop offset).drop n = [] := List.drop_eq_nil_of_le (by omega)
        rw [hmin] at hall
        simp only [hmin, if_pos hall]
        rw [List.take_append, List.drop_append, htake, hdrop, hlen, List.nil_append]
        refine ⟨?_, ?_, hrest, hwithin⟩
        · rw [hbytes, List.take_of_length_le (Nat.le_of_eq hlen)]
        · rw [hcount, List.length_append, hlen]
      · -- the buffer is full before the block ends
        have hmin : min n (b.length - offset) = n := by omega
        rw [hmin] at hall
        simp only [hmin, if_neg hall]
        rw [List.take_append_of_le_length (by omega), List.drop_append_of_le_length (by omega),
          List.drop_drop]
        refine ⟨rfl, ?_, ?_, ?_⟩
        · rw [List.length_take, hlen]
          omega
        · rw [List.flatten_cons, List.drop_append_of_le_length (by omega)]
        · show offset + n ≤ b.length
          omega

/-- It pops a block as soon as the block is used up. -/
theorem copyOut_queueOk (q : List (List Byte)) (offset n : Nat) (h : QueueOk q offset) :
    QueueOk (copyOut q offset n).2.1 (copyOut q offset n).2.2 := by
  induction q generalizing offset n with
  | nil => exact h
  | cons b q ih =>
      have hlt := h.1
      have hsub : sizeSub b.length offset = b.length - offset := if_pos (by omega)
      rw [copyOut]
      by_cases hn : n = 0
      · rw [if_pos hn]
        exact h
      rw [if_neg hn, hsub]
      by_cases hall : offset + min n (b.length - offset) = b.length
      · simp only [if_pos hall]
        exact ih 0 _ (queueOk_zero h.2)
      · simp only [if_neg hall]
        refine ⟨?_, h.2⟩
        show offset + min n (b.length - offset) < b.length
        omega

theorem copyOut_spec (q : List (List Byte)) (offset n : Nat) (h : QueueOk q offset) :
    (copyOut q offset n).1.1 = (q.flatten.drop offset).take n ∧
    (copyOut q offset n).1.2 = ((q.flatten.drop offset).take n).length ∧
    (copyOut q offset n).2.1.flatten.drop (copyOut q offset n).2.2 =
      (q.flatten.drop offset).drop n ∧
    QueueOk (copyOut q offset n).2.1 (copyOut q offset n).2.2 := by
  obtain ⟨hbytes, hcount, hrest, -⟩ := copyOut_bytes q offset n h.withinFront
  exact ⟨hbytes, hcount, hrest, copyOut_queueOk q offset n h⟩

/-- `available` counts the unread bytes. -/
theorem available_eq {s : MuxStream} (h : QueueOk s.readQueue s.readQueueOffset) :
    s.available = s.unread.length := by
  have hle := h.le
  rw [available, sizeSub, totalLength_eq, if_pos hle, unread, List.length_drop]

/-- What reading leaves alone, whatever state the stream is in. -/
structure ReadOnly (s : MuxStream) (es : List Effect) (s' : MuxStream) : Prop where
  same : s' = { s with
    readQueue := s'.readQueue, readQueueOffset := s'.readQueueOffset
    pendingReads := s'.pendingReads, consumedSinceLastUpdate := s'.consumedSinceLastUpdate }
  onlyCredit : ∀ a ∈ told es, ∃ d, a = .windowUpdate d
  frames : ∀ f ∈ frames es, StreamFrame s.id f
  keeps : removes es = false

theorem ReadOnly.refl (s : MuxStream) : ReadOnly s [] s where
  same := rfl
  onlyCredit := by simp
  frames := by simp
  keeps := rfl

theorem ReadOnly.trans {s s' s'' : MuxStream} {es es' : List Effect} (h : ReadOnly s es s')
    (h' : ReadOnly s' es' s'') : ReadOnly s (es ++ es') s'' where
  same := by rw [h'.same, h.same]
  onlyCredit a ha := by
    rw [told_append, List.mem_append] at ha
    exact ha.elim (h.onlyCredit a) (h'.onlyCredit a)
  frames f hf := by
    rw [frames_append, List.mem_append] at hf
    have hid : s'.id = s.id := by rw [h.same]
    exact hf.elim (h.frames f) fun hf => hid ▸ h'.frames f hf
  keeps := by rw [removes_append, h.keeps, h'.keeps]; rfl

/-- Where the bytes and the credit went between two states of a stream that only read. -/
structure ReadFrom (s : MuxStream) (es : List Effect) (s' : MuxStream) : Prop where
  status : s'.remoteClosed = s.remoteClosed ∧ s'.session = s.session
  queueOk : QueueOk s'.readQueue s'.readQueueOffset
  bytes : s.unread = delivered (posts es) ++ s'.unread
  credit : s.consumedSinceLastUpdate + (delivered (posts es)).length =
    s'.consumedSinceLastUpdate + creditOf (told es)
  small : s'.consumedSinceLastUpdate < windowUpdateThreshold
  eof : ∀ c ∈ posts es, c.ec = .eof → s.remoteClosed = true ∧ s'.unread = []
  eofLast : EofLast (posts es)

/-- What a read needs: a good offset, a live session, and not so many bytes that the
`uint32_t` of a window update could not count them. -/
structure CanRead (s : MuxStream) : Prop where
  queueOk : QueueOk s.readQueue s.readQueueOffset
  session : s.session = true
  small : s.consumedSinceLastUpdate < windowUpdateThreshold
  fits : s.consumedSinceLastUpdate + s.unread.length < 4294967296

theorem ReadFrom.refl {s : MuxStream} (h : CanRead s) : ReadFrom s [] s where
  status := ⟨rfl, rfl⟩
  queueOk := h.queueOk
  bytes := rfl
  credit := rfl
  small := h.small
  eof := by simp
  eofLast := eofLast_nil

theorem ReadFrom.canRead {s s' : MuxStream} {es : List Effect} (h : ReadFrom s es s')
    (hs : CanRead s) : CanRead s' where
  queueOk := h.queueOk
  session := by rw [h.status.2]; exact hs.session
  small := h.small
  fits := by
    have hfits := hs.fits
    have hcredit := h.credit
    rw [h.bytes, List.length_append] at hfits
    omega

theorem ReadFrom.trans {s s' s'' : MuxStream} {es es' : List Effect} (h : ReadFrom s es s')
    (h' : ReadFrom s' es' s'') : ReadFrom s (es ++ es') s'' where
  status := ⟨h'.status.1.trans h.status.1, h'.status.2.trans h.status.2⟩
  queueOk := h'.queueOk
  bytes := by rw [h.bytes, h'.bytes, posts_append, delivered_append, List.append_assoc]
  credit := by
    have hc := h.credit
    have hc' := h'.credit
    rw [posts_append, delivered_append, List.length_append, told_append, creditOf_append]
    omega
  small := h'.small
  eof c hc hec := by
    rw [posts_append, List.mem_append] at hc
    have hb := h'.bytes
    rcases hc with hc | hc
    · obtain ⟨hclosed, hnil⟩ := h.eof c hc hec
      rw [hnil] at hb
      exact ⟨hclosed, (List.append_eq_nil_iff.mp hb.symm).2⟩
    · obtain ⟨hclosed, hnil⟩ := h'.eof c hc hec
      exact ⟨h.status.1 ▸ hclosed, hnil⟩
  eofLast := by
    rw [posts_append]
    refine h.eofLast.append h'.eofLast fun c hc hec => ?_
    have hb := h'.bytes
    rw [(h.eof c hc hec).2] at hb
    exact (List.append_eq_nil_iff.mp hb.symm).1

/-- The state after the front read took `r` from the queue. -/
def afterRead (s : MuxStream) (rest : List PendingRead)
    (r : (List Byte × Nat) × (List (List Byte) × Nat)) (consumed : Nat) : MuxStream :=
  { s with
    readQueue := r.2.1, readQueueOffset := r.2.2, pendingReads := rest
    consumedSinceLastUpdate := consumed }

/-- What a turn of `do_read_from_buffer` can do. -/
theorem readTurn_cases {s s' : MuxStream} {es : List Effect} (h : s.readTurn = some (s', es)) :
    ∃ pr rest, s.pendingReads = pr :: rest ∧
      ((s.readQueue = [] ∧ s.remoteClosed = true ∧ s' = { s with pendingReads := rest } ∧
          es = [.post { handler := pr.handler, ec := .eof }]) ∨
        ∃ r consumed done, r = copyOut s.readQueue s.readQueueOffset pr.size ∧
          consumed = s.consumedSinceLastUpdate + r.1.2 ∧
          done = Effect.post { handler := pr.handler, count := r.1.2, bytes := r.1.1 } ∧
          ((windowUpdateThreshold ≤ consumed ∧ s' = s.afterRead rest r 0 ∧
              es = [done, .send ⟨s.windowUpdateHeader consumed, []⟩ .none]) ∨
            ((consumed < windowUpdateThreshold ∨ s.session = false) ∧
              s' = s.afterRead rest r consumed ∧ es = [done]))) := by
  rw [readTurn] at h
  split at h
  · cases h
  · rename_i pr rest hpr
    refine ⟨pr, rest, hpr, ?_⟩
    split at h
    · rename_i hempty
      split at h
      · rename_i hclosed
        cases h
        exact Or.inl ⟨List.isEmpty_iff.mp hempty, hclosed, rfl, rfl⟩
      · cases h
    · split at h
      · cases h
      · refine Or.inr ⟨_, _, _, rfl, rfl, rfl, ?_⟩
        simp only at h
        split at h
        · rename_i hge
          cases h
          exact Or.inl ⟨hge.1, rfl, rfl⟩
        · rename_i hlt
          cases h
          rw [not_and_or, Nat.not_le, Bool.not_eq_true] at hlt
          exact Or.inr ⟨hlt, rfl, rfl⟩

theorem readTurn_readOnly {s s' : MuxStream} {es : List Effect}
    (h : s.readTurn = some (s', es)) : ReadOnly s es s' := by
  obtain ⟨pr, rest, -, ⟨-, -, rfl, rfl⟩ | ⟨r, consumed, done, -, -, rfl, hcase⟩⟩ := readTurn_cases h
  · exact ⟨rfl, by simp, by simp, rfl⟩
  · rcases hcase with ⟨-, rfl, rfl⟩ | ⟨-, rfl, rfl⟩
    · refine ⟨rfl, fun a ha => ?_, fun f hf => ?_, rfl⟩
      · have ha' : a ∈ [Arrival.windowUpdate (UInt32.ofNat consumed)] := ha
        exact ⟨_, List.mem_singleton.mp ha'⟩
      · rw [frames_post, frames_send, frames_nil, List.mem_singleton] at hf
        exact hf ▸ StreamFrame.windowUpdate _
    · exact ⟨rfl, by simp, by simp, rfl⟩

theorem readTurn_readFrom {s s' : MuxStream} {es : List Effect} (hs : CanRead s)
    (h : s.readTurn = some (s', es)) : ReadFrom s es s' := by
  obtain ⟨pr, rest, -, ⟨hnil, hclosed, rfl, rfl⟩ | ⟨r, consumed, done, hr, hcons, rfl, hcase⟩⟩ :=
    readTurn_cases h
  · -- end of file: nothing is copied
    have hunread : s.unread = [] := by rw [unread, hnil]; simp
    exact ⟨⟨rfl, rfl⟩, hs.queueOk, rfl, rfl, hs.small, fun _ _ _ => ⟨hclosed, hunread⟩,
      eofLast_singleton _⟩
  · obtain ⟨hbytes, hcount, hrest, hok⟩ :=
      copyOut_spec s.readQueue s.readQueueOffset pr.size hs.queueOk
    rw [← hr] at hbytes hcount hrest hok
    have hlen : r.1.1.length = r.1.2 := by rw [hbytes, hcount]
    have hunread : s.unread = r.1.1 ++ r.2.1.flatten.drop r.2.2 := by
      rw [hbytes, hrest]
      exact (List.take_append_drop _ _).symm
    have hfits := hs.fits
    rw [hunread, List.length_append, hlen] at hfits
    rcases hcase with ⟨hge, rfl, rfl⟩ | ⟨hlt, rfl, rfl⟩
    · -- the consumed bytes are credited, and the counter has room for them
      have htold : told [.post ⟨pr.handler, .success, r.1.2, r.1.1⟩,
          .send ⟨s.windowUpdateHeader consumed, []⟩ .none] =
          [.windowUpdate (UInt32.ofNat consumed)] := rfl
      refine ⟨⟨rfl, rfl⟩, hok, ?_, ?_, by show 0 < windowUpdateThreshold; decide, by simp,
        eofLast_singleton _⟩
      · simpa [unread, afterRead] using hunread
      · show s.consumedSinceLastUpdate + (delivered [_]).length = 0 + _
        rw [htold, creditOf_windowUpdate, creditOf_nil, UInt32.toNat_ofNat',
          Nat.mod_eq_of_lt (by omega), delivered_cons, delivered_nil, List.append_nil, hlen]
        omega
    · have hsmall : consumed < windowUpdateThreshold := by
        rcases hlt with hlt | hdead
        · exact hlt
        · rw [hs.session] at hdead
          cases hdead
      refine ⟨⟨rfl, rfl⟩, hok, ?_, ?_, hsmall, by simp, eofLast_singleton _⟩
      · simpa [unread, afterRead] using hunread
      · show s.consumedSinceLastUpdate + (delivered [_]).length = consumed + 0
        rw [delivered_cons, delivered_nil, List.append_nil, hlen]
        omega

/-- The loop of `do_read_from_buffer` only reads. -/
theorem readLoop_readOnly (s : MuxStream) :
    ReadOnly s (loop readTurn s.pendingReads.length s).2
      (loop readTurn s.pendingReads.length s).1 :=
  loop_induct (R := ReadOnly) ReadOnly.refl
    (fun _ _ _ _ _ h h' => (readTurn_readOnly h).trans h') _ s

/-- Where the loop of `do_read_from_buffer` takes bytes and credit. -/
theorem readLoop_readFrom {s : MuxStream} (hs : CanRead s) :
    ReadFrom s (loop readTurn s.pendingReads.length s).2
      (loop readTurn s.pendingReads.length s).1 :=
  loop_induct (R := fun s es s' => CanRead s → ReadFrom s es s') (fun _ h => ReadFrom.refl h)
    (fun _ _ _ _ _ h h' hs => (readTurn_readFrom hs h).trans
      (h' ((readTurn_readFrom hs h).canRead hs))) _ s hs

theorem readTurn_measure {s s' : MuxStream} {es : List Effect}
    (h : s.readTurn = some (s', es)) : s'.pendingReads.length < s.pendingReads.length := by
  obtain ⟨pr, rest, hpr, hcase⟩ := readTurn_cases h
  have hrest : s'.pendingReads = rest := by
    obtain ⟨-, -, rfl, -⟩ | ⟨_, _, _, -, -, -, ⟨-, rfl, -⟩ | ⟨-, rfl, -⟩⟩ := hcase <;> rfl
  rw [hpr, hrest, List.length_cons]
  omega

/-- A read that is still pending: the stream is open, and there is nothing to report
yet. -/
def Blocked (s : MuxStream) : Prop :=
  ∀ pr rest, s.pendingReads = pr :: rest → s.remoteClosed = false ∧
    (s.readQueue = [] ∨ pr.readAll = true ∧ s.available < pr.size)

/-- `do_read_from_buffer` stops only when every pending read has to wait. -/
theorem doRead_blocked (s : MuxStream) : Blocked s.doRead.1 := by
  have hdone : s.doRead.1.readTurn = none :=
    loop_done (fun s => s.pendingReads.length) (fun _ _ _ => readTurn_measure) _ s (Nat.le_refl _)
  intro pr rest hpr
  rw [readTurn, hpr] at hdone
  simp only at hdone
  split at hdone
  · rename_i hempty
    split at hdone
    · cases hdone
    · rename_i hopen
      exact ⟨by simpa using hopen, Or.inl (List.isEmpty_iff.mp hempty)⟩
  · split at hdone
    · rename_i hwait
      simp only [Bool.and_eq_true, Bool.not_eq_true', decide_eq_true_eq] at hwait
      exact ⟨hwait.2, Or.inr hwait.1⟩
    · split at hdone <;> cases hdone

/-! ## Aborting -/

theorem frames_abortEffects (s : MuxStream) : frames s.abortEffects = [] := by
  rw [abortEffects, frames_append, frames_map_post, frames_map_post]
  rfl

theorem told_abortEffects (s : MuxStream) : told s.abortEffects = [] := by
  rw [told, frames_abortEffects]
  rfl

theorem removes_abortEffects (s : MuxStream) : removes s.abortEffects = false := by
  rw [abortEffects, removes_append, removes_map_post, removes_map_post]
  rfl

/-! ## The table of the session -/

theorem checkCleanup_eq (s : MuxStream) : s.checkCleanup = [] ∨
    s.checkCleanup = [.removeStream] ∧ s.localClosed = true ∧ s.remoteClosed = true ∧
      s.readQueue = [] := by
  rw [checkCleanup]
  split
  · rename_i h
    simp only [Bool.and_eq_true, List.isEmpty_iff] at h
    exact Or.inr ⟨rfl, h.1.1.1, h.1.1.2, h.1.2⟩
  · exact Or.inl rfl

@[simp] theorem posts_checkCleanup (s : MuxStream) : posts s.checkCleanup = [] := by
  rcases s.checkCleanup_eq with h | ⟨h, -⟩ <;> rw [h] <;> rfl
@[simp] theorem frames_checkCleanup (s : MuxStream) : frames s.checkCleanup = [] := by
  rcases s.checkCleanup_eq with h | ⟨h, -⟩ <;> rw [h] <;> rfl
@[simp] theorem told_checkCleanup (s : MuxStream) : told s.checkCleanup = [] := by
  rw [told, frames_checkCleanup]
  rfl

/-- Only a stream that both sides closed leaves the table. -/
theorem closed_of_checkCleanup {s : MuxStream} (h : removes s.checkCleanup = true) :
    s.localClosed = true ∧ s.remoteClosed = true := by
  rcases s.checkCleanup_eq with hnil | ⟨-, hl, hr, -⟩
  · rw [hnil] at h
    cases h
  · exact ⟨hl, hr⟩

theorem closed_of_doRead {s : MuxStream} (h : removes s.doRead.2 = true) :
    s.doRead.1.localClosed = true ∧ s.doRead.1.remoteClosed = true := by
  rw [doRead, removes_append, (readLoop_readOnly s).keeps, Bool.false_or] at h
  exact closed_of_checkCleanup h

theorem doRead_same (s : MuxStream) :
    s.doRead.1 = { s with
      readQueue := s.doRead.1.readQueue
      readQueueOffset := s.doRead.1.readQueueOffset, pendingReads := s.doRead.1.pendingReads
      consumedSinceLastUpdate := s.doRead.1.consumedSinceLastUpdate } :=
  (readLoop_readOnly s).same

theorem doRead_onlyCredit (s : MuxStream) : ∀ a ∈ told s.doRead.2, ∃ d, a = .windowUpdate d := by
  rw [doRead, told_append, told_checkCleanup, List.append_nil]
  exact (readLoop_readOnly s).onlyCredit

theorem doRead_frames (s : MuxStream) : ∀ f ∈ frames s.doRead.2, StreamFrame s.id f := by
  rw [doRead, frames_append, frames_checkCleanup, List.append_nil]
  exact (readLoop_readOnly s).frames

theorem posts_doRead (s : MuxStream) :
    posts s.doRead.2 = posts (loop readTurn s.pendingReads.length s).2 := by
  rw [doRead, posts_append, posts_checkCleanup, List.append_nil]

theorem told_doRead (s : MuxStream) :
    told s.doRead.2 = told (loop readTurn s.pendingReads.length s).2 := by
  rw [doRead, told_append, told_checkCleanup, List.append_nil]

/-- Where `do_read_from_buffer` takes bytes and credit. -/
theorem doRead_readFrom {s : MuxStream} (hs : CanRead s) : ReadFrom s s.doRead.2 s.doRead.1 := by
  have h := readLoop_readFrom hs
  exact ⟨h.status, h.queueOk, by rw [posts_doRead]; exact h.bytes,
    by rw [posts_doRead, told_doRead]; exact h.credit, h.small,
    by rw [posts_doRead]; exact h.eof, by rw [posts_doRead]; exact h.eofLast⟩

end MuxStream

end Cfrp.Mux
