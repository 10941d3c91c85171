import Cfrp.Mux.StreamSpec

/-!
# How do_write cuts the pending writes into frames

The frames of one `do_write` carry a prefix of the pending bytes, each of them between one
byte and `MAX_MESSAGE_SIZE`, and the loop ends with an empty queue or an empty window. That
is so while the session exists. Once `session_` has expired there is nobody to give a frame
to, and every write with bytes in it is completed with `connection_reset` instead.
-/

namespace Cfrp.Mux

open Lib MuxStream

/-- The payload of the frames given to the session. -/
def payload (es : List Effect) : List Byte := (frames es).flatMap Frame.body

@[simp] theorem payload_nil : payload [] = [] := rfl
@[simp] theorem payload_append (l l' : List Effect) :
    payload (l ++ l') = payload l ++ payload l' := by
  rw [payload, frames_append, List.flatMap_append]
  rfl
@[simp] theorem payload_post (c : Completion) (es : List Effect) :
    payload (.post c :: es) = payload es := rfl
@[simp] theorem payload_send (f : Frame) (cb : Callback) (es : List Effect) :
    payload (.send f cb :: es) = f.body ++ payload es := rfl

/-- A data frame that announces what it carries. -/
structure GoodSlice (id : UInt32) (f : Frame) : Prop where
  data : f.header.type = FrameType.data
  flags : f.header.flags = 0
  stream : f.header.streamId = id
  length : f.header.length.toNat = f.body.length
  nonempty : 0 < f.body.length
  fits : f.body.length ≤ maxMessageSize

namespace MuxStream

variable {s s' : MuxStream} {es : List Effect}

/-- What one run of `do_write` is to do. -/
structure Sliced (s : MuxStream) (es : List Effect) (s' : MuxStream) : Prop where
  /-- The loop is over. -/
  ends : s'.writeTurn = none
  frames : ∀ f ∈ frames es, GoodSlice s.id f
  bytes : payload es ++ s'.pendingBytes = s.pendingBytes
  window : s'.remoteWindowSize + (payload es).length = s.remoteWindowSize
  drained : s'.pendingWrites = [] ∨ s'.remoteWindowSize = 0

/-- How a write is completed that no frame is sent for. -/
def dropped (pw : PendingWrite) : Completion :=
  { handler := pw.handler, ec := if pw.buffers.flatten = [] then .success else .connectionReset }

/-- What it does without a session: an open window lets every write out of the queue. -/
structure Dropped (s : MuxStream) (es : List Effect) (s' : MuxStream) : Prop where
  ends : s'.writeTurn = none
  left : s' = { s with pendingWrites := if s.remoteWindowSize = 0 then s.pendingWrites else [] }
  effects : es = if s.remoteWindowSize = 0 then []
    else s.pendingWrites.map fun pw => .post (dropped pw)

/-- The frame with the first `n` bytes of a write. -/
theorem body_dataFrame (s : MuxStream) (pw : PendingWrite) (n : Nat) :
    (s.dataFrame pw n).body = pw.buffers.flatten.take n :=
  flatten_sliceBuffers pw.buffers n

theorem goodSlice_dataFrame {pw : PendingWrite} {n : Nat} (hpos : 0 < n)
    (hlen : n ≤ pw.buffers.flatten.length) (hmax : n ≤ maxMessageSize) :
    GoodSlice s.id (s.dataFrame pw n) := by
  have hbody : (s.dataFrame pw n).body.length = n := by
    rw [body_dataFrame, List.length_take]
    omega
  have hM : maxMessageSize = 1048576 := rfl
  refine ⟨rfl, rfl, rfl, ?_, by omega, by omega⟩
  rw [hbody]
  show (UInt32.ofNat n).toNat = n
  rw [UInt32.toNat_ofNat', Nat.mod_eq_of_lt (by omega)]

/-- Where the bytes went, frame by frame. The loop itself is not over yet. -/
structure Cut (s : MuxStream) (es : List Effect) (s' : MuxStream) : Prop where
  id : s'.id = s.id
  session : s'.session = s.session
  frames : ∀ f ∈ Mux.frames es, GoodSlice s.id f
  bytes : s.session = true → payload es ++ s'.pendingBytes = s.pendingBytes
  window : s'.remoteWindowSize + (payload es).length = s.remoteWindowSize

theorem Cut.refl (s : MuxStream) : Cut s [] s where
  id := rfl
  session := rfl
  frames := by simp
  bytes _ := rfl
  window := rfl

theorem Cut.trans {s'' : MuxStream} {es' : List Effect} (h : Cut s es s') (h' : Cut s' es' s'') :
    Cut s (es ++ es') s'' where
  id := h'.id.trans h.id
  session := h'.session.trans h.session
  frames f hf := by
    rw [frames_append, List.mem_append] at hf
    exact hf.elim (h.frames f) fun hf => h.id ▸ h'.frames f hf
  bytes hs := by
    rw [payload_append, List.append_assoc, h'.bytes (h.session.trans hs), h.bytes hs]
  window := by
    have hw := h.window
    have hw' := h'.window
    rw [payload_append, List.length_append]
    omega

/-- **One turn.** The taking loop and the skipping loop cut the front write at the same
place. -/
theorem cut_turn (h : s.writeTurn = some (s', es)) : Cut s es s' := by
  obtain ⟨pw, rest, hpw, -, ⟨ec, -, hnil, rfl, rfl⟩ | ⟨n, hpos, hwin, hmax, hcase⟩⟩ :=
    writeTurn_cases h
  · refine ⟨rfl, rfl, by simp, fun hs => ?_, rfl⟩
    rw [pendingBytes, pendingBytes, hpw, List.flatMap_cons, (hnil hs).2]
    rfl
  · have hle : n ≤ pw.buffers.flatten.length := by
      rcases hcase with ⟨hlt, -, -⟩ | ⟨heq, -, -⟩ <;> omega
    have hgood : GoodSlice s.id (s.dataFrame pw n) := goodSlice_dataFrame hpos hle hmax
    have hcut : (pw.buffers.flatten.take n).length = n := by
      rw [List.length_take]
      omega
    rcases hcase with ⟨-, rfl, rfl⟩ | ⟨heq, rfl, rfl⟩
    all_goals
      refine ⟨rfl, rfl, fun f hf => List.mem_singleton.mp hf ▸ hgood, fun _ => ?_, ?_⟩
    · rw [payload_send, payload_nil, List.append_nil, body_dataFrame, pendingBytes, pendingBytes,
        hpw, List.flatMap_cons, List.flatMap_cons, flatten_skipBuffers, ← List.append_assoc,
        List.take_append_drop]
    · rw [payload_send, payload_nil, List.append_nil, body_dataFrame, hcut]
      exact Nat.sub_add_cancel hwin
    · rw [payload_send, payload_nil, List.append_nil, body_dataFrame, pendingBytes, pendingBytes,
        hpw, List.flatMap_cons, heq, List.take_length]
    · rw [payload_send, payload_nil, List.append_nil, body_dataFrame, hcut]
      exact Nat.sub_add_cancel hwin

theorem cut_doWrite (s : MuxStream) : Cut s s.doWrite.2 s.doWrite.1 :=
  loop_induct (R := Cut) Cut.refl (fun _ _ _ _ _ h h' => (cut_turn h).trans h') _ s

/-- The bound on the turns is never what ends the loop. -/
theorem doWrite_ends (s : MuxStream) : s.doWrite.1.writeTurn = none :=
  loop_done writeMeasure (fun _ _ _ => writeTurn_measure) _ s (Nat.le_refl _)

/-- Without a session a turn takes the front write off the queue. -/
theorem writeTurn_expired (hs : s.session = false) (hwin : s.remoteWindowSize ≠ 0)
    {pw : PendingWrite} {rest : List PendingWrite} (hpw : s.pendingWrites = pw :: rest) :
    s.writeTurn = some ({ s with pendingWrites := rest }, [.post (dropped pw)]) := by
  rw [writeTurn, hpw]
  simp only [if_neg hwin, totalLength_eq, List.length_eq_zero_iff]
  by_cases hnil : pw.buffers.flatten = []
  · rw [if_pos hnil, dropped, if_pos hnil]
  · rw [if_neg hnil, dropped, if_neg hnil, hs]
    rfl

theorem loop_expired {n : Nat} (hs : s.session = false) (hwin : s.remoteWindowSize ≠ 0)
    (hn : s.pendingWrites.length ≤ n) :
    loop writeTurn n s =
      ({ s with pendingWrites := [] }, s.pendingWrites.map fun pw => .post (dropped pw)) := by
  induction hpw : s.pendingWrites generalizing s n with
  | nil =>
      have hdone : s.writeTurn = none := by rw [writeTurn, hpw]
      have hself : s = { s with pendingWrites := [] } := by rw [← hpw]
      rw [loop_of_none hdone]
      exact Prod.ext hself rfl
  | cons pw rest ih =>
      obtain ⟨m, rfl⟩ : ∃ m, n = m + 1 := ⟨n - 1, by rw [hpw, List.length_cons] at hn; omega⟩
      rw [hpw, List.length_cons] at hn
      rw [loop_of_some (writeTurn_expired hs hwin hpw),
        ih (s := { s with pendingWrites := rest }) hs hwin (Nat.le_of_succ_le_succ hn) rfl]
      rfl

theorem dropped_doWrite (hs : s.session = false) : Dropped s s.doWrite.2 s.doWrite.1 := by
  by_cases hwin : s.remoteWindowSize = 0
  · have hdone : s.writeTurn = none := by
      rw [writeTurn]
      split
      · rfl
      · rw [if_pos hwin]
    have hloop : s.doWrite = (s, []) := loop_of_none hdone
    exact ⟨doWrite_ends s, by rw [hloop, if_pos hwin], by rw [hloop, if_pos hwin]⟩
  · have hloop : s.doWrite = _ := loop_expired hs hwin (Nat.le_add_right _ _)
    exact ⟨doWrite_ends s, by rw [hloop, if_neg hwin], by rw [hloop, if_neg hwin]⟩

/-- **What `do_write` does** with any queue and any window: it cuts the writes into frames,
or drops them when there is no session to send a frame. -/
theorem doWrite_sliced (s : MuxStream) :
    (s.session = true ∧ Sliced s s.doWrite.2 s.doWrite.1) ∨
      (s.session = false ∧ Dropped s s.doWrite.2 s.doWrite.1) := by
  have hcut := cut_doWrite s
  cases hs : s.session with
  | true =>
      exact Or.inl ⟨rfl, doWrite_ends s, hcut.frames, hcut.bytes hs, hcut.window, doWrite_done s⟩
  | false => exact Or.inr ⟨rfl, dropped_doWrite hs⟩

/-- The session of this stream is gone: its byte is neither sent nor kept. -/
theorem doWrite_not_sliced : ¬∀ s : MuxStream, Sliced s s.doWrite.2 s.doWrite.1 := by
  intro h
  have hbytes := (h { id := 1, session := false, pendingWrites := [⟨[[7]], 0⟩] }).bytes
  exact absurd hbytes (by decide)

end MuxStream

end Cfrp.Mux
