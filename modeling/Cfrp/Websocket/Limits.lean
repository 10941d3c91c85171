import Cfrp.Mux.Session
import Cfrp.Mux.WriteCount
import Cfrp.Websocket.Transparency

/-!
# The size limits of a receiver

A session that reads a header turns down a body above `MAX_MESSAGE_SIZE`, and `ReadWsFrame`
turns down a payload above the same number. `do_write` keeps the bodies of its frames within
it. Over a `WebsocketStream`, though, the header and the body of a frame are one message, so
the body has twelve bytes less there.
-/

namespace Cfrp.Websocket

open Lib
open Mux (maxMessageSize)

namespace Stream

variable {s : Stream} {f : Frame}

/-- `ReadWsFrame` as far as the payload: the header, and the extended length if there is one. -/
def readHead (s : Stream) (message : List Byte) : Stream :=
  let t := s.onRead (message.take 2) .header
  match t.awaiting with
  | some (.ext16 opcode masked) =>
      { t with awaiting := none }.onRead ((message.drop 2).take 2) (.ext16 opcode masked)
  | some (.ext64 opcode masked) =>
      { t with awaiting := none }.onRead ((message.drop 2).take 8) (.ext64 opcode masked)
  | _ => t

theorem awaiting_nextStep (hidle : s.awaiting = none) (opcode : Byte) (masked : Bool) (len : Nat) :
    (s.nextStep opcode masked len).awaiting = none ∨
      (s.nextStep opcode masked len).awaiting = some (.payload opcode masked len) := by
  by_cases hlong : maxMessageSize < len
  · rw [nextStep, if_pos hlong]
    unfold fail
    split <;> exact .inl hidle
  · rw [nextStep, if_neg hlong]
    exact .inr rfl

theorem readHead_bytes (hidle : s.awaiting = none) (hfits : f.Fits)
    (hcontrol : f.isData = false → f.fin = true ∧ f.form = .short) :
    s.readHead f.bytes = s.nextStep f.opcode f.mask.isSome f.payload.length := by
  have hself : ∀ a, ({ { s with awaiting := some a } with awaiting := none } : Stream) =
    s := fun _ => by
    rw [← hidle]
  have hhead := onRead_head (s := s) hfits hcontrol
  have htwo : f.bytes.take 2 = [f.first, f.second] := rfl
  have hrest : f.bytes.drop 2 = f.extended ++ f.body := rfl
  rw [readHead, htwo, hrest, hhead]
  cases hform : f.form with
  | short =>
      simp only
      rcases awaiting_nextStep hidle f.opcode f.mask.isSome f.payload.length with hnone | hsome
      · simp only [hnone]
      · simp only [hsome]
  | ext16 =>
      have hlen : f.extended.length = 2 := by
        rw [Frame.extended, hform]
        exact length_be 2 _
      show Stream.onRead _ ((f.extended ++ f.body).take 2) _ = _
      rw [List.take_left' hlen, hself]
      exact onRead_length hfits (.inl ⟨rfl, hform⟩)
  | ext64 =>
      have hlen : f.extended.length = 8 := by
        rw [Frame.extended, hform]
        exact length_be 8 _
      show Stream.onRead _ ((f.extended ++ f.body).take 8) _ = _
      rw [List.take_left' hlen, hself]
      exact onRead_length hfits (.inr ⟨rfl, hform⟩)

/-- A payload above the limit closes the stream. -/
theorem down_nextStep {opcode : Byte} {masked : Bool} {len : Nat} (h : maxMessageSize < len) :
    (s.nextStep opcode masked len).down = true := by
  rw [nextStep, if_pos h]
  unfold fail
  split <;> rfl

end Stream

theorem fits_write (isClient : Bool) (mask : Mask) {buffers : List (List Byte)}
    (h : buffers.flatten.length < 2 ^ 64) : ((Job.write buffers).frame isClient mask).Fits := by
  unfold Frame.Fits
  simp only [Job.frame, Job.form, shortestForm, Job.payload]
  split
  · rename_i hform
    split at hform
    · assumption
    · split at hform <;> cases hform
  · rename_i hform
    split at hform
    · cases hform
    · split at hform
      · assumption
      · cases hform
  · exact h

end Cfrp.Websocket

namespace Cfrp.Mux

open Lib MuxStream

/-! ## One frame -/

namespace Frame

/-- The session that reads the header goes on to read the body. -/
def PassesSession (f : Frame) : Prop :=
  ∀ s : Session, s.stopped = false →
    s.headerRead f.header.encode = { s with reading := .body f.header }

/-- The stream that reads the head of the message goes on to read the payload. -/
def PassesWebsocket (f : Frame) : Prop :=
  ∀ (isClient : Bool) (mask : Websocket.Mask) (s : Websocket.Stream), s.awaiting = none →
    s.readHead (Websocket.writeOp isClient mask f.writeBuffers).buffers.flatten =
      { s with awaiting := some (.payload 0x02 isClient (Header.size + f.body.length)) }

end Frame

theorem passesSession {id : UInt32} {f : Frame} (h : GoodSlice id f) : f.PassesSession := by
  intro s hs
  have hlen := h.length
  have hpos : f.header.length > 0 := by
    show (0 : UInt32).toNat < f.header.length.toNat
    rw [hlen]
    exact h.nonempty
  have hfits : ¬f.header.length.toNat > maxMessageSize := by
    rw [hlen]
    exact Nat.not_lt.mpr h.fits
  rw [Session.headerRead, hs, Header.decode_encode]
  simp only
  rw [if_neg Bool.false_ne_true, if_pos ⟨h.data, hpos⟩, if_neg hfits]

theorem passesWebsocket_iff {f : Frame} (h : f.body.length ≤ maxMessageSize) :
    f.PassesWebsocket ↔ Header.size + f.body.length ≤ maxMessageSize := by
  have hM : maxMessageSize = 1048576 := rfl
  have hH : Header.size = 12 := rfl
  have hlen : f.writeBuffers.flatten.length = Header.size + f.body.length := by
    rw [Frame.flatten_writeBuffers, List.length_append, Header.length_encode]
  have hhead : ∀ (isClient : Bool) (mask : Websocket.Mask) (s : Websocket.Stream),
      s.awaiting = none →
      s.readHead (Websocket.writeOp isClient mask f.writeBuffers).buffers.flatten =
        s.nextStep 0x02 isClient (Header.size + f.body.length) := by
    intro isClient mask s hidle
    have hmask : ((Websocket.Job.write f.writeBuffers).frame isClient mask).mask.isSome
        = isClient := by
      cases isClient <;> rfl
    have hop : ((Websocket.Job.write f.writeBuffers).frame isClient mask).opcode = 0x02 := by
      show (0x82 : Byte) &&& 0x0F = 0x02
      decide
    have hdata : ((Websocket.Job.write f.writeBuffers).frame isClient mask).isData = true := by
      rw [Websocket.Frame.isData, hop]
      decide
    have hbytes := Websocket.Job.flatten_op isClient mask (.write f.writeBuffers)
    show s.readHead (Websocket.Job.op isClient mask (.write f.writeBuffers)).buffers.flatten = _
    rw [hbytes, Websocket.Stream.readHead_bytes hidle
      (Websocket.fits_write isClient mask (by rw [hlen]; omega))
      (fun hcontrol => absurd (hdata.symm.trans hcontrol) (by simp)), hmask, hop, ← hlen]
    rfl
  constructor
  · intro hpass
    by_contra hlong
    have hreads := hpass false ⟨0, 0, 0, 0⟩ (.init false) rfl
    rw [hhead _ _ _ rfl] at hreads
    have hdown : (Websocket.Stream.nextStep (.init false) 0x02 false _).down = true :=
      Websocket.Stream.down_nextStep (Nat.lt_of_not_le hlong)
    rw [hreads] at hdown
    cases hdown
  · intro hshort isClient mask s hidle
    rw [hhead isClient mask s hidle, Websocket.Stream.nextStep_of_size _ _ hshort]

/-! ## The frames of a run -/

/-- Every slice of a queue leaves room for a header in a message. -/
def fitsMessage : List PendingWrite → Nat → Bool
  | [], _ => true
  | pw :: rest, window =>
      decide (Header.size + min (totalLength pw.buffers) window ≤ maxMessageSize) &&
        fitsMessage rest (window - totalLength pw.buffers)

theorem fitsMessage_zero (pending : List PendingWrite) : fitsMessage pending 0 = true := by
  induction pending with
  | nil => rfl
  | cons pw rest ih =>
      rw [fitsMessage, Nat.min_zero, Nat.zero_sub, ih]
      rfl

namespace MuxStream

variable {s : MuxStream}

/-- **The loop** sends a frame too long for a message exactly if the queue has such a slice. -/
theorem fits_loop {n : Nat} (hs : s.session = true) (hn : s.writeMeasure ≤ n) :
    (∀ f ∈ frames (loop writeTurn n s).2, Header.size + f.body.length ≤ maxMessageSize) ↔
      fitsMessage s.pendingWrites s.remoteWindowSize = true := by
  have hM : maxMessageSize = 1048576 := rfl
  have hH : Header.size = 12 := rfl
  -- a queue that the loop leaves alone
  have hdone : ∀ {n : Nat} {s : MuxStream}, s.session = true → s.writeTurn = none →
      ((∀ f ∈ frames (loop writeTurn n s).2, Header.size + f.body.length ≤ maxMessageSize) ↔
        fitsMessage s.pendingWrites s.remoteWindowSize = true) := by
    intro n s hs hturn
    rw [loop_of_none hturn]
    refine iff_of_true (by simp) ?_
    cases hpw : s.pendingWrites with
    | nil => rfl
    | cons pw rest =>
        by_cases hwin : s.remoteWindowSize = 0
        · rw [hwin]
          exact fitsMessage_zero _
        · rw [writeTurn_alive hs hwin hpw] at hturn
          simp only at hturn
          repeat' split at hturn
          all_goals cases hturn
  induction n generalizing s with
  | zero =>
      cases hturn : s.writeTurn with
      | none => exact hdone hs hturn
      | some r =>
          have hlt := writeTurn_measure hturn
          omega
  | succ n ih =>
      cases hturn : s.writeTurn with
      | none => exact hdone hs hturn
      | some r =>
          obtain ⟨s', es⟩ := r
          have hle : s'.writeMeasure ≤ n :=
            Nat.le_of_lt_succ (Nat.lt_of_lt_of_le (writeTurn_measure hturn) hn)
          have hnext := ih ((cut_turn hturn).session.trans hs) hle
          obtain ⟨pw, rest, hpw, hpos, -⟩ := writeTurn_cases hturn
          have hwin : s.remoteWindowSize ≠ 0 := Nat.ne_of_gt hpos
          rw [loop_of_some hturn, hpw]
          rw [writeTurn_alive hs hwin hpw] at hturn
          simp only at hturn
          split at hturn
          · -- no frame
            rename_i hzero
            cases hturn
            have hfits : Header.size + min (totalLength pw.buffers) s.remoteWindowSize ≤
                maxMessageSize := by
              omega
            rw [fitsMessage, decide_eq_true hfits, Bool.true_and, hzero, Nat.sub_zero]
            exact hnext
          · -- a frame, and then the turn comes to what is left
            have hframe : ∀ (n : Nat) (cb : Callback) (es : List Effect),
                n ≤ totalLength pw.buffers →
                ((∀ f ∈ frames ([.send (s.dataFrame pw n) cb] ++ es),
                    Header.size + f.body.length ≤ maxMessageSize) ↔
                  Header.size + n ≤ maxMessageSize ∧
                    ∀ f ∈ frames es, Header.size + f.body.length ≤ maxMessageSize) := by
              intro n cb es hn
              rw [totalLength_eq] at hn
              rw [List.singleton_append, frames_send, List.forall_mem_cons, body_dataFrame,
                List.length_take, Nat.min_eq_left hn]
            split at hturn
            · rename_i hlt
              cases hturn
              have hleft := totalLength_eq
                (skipBuffers pw.buffers (min (min (totalLength pw.buffers)
                s.remoteWindowSize) maxMessageSize))
              rw [flatten_skipBuffers, List.length_drop, ← totalLength_eq] at hleft
              refine (hframe _ _ _ (Nat.le_of_lt hlt)).trans ((and_congr_right' hnext).trans ?_)
              show _ ∧ fitsMessage (_ :: rest) (s.remoteWindowSize - _) = true ↔ _
              rw [fitsMessage, fitsMessage, hleft]
              by_cases hcap : s.remoteWindowSize ≤ maxMessageSize
              · -- the window is used up
                have hall : min (min (totalLength pw.buffers) s.remoteWindowSize) maxMessageSize =
                    s.remoteWindowSize := by omega
                have hover : s.remoteWindowSize - totalLength pw.buffers = 0 := by omega
                have hshort : min (totalLength pw.buffers) s.remoteWindowSize =
                    s.remoteWindowSize := by
                  omega
                rw [hall, hover, hshort, Nat.sub_self, Nat.min_zero, Nat.zero_sub, fitsMessage_zero,
                  Bool.and_true, Bool.and_true, decide_eq_true_eq, decide_eq_true_eq]
                exact and_iff_left (by omega)
              · -- the frame has the most bytes a frame can have
                refine iff_of_false (fun hshort => by omega) fun hshort => ?_
                rw [Bool.and_eq_true, decide_eq_true_eq] at hshort
                omega
            · rename_i hfull
              cases hturn
              have hall : min (min (totalLength pw.buffers) s.remoteWindowSize) maxMessageSize =
                  totalLength pw.buffers := by omega
              have hshort : min (totalLength pw.buffers) s.remoteWindowSize =
                  totalLength pw.buffers := by
                omega
              rw [hall] at hnext ⊢
              refine (hframe _ _ _ (Nat.le_refl _)).trans ((and_congr_right' hnext).trans ?_)
              rw [fitsMessage, hshort, Bool.and_eq_true, decide_eq_true_eq]

/-- The slices of a write that `do_write` makes. -/
def shortMessages (s : MuxStream) : Bool :=
  !s.session || fitsMessage s.pendingWrites s.remoteWindowSize

/-- **The frames of `do_write`** pass a session, and pass a `WebsocketStream` exactly if they
leave room for the header. -/
theorem doWrite_passes (s : MuxStream) :
    (∀ f ∈ frames s.doWrite.2, f.PassesSession) ∧
      ((∀ f ∈ frames s.doWrite.2, f.PassesWebsocket) ↔ s.shortMessages = true) := by
  have hcut := (cut_doWrite s).frames
  refine ⟨fun f hf => passesSession (hcut f hf), ?_⟩
  have hiff : (∀ f ∈ frames s.doWrite.2, f.PassesWebsocket) ↔
      ∀ f ∈ frames s.doWrite.2, Header.size + f.body.length ≤ maxMessageSize :=
    forall₂_congr fun f hf => passesWebsocket_iff (hcut f hf).fits
  rw [hiff, shortMessages]
  cases hs : s.session with
  | true =>
      rw [Bool.not_true, Bool.false_or]
      exact fits_loop hs (Nat.le_refl _)
  | false =>
      refine iff_of_true (fun f hf => ?_) rfl
      have hposts : ∀ l : List PendingWrite, frames (l.map fun pw => .post (dropped pw)) = [] :=
        fun l => frames_map_post l dropped
      rw [(dropped_doWrite hs).effects] at hf
      split at hf
      · exact (List.not_mem_nil hf).elim
      · rw [hposts] at hf
        exact (List.not_mem_nil hf).elim

end MuxStream

/-- The writing side of a stream with the frames that `do_write` has emitted. -/
structure FrameRun where
  run : WriteRun
  emitted : List Frame := []

namespace FrameRun

def start (id : UInt32) (window : Nat) : FrameRun := { run := .start id window }

/-- The frames of the `do_write` that an event leads to. -/
def written (m : FrameRun) (e : WriteRun.Event) : List Frame :=
  (m.run.beforeWrite e).elim [] fun s => frames s.doWrite.2

def step (m : FrameRun) (e : WriteRun.Event) : Option FrameRun :=
  (m.run.step e).map fun run => ⟨run, m.emitted ++ m.written e⟩

/-- No write is cut so that a frame with its header is above the limit. -/
def short (m : FrameRun) (e : WriteRun.Event) : Bool :=
  (m.run.beforeWrite e).all MuxStream.shortMessages

variable {m : FrameRun}

theorem written_passes (m : FrameRun) (e : WriteRun.Event) :
    (∀ f ∈ m.written e, f.PassesSession) ∧
      ((∀ f ∈ m.written e, f.PassesWebsocket) ↔ m.short e = true) := by
  unfold written short
  cases m.run.beforeWrite e with
  | none => exact ⟨fun f hf => (List.not_mem_nil hf).elim,
      iff_of_true (fun f hf => (List.not_mem_nil hf).elim) rfl⟩
  | some s => exact s.doWrite_passes

theorem step_emitted {m' : FrameRun} {e : WriteRun.Event} (h : m.step e = some m') :
    m'.emitted = m.emitted ++ m.written e := by
  obtain ⟨run, -, rfl⟩ := Option.map_eq_some_iff.mp h
  rfl

/-- What every frame of a step has, every frame of the run has. -/
theorem emitted_of_reach {P : Frame → Prop} {ok : FrameRun → WriteRun.Event → Prop} {id : UInt32}
    {window : Nat} (hwritten : ∀ m e, ok m e → ∀ f ∈ m.written e, P f)
    (h : Reach step ok (start id window) m) : ∀ f ∈ m.emitted, P f := by
  refine h.invariant (P := fun m => ∀ f ∈ m.emitted, P f)
    (fun f hf => (List.not_mem_nil hf).elim) ?_
  intro m e m' hm hok hstep f hf
  rw [step_emitted hstep] at hf
  exact (List.mem_append.mp hf).elim (hm f) (hwritten m e hok f)

/-- **The frames of a run** pass a session. They pass a `WebsocketStream` in the runs that
cut every write short enough, and the next event breaks that exactly if it does not. -/
theorem emitted_passes {id : UInt32} {window : Nat} (h : Reach step anyStep (start id window) m) :
    (∀ f ∈ m.emitted, f.PassesSession) ∧
      (Reach step (fun m e => m.short e = true) (start id window) m →
        (∀ f ∈ m.emitted, f.PassesWebsocket) ∧
          ∀ e m', m.step e = some m' →
            ((∀ f ∈ m'.emitted, f.PassesWebsocket) ↔ m.short e = true)) := by
  refine ⟨emitted_of_reach (fun m e _ => (m.written_passes e).1) h, fun hshort => ?_⟩
  have hpass : ∀ f ∈ m.emitted, f.PassesWebsocket :=
    emitted_of_reach (fun m e hok => (m.written_passes e).2.mpr hok) hshort
  refine ⟨hpass, fun e m' hstep => ?_⟩
  rw [← (m.written_passes e).2, step_emitted hstep]
  exact ⟨fun hall f hf => hall f (List.mem_append_right _ hf),
    fun hwritten f hf => (List.mem_append.mp hf).elim (hpass f) (hwritten f)⟩

/-- A small write over two frames. -/
theorem emitted_passes_small :
    ∃ m, Reach step (fun m e => m.short e = true) (start 1 2) m ∧
      ((∀ f ∈ m.emitted, f.PassesSession) ∧ (∀ f ∈ m.emitted, f.PassesWebsocket) ∧
        ∀ e m', m.step e = some m' →
          ((∀ f ∈ m'.emitted, f.PassesWebsocket) ↔ m.short e = true)) ∧
      m.emitted.map Frame.body = [[1, 2], [3]] := by
  obtain ⟨m, hm, hbodies⟩ := exists_of_runGuarded step short
    [.asyncWrite [[1], [2, 3]], .handleWindowUpdate 4294967295] (fun m => m.emitted.map Frame.body)
    (s := start 1 2) (a := [[1, 2], [3]]) (by decide)
  obtain ⟨hsession, hshort⟩ := emitted_passes hm.any
  exact ⟨m, hm, ⟨hsession, hshort hm⟩, hbodies⟩

/-- A write that fills a window of `MAX_MESSAGE_SIZE` goes out as one frame. -/
theorem largest_frame {body : List Byte} (hlen : body.length = maxMessageSize) :
    ∃ m, Reach step anyStep (start 1 initialWindowSize) m ∧
      ¬∀ f ∈ m.emitted, f.PassesWebsocket := by
  have hopen : (start 1 initialWindowSize).step (.handleWindowUpdate 4294967295) =
      some (start 1 maxMessageSize) := rfl
  have hlong : (start 1 maxMessageSize).short (.asyncWrite [body]) = false := by
    have htotal : totalLength [body] = maxMessageSize := by simp [totalLength, hlen]
    have hfits : fitsMessage [⟨[body], 0⟩] maxMessageSize = false := by
      rw [fitsMessage, htotal, Nat.min_self]
      rfl
    exact hfits
  obtain ⟨m, hstep⟩ : ∃ m, (start 1 maxMessageSize).step (.asyncWrite [body]) = some m := ⟨_, rfl⟩
  refine ⟨m, (Reach.init.next _ trivial hopen).next _ trivial hstep, fun hall => ?_⟩
  rw [step_emitted hstep] at hall
  have hpass := (written_passes _ _).2.mp fun f hf => hall f (List.mem_append_right _ hf)
  rw [hlong] at hpass
  cases hpass

/-- The largest frame: one update opens the window of a new stream to `MAX_MESSAGE_SIZE`, and
a write of that size goes out as one frame. With its header it is twelve bytes too long for
`ReadWsFrame`. -/
theorem largest_frame_fails :
    ∃ m, Reach step anyStep (start 1 initialWindowSize) m ∧
      ¬∀ f ∈ m.emitted, f.PassesWebsocket :=
  largest_frame (List.length_replicate : (List.replicate maxMessageSize (0 : Byte)).length = _)

end FrameRun

end Cfrp.Mux
