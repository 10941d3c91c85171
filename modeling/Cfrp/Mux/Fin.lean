import Cfrp.Lib.Transition
import Cfrp.Mux.StreamSpec

/-!
# After FIN

`close` queues the FIN frame of a stream and empties its `pending_writes_`, but
`async_write` does not look at `local_closed_`: a write that a completion handler or a
delayed limiter callback makes after the close is queued as before, and `do_write` frames
it as soon as the window allows. `canSend` says when `do_write` frames a byte, and the
FIN frame stays the last of its stream exactly as long as `do_write` never starts so
after the close.
-/

namespace Cfrp.Mux

open Lib

/-- The frame that ends its stream. -/
def Frame.isFin (f : Frame) : Bool :=
  f.header.type == FrameType.data && f.header.flags &&& Flags.fin != 0

/-- A Data frame that is not empty. -/
def Frame.hasPayload (f : Frame) : Bool :=
  f.header.type == FrameType.data && decide (0 < f.body.length)

/-- Behind a FIN frame there is no payload. -/
def FinFinal (fs : List Frame) : Prop :=
  fs.Pairwise fun f g => f.isFin = true → g.hasPayload = false

theorem Frame.isFin_iff (f : Frame) : f.isFin = true ↔ Arrival.close ∈ f.arrivals := by
  unfold Frame.isFin Frame.arrivals Mux.arrivals
  by_cases hdata : f.header.type = FrameType.data
  · by_cases hfin : f.header.flags &&& Flags.fin = 0 <;> simp [hdata, hfin]
  · rw [if_neg hdata]
    split <;> simp [hdata]

theorem Frame.hasPayload_iff (f : Frame) :
    f.hasPayload = true ↔ ∃ b, Arrival.data b ∈ f.arrivals := by
  unfold Frame.hasPayload Frame.arrivals Mux.arrivals
  by_cases hdata : f.header.type = FrameType.data
  · by_cases hbody : 0 < f.body.length <;> simp [hdata, hbody]
  · rw [if_neg hdata]
    split <;> simp [hdata]

theorem mem_told {es : List Effect} {a : Arrival} :
    a ∈ told es ↔ ∃ f ∈ frames es, a ∈ f.arrivals := by
  unfold told
  rw [List.mem_flatMap]

/-- What is queued behind a FIN frame carries nothing, and it is no trouble in itself. -/
theorem finFinal_append {fs es : List Frame} (hfs : FinFinal fs)
    (hnone : ∀ f ∈ es, f.isFin = false) :
    FinFinal (fs ++ es) ↔ ((∃ f ∈ fs, f.isFin = true) → ∀ g ∈ es, g.hasPayload = false) := by
  unfold FinFinal at *
  rw [List.pairwise_append]
  constructor
  · rintro ⟨-, -, hcross⟩ ⟨f, hf, hfin⟩ g hg
    exact hcross f hf g hg hfin
  · intro h
    refine ⟨hfs, ?_, fun f hf g hg hfin => h ⟨f, hf, hfin⟩ g hg⟩
    refine List.pairwise_iff_forall_sublist.mpr ?_
    intro f g hsub hfin
    have hmem : f ∈ es := hsub.subset List.mem_cons_self
    rw [hnone f hmem] at hfin
    cases hfin

namespace MuxStream

/-- `do_write` finds a byte to send: the session lives, the window is open and a write is
pending that is not empty. -/
def canSend (s : MuxStream) : Bool :=
  s.session && decide (0 < s.remoteWindowSize) && decide (0 < s.pendingBytes.length)

theorem writeTurn_gone {s s' : MuxStream} {es : List Effect} (hs : s.session = false)
    (h : s.writeTurn = some (s', es)) : s'.session = false ∧ frames es = [] := by
  unfold writeTurn at h
  split at h
  · cases h
  · split at h
    · cases h
    · simp only [hs, Bool.not_false, if_true] at h
      split at h
      · cases h
        exact ⟨rfl, rfl⟩
      · cases h
        exact ⟨rfl, rfl⟩

/-- Nothing is framed for a session that is gone. -/
theorem doWrite_gone {s : MuxStream} (hs : s.session = false) : frames s.doWrite.2 = [] := by
  refine loop_induct (R := fun s es _ => s.session = false → frames es = []) (fun _ _ => rfl)
    ?_ s.writeMeasure s hs
  intro s es s' es' s'' hturn hrest hs
  have hfirst := writeTurn_gone hs hturn
  rw [frames_append, hfirst.2, hrest hfirst.1]
  rfl

/-- `do_write` frames no FIN. -/
theorem doWrite_noFin (s : MuxStream) : ∀ f ∈ frames s.doWrite.2, f.isFin = false := by
  intro f hf
  rw [Bool.eq_false_iff, ne_eq, f.isFin_iff]
  intro hclose
  obtain ⟨b, hb, -⟩ := (doWrite_wrote s).onlyData _ (mem_told.mpr ⟨f, hf, hclose⟩)
  cases hb

/-- **`do_write` frames payload exactly if it finds a byte to send.** -/
theorem doWrite_payload (s : MuxStream) :
    (∀ f ∈ frames s.doWrite.2, f.hasPayload = false) ↔ s.canSend = false := by
  have hwrote := doWrite_wrote s
  constructor
  · intro hnone
    rw [Bool.eq_false_iff, ne_eq, canSend, Bool.and_eq_true, Bool.and_eq_true,
      decide_eq_true_eq, decide_eq_true_eq]
    rintro ⟨⟨hs, hwin⟩, hbytes⟩
    -- with nothing told, the window is as open at the end, so the queue has been emptied
    have htold : told s.doWrite.2 = [] := by
      rw [List.eq_nil_iff_forall_not_mem]
      intro a ha
      obtain ⟨b, rfl, -⟩ := hwrote.onlyData a ha
      obtain ⟨f, hf, hdata⟩ := mem_told.mp ha
      have hpayload := f.hasPayload_iff.mpr ⟨b, hdata⟩
      rw [hnone f hf] at hpayload
      cases hpayload
    have hwindow := hwrote.window
    have hsame := hwrote.bytes hs
    rw [htold] at hwindow hsame
    simp only [dataOf_nil, List.length_nil, List.nil_append] at hwindow hsame
    rcases doWrite_done s with hnil | hzero
    · rw [hsame, pendingBytes, hnil] at hbytes
      simp at hbytes
    · omega
  · intro hcannot f hf
    rw [Bool.eq_false_iff, ne_eq, f.hasPayload_iff]
    rintro ⟨b, hb⟩
    have hmem : Arrival.data b ∈ told s.doWrite.2 := mem_told.mpr ⟨f, hf, hb⟩
    obtain ⟨b', hb', hpos⟩ := hwrote.onlyData _ hmem
    cases hb'
    have hlen : 0 < (dataOf (told s.doWrite.2)).length := by
      obtain ⟨l, r, heq⟩ := List.append_of_mem hmem
      rw [heq, dataOf_append, dataOf_data, List.length_append, List.length_append]
      omega
    have hs : s.session = true := by
      by_contra hgone
      rw [doWrite_gone (Bool.eq_false_iff.mpr hgone)] at hf
      cases hf
    have hwindow := hwrote.window
    have hbytes : s.pendingBytes.length = _ := congrArg List.length (hwrote.bytes hs)
    rw [List.length_append] at hbytes
    have hcan : s.canSend = true := by
      rw [canSend, hs, decide_eq_true (by omega), decide_eq_true (by omega)]
      rfl
    rw [hcan] at hcannot
    cases hcannot

/-- `do_read_from_buffer` frames only credit. -/
theorem doRead_quiet (s : MuxStream) :
    ∀ f ∈ frames s.doRead.2, f.isFin = false ∧ f.hasPayload = false := by
  intro f hf
  have hcredit : ∀ a ∈ f.arrivals, ∃ d, a = .windowUpdate d :=
    fun a ha => doRead_onlyCredit s a (mem_told.mpr ⟨f, hf, ha⟩)
  constructor
  · rw [Bool.eq_false_iff, ne_eq, f.isFin_iff]
    intro hclose
    obtain ⟨d, hd⟩ := hcredit _ hclose
    cases hd
  · rw [Bool.eq_false_iff, ne_eq, f.hasPayload_iff]
    rintro ⟨b, hb⟩
    obtain ⟨d, hd⟩ := hcredit _ hb
    cases hd

theorem frames_close {s : MuxStream} (hopen : s.localClosed = false) :
    frames s.close.2 = if s.session then [⟨s.dataHeader Flags.fin 0, []⟩] else [] := by
  rw [close, if_neg (Bool.eq_false_iff.mp hopen), frames_append, frames_append,
    frames_abortEffects, frames_checkCleanup, List.append_nil, List.append_nil]
  split <;> rfl

theorem close_status (s : MuxStream) :
    s.close.1.localClosed = true ∧ s.close.1.session = s.session := by
  unfold close
  split
  · rename_i hclosed
    exact ⟨hclosed, rfl⟩
  · exact ⟨rfl, rfl⟩

end MuxStream

/-! ## The runs of a stream -/

/-- A stream and the frames it has given to its session. -/
structure StreamRun where
  stream : MuxStream
  queued : List Frame := []

inductive StreamEvent where
  | asyncRead (size : Nat) (handler : Handler) (readAll : Bool)
  | asyncWrite (buffers : List (List Byte)) (handler : Handler)
  | close
  | handle (a : Arrival)
  /-- The handler of a failed partial send has run. -/
  | failWrites (ec : ErrorCode)
  /-- The last reference to the session is dropped. -/
  | sessionGone

namespace StreamRun

def start (id : UInt32) : StreamRun := ⟨{ id }, []⟩

def put (t : StreamRun) (r : MuxStream × List Effect) : StreamRun := ⟨r.1, t.queued ++ frames r.2⟩

def step (t : StreamRun) : StreamEvent → Option StreamRun
  | .asyncRead size handler readAll => some (t.put (t.stream.asyncRead size handler readAll))
  | .asyncWrite buffers handler => some (t.put (t.stream.asyncWrite buffers handler))
  | .close => some (t.put t.stream.close)
  | .handle a => some (t.put (t.stream.handle a))
  | .failWrites ec => some (t.put (t.stream.failWrites ec))
  | .sessionGone => some { t with stream := { t.stream with session := false } }

/-- The stream as `do_write` finds it, if the event gets there. -/
def beforeWrite (s : MuxStream) : StreamEvent → Option MuxStream
  | .asyncWrite buffers handler =>
      if s.pendingWrites.length ≥ maxPendingWrites then none
      else some { s with pendingWrites := s.pendingWrites ++ [⟨buffers, handler⟩] }
  | .handle (.windowUpdate delta) =>
      some { s with remoteWindowSize := min (s.remoteWindowSize + delta.toNat) maxMessageSize }
  | _ => none

/-- After the close `do_write` finds nothing to send. -/
def silentAfterClose (t : StreamRun) (e : StreamEvent) : Bool :=
  !t.stream.localClosed || !(beforeWrite t.stream e).any MuxStream.canSend

/-- The stream is closed when its FIN is queued, and only the loss of the session keeps a
closed stream from queueing it. -/
structure FinInv (t : StreamRun) : Prop where
  final : FinFinal t.queued
  closed : (∃ f ∈ t.queued, f.isFin = true) → t.stream.localClosed = true
  queued : t.stream.localClosed = true → t.stream.session = true →
    ∃ f ∈ t.queued, f.isFin = true

theorem finInv_start (id : UInt32) : FinInv (start id) where
  final := List.Pairwise.nil
  closed := by
    rintro ⟨f, hf, -⟩
    cases hf
  queued h := by cases h

/-- What one event does to the frames: they stay in order exactly if `ok` holds, and then
the invariant is kept. -/
structure Kept (t' : StreamRun) (ok : Bool) : Prop where
  iff : FinFinal t'.queued ↔ ok = true
  inv : FinFinal t'.queued → FinInv t'

/-- Without a new FIN frame the invariant hangs on the order of the frames. -/
theorem FinInv.extend {t : StreamRun} {r : MuxStream × List Effect} (h : FinInv t)
    (hclosed : r.1.localClosed = t.stream.localClosed) (hsession : r.1.session = t.stream.session)
    (hnone : ∀ f ∈ frames r.2, f.isFin = false) (hfinal : FinFinal (t.put r).queued) :
    FinInv (t.put r) where
  final := hfinal
  closed := by
    rintro ⟨f, hf, hfin⟩
    show r.1.localClosed = true
    rw [hclosed]
    refine h.closed ⟨f, ?_, hfin⟩
    rcases List.mem_append.mp hf with hold | hnew
    · exact hold
    · rw [hnone f hnew] at hfin
      cases hfin
  queued hl hs := by
    obtain ⟨f, hf, hfin⟩ := h.queued (hclosed ▸ hl) (hsession ▸ hs)
    exact ⟨f, List.mem_append_left _ hf, hfin⟩

/-- Frames that are neither FIN nor payload are no trouble. -/
theorem FinInv.quiet {t : StreamRun} {r : MuxStream × List Effect} (h : FinInv t)
    (hclosed : r.1.localClosed = t.stream.localClosed) (hsession : r.1.session = t.stream.session)
    (hquiet : ∀ f ∈ frames r.2, f.isFin = false ∧ f.hasPayload = false) :
    Kept (t.put r) true := by
  have hfinal : FinFinal (t.put r).queued :=
    (finFinal_append h.final fun f hf => (hquiet f hf).1).mpr fun _ g hg => (hquiet g hg).2
  exact ⟨iff_of_true hfinal rfl, h.extend hclosed hsession fun f hf => (hquiet f hf).1⟩

/-- **`do_write`**, from a stream with another window or one more write. -/
theorem FinInv.doWrite {t : StreamRun} (h : FinInv t) {s : MuxStream}
    (hclosed : s.localClosed = t.stream.localClosed) (hsession : s.session = t.stream.session) :
    Kept (t.put s.doWrite) (!t.stream.localClosed || !s.canSend) := by
  have hsame := s.doWrite_wrote.same
  have hiff : FinFinal (t.put s.doWrite).queued ↔
      ((∃ f ∈ t.queued, f.isFin = true) → s.canSend = false) := by
    rw [← s.doWrite_payload]
    exact finFinal_append h.final s.doWrite_noFin
  refine ⟨?_, h.extend ?_ ?_ s.doWrite_noFin⟩
  · rw [hiff, Bool.or_eq_true, Bool.not_eq_true', Bool.not_eq_true']
    constructor
    · intro hsilent
      cases hcan : s.canSend with
      | false => exact Or.inr rfl
      | true =>
          -- a byte can only be sent while the session lives, so a close has queued its FIN
          have hlive : t.stream.session = true := by
            rw [MuxStream.canSend, Bool.and_eq_true, Bool.and_eq_true] at hcan
            rw [← hsession]
            exact hcan.1.1
          refine Or.inl (Bool.eq_false_iff.mpr fun hl => ?_)
          have hcannot := hsilent (h.queued hl hlive)
          rw [hcan] at hcannot
          cases hcannot
    · rintro (hopen | hcannot) hfin
      · rw [h.closed hfin] at hopen
        cases hopen
      · exact hcannot
  · rw [hsame]
    exact hclosed
  · rw [hsame]
    exact hsession

theorem FinInv.doRead {t : StreamRun} (h : FinInv t) {s : MuxStream}
    (hclosed : s.localClosed = t.stream.localClosed) (hsession : s.session = t.stream.session) :
    Kept (t.put s.doRead) true := by
  refine h.quiet ?_ ?_ s.doRead_quiet
  · rw [s.doRead_same]
    exact hclosed
  · rw [s.doRead_same]
    exact hsession

/-- Posting handlers frames nothing. -/
theorem FinInv.post {t : StreamRun} {r : MuxStream × List Effect} (h : FinInv t)
    (hclosed : r.1.localClosed = t.stream.localClosed) (hsession : r.1.session = t.stream.session)
    (hnone : frames r.2 = []) : Kept (t.put r) true := by
  refine h.quiet hclosed hsession fun f hf => ?_
  rw [hnone] at hf
  cases hf

/-- **The close** queues the FIN frame, unless the session is gone. -/
theorem FinInv.close {t : StreamRun} (h : FinInv t) : Kept (t.put t.stream.close) true := by
  cases hl : t.stream.localClosed with
  | true =>
      have hclose : t.stream.close = (t.stream, []) := if_pos hl
      rw [hclose]
      exact h.post rfl rfl rfl
  | false =>
      have hnone : ∀ f ∈ t.queued, f.isFin = false := by
        intro f hf
        rw [Bool.eq_false_iff]
        intro hfin
        rw [h.closed ⟨f, hf, hfin⟩] at hl
        cases hl
      obtain ⟨hclosed, hsession⟩ := t.stream.close_status
      have hframes := MuxStream.frames_close hl
      have hfinal : FinFinal (t.put t.stream.close).queued := by
        show FinFinal (t.queued ++ frames t.stream.close.2)
        rw [hframes]
        refine List.pairwise_append.mpr ⟨h.final, ?_, fun f hf g hg hfin => ?_⟩
        · split
          · exact List.pairwise_singleton _ _
          · exact List.Pairwise.nil
        · rw [hnone f hf] at hfin
          cases hfin
      refine ⟨iff_of_true hfinal rfl, fun _ => ⟨hfinal, fun _ => hclosed, fun _ hs => ?_⟩⟩
      have hlive : t.stream.session = true := hsession ▸ hs
      rw [hlive, if_pos rfl] at hframes
      have hfin : (FrameType.data == FrameType.data && Flags.fin &&& Flags.fin != 0) = true := by
        decide
      refine ⟨⟨t.stream.dataHeader Flags.fin 0, []⟩, ?_, hfin⟩
      show _ ∈ t.queued ++ frames t.stream.close.2
      rw [hframes]
      exact List.mem_append_right _ List.mem_cons_self

theorem step_kept {t t' : StreamRun} {e : StreamEvent} (h : FinInv t)
    (hstep : t.step e = some t') : Kept t' (t.silentAfterClose e) := by
  have hsilent : beforeWrite t.stream e = none → t.silentAfterClose e = true := by
    intro hnone
    rw [silentAfterClose, hnone]
    exact Bool.or_true _
  cases e with
  | asyncRead size handler readAll =>
      cases Option.some.inj hstep
      rw [hsilent rfl, MuxStream.asyncRead]
      split
      · exact h.post rfl rfl rfl
      · exact h.doRead rfl rfl
  | asyncWrite buffers handler =>
      cases Option.some.inj hstep
      rw [MuxStream.asyncWrite, silentAfterClose, beforeWrite]
      split
      · rw [Option.any_none, Bool.not_false, Bool.or_true]
        exact h.post rfl rfl rfl
      · exact h.doWrite rfl rfl
  | close =>
      cases Option.some.inj hstep
      rw [hsilent rfl]
      exact h.close
  | handle a =>
      cases Option.some.inj hstep
      cases a with
      | data bytes =>
          rw [hsilent rfl]
          exact h.doRead rfl rfl
      | windowUpdate delta => exact h.doWrite rfl rfl
      | close =>
          rw [hsilent rfl]
          have hread := h.doRead (s := { t.stream with remoteClosed := true }) rfl rfl
          -- `handle_close` sends nothing of its own
          have hput : t.put (t.stream.handle .close) =
              t.put (MuxStream.doRead { t.stream with remoteClosed := true }) := by
            show StreamRun.mk _ (t.queued ++ frames (_ ++ _)) = _
            rw [frames_append, MuxStream.frames_checkCleanup, List.append_nil]
            rfl
          rw [hput]
          exact hread
  | failWrites ec =>
      cases Option.some.inj hstep
      rw [hsilent rfl]
      exact h.post rfl rfl (frames_map_post _ _)
  | sessionGone =>
      cases Option.some.inj hstep
      rw [hsilent rfl]
      exact ⟨iff_of_true h.final rfl, fun _ => ⟨h.final, h.closed, fun _ hs => by cases hs⟩⟩

/-- **FIN is final** as long as `do_write` never finds a byte to send after the close, and
the first `do_write` that does breaks it. -/
theorem fin_final {id : UInt32} {t : StreamRun}
    (h : Reach step (fun t e => t.silentAfterClose e = true) (start id) t) :
    FinFinal t.queued ∧
      ∀ e t', t.step e = some t' → (FinFinal t'.queued ↔ t.silentAfterClose e = true) := by
  have hinv : FinInv t := h.invariant (P := FinInv) (finInv_start id) fun s e s' hs hok hstep =>
    (step_kept hs hstep).inv ((step_kept hs hstep).iff.mpr hok)
  exact ⟨hinv.final, fun e t' hstep => (step_kept hinv hstep).iff⟩

/-- A write before the close, an empty one after it. -/
theorem fin_final_emptyWrite :
    ∃ t : StreamRun, t.queued.length = 2 ∧ FinFinal t.queued := by
  obtain ⟨t, ht, hlen⟩ := exists_of_runGuarded step silentAfterClose
    [.asyncWrite [[1, 2]] 0, .close, .asyncWrite [[]] 1] (fun t => t.queued.length)
    (s := start 1) (a := 2) (by decide)
  exact ⟨t, hlen, (fin_final ht).1⟩

/-- A completion handler writes once more after the close. -/
theorem fin_not_final :
    ¬ ∀ t, Reach step anyStep (start 1) t → FinFinal t.queued := by
  intro hall
  obtain ⟨t, ht, hqueued⟩ := exists_of_runAll step [.close, .asyncWrite [[7]] 0]
    (fun t => t.queued.map fun f => (f.isFin, f.hasPayload)) (s := start 1)
    (a := [(true, false), (false, true)]) (by decide)
  obtain ⟨f, rest, heq, hf, hrest⟩ := List.map_eq_cons_iff.mp hqueued
  obtain ⟨g, rest', rfl, hg, -⟩ := List.map_eq_cons_iff.mp hrest
  have hfinal := hall t ht
  rw [heq] at hfinal
  have hnone := (List.pairwise_cons.mp hfinal).1 g List.mem_cons_self (congrArg Prod.fst hf)
  have hpayload : g.hasPayload = true := congrArg Prod.snd hg
  rw [hnone] at hpayload
  cases hpayload

end StreamRun

end Cfrp.Mux
