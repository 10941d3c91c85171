import Cfrp.Lib.Transition
import Cfrp.Mux.Slicing

/-!
# The byte count of a write

A write that `do_write` cuts is sent in several frames, and only the frame with its last
bytes carries the handler. That frame reports its own length. So the handler of a write is
told how many bytes the caller gave exactly when the write went out in one piece.

`WriteRun` is the writing side of a stream: the session answers for the frames it was given
in any order and with any outcome. Handlers are numbered in the order of the calls.
-/

namespace Cfrp.Mux

open Lib MuxStream

/-- The writes of a queue that are cut when it is sent with this much window. -/
def cutBy : List PendingWrite → Nat → List Handler
  | [], _ => []
  | pw :: rest, window =>
      if window = 0 then []
      else
        (if totalLength pw.buffers ≤ min window maxMessageSize then [] else [pw.handler]) ++
          if totalLength pw.buffers ≤ window then cutBy rest
            (window - totalLength pw.buffers) else []

/-- The handlers of the frames given to the session. -/
def callbacks (es : List Effect) : List Callback :=
  es.filterMap fun | .send _ cb => some cb | _ => none

@[simp] theorem callbacks_nil : callbacks [] = [] := rfl
@[simp] theorem callbacks_append (l l' : List Effect) :
    callbacks (l ++ l') = callbacks l ++ callbacks l' := List.filterMap_append
@[simp] theorem callbacks_post (c : Completion) (es : List Effect) :
    callbacks (.post c :: es) = callbacks es := rfl
@[simp] theorem callbacks_send (f : Frame) (cb : Callback) (es : List Effect) :
    callbacks (.send f cb :: es) = cb :: callbacks es := rfl

/-- The writes that `do_write` cuts. -/
def MuxStream.cuts (s : MuxStream) : List Handler :=
  if s.session then cutBy s.pendingWrites s.remoteWindowSize else []

/-- The writing side of a stream. `asked`, `done` and `cut` are history: the buffers of each
`async_write`, the calls of the handlers, and the writes that were cut. -/
structure WriteRun where
  stream : MuxStream
  asked : List (List (List Byte)) := []
  /-- The handlers of the frames the session has been given. -/
  frames : List Callback := []
  /-- What the handlers of failed partial sends have posted. -/
  failures : List ErrorCode := []
  done : List Completion := []
  cut : List Handler := []
  deriving DecidableEq

namespace WriteRun

inductive Event where
  | asyncWrite (buffers : List (List Byte))
  | handleWindowUpdate (delta : UInt32)
  /-- The session is done with a frame. -/
  | frameDone (i : Nat) (ec : ErrorCode)
  /-- What a failed partial send has posted runs. -/
  | failWrites (i : Nat)
  | close
  /-- The session is destroyed. -/
  | expire
  deriving DecidableEq

def start (id : UInt32) (window : Nat) : WriteRun :=
  { stream := { id, remoteWindowSize := window } }

/-- The outcome of an operation of the stream. -/
def put (t : WriteRun) (r : MuxStream × List Effect) : WriteRun :=
  { t with stream := r.1, frames := t.frames ++ callbacks r.2, done := t.done ++ posts r.2 }

/-- The stream as `do_write` finds it. -/
def beforeWrite (t : WriteRun) : Event → Option MuxStream
  | .asyncWrite buffers =>
      if t.stream.pendingWrites.length ≥ maxPendingWrites then none
      else
        some { t.stream with
          pendingWrites := t.stream.pendingWrites ++ [⟨buffers, t.asked.length⟩] }
  | .handleWindowUpdate delta =>
      some { t.stream with
        remoteWindowSize := min (t.stream.remoteWindowSize + delta.toNat) maxMessageSize }
  | _ => none

/-- The writes that an event cuts. -/
def cuts (t : WriteRun) (e : Event) : List Handler := (t.beforeWrite e).elim [] MuxStream.cuts

/-- A frame's handler is called. -/
def called (t : WriteRun) (ec : ErrorCode) : Callback → WriteRun
  | .none => t
  | .failPending => if ec = .success then t else { t with failures := t.failures ++ [ec] }
  | .invoke handler toSend =>
      { t with done := t.done ++ [{ handler, ec, count := if ec = .success then toSend else 0 }] }

def step (t : WriteRun) (e : Event) : Option WriteRun :=
  let t' := { t with cut := t.cut ++ t.cuts e }
  match e with
  | .asyncWrite buffers =>
      some (put { t' with asked := t.asked ++ [buffers] }
        (t.stream.asyncWrite buffers t.asked.length))
  | .handleWindowUpdate delta => some (t'.put (t.stream.handleWindowUpdate delta))
  | .frameDone i ec => (t.frames[i]?).map ({ t' with frames := t.frames.eraseIdx i }.called ec)
  | .failWrites i =>
      (t.failures[i]?).map fun ec =>
        put { t' with failures := t.failures.eraseIdx i } (t.stream.failWrites ec)
  | .close => some (t'.put t.stream.close)
  | .expire => some { t' with stream := { t.stream with session := false } }

/-- An event that cuts no write. -/
def whole (t : WriteRun) (e : Event) : Bool := (t.cuts e).isEmpty

/-- A handler was told how many bytes its write has. -/
def Exact (t : WriteRun) (c : Completion) : Prop :=
  ∃ buffers, t.asked[c.handler]? = some buffers ∧ c.count = totalLength buffers

end WriteRun

/-! ## Where the bytes of a write are -/

/-- What is left of a write, or reported for it, is all of it unless it has been cut. -/
def Left (asked : List (List (List Byte))) (cut : List Handler) (handler : Handler) (n : Nat) :
    Prop :=
  ∃ buffers, asked[handler]? = some buffers ∧ n ≤ totalLength buffers ∧
    (n = totalLength buffers ↔ handler ∉ cut)

/-- The writes are served in the order of their handlers, and the counts of those that have
been served are as they are for good. -/
structure Tracked (asked : List (List (List Byte))) (cut : List Handler)
    (pending : List PendingWrite) (frames : List Callback) (done : List Completion) : Prop where
  order : pending.Pairwise fun pw pw' => pw.handler < pw'.handler
  left : ∀ pw ∈ pending, Left asked cut pw.handler (totalLength pw.buffers)
  sent : ∀ handler n, .invoke handler n ∈ frames →
    Left asked cut handler n ∧ ∀ pw ∈ pending, handler < pw.handler
  reported : ∀ c ∈ done, c.ec = .success →
    Left asked cut c.handler c.count ∧ ∀ pw ∈ pending, c.handler < pw.handler
  below : ∀ x ∈ cut, x < asked.length

variable {asked : List (List (List Byte))} {cut cut' : List Handler}
  {pending rest : List PendingWrite}
  {frames frames' : List Callback} {done done' : List Completion} {pw : PendingWrite}

theorem Left.congr {handler : Handler} {n : Nat} (h : Left asked cut handler n)
    (hcut : handler ∈ cut' ↔ handler ∈ cut) : Left asked cut' handler n := by
  obtain ⟨buffers, hbuffers, hle, hiff⟩ := h
  exact ⟨buffers, hbuffers, hle, by rw [hcut]; exact hiff⟩

theorem Left.lt {handler : Handler} {n : Nat} (h : Left asked cut handler n) :
    handler < asked.length := by
  obtain ⟨buffers, hbuffers, -⟩ := h
  exact (List.getElem?_eq_some_iff.mp hbuffers).1

theorem Left.grow {handler : Handler} {n : Nat} (h : Left asked cut handler n)
    (buffers : List (List Byte)) : Left (asked ++ [buffers]) cut handler n := by
  have hlt := h.lt
  obtain ⟨buffers', hbuffers, hleft⟩ := h
  exact ⟨buffers', by rwa [List.getElem?_append_left hlt], hleft⟩

namespace Tracked

theorem congr (h : Tracked asked cut pending frames done) (hcut : ∀ x, x ∈ cut' ↔ x ∈ cut) :
    Tracked asked cut' pending frames done where
  order := h.order
  left pw hpw := (h.left pw hpw).congr (hcut _)
  sent handler n hn := ⟨(h.sent handler n hn).1.congr (hcut _), (h.sent handler n hn).2⟩
  reported c hc hec := ⟨(h.reported c hc hec).1.congr (hcut _), (h.reported c hc hec).2⟩
  below x hx := h.below x ((hcut x).mp hx)

/-- Fewer writes and frames are left, and nothing new is reported. -/
theorem fewer (h : Tracked asked cut pending frames done) (hrest : rest.Sublist pending)
    (hframes : ∀ handler n, .invoke handler n ∈ frames' → .invoke handler n ∈ frames)
    (hdone : ∀ c ∈ done', c.ec = .success → c ∈ done) : Tracked asked cut rest frames' done' where
  order := h.order.sublist hrest
  left pw hpw := h.left pw (hrest.subset hpw)
  sent handler n hn := by
    obtain ⟨hleft, hlt⟩ := h.sent handler n (hframes _ _ hn)
    exact ⟨hleft, fun pw hpw => hlt pw (hrest.subset hpw)⟩
  reported c hc hec := by
    obtain ⟨hleft, hlt⟩ := h.reported c (hdone c hc hec) hec
    exact ⟨hleft, fun pw hpw => hlt pw (hrest.subset hpw)⟩
  below := h.below

theorem front_lt (h : Tracked asked cut (pw :: rest) frames done) :
    ∀ pw' ∈ rest, pw.handler < pw'.handler := (List.pairwise_cons.mp h.order).1

/-- All of what is left of the front write goes into a frame. -/
theorem send (h : Tracked asked cut (pw :: rest) frames done) :
    Tracked asked cut rest (frames ++ [.invoke pw.handler (totalLength pw.buffers)]) done := by
  have hrest : Tracked asked cut rest frames done :=
    h.fewer (List.sublist_cons_self pw rest) (fun _ _ hcb => hcb) fun c hc _ => hc
  refine ⟨hrest.order, hrest.left, fun handler n hn => ?_, hrest.reported, h.below⟩
  rcases List.mem_append.mp hn with hn | hn
  · exact hrest.sent handler n hn
  · cases List.mem_singleton.mp hn
    exact ⟨h.left pw List.mem_cons_self, h.front_lt⟩

/-- The front write is completed with nothing left of it, or with an error. -/
theorem drop (h : Tracked asked cut (pw :: rest) frames done) {ec : ErrorCode}
    (hec : ec = .success → totalLength pw.buffers = 0) :
    Tracked asked cut rest frames (done ++ [{ handler := pw.handler, ec }]) := by
  have hrest : Tracked asked cut rest frames done :=
    h.fewer (List.sublist_cons_self pw rest) (fun _ _ hcb => hcb) fun c hc _ => hc
  refine ⟨hrest.order, hrest.left, hrest.sent, fun c hc hsuccess => ?_, h.below⟩
  rcases List.mem_append.mp hc with hc | hc
  · exact hrest.reported c hc hsuccess
  · cases List.mem_singleton.mp hc
    have hleft := h.left pw List.mem_cons_self
    rw [hec hsuccess] at hleft
    exact ⟨hleft, h.front_lt⟩

/-- Some of the front write goes into a frame. -/
theorem split (h : Tracked asked cut (pw :: rest) frames done) {buffers : List (List Byte)}
    (hlt : totalLength buffers < totalLength pw.buffers) :
    Tracked asked (cut ++ [pw.handler]) (⟨buffers, pw.handler⟩ :: rest) (frames ++ [.failPending])
      done := by
  have hother : ∀ x, x ≠ pw.handler → (x ∈ cut ++ [pw.handler] ↔ x ∈ cut) := by
    intro x hx
    rw [List.mem_append, List.mem_singleton, or_iff_left hx]
  have hfront := h.front_lt
  refine ⟨List.pairwise_cons.mpr ⟨hfront, (List.pairwise_cons.mp h.order).2⟩, fun pw' hpw' => ?_,
    fun handler n hn => ?_, fun c hc hec => ?_, fun x hx => ?_⟩
  · rcases List.mem_cons.mp hpw' with rfl | hpw'
    · -- from now on there is less left of it than was asked
      obtain ⟨all, hall, hle, -⟩ := h.left pw List.mem_cons_self
      have hless : totalLength buffers < totalLength all := Nat.lt_of_lt_of_le hlt hle
      refine ⟨all, hall, Nat.le_of_lt hless, fun heq => absurd heq (Nat.ne_of_lt hless),
        fun hmem => ?_⟩
      exact absurd (List.mem_append_right _ List.mem_cons_self) hmem
    · have hne := Nat.ne_of_gt (hfront pw' hpw')
      exact (h.left pw' (List.mem_cons_of_mem _ hpw')).congr (hother _ hne)
  · rcases List.mem_append.mp hn with hn | hn
    · obtain ⟨hleft, hbefore⟩ := h.sent handler n hn
      have hlt' := hbefore pw List.mem_cons_self
      refine ⟨hleft.congr (hother _ (Nat.ne_of_lt hlt')), fun pw' hpw' => ?_⟩
      rcases List.mem_cons.mp hpw' with rfl | hpw'
      · exact hlt'
      · exact hbefore pw' (List.mem_cons_of_mem _ hpw')
    · cases List.mem_singleton.mp hn
  · obtain ⟨hleft, hbefore⟩ := h.reported c hc hec
    have hlt' := hbefore pw List.mem_cons_self
    refine ⟨hleft.congr (hother _ (Nat.ne_of_lt hlt')), fun pw' hpw' => ?_⟩
    rcases List.mem_cons.mp hpw' with rfl | hpw'
    · exact hlt'
    · exact hbefore pw' (List.mem_cons_of_mem _ hpw')
  · rcases List.mem_append.mp hx with hx | hx
    · exact h.below x hx
    · rw [List.mem_singleton.mp hx]
      exact (h.left pw List.mem_cons_self).lt

/-- Every write of the queue is completed with nothing left of it, or with an error. -/
theorem dropAll (h : Tracked asked cut pending frames done) :
    Tracked asked cut [] frames (done ++ pending.map dropped) := by
  induction pending generalizing done with
  | nil => rwa [List.map_nil, List.append_nil]
  | cons pw rest ih =>
      have hdrop : Tracked asked cut rest frames (done ++ [dropped pw]) := by
        refine h.drop fun hec => ?_
        rw [totalLength_eq, List.length_eq_zero_iff]
        by_contra hne
        rw [if_neg hne] at hec
        cases hec
      rw [List.map_cons, List.append_cons]
      exact ih hdrop

/-- One more write is asked for. -/
theorem ask (h : Tracked asked cut pending frames done) (buffers : List (List Byte)) :
    Tracked (asked ++ [buffers]) cut (pending ++ [⟨buffers, asked.length⟩]) frames done := by
  have hlast : (asked ++ [buffers])[asked.length]? = some buffers := by simp
  have hnew : asked.length ∉ cut := fun hmem => absurd (h.below _ hmem) (Nat.lt_irrefl _)
  have hbefore : ∀ {x : Handler}, (∀ pw ∈ pending, x < pw.handler) → x < asked.length →
      ∀ pw ∈ pending ++ [⟨buffers, asked.length⟩], x < pw.handler := by
    intro x hall hlt pw hpw
    rcases List.mem_append.mp hpw with hpw | hpw
    · exact hall pw hpw
    · rw [List.mem_singleton.mp hpw]
      exact hlt
  constructor
  case order =>
    rw [List.pairwise_append]
    refine ⟨h.order, List.pairwise_singleton _ _, fun pw hpw pw' hpw' => ?_⟩
    rw [List.mem_singleton.mp hpw']
    exact (h.left pw hpw).lt
  case left =>
    intro pw hpw
    rcases List.mem_append.mp hpw with hpw | hpw
    · exact (h.left pw hpw).grow buffers
    · rw [List.mem_singleton.mp hpw]
      exact ⟨buffers, hlast, Nat.le_refl _, fun _ => hnew, fun _ => rfl⟩
  case sent =>
    intro handler n hn
    obtain ⟨hleft, hlt⟩ := h.sent handler n hn
    exact ⟨hleft.grow buffers, hbefore hlt hleft.lt⟩
  case reported =>
    intro c hc hec
    obtain ⟨hleft, hlt⟩ := h.reported c hc hec
    exact ⟨hleft.grow buffers, hbefore hlt hleft.lt⟩
  case below =>
    intro x hx
    rw [List.length_append]
    exact Nat.lt_succ_of_lt (h.below x hx)

end Tracked

/-! ## The operations -/

namespace MuxStream

variable {s s' : MuxStream} {es : List Effect}

theorem cuts_of_alive (hs : s.session = true) :
    s.cuts = cutBy s.pendingWrites s.remoteWindowSize := by
  rw [cuts, if_pos hs]

/-- A queue that `do_write` leaves alone has nothing to cut. -/
theorem cuts_of_done (hs : s.session = true) (h : s.writeTurn = none) : s.cuts = [] := by
  rw [cuts_of_alive hs]
  rw [writeTurn] at h
  cases hpw : s.pendingWrites with
  | nil => rfl
  | cons pw rest =>
      rw [hpw] at h
      simp only at h
      split at h
      · rename_i hwin
        rw [cutBy, if_pos hwin]
      · repeat' split at h
        all_goals cases h

/-- One turn with a session: an empty write is completed, and another one sent as far as it
fits. -/
theorem writeTurn_alive (hs : s.session = true) (hwin : s.remoteWindowSize ≠ 0)
    (hpw : s.pendingWrites = pw :: rest) :
    s.writeTurn =
      let n := min (min (totalLength pw.buffers) s.remoteWindowSize) maxMessageSize
      if totalLength pw.buffers = 0 then
        some ({ s with pendingWrites := rest }, [.post { handler := pw.handler }])
      else if n < totalLength pw.buffers then
        some
          ({ s with
            remoteWindowSize := s.remoteWindowSize - n
            pendingWrites := ⟨skipBuffers pw.buffers n, pw.handler⟩ :: rest },
          [.send (s.dataFrame pw n) .failPending])
      else
        some ({ s with remoteWindowSize := s.remoteWindowSize - n, pendingWrites := rest },
          [.send (s.dataFrame pw n) (.invoke pw.handler n)]) := by
  rw [writeTurn, hpw]
  simp only [if_neg hwin, hs]
  rfl

/-- A write that fits is not cut. -/
theorem cutBy_whole {window : Nat} (hwin : window ≠ 0)
    (hfits : totalLength pw.buffers ≤ min window maxMessageSize) :
    cutBy (pw :: rest) window = cutBy rest (window - totalLength pw.buffers) := by
  rw [cutBy, if_neg hwin, if_pos hfits, if_pos (by omega), List.nil_append]

/-- A write that does not fit is cut, and what is left of it is in its place. -/
theorem mem_cutBy_split {window n : Nat} (hwin : window ≠ 0)
    (hn : n = min (min (totalLength pw.buffers) window) maxMessageSize)
    (hlt : n < totalLength pw.buffers) {buffers : List (List Byte)}
    (hbuffers : totalLength buffers = totalLength pw.buffers - n) (x : Handler) :
    x ∈ cutBy (pw :: rest) window ↔
      x = pw.handler ∨ x ∈ cutBy (⟨buffers, pw.handler⟩ :: rest) (window - n) := by
  have hM : maxMessageSize = 1048576 := rfl
  rw [cutBy, if_neg hwin, if_neg (by omega), List.mem_append, List.mem_singleton]
  by_cases hall : window - n = 0
  · -- the window is used up
    rw [hall, cutBy, if_pos rfl, if_neg (by omega)]
  · rw [cutBy, if_neg hall, List.mem_append]
    simp only [hbuffers]
    have hrest : window - n - (totalLength pw.buffers - n) = window - totalLength pw.buffers := by
      omega
    rw [hrest]
    by_cases hle : totalLength pw.buffers ≤ window
    · rw [if_pos hle, if_pos (show totalLength pw.buffers - n ≤ window - n by omega)]
      split
      · simp
      · simp
    · rw [if_neg hle, if_neg (show ¬totalLength pw.buffers - n ≤ window - n by omega)]
      split
      · simp
      · simp

/-- **The loop** cuts the writes that `cuts` names. -/
theorem tracked_loop {n : Nat} (hs : s.session = true) (hn : s.writeMeasure ≤ n)
    (h : Tracked asked cut s.pendingWrites frames done) :
    Tracked asked (cut ++ s.cuts) (loop writeTurn n s).1.pendingWrites
      (frames ++ callbacks (loop writeTurn n s).2) (done ++ posts (loop writeTurn n s).2) := by
  induction n generalizing s cut frames done with
  | zero =>
      -- no turns are left, and by its measure the stream has none to make
      cases hturn : s.writeTurn with
      | none => rw [loop_of_none hturn, cuts_of_done hs hturn]; simpa using h
      | some r =>
          have hlt := writeTurn_measure hturn
          omega
  | succ n ih =>
      cases hturn : s.writeTurn with
      | none => rw [loop_of_none hturn, cuts_of_done hs hturn]; simpa using h
      | some r =>
          obtain ⟨s', es⟩ := r
          have hle : s'.writeMeasure ≤ n :=
            Nat.le_of_lt_succ (Nat.lt_of_lt_of_le (writeTurn_measure hturn) hn)
          have hs' : s'.session = true := (cut_turn hturn).session.trans hs
          have hnext : ∀ cut frames done, Tracked asked cut s'.pendingWrites frames done → _ :=
            fun _ _ _ => ih hs' hle
          have hM : 0 < maxMessageSize := by decide
          obtain ⟨pw, rest, hpw, hpos, -⟩ := writeTurn_cases hturn
          have hwin : s.remoteWindowSize ≠ 0 := Nat.ne_of_gt hpos
          rw [loop_of_some hturn]
          rw [writeTurn_alive hs hwin hpw] at hturn
          rw [hpw] at h
          simp only [callbacks_append, posts_append, ← List.append_assoc]
          simp only at hturn
          split at hturn
          · -- nothing to send
            rename_i hzero
            cases hturn
            have hrest := hnext _ _ _ (h.drop fun (_ : ErrorCode.success = .success) => hzero)
            rw [cuts_of_alive hs, hpw, cutBy_whole hwin (by omega), hzero, Nat.sub_zero,
              callbacks_post, callbacks_nil, List.append_nil, posts_post, posts_nil]
            rw [cuts_of_alive hs'] at hrest
            exact hrest
          · split at hturn
            · -- a part is sent, and then the turn comes to what is left
              rename_i hlt
              cases hturn
              have hleft := totalLength_eq
                (skipBuffers pw.buffers (min (min (totalLength pw.buffers)
                s.remoteWindowSize) maxMessageSize))
              rw [flatten_skipBuffers, List.length_drop, ← totalLength_eq] at hleft
              have hrest := hnext _ _ _ (h.split (by rw [hleft]; omega))
              rw [cuts_of_alive hs'] at hrest
              rw [callbacks_send, callbacks_nil, posts_send, posts_nil, List.append_nil]
              refine hrest.congr fun x => ?_
              rw [cuts_of_alive hs, hpw, List.mem_append, List.mem_append, List.mem_append,
                List.mem_singleton, mem_cutBy_split hwin rfl hlt hleft, or_assoc]
            · -- the rest of the write is sent
              rename_i hfull
              cases hturn
              have hall : min (min (totalLength pw.buffers) s.remoteWindowSize) maxMessageSize =
                  totalLength pw.buffers := by omega
              have hrest := hnext _ _ _ h.send
              rw [cuts_of_alive hs', hall] at hrest
              rw [hall, cuts_of_alive hs, hpw, cutBy_whole hwin (by omega),
                callbacks_send, callbacks_nil, posts_send, posts_nil, List.append_nil]
              exact hrest

theorem tracked_doWrite (h : Tracked asked cut s.pendingWrites frames done) :
    Tracked asked (cut ++ s.cuts) s.doWrite.1.pendingWrites (frames ++ callbacks s.doWrite.2)
      (done ++ posts s.doWrite.2) := by
  cases hs : s.session with
  | true => exact tracked_loop hs (Nat.le_refl _) h
  | false =>
      have hdropped := dropped_doWrite hs
      have hcuts : s.cuts = [] := by
        rw [MuxStream.cuts, hs]
        rfl
      have hcallbacks : ∀ l : List PendingWrite,
          callbacks (l.map fun pw => .post (dropped pw)) = [] := by
        intro l
        induction l with
        | nil => rfl
        | cons pw l ih => exact ih
      rw [hdropped.left, hdropped.effects, hcuts, List.append_nil]
      by_cases hwin : s.remoteWindowSize = 0
      · simpa [if_pos hwin] using h
      · simpa [if_neg hwin, hcallbacks, posts_map_post] using h.dropAll

end MuxStream

namespace WriteRun

variable {t t' : WriteRun}

/-- The run explains every count, and only errors fail writes. -/
structure Inv (t : WriteRun) : Prop where
  tracked : Tracked t.asked t.cut t.stream.pendingWrites t.frames t.done
  failures : ∀ ec ∈ t.failures, ec ≠ .success

theorem inv_start (id : UInt32) (window : Nat) : Inv (start id window) where
  tracked := ⟨List.Pairwise.nil, by simp [start], by simp [start], by simp [start], by simp [start]⟩
  failures := by simp [start]

theorem inv_doWrite {s : MuxStream} (h : Tracked asked cut s.pendingWrites t.frames t.done)
    (hfailures : ∀ ec ∈ t.failures, ec ≠ .success) :
    Inv (put { t with asked, cut := cut ++ s.cuts } s.doWrite) :=
  ⟨MuxStream.tracked_doWrite h, hfailures⟩

/-- An operation that ends writes with an error, if any, and sends no write. -/
theorem inv_put (h : Inv t) {r : MuxStream × List Effect}
    (hpending : r.1.pendingWrites.Sublist t.stream.pendingWrites)
    (hframes : ∀ handler n, .invoke handler n ∉ callbacks r.2)
    (hposts : ∀ c ∈ posts r.2, c.ec ≠ .success) : Inv (t.put r) where
  tracked := by
    refine h.tracked.fewer hpending (fun handler n hn => ?_) fun c hc hec => ?_
    · exact (List.mem_append.mp hn).resolve_right (hframes handler n)
    · exact (List.mem_append.mp hc).resolve_right fun hmem => hposts c hmem hec
  failures := h.failures

theorem callbacks_map_post {α : Type} (l : List α) (f : α → Completion) :
    callbacks (l.map fun a => .post (f a)) = [] := by
  induction l with
  | nil => rfl
  | cons a l ih => exact ih

theorem callbacks_abortEffects (s : MuxStream) : callbacks s.abortEffects = [] := by
  rw [MuxStream.abortEffects, callbacks_append, callbacks_map_post, callbacks_map_post]
  rfl

theorem inv_close (h : Inv t) : Inv (t.put t.stream.close) := by
  unfold MuxStream.close
  split
  · exact inv_put h (List.Sublist.refl _) (by simp) (by simp)
  · refine inv_put h (List.nil_sublist _) (fun handler n hn => ?_) fun c hc => ?_
    · have hcleanup : ∀ s : MuxStream, callbacks s.checkCleanup = [] := fun s => by
        rcases s.checkCleanup_eq with hnil | ⟨hone, -⟩
        · rw [hnil]
          rfl
        · rw [hone]
          rfl
      rw [callbacks_append, callbacks_append, callbacks_abortEffects, hcleanup, List.append_nil,
        List.append_nil] at hn
      split at hn
      · cases List.mem_singleton.mp hn
      · exact (List.not_mem_nil hn).elim
    · have hfin : ∀ (b : Bool) (f : Frame), posts (if b then [.send f .none] else []) = [] := by
        intro b f
        cases b <;> rfl
      rw [posts_append, posts_append, posts_checkCleanup, hfin, List.append_nil, List.nil_append,
        MuxStream.abortEffects, posts_append, posts_map_post, posts_map_post] at hc
      rcases List.mem_append.mp hc with hc | hc
      · obtain ⟨pr, -, rfl⟩ := List.mem_map.mp hc
        simp
      · obtain ⟨pw, -, rfl⟩ := List.mem_map.mp hc
        simp

/-- One step of a run. -/
theorem inv_step {e : Event} (h : Inv t) (hstep : t.step e = some t') : Inv t' := by
  have hsame : Inv { t with cut := t.cut ++ [] } := by rwa [List.append_nil]
  cases e with
  | asyncWrite buffers =>
      have hask := h.tracked.ask buffers
      simp only [step, cuts, beforeWrite] at hstep
      cases Option.some.inj hstep
      unfold MuxStream.asyncWrite
      split
      · -- refused
        refine ⟨?_, h.failures⟩
        show Tracked _ (t.cut ++ []) _ (t.frames ++ []) (t.done ++ [_])
        rw [List.append_nil, List.append_nil]
        refine hask.fewer (List.sublist_append_left _ _) (fun _ _ hn => hn) fun c hc hec => ?_
        rcases List.mem_append.mp hc with hc | hc
        · exact hc
        · -- its handler is called with an error
          rw [List.mem_singleton.mp hc] at hec
          cases hec
      · exact inv_doWrite hask h.failures
  | handleWindowUpdate delta =>
      cases Option.some.inj hstep
      exact inv_doWrite (s := { t.stream with
        remoteWindowSize := min (t.stream.remoteWindowSize + delta.toNat) maxMessageSize })
        h.tracked h.failures
  | frameDone i ec =>
      obtain ⟨cb, hcb, rfl⟩ := Option.map_eq_some_iff.mp hstep
      have hmem : cb ∈ t.frames := List.mem_of_getElem? hcb
      have hfewer : Tracked t.asked (t.cut ++ []) t.stream.pendingWrites
          (t.frames.eraseIdx i) t.done :=
        hsame.tracked.fewer (List.Sublist.refl _) (fun _ _ hn => List.mem_of_mem_eraseIdx hn)
          fun c hc _ => hc
      cases cb with
      | none => exact ⟨hfewer, h.failures⟩
      | failPending =>
          rw [called]
          by_cases hec : ec = .success
          · rw [if_pos hec]
            exact ⟨hfewer, h.failures⟩
          · -- `fail_pending_writes` will find the error of the frame
            rw [if_neg hec]
            refine ⟨hfewer, fun ec' hec' => ?_⟩
            rcases List.mem_append.mp hec' with hec' | hec'
            · exact h.failures ec' hec'
            · rw [List.mem_singleton.mp hec']
              exact hec
      | invoke handler n =>
          refine ⟨⟨hfewer.order, hfewer.left, hfewer.sent, fun c hc hsuccess => ?_, hfewer.below⟩,
            h.failures⟩
          rcases List.mem_append.mp hc with hc | hc
          · exact hfewer.reported c hc hsuccess
          · cases List.mem_singleton.mp hc
            -- the count of a successful frame is the one it was sent with
            have hec : ec = .success := hsuccess
            show Left _ _ handler (if ec = .success then n else 0) ∧ _
            rw [if_pos hec]
            exact hsame.tracked.sent handler n hmem
  | failWrites i =>
      obtain ⟨ec, hec, rfl⟩ := Option.map_eq_some_iff.mp hstep
      have hinv : Inv { t with cut := t.cut ++ [], failures := t.failures.eraseIdx i } :=
        ⟨hsame.tracked, fun ec' hec' => h.failures ec' (List.mem_of_mem_eraseIdx hec')⟩
      refine inv_put hinv (List.nil_sublist _) (fun handler n hn => ?_) fun c hc => ?_
      · rw [MuxStream.failWrites, callbacks_map_post] at hn
        exact (List.not_mem_nil hn).elim
      · rw [MuxStream.failWrites, posts_map_post] at hc
        obtain ⟨pw, -, rfl⟩ := List.mem_map.mp hc
        exact h.failures ec (List.mem_of_getElem? hec)
  | close =>
      cases Option.some.inj hstep
      exact inv_close hsame
  | expire =>
      cases Option.some.inj hstep
      exact ⟨hsame.tracked, h.failures⟩

theorem called_cut (t : WriteRun) (ec : ErrorCode) (cb : Callback) :
    (t.called ec cb).cut = t.cut := by
  cases cb with
  | none => rfl
  | failPending => by_cases hec : ec = .success <;> simp [called, hec]
  | invoke handler n => rfl

/-- The history of the cuts. -/
theorem step_cut {e : Event} (h : t.step e = some t') : t'.cut = t.cut ++ t.cuts e := by
  cases e with
  | frameDone i ec =>
      obtain ⟨cb, -, rfl⟩ := Option.map_eq_some_iff.mp h
      exact called_cut _ ec cb
  | failWrites i =>
      obtain ⟨ec, -, rfl⟩ := Option.map_eq_some_iff.mp h
      rfl
  | asyncWrite buffers => exact (congrArg cut (Option.some.inj h)).symm
  | handleWindowUpdate delta => exact (congrArg cut (Option.some.inj h)).symm
  | close => exact (congrArg cut (Option.some.inj h)).symm
  | expire => exact (congrArg cut (Option.some.inj h)).symm

theorem cut_of_whole {id : UInt32} {window : Nat}
    (h : Reach step (fun t e => t.whole e = true) (start id window) t) : t.cut = [] := by
  refine h.invariant (P := fun t => t.cut = []) rfl fun t e t' hcut hwhole hstep => ?_
  rw [step_cut hstep, hcut, List.isEmpty_iff.mp hwhole]
  rfl

/-- **The count of a write**: a handler that is called without an error is told the size of
its write exactly if the write was not cut, so in a run that cuts none they all are. -/
theorem exact_of_reach {id : UInt32} {window : Nat} (h : Reach step anyStep (start id window) t) :
    (∀ c ∈ t.done, c.ec = .success → (t.Exact c ↔ c.handler ∉ t.cut)) ∧
      (Reach step (fun t e => t.whole e = true) (start id window) t →
        ∀ c ∈ t.done, c.ec = .success → t.Exact c) := by
  have hinv : Inv t := h.invariant (P := Inv) (inv_start id window) fun _ _ _ ht _ hstep =>
    inv_step ht hstep
  have hexact : ∀ c ∈ t.done, c.ec = .success → (t.Exact c ↔ c.handler ∉ t.cut) := by
    intro c hc hec
    obtain ⟨⟨buffers, hbuffers, -, hiff⟩, -⟩ := hinv.tracked.reported c hc hec
    rw [← hiff]
    constructor
    · rintro ⟨buffers', hbuffers', hcount⟩
      rw [hbuffers] at hbuffers'
      rw [hcount, Option.some.inj hbuffers']
    · exact fun hcount => ⟨buffers, hbuffers, hcount⟩
  refine ⟨hexact, fun hwhole c hc hec => (hexact c hc hec).mpr ?_⟩
  rw [cut_of_whole hwhole]
  exact List.not_mem_nil

/-- Three bytes with a window of four, and two more bytes when there is room again. -/
theorem exact_of_writes :
    ∃ t, Reach step anyStep (start 1 4) t ∧
      ((∀ c ∈ t.done, c.ec = .success → (t.Exact c ↔ c.handler ∉ t.cut)) ∧
        (Reach step (fun t e => t.whole e = true) (start 1 4) t →
          ∀ c ∈ t.done, c.ec = .success → t.Exact c)) ∧
      (t.done, t.cut) = ([{ handler := 0, count := 3 }, { handler := 1, count := 1 }], [1]) := by
  obtain ⟨t, ht, hdone⟩ := exists_of_runAll step
    [.asyncWrite [[1], [2, 3]], .asyncWrite [[4, 5]], .handleWindowUpdate 8, .frameDone 0 .success,
      .frameDone 0 .success, .frameDone 0 .success]
    (fun t => (t.done, t.cut)) (s := start 1 4)
    (a := ([{ handler := 0, count := 3 }, { handler := 1, count := 1 }], [1])) (by decide)
  exact ⟨t, ht, exact_of_reach ht, hdone⟩

/-- A write of one byte more than the window of a new stream goes out in two frames. -/
theorem two_slices {body : List Byte} (hbody : body.length = initialWindowSize) :
    ∃ t c, Reach step anyStep (start 1 initialWindowSize) t ∧ c ∈ t.done ∧ c.ec = .success ∧
      t.asked = [[body, [7]]] ∧ c.count = 1 ∧ ¬t.Exact c := by
  have htotal : totalLength [body, [7]] = 131073 := by
    simp [totalLength, hbody, initialWindowSize]
  have hcut : cutBy [⟨[body, [7]], 0⟩] initialWindowSize = [0] := by
    have hM : maxMessageSize = 1048576 := rfl
    simp [cutBy, htotal, initialWindowSize, hM]
  have hwrite : (start 1 initialWindowSize).step (.asyncWrite [body, [7]]) =
      some
        { stream := { id := 1, remoteWindowSize := 0, pendingWrites := [⟨[[7]], 0⟩] }
          asked := [[body, [7]]], frames := [.failPending], cut := [0] } := by
    have hfirst : asyncWrite { id := 1 } [body, [7]] 0 = _ := asyncWrite_first hbody (by decide)
    show some (put _ (asyncWrite { id := 1 } [body, [7]] 0)) = _
    rw [hfirst, ← hcut]
    rfl
  have hrest : runAll step
    { stream := { id := 1, remoteWindowSize := 0, pendingWrites := [⟨[[7]], 0⟩] },
      asked := [[body, [7]]], frames := [.failPending], cut := [0] }
      [.handleWindowUpdate 1, .frameDone 0 .success, .frameDone 0 .success] =
      some
        { stream := { id := 1, remoteWindowSize := 0 }, asked := [[body, [7]]]
          done := [{ handler := 0, count := 1 }], cut := [0] } := rfl
  refine ⟨_, _, (Reach.init.next _ trivial hwrite).trans (reach_of_runAll hrest),
    List.mem_cons_self, rfl, rfl, rfl, ?_⟩
  rintro ⟨buffers, hbuffers, hcount⟩
  cases hbuffers
  rw [htotal] at hcount
  cases hcount

/-- One byte more than the window of a new stream: the first frame takes 131072 bytes, the
second one the last byte and the handler, which is told that one byte was written. -/
theorem count_of_last_slice :
    ∃ t c, Reach step anyStep (start 1 initialWindowSize) t ∧ c ∈ t.done ∧ c.ec = .success ∧
      t.asked = [[List.replicate initialWindowSize 0, [7]]] ∧ c.count = 1 ∧ ¬t.Exact c :=
  two_slices (List.length_replicate : (List.replicate initialWindowSize (0 : Byte)).length = _)

end WriteRun

end Cfrp.Mux
