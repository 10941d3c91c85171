import Cfrp.Mux.FullRead
import Cfrp.Quic.Stream

/-!
# What a read of a QUIC stream is promised

The loop of `do_read` serves reads as that of `MuxStream` does, so the same condition keeps
the promise. It excludes more here: with an empty block in the queue a partial read can
complete with nothing, and so can a full read at the end of the stream.
-/

namespace Cfrp.Quic

open Lib Mux

namespace QuicStream

/-- The part of a stream that serving its reads looks at. -/
def buffer (s : QuicStream) : ReadBuffer where
  queue := s.readQueue
  offset := s.readQueueOffset
  reads := s.pendingReads
  ended := s.closed

theorem readTurn_buffer (s : QuicStream) :
    s.readTurn.map (fun r => (r.1.buffer, posts r.2)) = s.buffer.turn := by
  unfold readTurn ReadBuffer.turn
  cases hreads : s.pendingReads with
  | nil => simp only [buffer, hreads, Option.map_none]
  | cons pr rest =>
      simp only [buffer, hreads]
      by_cases hempty : s.readQueue.isEmpty = true
      · rw [if_pos hempty, if_pos hempty]
        by_cases hended : s.closed = true
        · rw [if_pos hended, if_pos hended]
          rfl
        · rw [if_neg hended, if_neg hended]
          rfl
      · rw [if_neg hempty, if_neg hempty]
        split
        · rfl
        · split <;> rfl

/-- **`do_read`** answers the reads it completes, and at the end of the stream it completes
them all. -/
theorem doRead_served {s : QuicStream} (hs : s.session = true)
    (hwithin : MuxStream.WithinFront s.readQueue s.readQueueOffset)
    (hfine : s.buffer.fine = true) :
    s.buffer.Served (posts s.doRead.2) s.doRead.1.buffer ∧
      (s.doRead.1.closed = true → s.doRead.1.pendingReads = []) := by
  rw [doRead_live hs]
  have hloop := loop_map buffer posts rfl posts_append readTurn_buffer s.pendingReads.length s
  have hserved := ReadBuffer.served_loop s.pendingReads.length hwithin hfine
  rw [hloop] at hserved
  refine ⟨hserved, fun hended => ?_⟩
  have hdone := loop_done (fun s => s.pendingReads.length) (fun _ _ _ => readTurn_measure) _ s
    (Nat.le_refl _)
  refine ReadBuffer.served_all (b := (loop readTurn s.pendingReads.length s).1.buffer) ?_ hended
  rw [← readTurn_buffer, hdone]
  rfl

end QuicStream

/-- A stream of a QUIC session and the history of its reads. -/
structure QuicReads where
  stream : QuicStream := {}
  history : History := {}

namespace QuicReads

def put (h : History) (r : QuicStream × List StreamEffect) : QuicReads :=
  ⟨r.1, h.complete (posts r.2)⟩

/-- `recv_stream_data` passes on every block. -/
def step (t : QuicReads) : ReadEvent → Option QuicReads
  | .ask size readAll =>
      let handler := t.history.asked.length
      some (put (t.history.ask ⟨size, handler, readAll⟩) (t.stream.asyncRead size handler readAll))
  | .arrive block => some (put (t.history.arrive block) (t.stream.handleData block))
  | .finish => some (put t.history t.stream.handleClose)

/-- The stream as `do_read` finds it. -/
def beforeRead (t : QuicReads) : ReadEvent → QuicStream
  | .ask size readAll =>
      { t.stream with
        pendingReads := t.stream.pendingReads ++ [⟨size, t.history.asked.length, readAll⟩] }
  | .arrive block => { t.stream with readQueue := t.stream.readQueue ++ [block] }
  | .finish => { t.stream with closed := true }

/-- No read is reached with something but too little left, be it only an empty block. -/
def fine (t : QuicReads) (e : ReadEvent) : Bool := (t.beforeRead e).buffer.fine

/-- The session lives, the history explains the stream, and at the end of the stream no read
is pending. -/
structure Inv (t : QuicReads) : Prop where
  session : t.stream.session = true
  keeps : Keeps t.history t.stream.buffer
  drained : t.stream.closed = true → t.stream.pendingReads = []

theorem inv_start : Inv {} where
  session := rfl
  keeps := ⟨by simp, by simp, by simp [QuicStream.buffer], by simp, by simp, by simp, rfl, rfl⟩
  drained _ := rfl

theorem inv_doRead {h : History} {s : QuicStream} (hs : s.session = true)
    (hk : Keeps h s.buffer) (hfine : s.buffer.fine = true) : Inv (put h s.doRead) := by
  obtain ⟨hserved, hdrained⟩ := QuicStream.doRead_served hs hk.within hfine
  exact ⟨s.doRead_session.trans hs, hk.serve hserved, hdrained⟩

theorem inv_step {t t' : QuicReads} {e : ReadEvent} (h : Inv t) (hok : t.fine e = true)
    (hstep : t.step e = some t') : Inv t' := by
  cases e with
  | ask size readAll =>
      cases Option.some.inj hstep
      have hlive : t.stream.asyncRead size t.history.asked.length readAll =
          QuicStream.doRead (t.beforeRead (.ask size readAll)) := by
        rw [QuicStream.asyncRead, if_neg (by rw [h.session]; exact Bool.false_ne_true)]
        rfl
      rw [hlive]
      exact inv_doRead h.session (h.keeps.ask size readAll) hok
  | arrive block =>
      cases Option.some.inj hstep
      exact inv_doRead h.session (h.keeps.arrive block) hok
  | finish =>
      cases Option.some.inj hstep
      exact inv_doRead h.session h.keeps.finish hok

theorem contract_of_reach {t : QuicReads}
    (h : Reach step (fun t e => t.fine e = true) {} t) :
    Contract t.history t.stream.closed := by
  have hinv : Inv t := h.invariant (P := Inv) inv_start fun s e s' hs hok hstep =>
    inv_step hs hok hstep
  exact hinv.keeps.contract hinv.drained

end QuicReads

/-- **The full-read contract** of both kinds of stream: it is kept as long as no read is
reached with something but too little left. -/
theorem full_reads {id : UInt32} {t : MuxReads} {u : QuicReads}
    (ht : Reach MuxReads.step (fun t e => t.fine e = true) (MuxReads.start id) t)
    (hu : Reach QuicReads.step (fun u e => u.fine e = true) {} u) :
    Contract t.history t.stream.remoteClosed ∧ Contract u.history u.stream.closed :=
  ⟨MuxReads.contract_of_reach ht, QuicReads.contract_of_reach hu⟩

/-- Full reads and a partial read over the blocks of a stream that ends where a read does. -/
theorem full_reads_twoBlocks :
    (∃ t : MuxReads, t.history.done.length = 3 ∧ Contract t.history t.stream.remoteClosed) ∧
      ∃ t : QuicReads, t.history.done.length = 3 ∧ Contract t.history t.stream.closed := by
  obtain ⟨t, ht, hlen⟩ := exists_of_runGuarded MuxReads.step MuxReads.fine
    [.ask 3 true, .arrive [1, 2], .arrive [3, 4], .ask 9 false, .finish, .ask 2 true]
    (fun t => t.history.done.length) (s := MuxReads.start 1) (a := 3) (by decide)
  obtain ⟨u, hu, hlen'⟩ := exists_of_runGuarded QuicReads.step QuicReads.fine
    [.ask 3 true, .arrive [1, 2], .arrive [], .arrive [3, 4], .ask 9 false, .finish, .ask 2 true]
    (fun t => t.history.done.length) (s := ({} : QuicReads)) (a := 3) (by decide)
  obtain ⟨hmux, hquic⟩ := full_reads ht hu
  exact ⟨⟨t, hlen, hmux⟩, u, hlen', hquic⟩

/-- A full read at the end of a MuxStream completes with one byte instead of three, and the
bare FIN of a QUIC stream completes a partial read with none. -/
theorem full_reads_short :
    (¬ ∀ t, Reach MuxReads.step anyStep (MuxReads.start 1) t →
        Contract t.history t.stream.remoteClosed) ∧
      ¬ ∀ t, Reach QuicReads.step anyStep {} t → Contract t.history t.stream.closed := by
  constructor
  · intro hall
    obtain ⟨t, ht, hobs⟩ := exists_of_runAll MuxReads.step [.ask 3 true, .arrive [7], .finish]
      (fun t => (t.history.asked, t.history.done)) (s := MuxReads.start 1)
      (a := ([⟨3, 0, true⟩], [{ handler := 0, count := 1, bytes := [7] }])) (by decide)
    obtain ⟨hasked, hdone⟩ := Prod.mk.inj hobs
    have hanswer := (hall t ht).answers ⟨3, 0, true⟩ (by rw [hasked]; exact List.mem_cons_self)
      { handler := 0, count := 1, bytes := [7] } (by rw [hdone]; exact List.mem_cons_self) rfl
    exact absurd (hanswer.full rfl rfl).1 (by decide)
  · intro hall
    obtain ⟨t, ht, hobs⟩ := exists_of_runAll QuicReads.step [.ask 16 false, .arrive []]
      (fun t => (t.history.asked, t.history.done)) (s := ({} : QuicReads))
      (a := ([⟨16, 0, false⟩], [{ handler := 0 }])) (by decide)
    obtain ⟨hasked, hdone⟩ := Prod.mk.inj hobs
    have hanswer := (hall t ht).answers ⟨16, 0, false⟩ (by rw [hasked]; exact List.mem_cons_self)
      { handler := 0 } (by rw [hdone]; exact List.mem_cons_self) rfl
    exact absurd (hanswer.some rfl rfl (by decide)) (by decide)

end Cfrp.Quic
