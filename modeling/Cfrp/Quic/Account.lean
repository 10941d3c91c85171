import Cfrp.Quic.Completion
import Cfrp.Quic.Connection

/-!
# What becomes of a handler

Reads: `do_read` posts the handlers of the reads it takes off the front of the queue, so
those posted and those still pending are those there were. Writes: `do_write` posts the
handlers of the writes it completes, and the only ones it drops without a call are those
of hollow writes, which it takes for writes that are already consumed.
-/

namespace Cfrp.Quic

open Lib Mux

namespace QuicStream

/-- The handlers of the pending reads. -/
def waiting (s : QuicStream) : List Handler := s.pendingReads.map PendingRead.handler

theorem readTurn_account {s s' : QuicStream} {es : List StreamEffect}
    (h : s.readTurn = some (s', es)) :
    s.waiting = (posts es).map Completion.handler ++ s'.waiting ∧ s'.closed = s.closed := by
  unfold readTurn at h
  unfold waiting
  split at h
  · cases h
  · rename_i pr rest hreads
    rw [hreads]
    split at h
    · split at h
      · cases h
        exact ⟨rfl, rfl⟩
      · cases h
    · split at h
      · cases h
      · cases h
        refine ⟨?_, rfl⟩
        split <;> rfl

/-- **Reading** loses no handler and calls none twice. -/
theorem doRead_account (s : QuicStream) :
    s.waiting = (posts s.doRead.2).map Completion.handler ++ s.doRead.1.waiting ∧
      s.doRead.1.closed = s.closed := by
  unfold doRead
  split
  · exact ⟨rfl, rfl⟩
  · refine loop_induct (R := fun s es s' => s.waiting = (posts es).map Completion.handler ++
      s'.waiting ∧ s'.closed = s.closed) (fun _ => ⟨rfl, rfl⟩) ?_ s.pendingReads.length s
    intro s es s' es' s'' hturn hrest
    obtain ⟨hwaiting, hclosed⟩ := readTurn_account hturn
    refine ⟨?_, hrest.2.trans hclosed⟩
    rw [hwaiting, hrest.1, posts_append, List.map_append, List.append_assoc]

/-- No read is pending, and none will be: the stream has ended, or it has lost its session. -/
def Drained (s : QuicStream) : Prop :=
  s.pendingReads = [] ∧ (s.closed = true ∨ s.session = false)

/-- A stream that has ended completes every read. -/
theorem doRead_ended {s : QuicStream} (hs : s.session = true) (hclosed : s.closed = true) :
    s.doRead.1.pendingReads = [] := by
  have hdone := loop_done (fun s => s.pendingReads.length) (fun _ _ _ => readTurn_measure) _ s
    (Nat.le_refl _)
  have hstill := s.doRead_account.2.trans hclosed
  rw [doRead_live hs] at hstill ⊢
  rw [readTurn] at hdone
  split at hdone
  · rename_i hnil
    exact hnil
  · rw [hstill] at hdone
    simp only [if_true, Bool.not_true, Bool.and_false, Bool.false_eq_true, if_false] at hdone
    split at hdone <;> cases hdone

theorem drained_doRead {s : QuicStream} (h : s.closed = true ∨ s.session = false)
    (hnil : s.session = false → s.pendingReads = []) : s.doRead.1.Drained := by
  cases hs : s.session with
  | true =>
      rcases h with hclosed | hgone
      · exact ⟨doRead_ended hs hclosed, Or.inl (s.doRead_account.2.trans hclosed)⟩
      · rw [hs] at hgone
        cases hgone
  | false =>
      have hdo : s.doRead = (s, []) := by
        rw [doRead, hs]
        rfl
      rw [hdo]
      exact ⟨hnil hs, Or.inr hs⟩

end QuicStream

/-! ## Writes -/

/-- No send of a packet fails for good. -/
def noSendFails (calls : List Writev) : Bool :=
  calls.all fun | .packet _ .failed => false | _ => true

namespace QuicSession

/-- The handlers of the queued writes that have a byte in them, or no buffer. -/
def solid (queue : List (PendingWrite Byte)) : List HandlerId :=
  (queue.filter fun pw => !hollow pw.bodies).map PendingWrite.handler

/-- A queued write is not consumed, as far as it has bytes. -/
def Counted (s : QuicSession Byte) : Prop :=
  ∀ pw ∈ s.writeQueue, pw.consumed = 0 ∨ pw.consumed < pw.bodies.flatten.length

/-- What `do_write` does to the handlers. -/
structure Accounts (s s' : QuicSession Byte) : Prop where
  posted : ∃ new, s'.posted = s.posted ++ new ∧
    solid s.writeQueue = new.map Prod.fst ++ solid s'.writeQueue
  counted : Counted s'
  closed : s'.closedNotified = s.closedNotified

theorem Accounts.refl {s : QuicSession Byte} (h : Counted s) : Accounts s s :=
  ⟨⟨[], (List.append_nil _).symm, rfl⟩, h, rfl⟩

theorem Accounts.trans {s s' s'' : QuicSession Byte} (h : Accounts s s') (h' : Accounts s' s'') :
    Accounts s s'' := by
  obtain ⟨new, hposted, hsolid⟩ := h.posted
  obtain ⟨new', hposted', hsolid'⟩ := h'.posted
  refine ⟨⟨new ++ new', ?_, ?_⟩, h'.counted, h'.closed.trans h.closed⟩
  · rw [hposted', hposted, List.append_assoc]
  · rw [hsolid, hsolid', List.map_append, List.append_assoc]

/-- The writes that are popped without a call are hollow. -/
theorem hollow_of_stale {pw : PendingWrite Byte} (hcounted : pw.consumed = 0 ∨
    pw.consumed < pw.bodies.flatten.length) (h : pw.stale = true) : hollow pw.bodies = true := by
  have hleft := PendingWrite.left_of_stale h
  rw [PendingWrite.left_eq, List.drop_eq_nil_iff] at hleft
  have hnil : pw.bodies.flatten = [] := List.length_eq_zero_iff.mp (by omega)
  rw [PendingWrite.stale, Bool.and_eq_true] at h
  rw [hollow, h.2, hnil]
  rfl

theorem accounts_popStale {s : QuicSession Byte} (h : Counted s) : Accounts s s.popStale := by
  have hsame : ∀ queue : List (PendingWrite Byte),
      (∀ pw ∈ queue, pw.consumed = 0 ∨ pw.consumed < pw.bodies.flatten.length) →
      solid queue = solid (queue.dropWhile PendingWrite.stale) := by
    intro queue hqueue
    induction queue with
    | nil => rfl
    | cons pw queue ih =>
        rw [List.dropWhile_cons]
        cases hstale : pw.stale with
        | false => rfl
        | true =>
            have hhollow := hollow_of_stale (hqueue pw List.mem_cons_self) hstale
            have hskip : solid (pw :: queue) = solid queue := by
              rw [solid, List.filter_cons, hhollow]
              rfl
            rw [if_pos rfl, hskip]
            exact ih fun p hp => hqueue p (List.mem_cons_of_mem _ hp)
  refine ⟨⟨[], (List.append_nil _).symm, hsame _ h⟩, fun pw hpw => ?_, rfl⟩
  exact h pw ((List.dropWhile_sublist _).subset hpw)

/-- What is not in the account: the bytes ngtcp2 has taken and the offers made to it. -/
theorem accounts_offer {s : QuicSession Byte} (h : Counted s) (pw : PendingWrite Byte) :
    Accounts s (s.offer pw) :=
  ⟨⟨[], (List.append_nil _).symm, rfl⟩, h, rfl⟩

theorem accounts_accept {s : QuicSession Byte} (h : Counted s) (streamId : StreamId)
    (bytes : List Byte) : Accounts s (s.accept streamId bytes) :=
  ⟨⟨[], (List.append_nil _).symm, rfl⟩, h, rfl⟩

/-- A write of which bytes were taken is not hollow, and completes with the last of them. -/
theorem accounts_count {s : QuicSession Byte} (h : Counted s) {pw : PendingWrite Byte}
    {rest : List (PendingWrite Byte)} (hq : s.writeQueue = pw :: rest) {n : Nat}
    (hleft : 0 < pw.left.length) : Accounts s (s.count pw rest n) := by
  have hsolid : hollow pw.bodies = false := by
    rw [PendingWrite.left_eq, List.length_drop] at hleft
    have hne : pw.bodies.flatten.isEmpty = false := by
      cases hflat : pw.bodies.flatten with
      | nil =>
          rw [hflat] at hleft
          exact absurd hleft (by simp)
      | cons b bs => rfl
    rw [hollow, hne, Bool.and_false]
  have hrest : ∀ p ∈ rest, p.consumed = 0 ∨ p.consumed < p.bodies.flatten.length :=
    fun p hp => h p (by rw [hq]; exact List.mem_cons_of_mem _ hp)
  have hfront : solid (pw :: rest) = pw.handler :: solid rest := by
    rw [solid, List.filter_cons, hsolid]
    rfl
  rw [QuicSession.count]
  by_cases hdone : pw.consumed + n ≥ pw.bodies.flatten.length
  · simp only [hdone, if_true]
    refine ⟨⟨[(pw.handler, .ok pw.bodies.flatten.length)], rfl, ?_⟩, hrest, rfl⟩
    rw [hq, hfront]
    rfl
  · simp only [hdone, if_false]
    refine ⟨⟨[], (List.append_nil _).symm, ?_⟩, fun p hp => ?_, rfl⟩
    · have hsame : solid ({ pw with consumed := pw.consumed + n } :: rest) =
          pw.handler :: solid rest := by
        rw [solid, List.filter_cons, hsolid]
        rfl
      rw [hq, hfront]
      exact hsame.symm
    · rcases List.mem_cons.mp hp with rfl | hp
      · exact Or.inr (Nat.lt_of_not_le hdone)
      · exact hrest p hp

theorem accounts_afterCall {s : QuicSession Byte} (h : Counted s) {pw : PendingWrite Byte}
    {rest : List (PendingWrite Byte)} (hq : s.writeQueue = pw :: rest) {call : Writev}
    (hcall : noSendFails [call] = true) : Accounts s (s.afterCall pw rest call).1 := by
  cases call with
  | nothing => exact Accounts.refl h
  | packet consumed send =>
      have haccept := accounts_accept h pw.streamId (pw.left.take (pw.taken consumed))
      cases send with
      | wouldBlock => exact haccept
      | operationAborted => exact haccept
      | failed => cases hcall
      | ok =>
          rw [afterCall]
          by_cases hpos : 0 < pw.taken consumed
          · simp only [hpos, if_true]
            have hle := pw.taken_le consumed
            exact haccept.trans (accounts_count haccept.counted hq (by omega))
          · simp only [hpos, if_false]
            exact haccept

theorem accounts_turn {s : QuicSession Byte} (h : Counted s) {call : Writev}
    (hcall : noSendFails [call] = true) : Accounts s (s.turn call).1 := by
  have hpop := accounts_popStale h
  rw [turn]
  cases hq : s.popStale.writeQueue with
  | nil => exact hpop
  | cons pw rest =>
      have hoffer := accounts_offer hpop.counted pw
      exact hpop.trans (hoffer.trans (accounts_afterCall hoffer.counted hq hcall))

theorem accounts_writeLoop (calls : List Writev) (packetsSent : Nat) {s : QuicSession Byte}
    (h : Counted s) (hcalls : noSendFails calls = true) :
    Accounts s (writeLoop calls packetsSent s) := by
  induction calls generalizing packetsSent s with
  | nil =>
      rw [writeLoop]
      split
      · exact Accounts.refl h
      · exact accounts_turn h rfl
  | cons call calls ih =>
      rw [noSendFails, List.all_cons, Bool.and_eq_true] at hcalls
      have hcall : noSendFails [call] = true := by
        rw [noSendFails, List.all_cons, hcalls.1]
        rfl
      have hturn := accounts_turn h hcall
      rw [writeLoop]
      split
      · exact Accounts.refl h
      · generalize s.turn call = r at hturn
        obtain ⟨s', goes⟩ := r
        cases goes with
        | true => exact hturn.trans (ih (packetsSent + 1) hturn.counted hcalls.2)
        | false => exact hturn

/-- **`do_write`** loses the handlers of hollow writes, and no other. -/
theorem accounts_doWrite {s : QuicSession Byte} (h : Counted s) {calls : List Writev}
    (hcalls : noSendFails calls = true) : Accounts s (s.doWrite calls) := by
  rw [doWrite]
  split
  · exact Accounts.refl h
  · split
    · exact Accounts.refl h
    · have hloop := accounts_writeLoop calls 0 (s := s.setWriting true) h hcalls
      exact ⟨hloop.posted, hloop.counted, hloop.closed⟩

end QuicSession

end Cfrp.Quic
