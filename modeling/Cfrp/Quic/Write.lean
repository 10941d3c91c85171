import Cfrp.Lib.Transition
import Mathlib.Logic.Function.Basic
import Mathlib.Data.List.Basic

/-!
# The write queue of a QUIC session

`QuicSession::write_stream` queues what it is given, and `do_write` offers the front of the
queue to ngtcp2 and sends the packet that comes back. What ngtcp2 takes of an offer is
counted in `consumed`, but only after the packet has been sent: when the socket would
block, the loop is left before the count, although ngtcp2 has taken the bytes and will
retransmit the packet by itself. The next turn offers them again.

The code never looks at the bytes, so they are of any type `β` here. What ngtcp2 and the
socket answer is part of the event. Every method runs on the session's strand; a call from
elsewhere posts itself there, and its place in the order of calls is where it runs.
-/

namespace Cfrp.Quic

open Lib

universe u

/-- A stream of the QUIC connection. -/
abbrev StreamId := Int
/-- A completion handler. -/
abbrev HandlerId := Nat

/-- What a completion handler is told. -/
inductive WriteResult where
  | ok (bytes : Nat)
  | connectionReset
  | noBufferSpace
  deriving DecidableEq

structure PendingWrite (β : Type u) where
  streamId : StreamId
  bodies : List (List β)
  consumed : Nat := 0
  handler : HandlerId
  /-- Where in the stream the first byte stands. -/
  start : Nat

/-- `socket_.send_to` of a packet. -/
inductive SendResult where
  | ok
  /-- `would_block` or `try_again`. -/
  | wouldBlock
  | operationAborted
  | failed
  deriving DecidableEq

/-- What `ngtcp2_conn_writev_stream` returns: nothing to send, or a packet and
`consumed_datalen`, and then what becomes of the packet. -/
inductive Writev where
  | nothing
  | packet (consumed : Option Nat) (send : SendResult)
  deriving DecidableEq

/-- One call of `ngtcp2_conn_writev_stream`: what ngtcp2 had of the stream, and what it was
offered. -/
structure Offer (β : Type u) where
  streamId : StreamId
  before : List β
  bytes : List β

/-- The session, with what ngtcp2 and the callers have seen of it: the bodies written to
each stream in the order of the calls, the bytes ngtcp2 has accepted for it, the offers
made, and the writes whose handlers were told that they are complete. -/
structure QuicSession (β : Type u) where
  writeQueue : List (PendingWrite β) := []
  isWriting : Bool := false
  closedNotified : Bool := false
  posted : List (HandlerId × WriteResult) := []
  written : StreamId → List β := fun _ => []
  accepted : StreamId → List β := fun _ => []
  offers : List (Offer β) := []
  completed : List (PendingWrite β) := []

namespace PendingWrite

variable {β : Type u}

/-- The `ngtcp2_vec`s of a write: its bodies without the first `skip` bytes. -/
def prepare : Nat → List (List β) → List (List β)
  | _, [] => []
  | skip, b :: bodies =>
      if skip ≥ b.length then prepare (skip - b.length) bodies
      else b.drop skip :: prepare 0 bodies

/-- The bytes of a write that are offered next. -/
def left (pw : PendingWrite β) : List β := (prepare pw.consumed pw.bodies).flatten

/-- The writes the loop pops without a call: nothing is left of them, yet they have bodies. -/
def stale (pw : PendingWrite β) : Bool :=
  (prepare pw.consumed pw.bodies).isEmpty && !pw.bodies.isEmpty

/-- The number of bytes taken of an offer. -/
def taken (consumed : Option Nat) (pw : PendingWrite β) : Nat :=
  min (consumed.getD 0) pw.left.length

theorem prepare_flatten (skip : Nat) (bodies : List (List β)) :
    (prepare skip bodies).flatten = bodies.flatten.drop skip := by
  induction bodies generalizing skip with
  | nil => simp [prepare]
  | cons b bodies ih =>
      rw [prepare, List.flatten_cons]
      by_cases hskip : skip ≥ b.length
      · rw [if_pos hskip, ih, List.drop_append, List.drop_eq_nil_of_le hskip, List.nil_append]
      · rw [if_neg hskip, List.flatten_cons, ih, List.drop_zero]
        rw [List.drop_append_of_le_length (Nat.le_of_lt (Nat.lt_of_not_le hskip))]

theorem left_eq (pw : PendingWrite β) : pw.left = pw.bodies.flatten.drop pw.consumed :=
  prepare_flatten pw.consumed pw.bodies

theorem left_of_stale {pw : PendingWrite β} (h : pw.stale = true) : pw.left = [] := by
  rw [stale, Bool.and_eq_true, List.isEmpty_iff] at h
  rw [left, h.1, List.flatten_nil]

theorem taken_le (consumed : Option Nat) (pw : PendingWrite β) :
    pw.taken consumed ≤ pw.left.length := Nat.min_le_right _ _

end PendingWrite

namespace QuicSession

variable {β : Type u}

def popStale (s : QuicSession β) : QuicSession β :=
  { s with writeQueue := s.writeQueue.dropWhile PendingWrite.stale }

/-- ngtcp2 appends the first bytes of an offer to the stream. -/
def accept (s : QuicSession β) (streamId : StreamId) (bytes : List β) : QuicSession β :=
  { s with accepted := Function.update s.accepted streamId (s.accepted streamId ++ bytes) }

/-- The packet has been sent: count what it took of the write. -/
def count (s : QuicSession β) (pw : PendingWrite β) (rest : List (PendingWrite β)) (n : Nat) :
    QuicSession β :=
  let pw := { pw with consumed := pw.consumed + n }
  let total := pw.bodies.flatten.length
  if pw.consumed ≥ total then
    { s with
      posted := s.posted ++ [(pw.handler, .ok total)]
      completed := s.completed ++ [pw]
      writeQueue := rest }
  else { s with writeQueue := pw :: rest }

def closeSession (s : QuicSession β) : QuicSession β := { s with closedNotified := true }

/-- The call of `ngtcp2_conn_writev_stream` itself. -/
def offer (s : QuicSession β) (pw : PendingWrite β) : QuicSession β :=
  { s with offers := s.offers ++ [⟨pw.streamId, s.accepted pw.streamId, pw.left⟩] }

/-- What the loop does after the call, and whether it goes on. -/
def afterCall (s : QuicSession β) (pw : PendingWrite β) (rest : List (PendingWrite β)) :
    Writev → QuicSession β × Bool
  | .nothing => (s, false)
  | .packet consumed send =>
      let n := pw.taken consumed
      let s := s.accept pw.streamId (pw.left.take n)
      match send with
      | .wouldBlock => (s, false)
      | .operationAborted => (s, false)
      | .failed => (s.closeSession, false)
      | .ok => if 0 < n then (s.count pw rest n, true) else (s, false)

/-- One pass of the loop of `do_write`. -/
def turn (s : QuicSession β) (call : Writev) : QuicSession β × Bool :=
  match s.popStale.writeQueue with
  | [] => (s.popStale, false)
  | pw :: rest => (s.popStale.offer pw).afterCall pw rest call

/-- The loop of `do_write`: at most 16 packets. Once `calls` is used up, ngtcp2 has nothing
to send. -/
def writeLoop : List Writev → Nat → QuicSession β → QuicSession β
  | [], packetsSent, s => if packetsSent ≥ 16 then s else (s.turn .nothing).1
  | call :: calls, packetsSent, s =>
      if packetsSent ≥ 16 then s
      else
        match s.turn call with
        | (s, true) => writeLoop calls (packetsSent + 1) s
        | (s, false) => s

def setWriting (s : QuicSession β) (b : Bool) : QuicSession β := { s with isWriting := b }

def doWrite (s : QuicSession β) (calls : List Writev) : QuicSession β :=
  if s.closedNotified then s
  else if s.isWriting then s
  else (writeLoop calls 0 (s.setWriting true)).setWriting false

def maxPendingWrites : Nat := 1024

/-- The part of `write_stream` before `do_write`. -/
def enqueue (s : QuicSession β) (streamId : StreamId) (buffers : List (List β))
    (handler : HandlerId) : QuicSession β :=
  { s with
    writeQueue := s.writeQueue ++
      [{ streamId, bodies := buffers, handler, start := (s.written streamId).length }]
    written :=
      Function.update s.written streamId (s.written streamId ++ buffers.flatten) }

/-- A write is refused: its handler is told why. -/
def refuse (s : QuicSession β) (handler : HandlerId) (result : WriteResult) : QuicSession β :=
  { s with posted := s.posted ++ [(handler, result)] }

def writeStream (s : QuicSession β) (streamId : StreamId) (buffers : List (List β))
    (handler : HandlerId) (calls : List Writev) : QuicSession β :=
  if s.closedNotified then s.refuse handler .connectionReset
  else if s.writeQueue.length ≥ maxPendingWrites then s.refuse handler .noBufferSpace
  else (s.enqueue streamId buffers handler).doWrite calls

/-- What `write_stream` does once it has found the session open. -/
def pushWrite (s : QuicSession β) (streamId : StreamId) (buffers : List (List β))
    (handler : HandlerId) (calls : List Writev) : QuicSession β :=
  if s.writeQueue.length ≥ maxPendingWrites then s.refuse handler .noBufferSpace
  else (s.enqueue streamId buffers handler).doWrite calls

inductive Event (β : Type u) where
  | writeStream (streamId : StreamId) (buffers : List (List β)) (handler : HandlerId)
      (calls : List Writev)
  /-- From `send_packets`, or from the retry timer. -/
  | doWrite (calls : List Writev)
  /-- A read error, the idle timeout, or the peer's close. -/
  | closeSession

def step (s : QuicSession β) : Event β → Option (QuicSession β)
  | .writeStream streamId buffers handler calls =>
      some (s.writeStream streamId buffers handler calls)
  | .doWrite calls => some (s.doWrite calls)
  | .closeSession => some s.closeSession

/-! ## What is still to be offered -/

/-- The bytes the queue has left for a stream. -/
def toOffer (s : QuicSession β) (streamId : StreamId) : List β :=
  (s.writeQueue.filter fun pw => pw.streamId == streamId).flatMap PendingWrite.left

/-- **Integrity.** What ngtcp2 has of a stream is a prefix of what was written to it; every
offer continued it without a gap or a repetition; and as long as the session is open, what
is left to be offered is exactly what is missing. -/
structure Integrity (s : QuicSession β) : Prop where
  isPrefix : ∀ streamId, s.accepted streamId <+: s.written streamId
  offered : ∀ o ∈ s.offers, o.before ++ o.bytes <+: s.written o.streamId
  rest : s.closedNotified = false →
    ∀ streamId, s.accepted streamId ++ s.toOffer streamId = s.written streamId

theorem toOffer_popStale (s : QuicSession β) (streamId : StreamId) :
    s.popStale.toOffer streamId = s.toOffer streamId := by
  show ((s.writeQueue.dropWhile PendingWrite.stale).filter _).flatMap PendingWrite.left =
    (s.writeQueue.filter _).flatMap PendingWrite.left
  induction s.writeQueue with
  | nil => rfl
  | cons pw queue ih =>
      rw [List.dropWhile_cons]
      cases hstale : pw.stale with
      | false => rfl
      | true =>
          rw [if_pos rfl, ih, List.filter_cons]
          split
          · rw [List.flatMap_cons, PendingWrite.left_of_stale hstale, List.nil_append]
          · rfl

theorem Integrity.popStale {s : QuicSession β} (h : Integrity s) : Integrity s.popStale where
  isPrefix := h.isPrefix
  offered := h.offered
  rest hopen streamId := by
    rw [toOffer_popStale]
    exact h.rest hopen streamId

/-- The front of the queue comes first. -/
theorem toOffer_cons {s : QuicSession β} {pw : PendingWrite β} {queue : List (PendingWrite β)}
    (h : s.writeQueue = pw :: queue) (streamId : StreamId) :
    s.toOffer streamId = (if pw.streamId = streamId then pw.left else []) ++
      (queue.filter fun p => p.streamId == streamId).flatMap PendingWrite.left := by
  rw [toOffer, h, List.filter_cons]
  by_cases hid : pw.streamId = streamId
  · rw [if_pos (beq_iff_eq.mpr hid), if_pos hid, List.flatMap_cons]
  · rw [if_neg (fun hh => hid (beq_iff_eq.mp hh)), if_neg hid, List.nil_append]

/-! ## One pass of the loop -/

/-- Making an offer. -/
theorem Integrity.offer {s : QuicSession β} (h : Integrity s) (hopen : s.closedNotified = false)
    {pw : PendingWrite β} {queue : List (PendingWrite β)} (hq : s.writeQueue = pw :: queue) :
    Integrity (s.offer pw) where
  isPrefix := h.isPrefix
  offered o ho := by
    rcases List.mem_append.mp ho with ho | ho
    · exact h.offered o ho
    · rw [List.mem_singleton.mp ho]
      show s.accepted pw.streamId ++ pw.left <+: s.written pw.streamId
      have hrest := h.rest hopen pw.streamId
      rw [toOffer_cons hq, if_pos rfl, ← List.append_assoc] at hrest
      exact ⟨_, hrest⟩
  rest := h.rest

theorem accept_self (s : QuicSession β) (streamId : StreamId) (bytes : List β) :
    (s.accept streamId bytes).accepted streamId = s.accepted streamId ++ bytes :=
  Function.update_self ..

theorem accept_of_ne (s : QuicSession β) {streamId other : StreamId} (bytes : List β)
    (h : other ≠ streamId) : (s.accept streamId bytes).accepted other = s.accepted other :=
  Function.update_of_ne h ..

/-- What ngtcp2 takes of an offer is what comes next in the stream. -/
theorem Integrity.accept_prefix {s : QuicSession β} (h : Integrity s)
    (hopen : s.closedNotified = false) {pw : PendingWrite β} {queue : List (PendingWrite β)}
    (hq : s.writeQueue = pw :: queue) (n : Nat) (streamId : StreamId) :
    (s.accept pw.streamId (pw.left.take n)).accepted streamId <+: s.written streamId := by
  by_cases hid : streamId = pw.streamId
  · rw [hid, accept_self]
    have hrest := h.rest hopen pw.streamId
    rw [toOffer_cons hq, if_pos rfl, ← List.append_assoc] at hrest
    refine List.IsPrefix.trans ?_ ⟨_, hrest⟩
    exact (List.prefix_append_right_inj _).mpr (List.take_prefix _ _)
  · rw [accept_of_ne s _ hid]
    exact h.isPrefix streamId

/-- Bytes that were taken and counted. -/
theorem Integrity.count {s : QuicSession β} (h : Integrity s) (hopen : s.closedNotified = false)
    {pw : PendingWrite β} {queue : List (PendingWrite β)} (hq : s.writeQueue = pw :: queue)
    (n : Nat) : Integrity ((s.accept pw.streamId (pw.left.take n)).count pw queue n) := by
  have hleft : ({ pw with consumed := pw.consumed + n } : PendingWrite β).left =
      pw.left.drop n := by
    rw [PendingWrite.left_eq, PendingWrite.left_eq, List.drop_drop]
  -- the count takes the bytes off what is left, whether or not this completes the write
  have hoffer : ∀ streamId,
      ((s.accept pw.streamId (pw.left.take n)).count pw queue n).toOffer streamId =
        (if pw.streamId = streamId then pw.left.drop n else []) ++
          (queue.filter fun p => p.streamId == streamId).flatMap PendingWrite.left := by
    intro streamId
    rw [QuicSession.count]
    by_cases hdone : pw.consumed + n ≥ pw.bodies.flatten.length
    · have hnil : pw.left.drop n = [] := by
        rw [PendingWrite.left_eq, List.drop_drop]
        exact List.drop_eq_nil_of_le hdone
      rw [if_pos hdone, hnil, ite_self, List.nil_append]
      rfl
    · rw [if_neg hdone, toOffer_cons rfl, hleft]
  have hsame : ∀ t : QuicSession β, t.accepted = (s.accept pw.streamId (pw.left.take n)).accepted →
      t.written = s.written → t.offers = s.offers →
      (∀ streamId, t.toOffer streamId = (if pw.streamId = streamId then pw.left.drop n else []) ++
          (queue.filter fun p => p.streamId == streamId).flatMap PendingWrite.left) →
      Integrity t := by
    intro t haccepted hwritten hoffers htoOffer
    refine ⟨fun streamId => ?_, fun o ho => ?_, fun _ streamId => ?_⟩
    · rw [haccepted, hwritten]
      exact h.accept_prefix hopen hq n streamId
    · rw [hwritten]
      exact h.offered o (hoffers ▸ ho)
    · rw [haccepted, hwritten, htoOffer]
      have hrest := h.rest hopen streamId
      rw [toOffer_cons hq] at hrest
      by_cases hid : pw.streamId = streamId
      · rw [if_pos hid] at hrest
        rw [if_pos hid, ← hid, accept_self, hid, List.append_assoc,
          ← List.append_assoc _ _ (List.flatMap _ _), List.take_append_drop]
        exact hrest
      · rw [if_neg hid] at hrest
        rw [if_neg hid, accept_of_ne s _ (Ne.symm hid)]
        exact hrest
  refine hsame _ ?_ ?_ ?_ hoffer
  · rw [QuicSession.count]
    split <;> rfl
  · rw [QuicSession.count]
    split <;> rfl
  · rw [QuicSession.count]
    split <;> rfl

/-- Bytes that were taken, and neither counted nor the end of the session. -/
theorem not_integrity_accept {s t : QuicSession β} (h : Integrity s)
    (hopen : s.closedNotified = false) {streamId : StreamId} {bytes : List β}
    (hbytes : bytes ≠ []) (ht : t = s.accept streamId bytes) : ¬ Integrity t := by
  intro hlost
  subst ht
  have hbefore := congrArg List.length (h.rest hopen streamId)
  have hafter := congrArg List.length (hlost.rest hopen streamId)
  rw [accept_self] at hafter
  have hpos : 0 < bytes.length := List.length_pos_iff.mpr hbytes
  have hsame : (s.accept streamId bytes).toOffer streamId = s.toOffer streamId := rfl
  have hwritten : (s.accept streamId bytes).written streamId = s.written streamId := rfl
  rw [hsame, hwritten] at hafter
  rw [List.length_append] at hbefore hafter
  rw [List.length_append] at hafter
  omega

theorem accept_nil (s : QuicSession β) (streamId : StreamId) : s.accept streamId [] = s := by
  rw [accept, List.append_nil, Function.update_eq_self]

/-- Does this call leave the count of the write right? It does not when the packet took bytes
of the write and could not be sent, and the session stays open. -/
def counted (pw : PendingWrite β) : Writev → Bool
  | .packet consumed .wouldBlock => pw.taken consumed == 0
  | .packet consumed .operationAborted => pw.taken consumed == 0
  | _ => true

theorem integrity_afterCall {s : QuicSession β} (h : Integrity s)
    (hopen : s.closedNotified = false) {pw : PendingWrite β} {queue : List (PendingWrite β)}
    (hq : s.writeQueue = pw :: queue) (call : Writev) :
    Integrity (s.afterCall pw queue call).1 ↔ counted pw call = true := by
  cases call with
  | nothing => exact iff_of_true h rfl
  | packet consumed send =>
      -- a packet that is dropped with bytes of the write in it
      have hlost : Integrity (s.accept pw.streamId (pw.left.take (pw.taken consumed))) ↔
          (pw.taken consumed == 0) = true := by
        rw [beq_iff_eq]
        by_cases hzero : pw.taken consumed = 0
        · rw [hzero, List.take_zero, accept_nil]
          exact iff_of_true h rfl
        · refine iff_of_false (not_integrity_accept h hopen ?_ rfl) hzero
          intro hnil
          have hlen := congrArg List.length hnil
          rw [List.length_take, List.length_nil,
            Nat.min_eq_left (PendingWrite.taken_le consumed pw)] at hlen
          exact hzero hlen
      cases send with
      | wouldBlock => exact hlost
      | operationAborted => exact hlost
      | failed =>
          refine iff_of_true ⟨?_, h.offered, ?_⟩ rfl
          · exact h.accept_prefix hopen hq _
          · intro hclosed
            have habsurd : true = false := hclosed
            cases habsurd
      | ok =>
          refine iff_of_true ?_ rfl
          rw [afterCall]
          by_cases hpos : 0 < pw.taken consumed
          · simp only [hpos, if_true]
            exact h.count hopen hq _
          · simp only [hpos, if_false]
            rw [Nat.eq_zero_of_not_pos hpos, List.take_zero, accept_nil]
            exact h

theorem afterCall_continues {s : QuicSession β} {pw : PendingWrite β}
    {queue : List (PendingWrite β)} {call : Writev} (h : (s.afterCall pw queue call).2 = true) :
    (s.afterCall pw queue call).1.closedNotified = s.closedNotified ∧
      counted pw call = true := by
  cases call with
  | nothing => exact absurd h Bool.false_ne_true
  | packet consumed send =>
      cases send with
      | wouldBlock => exact absurd h Bool.false_ne_true
      | operationAborted => exact absurd h Bool.false_ne_true
      | failed => exact absurd h Bool.false_ne_true
      | ok =>
          refine ⟨?_, rfl⟩
          rw [afterCall] at h ⊢
          by_cases hpos : 0 < pw.taken consumed
          · simp only [hpos, if_true, QuicSession.count]
            split <;> rfl
          · simp [hpos] at h

/-- The same for one pass of the loop. -/
def keeps (s : QuicSession β) (call : Writev) : Bool :=
  match s.popStale.writeQueue with
  | [] => true
  | pw :: _ => counted pw call

/-- **One pass** keeps the integrity of every stream exactly if its call leaves the count
right. -/
theorem integrity_turn {s : QuicSession β} (h : Integrity s) (hopen : s.closedNotified = false)
    (call : Writev) : Integrity (s.turn call).1 ↔ s.keeps call = true := by
  rw [turn, keeps]
  cases hq : s.popStale.writeQueue with
  | nil => exact iff_of_true h.popStale rfl
  | cons pw queue => exact integrity_afterCall (h.popStale.offer hopen hq) hopen hq call

/-- The loop goes on with an open session. -/
theorem turn_continues {s : QuicSession β} {call : Writev} (h : (s.turn call).2 = true) :
    (s.turn call).1.closedNotified = s.closedNotified ∧ s.keeps call = true := by
  rw [turn] at h ⊢
  rw [keeps]
  cases hq : s.popStale.writeQueue with
  | nil =>
      rw [hq] at h
      exact absurd h Bool.false_ne_true
  | cons pw queue =>
      rw [hq] at h
      exact afterCall_continues h

/-! ## The whole loop -/

/-- No packet of this turn that took bytes of a write fails to be sent, unless the session
is closed for it. -/
def sendsKeep : List Writev → Nat → QuicSession β → Bool
  | [], _, _ => true
  | call :: calls, packetsSent, s =>
      if packetsSent ≥ 16 then true
      else
        match s.turn call with
        | (s', true) => sendsKeep calls (packetsSent + 1) s'
        | (_, false) => s.keeps call

theorem integrity_writeLoop (calls : List Writev) (packetsSent : Nat) {s : QuicSession β}
    (h : Integrity s) (hopen : s.closedNotified = false) :
    Integrity (writeLoop calls packetsSent s) ↔ sendsKeep calls packetsSent s = true := by
  induction calls generalizing packetsSent s with
  | nil =>
      rw [writeLoop, sendsKeep]
      split
      · exact iff_of_true h rfl
      · refine iff_of_true ((integrity_turn h hopen .nothing).mpr ?_) rfl
        rw [keeps]
        cases s.popStale.writeQueue <;> rfl
  | cons call calls ih =>
      rw [writeLoop, sendsKeep]
      by_cases hcap : packetsSent ≥ 16
      · rw [if_pos hcap, if_pos hcap]
        exact iff_of_true h rfl
      · rw [if_neg hcap, if_neg hcap]
        have hturn := integrity_turn h hopen call
        have hgoes : (s.turn call).2 = true →
            (s.turn call).1.closedNotified = s.closedNotified ∧ s.keeps call = true :=
          turn_continues
        generalize s.turn call = r at hturn hgoes
        obtain ⟨s', goes⟩ := r
        cases goes with
        | false => exact hturn
        | true =>
            obtain ⟨hsame, hkeeps⟩ := hgoes rfl
            exact ih (packetsSent + 1) (hturn.mpr hkeeps) (hsame.trans hopen)

theorem integrity_setWriting {s : QuicSession β} (b : Bool) :
    Integrity (s.setWriting b) ↔ Integrity s :=
  ⟨fun h => ⟨h.isPrefix, h.offered, h.rest⟩, fun h => ⟨h.isPrefix, h.offered, h.rest⟩⟩

/-- The condition on what ngtcp2 and the socket answer in one call of `do_write`. -/
def writesKeep (s : QuicSession β) (calls : List Writev) : Bool :=
  s.closedNotified || s.isWriting || sendsKeep calls 0 (s.setWriting true)

theorem integrity_doWrite {s : QuicSession β} (h : Integrity s) (calls : List Writev) :
    Integrity (s.doWrite calls) ↔ s.writesKeep calls = true := by
  rw [doWrite, writesKeep]
  by_cases hclosed : s.closedNotified = true
  · rw [if_pos hclosed, hclosed]
    exact iff_of_true h rfl
  · by_cases hwriting : s.isWriting = true
    · rw [if_neg hclosed, if_pos hwriting, hwriting, Bool.or_true]
      exact iff_of_true h rfl
    · rw [if_neg hclosed, if_neg hwriting, integrity_setWriting, Bool.eq_false_iff.mpr hclosed,
        Bool.eq_false_iff.mpr hwriting]
      exact integrity_writeLoop calls 0 ((integrity_setWriting true).mpr h)
        (Bool.eq_false_iff.mpr hclosed)

theorem enqueue_self (s : QuicSession β) (streamId : StreamId) (buffers : List (List β))
    (handler : HandlerId) : (s.enqueue streamId buffers handler).written streamId =
      s.written streamId ++ buffers.flatten :=
  Function.update_self ..

theorem enqueue_of_ne (s : QuicSession β) {streamId other : StreamId} (buffers : List (List β))
    (handler : HandlerId) (h : other ≠ streamId) :
    (s.enqueue streamId buffers handler).written other = s.written other :=
  Function.update_of_ne h ..

/-- A new write goes behind everything that is left. -/
theorem Integrity.enqueue {s : QuicSession β} (h : Integrity s) (streamId : StreamId)
    (buffers : List (List β)) (handler : HandlerId) :
    Integrity (s.enqueue streamId buffers handler) := by
  have hgrew : ∀ other, s.written other <+: (s.enqueue streamId buffers handler).written other := by
    intro other
    by_cases hid : other = streamId
    · rw [hid]
      exact ⟨buffers.flatten, (enqueue_self s streamId buffers handler).symm⟩
    · exact ⟨[], by rw [List.append_nil, enqueue_of_ne s buffers handler hid]⟩
  refine ⟨fun other => (h.isPrefix other).trans (hgrew other),
    fun o ho => (h.offered o ho).trans (hgrew o.streamId), fun hopen other => ?_⟩
  have hrest := h.rest hopen other
  have hnew : (s.enqueue streamId buffers handler).toOffer other =
      s.toOffer other ++ if streamId = other then buffers.flatten else [] := by
    rw [toOffer, QuicSession.enqueue, List.filter_append, List.flatMap_append]
    congr 1
    by_cases hid : streamId = other
    · rw [if_pos hid, List.filter_cons, if_pos (beq_iff_eq.mpr hid), List.filter_nil,
        List.flatMap_singleton, PendingWrite.left_eq, List.drop_zero]
    · rw [if_neg hid, List.filter_cons, if_neg fun hh => hid (beq_iff_eq.mp hh), List.filter_nil]
      rfl
  show s.accepted other ++ (s.enqueue streamId buffers handler).toOffer other =
    (s.enqueue streamId buffers handler).written other
  rw [hnew, ← List.append_assoc, hrest]
  by_cases hid : streamId = other
  · rw [if_pos hid, ← hid, enqueue_self]
  · rw [if_neg hid, List.append_nil, enqueue_of_ne s buffers handler (Ne.symm hid)]

/-! ## Every run -/

/-- Every UDP send of a packet into which ngtcp2 has put bytes of a stream succeeds, or ends
the session. -/
def sendsSucceed (s : QuicSession β) : Event β → Bool
  | .writeStream streamId buffers handler calls =>
      s.closedNotified || decide (s.writeQueue.length ≥ maxPendingWrites) ||
        (s.enqueue streamId buffers handler).writesKeep calls
  | .doWrite calls => s.writesKeep calls
  | .closeSession => true

theorem integrity_step {s s' : QuicSession β} {e : Event β} (h : Integrity s)
    (hstep : s.step e = some s') : Integrity s' ↔ s.sendsSucceed e = true := by
  cases e with
  | writeStream streamId buffers handler calls =>
      rw [← Option.some.inj hstep, writeStream, sendsSucceed]
      cases hclosed : s.closedNotified with
      | true =>
          refine iff_of_true ⟨h.isPrefix, h.offered, fun hopen => ?_⟩ rfl
          exact h.rest (hclosed ▸ hopen)
      | false =>
          rw [if_neg Bool.false_ne_true]
          by_cases hfull : s.writeQueue.length ≥ maxPendingWrites
          · rw [if_pos hfull, decide_eq_true hfull]
            exact iff_of_true ⟨h.isPrefix, h.offered, fun _ => h.rest hclosed⟩ rfl
          · rw [if_neg hfull, decide_eq_false hfull]
            exact integrity_doWrite (h.enqueue streamId buffers handler) calls
  | doWrite calls =>
      rw [← Option.some.inj hstep]
      exact integrity_doWrite h calls
  | closeSession =>
      rw [← Option.some.inj hstep]
      refine iff_of_true ⟨h.isPrefix, h.offered, fun hopen => ?_⟩ rfl
      have habsurd : true = false := hopen
      cases habsurd

/-- **The streams of a QUIC session keep their integrity** as long as every UDP send of a
packet with stream bytes in it succeeds or ends the session; and the first that does
neither breaks the stream it is for. -/
theorem stream_integrity {s : QuicSession β}
    (h : Reach step (fun s e => s.sendsSucceed e = true) {} s) :
    Integrity s ∧ ∀ e s', s.step e = some s' → (Integrity s' ↔ s.sendsSucceed e = true) := by
  have hinit : Integrity ({} : QuicSession β) :=
    ⟨fun _ => List.prefix_rfl, fun _ ho => absurd ho List.not_mem_nil, fun _ _ => rfl⟩
  have hinv : Integrity s := h.invariant (P := Integrity) hinit
    fun s e s' hs hok hstep => (integrity_step hs hstep).mpr hok
  exact ⟨hinv, fun e s' hstep => integrity_step hinv hstep⟩

theorem stream_integrity_twoPackets :
    ∃ s : QuicSession UInt8, s.accepted 0 = [1, 2, 3] ∧ Integrity s := by
  obtain ⟨s, hreach, hobs⟩ := exists_of_runGuarded step sendsSucceed
    [.writeStream 0 [[1], [2, 3]] 7 [.packet (some 2) .ok], .doWrite [.packet (some 5) .ok]]
    (fun s => s.accepted 0) (s := ({} : QuicSession UInt8)) (a := [1, 2, 3]) (by decide)
  exact ⟨s, hobs, (stream_integrity hreach).1⟩

/-- The socket would block for a packet that took two bytes, and the next turn offers them
to ngtcp2 once more. -/
theorem stream_integrity_wouldBlock :
    ¬ ∀ (s : QuicSession UInt8), Reach step anyStep {} s →
      ∀ streamId, s.accepted streamId <+: s.written streamId := by
  intro hall
  obtain ⟨s, hreach, hobs⟩ := exists_of_runAll step
    [.writeStream 0 [[1, 2, 3]] 7 [.packet (some 2) .wouldBlock],
      .doWrite [.packet (some 3) .ok]]
    (fun s => (s.accepted 0, s.written 0)) (s := ({} : QuicSession UInt8))
    (a := ([1, 2, 1, 2, 3], [1, 2, 3])) rfl
  obtain ⟨haccepted, hwritten⟩ := Prod.mk.inj hobs
  have hprefix := hall s hreach 0
  rw [haccepted, hwritten] at hprefix
  exact absurd hprefix (by decide)

end QuicSession

end Cfrp.Quic
