import Cfrp.Quic.Write

/-!
# The timer of a QUIC session

`timer_` is one timer with two uses. `schedule_timer` arms it for the expiry of ngtcp2, and
`do_write` arms it for another turn when it has sent 16 packets and has writes left; arming
it cancels the wait there was. `send_packets` ends with `schedule_timer`, after `do_write`.
`write_stream` and the retry itself call `do_write` alone.

What ngtcp2 and the socket answer is part of the event, and with it the expiry ngtcp2 has
afterwards. A callback takes no time on the clock: `tick` is an event of its own.
-/

namespace Cfrp.Quic

open Lib

universe u

/-- What is called when a wait of `timer_` is over. -/
inductive TimerUse where
  /-- `ngtcp2_conn_handle_expiry`. -/
  | handleExpiry
  /-- `do_write`. -/
  | doWrite
  deriving DecidableEq

structure Wait where
  use : TimerUse
  deadline : Nat

/-- What becomes of a `send_packets`. -/
structure Packets where
  /-- A send of one of ngtcp2's own packets fails for good. -/
  fails : Bool := false
  /-- The calls of `do_write`. -/
  calls : List Writev := []
  /-- `ngtcp2_conn_get_expiry` at the end, where `none` is `UINT64_MAX`. -/
  expiry : Option Nat
  /-- Whether the connection is in its closing or draining period at the end. -/
  closing : Bool := false

namespace QuicSession

variable {β : Type u}

/-- `packets_sent` when the loop of `do_write` is left. -/
def packetsSent : List Writev → Nat → QuicSession β → Nat
  | [], n, _ => n
  | call :: calls, n, s =>
      if n ≥ 16 || s.popStale.writeQueue.isEmpty || call == .nothing then n
      else
        match s.turn call with
        | (s, true) => packetsSent calls (n + 1) s
        | (_, false) => n + 1

end QuicSession

/-- A session that is initialised, with its timer. Times are in nanoseconds. -/
structure Timed (β : Type u) where
  session : QuicSession β := {}
  now : Nat
  expiry : Option Nat
  /-- The pending wait of `timer_`. -/
  wait : Option Wait := none
  /-- The handlers of the waits that are over, which the strand has yet to call. -/
  due : List TimerUse := []

namespace Timed

variable {β : Type u}

/-- 5 ms. -/
def expiredDelay : Nat := 5000000

/-- 1 ms. -/
def retryDelay : Nat := 1000000

/-- `expires_after` and `async_wait`. -/
def arm (t : Timed β) (use : TimerUse) (deadline : Nat) : Timed β :=
  { t with wait := some ⟨use, deadline⟩ }

def scheduleTimer (t : Timed β) : Timed β :=
  if t.session.closedNotified then t
  else
    match t.expiry with
    | none => t
    | some e => t.arm .handleExpiry (if e ≤ t.now then t.now + expiredDelay else e)

def closeSession (t : Timed β) : Timed β :=
  if t.session.closedNotified then t
  else { t with session := t.session.closeSession, wait := none }

/-- The condition at the end of `do_write` under which it is called once more in 1 ms. -/
def retries (t : Timed β) (calls : List Writev) : Bool :=
  !(t.session.doWrite calls).writeQueue.isEmpty &&
    decide (QuicSession.packetsSent calls 0 (t.session.setWriting true) ≥ 16)

/-- The expiry after `do_write`, given what it is if ngtcp2 was called at all. -/
def expiryAfter (t : Timed β) (expiry : Option Nat) : Option Nat :=
  if t.session.popStale.writeQueue.isEmpty then t.expiry else expiry

def doWrite (t : Timed β) (calls : List Writev) (expiry : Option Nat) : Timed β :=
  if t.session.closedNotified || t.session.isWriting then t
  else
    let session := t.session.doWrite calls
    -- a send that fails closes the session, which cancels the timer
    let t' := { t with
      session
      expiry := t.expiryAfter expiry
      wait := if session.closedNotified then none else t.wait }
    if t.retries calls then t'.arm .doWrite (t.now + retryDelay) else t'

/-- `check_closed`, which leaves the timer alone. -/
def checkClosed (t : Timed β) (closing : Bool) : Timed β :=
  if closing then { t with session := t.session.closeSession } else t

def sendPackets (t : Timed β) (p : Packets) : Timed β :=
  if t.session.closedNotified then t
  else
    let t := if p.fails then t.closeSession else t
    let t := t.doWrite p.calls p.expiry
    ({ t with expiry := p.expiry }.scheduleTimer).checkClosed p.closing

/-- `handle_packet`, and the handler `schedule_timer` waits with: ngtcp2 is called, and what
it wants to send is sent unless it fails. -/
def answer (t : Timed β) (p : Option Packets) : Timed β :=
  if t.session.closedNotified then t
  else
    match p with
    | none => t.closeSession
    | some p => t.sendPackets p

def writeStream (t : Timed β) (streamId : StreamId) (buffers : List (List β))
    (handler : HandlerId) (calls : List Writev) (expiry : Option Nat) : Timed β :=
  if t.session.closedNotified then
    { t with session := t.session.refuse handler .connectionReset }
  else if t.session.writeQueue.length ≥ QuicSession.maxPendingWrites then
    { t with session := t.session.refuse handler .noBufferSpace }
  else { t with session := t.session.enqueue streamId buffers handler }.doWrite calls expiry

/-- The state after the `schedule_timer` that `init` posts. -/
def start (now : Nat) (expiry : Option Nat) : Timed β :=
  scheduleTimer { now, expiry }

inductive Event (β : Type u) where
  | handlePacket (p : Option Packets)
  | sendPackets (p : Packets)
  | writeStream (streamId : StreamId) (buffers : List (List β)) (handler : HandlerId)
      (calls : List Writev) (expiry : Option Nat)
  /-- The wait is over. -/
  | fire
  /-- The strand calls the first handler that is due. -/
  | handleExpiry (p : Option Packets)
  | retry (calls : List Writev) (expiry : Option Nat)
  | closeSession
  | tick (d : Nat)

def step (t : Timed β) : Event β → Option (Timed β)
  | .handlePacket p => some (t.answer p)
  | .sendPackets p => some (t.sendPackets p)
  | .writeStream streamId buffers handler calls expiry =>
      some (t.writeStream streamId buffers handler calls expiry)
  | .fire =>
      match t.wait with
      | none => none
      | some w =>
          if w.deadline ≤ t.now then some { t with wait := none, due := t.due ++ [w.use] }
          else none
  | .handleExpiry p =>
      match t.due with
      | .handleExpiry :: due => some ({ t with due }.answer p)
      | _ => none
  | .retry calls expiry =>
      match t.due with
      | .doWrite :: due => some ({ t with due }.doWrite calls expiry)
      | _ => none
  | .closeSession => some t.closeSession
  | .tick d => some { t with now := t.now + d }

/-! ## The session underneath -/

/-- `do_write` does nothing in a session that is closed, nor in the middle of itself. -/
def idle (s : QuicSession β) : Bool := s.closedNotified || s.isWriting

theorem doWrite_idle {t : Timed β} (h : idle t.session = true) (calls : List Writev)
    (expiry : Option Nat) : t.doWrite calls expiry = t :=
  if_pos h

/-- Where `do_write` leaves the timer. -/
theorem doWrite_eq {t : Timed β} (h : idle t.session = false) (calls : List Writev)
    (expiry : Option Nat) : t.doWrite calls expiry =
      { t with
        session := t.session.doWrite calls
        expiry := t.expiryAfter expiry
        wait :=
          if t.retries calls then some ⟨.doWrite, t.now + retryDelay⟩
          else if (t.session.doWrite calls).closedNotified then none else t.wait } := by
  unfold idle at h
  unfold doWrite
  rw [h]
  by_cases hretries : t.retries calls = true
  · rw [hretries]
    rfl
  · rw [Bool.eq_false_iff.mpr hretries]
    rfl

/-- The timer decides when `do_write` runs, and has no say in what it does. -/
theorem doWrite_session (t : Timed β) (calls : List Writev) (expiry : Option Nat) :
    (t.doWrite calls expiry).session = t.session.doWrite calls := by
  by_cases h : idle t.session = true
  · rw [doWrite_idle h]
    unfold idle at h
    unfold QuicSession.doWrite
    rcases Bool.or_eq_true_iff.mp h with hclosed | hwriting
    · rw [if_pos hclosed]
    · rw [if_pos hwriting, ite_self]
  · rw [doWrite_eq (Bool.eq_false_iff.mpr h)]

theorem writeStream_session (t : Timed β) (streamId : StreamId) (buffers : List (List β))
    (handler : HandlerId) (calls : List Writev) (expiry : Option Nat) :
    (t.writeStream streamId buffers handler calls expiry).session =
      t.session.writeStream streamId buffers handler calls := by
  unfold writeStream QuicSession.writeStream
  split
  · rfl
  · split
    · rfl
    · exact doWrite_session _ calls expiry

theorem scheduleTimer_session (t : Timed β) : t.scheduleTimer.session = t.session := by
  unfold scheduleTimer
  split
  · rfl
  · split <;> rfl

/-- Runs of the session alone. -/
abbrev Runs (s s' : QuicSession β) : Prop := Reach QuicSession.step anyStep s s'

theorem runs_closeSession (t : Timed β) : Runs t.session t.closeSession.session := by
  unfold closeSession
  split
  · exact Reach.init
  · exact Reach.init.next .closeSession trivial rfl

theorem runs_doWrite (t : Timed β) (calls : List Writev) (expiry : Option Nat) :
    Runs t.session (t.doWrite calls expiry).session := by
  rw [doWrite_session]
  exact Reach.init.next (.doWrite calls) trivial rfl

theorem runs_checkClosed (t : Timed β) (closing : Bool) :
    Runs t.session (t.checkClosed closing).session := by
  unfold checkClosed
  split
  · exact Reach.init.next .closeSession trivial rfl
  · exact Reach.init

theorem runs_sendPackets (t : Timed β) (p : Packets) :
    Runs t.session (t.sendPackets p).session := by
  have hown : Runs t.session (if p.fails then t.closeSession else t).session := by
    split
    · exact runs_closeSession t
    · exact Reach.init
  have hend : ∀ t : Timed β, Runs t.session
      (({ t with expiry := p.expiry }.scheduleTimer).checkClosed p.closing).session := by
    intro t
    have hcheck := runs_checkClosed ({ t with expiry := p.expiry }.scheduleTimer) p.closing
    rw [scheduleTimer_session] at hcheck
    exact hcheck
  unfold sendPackets
  split
  · exact Reach.init
  · exact hown.trans ((runs_doWrite _ p.calls p.expiry).trans (hend _))

theorem runs_answer (t : Timed β) (p : Option Packets) : Runs t.session (t.answer p).session := by
  unfold answer
  split
  · exact Reach.init
  · cases p with
    | none => exact runs_closeSession t
    | some p => exact runs_sendPackets t p

theorem runs_step {t t' : Timed β} {e : Event β} (hstep : t.step e = some t') :
    Runs t.session t'.session := by
  cases e with
  | handlePacket p =>
      cases Option.some.inj hstep
      exact runs_answer t p
  | sendPackets p =>
      cases Option.some.inj hstep
      exact runs_sendPackets t p
  | writeStream streamId buffers handler calls expiry =>
      cases Option.some.inj hstep
      rw [writeStream_session]
      exact Reach.init.next (.writeStream streamId buffers handler calls) trivial rfl
  | fire =>
      rw [step] at hstep
      split at hstep
      · cases hstep
      · split at hstep
        · cases hstep
          exact Reach.init
        · cases hstep
  | handleExpiry p =>
      rw [step] at hstep
      split at hstep
      · rename_i due hdue
        cases hstep
        exact runs_answer { t with due } p
      · cases hstep
  | retry calls expiry =>
      rw [step] at hstep
      split at hstep
      · rename_i due hdue
        cases hstep
        exact runs_doWrite { t with due } calls expiry
      · cases hstep
  | closeSession =>
      cases Option.some.inj hstep
      exact runs_closeSession t
  | tick d =>
      cases Option.some.inj hstep
      exact Reach.init

/-- **The timer on top of the session** adds no behaviour: what a run does to the session is
a run of the session. -/
theorem runs_of_reach {t t' : Timed β} (h : Reach step anyStep t t') :
    Runs t.session t'.session :=
  h.invariant (P := fun t' => Runs t.session t'.session) Reach.init
    fun _ _ _ hruns _ hstep => hruns.trans (runs_step hstep)

/-! ## The expiry is waited for -/

/-- `timer_` waits, for ngtcp2's sake, for no later than `e`; or, when `e` has passed, for no
longer than 5 ms. -/
def waitsFor (t : Timed β) (e : Nat) : Bool :=
  match t.wait with
  | some ⟨.handleExpiry, deadline⟩ =>
      decide (deadline ≤ e) || decide (e ≤ t.now) && decide (deadline ≤ t.now + expiredDelay)
  | _ => false

/-- The expiry of an open session is waited for, or the wait is over and the strand is about
to call `ngtcp2_conn_handle_expiry`. -/
def Covered (t : Timed β) : Prop :=
  t.session.closedNotified = false → ∀ e, t.expiry = some e →
    TimerUse.handleExpiry ∈ t.due ∨ t.waitsFor e = true

/-- Does a `do_write` that is not followed by `schedule_timer` leave the expiry waited for?
It does when it closes the session or when there is no expiry any more; when the handler of
an earlier wait is due; and when it does not arm the timer for itself, and the timer is
already armed for a time that is early enough for the new expiry. -/
def writesInTime (t : Timed β) (calls : List Writev) (expiry : Option Nat) : Bool :=
  t.session.closedNotified || t.session.isWriting || (t.session.doWrite calls).closedNotified ||
    match t.expiryAfter expiry with
    | none => true
    | some e => t.due.contains .handleExpiry || !t.retries calls && t.waitsFor e

theorem covered_closed {t : Timed β} (h : t.session.closedNotified = true) : t.Covered := by
  intro hopen
  rw [h] at hopen
  cases hopen

/-- **`schedule_timer`** has the expiry waited for, whatever the timer was used for before. -/
theorem covered_scheduleTimer (t : Timed β) : t.scheduleTimer.Covered := by
  unfold scheduleTimer
  split
  · rename_i hclosed
    exact covered_closed hclosed
  · split
    · rename_i hnone
      intro _ e he
      rw [hnone] at he
      cases he
    · rename_i e he
      intro _ e' he'
      have hsame : e = e' := Option.some.inj (he.symm.trans he')
      subst hsame
      refine Or.inr ?_
      by_cases hpast : e ≤ t.now
      · simp [waitsFor, arm, hpast]
      · simp [waitsFor, arm, hpast]

theorem covered_checkClosed {t : Timed β} (h : t.Covered) (closing : Bool) :
    (t.checkClosed closing).Covered := by
  unfold checkClosed
  split
  · exact covered_closed rfl
  · exact h

theorem covered_sendPackets (t : Timed β) (p : Packets) : (t.sendPackets p).Covered := by
  unfold sendPackets
  split
  · rename_i hclosed
    exact covered_closed hclosed
  · exact covered_checkClosed (covered_scheduleTimer _) p.closing

theorem covered_closeSession (t : Timed β) : t.closeSession.Covered := by
  unfold closeSession
  split
  · rename_i hclosed
    exact covered_closed hclosed
  · exact covered_closed rfl

theorem covered_answer (t : Timed β) (p : Option Packets) : (t.answer p).Covered := by
  unfold answer
  split
  · rename_i hclosed
    exact covered_closed hclosed
  · cases p with
    | none => exact covered_closeSession t
    | some p => exact covered_sendPackets t p

/-- **`do_write` alone** leaves the expiry waited for exactly if it writes in time. -/
theorem covered_doWrite {t : Timed β} (h : t.Covered) (calls : List Writev)
    (expiry : Option Nat) :
    (t.doWrite calls expiry).Covered ↔ t.writesInTime calls expiry = true := by
  unfold writesInTime
  by_cases hidle : idle t.session = true
  · rw [doWrite_idle hidle]
    refine iff_of_true h ?_
    unfold idle at hidle
    rw [hidle]
    rfl
  rw [Bool.not_eq_true] at hidle
  have hopen := hidle
  unfold idle at hopen
  rw [doWrite_eq hidle, hopen, Bool.false_or]
  by_cases hfails : (t.session.doWrite calls).closedNotified = true
  · rw [hfails]
    exact iff_of_true (covered_closed hfails) rfl
  rw [Bool.not_eq_true] at hfails
  rw [hfails, Bool.false_or]
  unfold Covered
  cases hexpiry : t.expiryAfter expiry with
  | none => exact iff_of_true (fun _ e he => by cases he) rfl
  | some e =>
      rw [Bool.or_eq_true, List.contains_iff_mem]
      cases hretries : t.retries calls with
      | true =>
          -- the wait is now for the retry
          refine ⟨fun hcovered => ?_, fun hin _ e' he' => Or.inl (hin.resolve_right ?_)⟩
          · rcases hcovered hfails e rfl with hdue | hwait
            · exact Or.inl hdue
            · cases hwait
          · exact Bool.false_ne_true
      | false =>
          refine ⟨fun hcovered => hcovered hfails e rfl, fun hin _ e' he' => ?_⟩
          cases he'
          exact hin

/-! ## Every run -/

/-- The condition on a step: a `do_write` outside `send_packets` writes in time. -/
def inTime (t : Timed β) : Event β → Bool
  | .writeStream streamId buffers handler calls expiry =>
      t.session.closedNotified ||
        decide (t.session.writeQueue.length ≥ QuicSession.maxPendingWrites) ||
        { t with session := t.session.enqueue streamId buffers handler }.writesInTime calls expiry
  | .retry calls expiry => { t with due := t.due.tail }.writesInTime calls expiry
  | _ => true

theorem covered_start (now : Nat) (expiry : Option Nat) : (start (β := β) now expiry).Covered :=
  covered_scheduleTimer _

theorem covered_fire {t : Timed β} (h : t.Covered) {w : Wait} (hwait : t.wait = some w) :
    { t with wait := none, due := t.due ++ [w.use] }.Covered := by
  intro hopen e he
  refine Or.inl ?_
  rcases h hopen e he with hdue | hwaits
  · exact List.mem_append_left _ hdue
  · unfold waitsFor at hwaits
    rw [hwait] at hwaits
    obtain ⟨use, deadline⟩ := w
    cases use with
    | handleExpiry => exact List.mem_append_right _ (List.mem_singleton.mpr rfl)
    | doWrite => cases hwaits

/-- Time does not take a wait away. -/
theorem covered_tick {t : Timed β} (h : t.Covered) (d : Nat) :
    { t with now := t.now + d }.Covered := by
  intro hopen e he
  rcases h hopen e he with hdue | hwaits
  · exact Or.inl hdue
  · refine Or.inr ?_
    unfold waitsFor at hwaits ⊢
    split at hwaits
    · rename_i deadline hwait
      simp only [hwait]
      simp only [Bool.or_eq_true, Bool.and_eq_true, decide_eq_true_eq] at hwaits ⊢
      omega
    · cases hwaits

theorem covered_step {t t' : Timed β} {e : Event β} (h : t.Covered) (hstep : t.step e = some t') :
    t'.Covered ↔ t.inTime e = true := by
  cases e with
  | handlePacket p =>
      cases Option.some.inj hstep
      exact iff_of_true (covered_answer t p) rfl
  | sendPackets p =>
      cases Option.some.inj hstep
      exact iff_of_true (covered_sendPackets t p) rfl
  | writeStream streamId buffers handler calls expiry =>
      cases Option.some.inj hstep
      rw [writeStream, inTime]
      by_cases hclosed : t.session.closedNotified = true
      · rw [if_pos hclosed, hclosed]
        exact iff_of_true (covered_closed hclosed) rfl
      rw [if_neg hclosed, Bool.eq_false_iff.mpr hclosed, Bool.false_or]
      by_cases hfull : t.session.writeQueue.length ≥ QuicSession.maxPendingWrites
      · rw [if_pos hfull, decide_eq_true hfull]
        exact iff_of_true h rfl
      · rw [if_neg hfull, decide_eq_false hfull, Bool.false_or]
        refine covered_doWrite ?_ calls expiry
        exact fun hopen e he => h hopen e he
  | fire =>
      rw [step] at hstep
      split at hstep
      · cases hstep
      · rename_i w hwait
        split at hstep
        · cases hstep
          exact iff_of_true (covered_fire h hwait) rfl
        · cases hstep
  | handleExpiry p =>
      rw [step] at hstep
      split at hstep
      · cases hstep
        exact iff_of_true (covered_answer _ p) rfl
      · cases hstep
  | retry calls expiry =>
      rw [step] at hstep
      split at hstep
      · rename_i due hdue
        cases hstep
        rw [inTime]
        rw [hdue]
        refine covered_doWrite (t := { t with due }) (fun hopen e he => ?_) calls expiry
        -- the handler that is called is not the one for ngtcp2
        rcases h hopen e he with hmem | hwaits
        · rw [hdue] at hmem
          exact Or.inl ((List.mem_cons.mp hmem).resolve_left (by decide))
        · exact Or.inr hwaits
      · cases hstep
  | closeSession =>
      cases Option.some.inj hstep
      exact iff_of_true (covered_closeSession t) rfl
  | tick d =>
      cases Option.some.inj hstep
      exact iff_of_true (covered_tick h d) rfl

/-- **The expiry timer is not lost** as long as every `do_write` outside `send_packets`
writes in time; and the first that does not loses it. -/
theorem timer_kept {now : Nat} {expiry : Option Nat} {t : Timed β}
    (h : Reach step (fun t e => t.inTime e = true) (start now expiry) t) :
    t.Covered ∧ ∀ e t', t.step e = some t' → (t'.Covered ↔ t.inTime e = true) := by
  have hinv : t.Covered := h.invariant (P := Covered) (covered_start now expiry)
    fun s e s' hs hok hstep => (covered_step hs hstep).mpr hok
  exact ⟨hinv, fun e t' hstep => covered_step hinv hstep⟩

/-- A write that brings no earlier expiry, and then a packet that does. -/
theorem timer_kept_earlier : ∃ t : Timed UInt8, t.expiry = some 300000000 ∧ t.Covered := by
  obtain ⟨t, hreach, hobs⟩ := exists_of_runGuarded step inTime
    [.writeStream 0 [[1]] 7 [.packet (some 1) .ok] (some 70000000000), .tick 1000,
      .handlePacket (some { expiry := some 300000000 })]
    (fun t => t.expiry) (s := start (β := UInt8) 0 (some 60000000000))
    (a := some 300000000) (by decide)
  exact ⟨t, hobs, (timer_kept hreach).1⟩

/-- The timer is armed for the idle timeout, a minute ahead. A write has ngtcp2 start the timer
for its loss, 300 ms ahead, and `timer_` still waits for the minute. -/
theorem timer_lost : ¬ ∀ t : Timed UInt8,
    Reach step anyStep (start 0 (some 60000000000)) t → t.Covered := by
  intro hall
  obtain ⟨t, hreach, hobs⟩ := exists_of_runAll step
    [.writeStream 0 [[1]] 7 [.packet (some 1) .ok] (some 300000000)]
    (fun t => (t.session.closedNotified, t.expiry, t.due, t.waitsFor 300000000))
    (s := start (β := UInt8) 0 (some 60000000000))
    (a := (false, some 300000000, [], false)) (by decide)
  obtain ⟨hopen, hrest⟩ := Prod.mk.inj hobs
  obtain ⟨hexpiry, hrest⟩ := Prod.mk.inj hrest
  obtain ⟨hdue, hwaits⟩ := Prod.mk.inj hrest
  rcases hall t hreach hopen _ hexpiry with hmem | hwaits'
  · rw [hdue] at hmem
    cases hmem
  · rw [hwaits] at hwaits'
    cases hwaits'

end Timed

end Cfrp.Quic
