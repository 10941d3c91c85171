import Cfrp.Lib.Transition
import Mathlib.Data.Rat.Floor
import Mathlib.Algebra.BigOperators.Group.List.Basic
import Mathlib.Tactic.Linarith
import Mathlib.Tactic.Ring
import Mathlib.Tactic.Positivity

/-!
# The rate limiter

`RateLimiter` is a token bucket with a queue. A request is granted at once when nobody waits
and the bucket holds enough; otherwise it is queued, and one timer pays the queue from its
head. Every payment comes right after a reading of the clock, which credits the whole
microseconds since the reading before it at the rate of that moment.

The readings are numbered: `clock n` is what the `n`-th one returns. A run is then a clock
and a list of events, and all that is asked of the clock is that it never goes back. Tokens
are exact here. `arrived`, `posted` and `history` only record what happened.
-/

namespace Cfrp.Bridge

open Lib

/-- A call of `async_wait`: the bytes it asks for and the callback it passes. -/
structure WaitingHandler where
  bytes : Nat
  handler : Nat
  deriving DecidableEq

/-- One change of the bucket: when it was made, the rate and the tokens after it, and the
bytes that were paid for. -/
structure Entry where
  time : Nat
  rate : Int
  tokens : Rat
  bytes : Nat
  deriving DecidableEq

/-- Times are in nanoseconds. -/
structure RateLimiter where
  bytesPerSec : Int
  tokens : Rat
  lastUpdate : Nat
  /-- The expiry of `timer_`, while a wait is pending on it. -/
  timer : Option Nat := none
  waitingHandlers : List WaitingHandler := []
  /-- The number of clock readings so far. -/
  reads : Nat
  /-- The calls of `async_wait` so far. -/
  arrived : List WaitingHandler := []
  /-- The callbacks posted so far. -/
  posted : List WaitingHandler := []
  history : List Entry := []
  deriving DecidableEq

namespace RateLimiter

variable (clock : Nat → Nat)

/-- The constructor: a full bucket. -/
def make (bytesPerSec : Int) : RateLimiter :=
  { bytesPerSec := bytesPerSec, tokens := bytesPerSec, lastUpdate := clock 0, reads := 1 }

def setRate (s : RateLimiter) (bytesPerSec : Int) : RateLimiter :=
  let tokens := min s.tokens bytesPerSec
  { s with
    bytesPerSec := bytesPerSec
    tokens := tokens
    reads := s.reads + 1
    history := s.history ++ [⟨clock s.reads, bytesPerSec, tokens, 0⟩] }

def updateTokens (s : RateLimiter) : RateLimiter :=
  let now := clock s.reads
  let elapsed := (now - s.lastUpdate) / 1000
  let tokens := s.tokens + (elapsed * s.bytesPerSec) / 1000000
  let tokens := if tokens > s.bytesPerSec then (s.bytesPerSec : Rat) else tokens
  { s with
    tokens := tokens
    lastUpdate := now
    reads := s.reads + 1
    history := s.history ++ [⟨now, s.bytesPerSec, tokens, 0⟩] }

/-- Take the bytes out of the bucket and post the callback. -/
def grant (s : RateLimiter) (w : WaitingHandler) : RateLimiter :=
  { s with
    tokens := s.tokens - w.bytes
    posted := s.posted ++ [w]
    history := s.history ++ [⟨s.lastUpdate, s.bytesPerSec, s.tokens - w.bytes, w.bytes⟩] }

/-- `delay_us`: the time the missing tokens take, in whole microseconds. -/
def delayMicros (s : RateLimiter) (first : WaitingHandler) : Nat :=
  ⌊((first.bytes - s.tokens) * 1000000) / s.bytesPerSec⌋₊

/-- `expires_after` and `async_wait` of the timer. -/
def arm (s : RateLimiter) (delay : Nat) : RateLimiter :=
  { s with timer := some (clock s.reads + delay * 1000), reads := s.reads + 1 }

/-- `schedule_timer`, with the queue it finds. -/
def scheduleFrom : List WaitingHandler → RateLimiter → RateLimiter
  | [], s => { s with waitingHandlers := [] }
  | first :: rest, s =>
      let s := s.updateTokens clock
      if (first.bytes : Rat) ≤ s.tokens then scheduleFrom rest (s.grant first)
      else { s with waitingHandlers := first :: rest }.arm clock (s.delayMicros first)

def scheduleTimer (s : RateLimiter) : RateLimiter :=
  scheduleFrom clock s.waitingHandlers s

def asyncWait (s : RateLimiter) (w : WaitingHandler) : RateLimiter :=
  let s := { s with arrived := s.arrived ++ [w] }
  if s.bytesPerSec ≤ 0 then { s with posted := s.posted ++ [w] }
  else
    let s := s.updateTokens clock
    if s.waitingHandlers = [] ∧ (w.bytes : Rat) ≤ s.tokens then s.grant w
    else
      let s := { s with waitingHandlers := s.waitingHandlers ++ [w] }
      if s.waitingHandlers.length = 1 then s.scheduleTimer clock else s

inductive Event where
  | asyncWait (w : WaitingHandler)
  | setRate (bytesPerSec : Int)
  /-- The handler of an expired timer runs. -/
  | timer

def step (s : RateLimiter) : Event → Option RateLimiter
  | .asyncWait w => some (s.asyncWait clock w)
  | .setRate bytesPerSec => some (s.setRate clock bytesPerSec)
  | .timer =>
      match s.timer with
      | none => none
      | some expiry =>
          if expiry ≤ clock s.reads then some ({ s with timer := none }.scheduleTimer clock)
          else none

/-- Every caller of `set_rate` checks that its limit is positive. -/
def positiveRates (_ : RateLimiter) : Event → Bool
  | .setRate bytesPerSec => 0 < bytesPerSec
  | _ => true

/-! ## The history -/

/-- The bytes paid for at the times that satisfy `p`. -/
def granted (p : Nat → Bool) (history : List Entry) : Nat :=
  ((history.filter fun e => p e.time).map Entry.bytes).sum

/-- What a full bucket and the credit of an interval add up to. -/
def allowance (rate : Int) (a b : Nat) : Rat :=
  rate + rate * ((b - a : Nat) : Rat) / 1000000000

theorem granted_append (p : Nat → Bool) (history : List Entry) (e : Entry) :
    granted p (history ++ [e]) = granted p history + if p e.time then e.bytes else 0 := by
  unfold granted
  rw [List.filter_append, List.map_append, List.sum_append]
  cases hp : p e.time with
  | true => simp [hp]
  | false => simp [hp]

theorem granted_congr {p q : Nat → Bool} {history : List Entry}
    (h : ∀ e ∈ history, p e.time = q e.time) : granted p history = granted q history := by
  unfold granted
  rw [List.filter_congr h]

/-- Nothing is paid for when all the entries of those times pay nothing. -/
theorem granted_eq_zero {p : Nat → Bool} {history : List Entry}
    (h : ∀ e ∈ history, p e.time = true → e.bytes = 0) : granted p history = 0 := by
  unfold granted
  rw [List.sum_eq_zero_iff]
  intro n hn
  obtain ⟨e, he, rfl⟩ := List.mem_map.mp hn
  rw [List.mem_filter] at he
  exact h e he.1 he.2

theorem allowance_mono {rate : Int} (hrate : 0 < rate) {a b b' : Nat} (h : b ≤ b') :
    allowance rate a b ≤ allowance rate a b' := by
  unfold allowance
  have hr : (0 : Rat) < rate := Int.cast_pos.mpr hrate
  have hsub : ((b - a : Nat) : Rat) ≤ ((b' - a : Nat) : Rat) := Nat.cast_le.mpr (by omega)
  have := mul_le_mul_of_nonneg_left hsub hr.le
  linarith

theorem le_allowance {rate : Int} (hrate : 0 < rate) (a b : Nat) :
    (rate : Rat) ≤ allowance rate a b := by
  unfold allowance
  have hr : (0 : Rat) < rate := Int.cast_pos.mpr hrate
  have : (0 : Rat) ≤ rate * ((b - a : Nat) : Rat) / 1000000000 := by positivity
  linarith

/-! ## The bucket -/

theorem updateTokens_tokens (s : RateLimiter) :
    (s.updateTokens clock).tokens =
      min (s.tokens + ((clock s.reads - s.lastUpdate) / 1000 : Nat) * s.bytesPerSec / 1000000)
        s.bytesPerSec := by
  unfold updateTokens
  dsimp only
  split
  · rename_i hgt
    rw [min_eq_right hgt.le]
  · rename_i hle
    rw [min_eq_left (not_lt.mp hle)]

/-- What holds of the bucket after each of its changes. -/
structure Sound (s : RateLimiter) : Prop where
  rate : 0 < s.bytesPerSec
  nonneg : 0 ≤ s.tokens
  capped : s.tokens ≤ s.bytesPerSec
  stamped : ∀ e ∈ s.history, e.time ≤ clock s.reads
  updated : s.lastUpdate ≤ clock s.reads
  levels : ∀ e ∈ s.history, 0 ≤ e.tokens ∧ e.tokens ≤ e.rate
  /-- Nothing is paid for without a reading of the clock. -/
  paid : ∀ e ∈ s.history, s.lastUpdate < e.time → e.bytes = 0
  /-- The rate does not change without an entry. -/
  current : ∀ e ∈ s.history, ∃ e' ∈ s.history, e.time ≤ e'.time ∧ e'.rate = s.bytesPerSec
  /-- As long as the rate has been the present one, what was paid for and what is left do not
  exceed the allowance. -/
  spent : ∀ a, (∀ e ∈ s.history, a ≤ e.time → e.rate = s.bytesPerSec) →
    (granted (a ≤ ·) s.history : Rat) + s.tokens ≤ allowance s.bytesPerSec a s.lastUpdate
  bound : ∀ a b R, a ≤ b → 0 < R →
    (∀ e ∈ s.history, a ≤ e.time → e.time ≤ b → e.rate = R) →
    (granted (fun t => a ≤ t && t ≤ b) s.history : Rat) ≤ allowance R a b

/-- The last entry carries the bound from its own moment to every interval. -/
theorem bound_append {s : RateLimiter} {history : List Entry} {e : Entry}
    (hhistory : s.history = history ++ [e]) (hrate : 0 < s.bytesPerSec) (hnonneg : 0 ≤ s.tokens)
    (hlate : ∀ x ∈ history, x.time ≤ e.time) (hcurrent : e.rate = s.bytesPerSec)
    (hupdated : s.lastUpdate ≤ e.time)
    (hspent : ∀ a, (∀ x ∈ s.history, a ≤ x.time → x.rate = s.bytesPerSec) →
      (granted (a ≤ ·) s.history : Rat) + s.tokens ≤ allowance s.bytesPerSec a s.lastUpdate)
    (hbound : ∀ a b R, a ≤ b → 0 < R →
      (∀ x ∈ history, a ≤ x.time → x.time ≤ b → x.rate = R) →
      (granted (fun t => a ≤ t && t ≤ b) history : Rat) ≤ allowance R a b) :
    ∀ a b R, a ≤ b → 0 < R → (∀ x ∈ s.history, a ≤ x.time → x.time ≤ b → x.rate = R) →
      (granted (fun t => a ≤ t && t ≤ b) s.history : Rat) ≤ allowance R a b := by
  intro a b R hab hR hall
  have hall_late : ∀ x ∈ s.history, x.time ≤ e.time := by
    intro x hx
    rw [hhistory, List.mem_append, List.mem_singleton] at hx
    rcases hx with hx | rfl
    · exact hlate x hx
    · exact Nat.le_refl _
  have hlast : e ∈ s.history := by
    rw [hhistory]
    exact List.mem_append_right _ (List.mem_singleton.mpr rfl)
  by_cases hb : e.time ≤ b
  · -- the interval reaches past the last entry
    have hsame : granted (fun t => a ≤ t && t ≤ b) s.history = granted (a ≤ ·) s.history :=
      granted_congr fun x hx => by
        rw [decide_eq_true (Nat.le_trans (hall_late x hx) hb), Bool.and_true]
    rw [hsame]
    by_cases ha : a ≤ e.time
    · have hR' : s.bytesPerSec = R := hcurrent ▸ hall e hlast ha hb
      have := hspent a fun x hx hax => hR' ▸ hall x hx hax (Nat.le_trans (hall_late x hx) hb)
      have hmono := allowance_mono hrate (a := a) (Nat.le_trans hupdated hb)
      rw [hR'] at this hmono
      linarith
    · have hzero : granted (a ≤ ·) s.history = 0 := granted_eq_zero fun x hx hax => by
        have := hall_late x hx
        have := of_decide_eq_true hax
        omega
      rw [hzero, Nat.cast_zero]
      exact le_trans (Int.cast_nonneg hR.le) (le_allowance hR a b)
  · have hout : granted (fun t => a ≤ t && t ≤ b) s.history =
        granted (fun t => a ≤ t && t ≤ b) history := by
      rw [hhistory, granted_append, if_neg (by simp [hb]), Nat.add_zero]
    rw [hout]
    refine hbound a b R hab hR fun x hx => hall x ?_
    rw [hhistory]
    exact List.mem_append_left _ hx

theorem sound_make {bytesPerSec : Int} (hrate : 0 < bytesPerSec) (hclock : Monotone clock) :
    Sound clock (make clock bytesPerSec) where
  rate := hrate
  nonneg := Int.cast_nonneg hrate.le
  capped := le_refl _
  stamped := fun e he => nomatch he
  updated := hclock (Nat.zero_le 1)
  levels := fun e he => nomatch he
  paid := fun e he => nomatch he
  current := fun e he => nomatch he
  spent := fun a _ => by
    show ((0 : Nat) : Rat) + bytesPerSec ≤ _
    rw [Nat.cast_zero, zero_add]
    exact le_allowance hrate _ _
  bound := fun a b R _ hR _ => by
    show ((0 : Nat) : Rat) ≤ _
    rw [Nat.cast_zero]
    exact le_trans (Int.cast_nonneg hR.le) (le_allowance hR a b)

variable {clock}

/-- Nothing has been paid for since a time after the last reading. -/
theorem Sound.granted_since {s : RateLimiter} (h : Sound clock s) {a : Nat}
    (ha : s.lastUpdate < a) :
    granted (a ≤ ·) s.history = 0 :=
  granted_eq_zero fun e he hae => h.paid e he (Nat.lt_of_lt_of_le ha (of_decide_eq_true hae))

/-- The queue, the timer and later readings are none of the bucket's business. -/
theorem Sound.frame {s s' : RateLimiter} (h : Sound clock s) (hclock : Monotone clock)
    (hrate : s'.bytesPerSec = s.bytesPerSec) (htokens : s'.tokens = s.tokens)
    (hlast : s'.lastUpdate = s.lastUpdate) (hhistory : s'.history = s.history)
    (hreads : s.reads ≤ s'.reads) : Sound clock s' where
  rate := hrate ▸ h.rate
  nonneg := htokens ▸ h.nonneg
  capped := by
    rw [htokens, hrate]
    exact h.capped
  stamped := fun e he => Nat.le_trans (h.stamped e (hhistory ▸ he)) (hclock hreads)
  updated := hlast ▸ Nat.le_trans h.updated (hclock hreads)
  levels := hhistory ▸ h.levels
  paid := by
    rw [hhistory, hlast]
    exact h.paid
  current := by
    rw [hhistory, hrate]
    exact h.current
  spent := by
    rw [hhistory, hrate, htokens, hlast]
    exact h.spent
  bound := hhistory ▸ h.bound

/-- **One more entry** that shows the state it leaves keeps the bucket sound, if the tokens
are within the rate and the allowance. -/
theorem Sound.record {s s' : RateLimiter} (h : Sound clock s) {time bytes : Nat}
    (hhistory : s'.history = s.history ++ [⟨time, s'.bytesPerSec, s'.tokens, bytes⟩])
    (hrate : 0 < s'.bytesPerSec) (hnonneg : 0 ≤ s'.tokens) (hcapped : s'.tokens ≤ s'.bytesPerSec)
    (hlate : ∀ e ∈ s.history, e.time ≤ time) (hlast : s.lastUpdate ≤ s'.lastUpdate)
    (hupdated : s'.lastUpdate ≤ time) (hpaid : s'.lastUpdate < time → bytes = 0)
    (hstamped : time ≤ clock s'.reads)
    (hspent : ∀ a, (∀ e ∈ s'.history, a ≤ e.time → e.rate = s'.bytesPerSec) →
      (granted (a ≤ ·) s'.history : Rat) + s'.tokens ≤ allowance s'.bytesPerSec a s'.lastUpdate) :
    Sound clock s' := by
  have hcases : ∀ e ∈ s'.history,
      e ∈ s.history ∨ e = ⟨time, s'.bytesPerSec, s'.tokens, bytes⟩ := by
    intro e he
    rw [hhistory, List.mem_append, List.mem_singleton] at he
    exact he
  refine
    { rate := hrate
      nonneg := hnonneg
      capped := hcapped
      stamped := ?_
      updated := Nat.le_trans hupdated hstamped
      levels := ?_
      paid := ?_
      current := ?_
      spent := hspent
      bound := bound_append hhistory hrate hnonneg hlate rfl hupdated hspent h.bound }
  · intro e he
    rcases hcases e he with he | rfl
    · exact Nat.le_trans (hlate e he) hstamped
    · exact hstamped
  · intro e he
    rcases hcases e he with he | rfl
    · exact h.levels e he
    · exact ⟨hnonneg, hcapped⟩
  · intro e he hlt
    rcases hcases e he with he | rfl
    · exact h.paid e he (Nat.lt_of_le_of_lt hlast hlt)
    · exact hpaid hlt
  · intro e he
    refine ⟨_, hhistory ▸ List.mem_append_right _ (List.mem_singleton.mpr rfl), ?_, rfl⟩
    rcases hcases e he with he | rfl
    · exact hlate e he
    · exact Nat.le_refl _

/-- The whole microseconds between two readings, at the rate, are at most the time between
them at the rate. -/
theorem credit_le {rate : Int} (hrate : 0 < rate) (now last : Nat) :
    ((now - last) / 1000 : Nat) * (rate : Rat) / 1000000 ≤
      rate * ((now - last : Nat) : Rat) / 1000000000 := by
  have hr : (0 : Rat) < rate := Int.cast_pos.mpr hrate
  have hdiv : (((now - last) / 1000 : Nat) : Rat) * 1000 ≤ ((now - last : Nat) : Rat) := by
    exact_mod_cast Nat.div_mul_le_self (now - last) 1000
  have := mul_le_mul_of_nonneg_left hdiv hr.le
  linarith

/-- **A reading of the clock** keeps the bucket sound. -/
theorem Sound.updateTokens {s : RateLimiter} (h : Sound clock s) (hclock : Monotone clock) :
    Sound clock (s.updateTokens clock) := by
  have hr : (0 : Rat) < s.bytesPerSec := Int.cast_pos.mpr h.rate
  have htokens := updateTokens_tokens clock s
  have hcredit : (0 : Rat) ≤
      ((clock s.reads - s.lastUpdate) / 1000 : Nat) * s.bytesPerSec / 1000000 := by positivity
  have hcapped : (s.updateTokens clock).tokens ≤ s.bytesPerSec := htokens ▸ min_le_right _ _
  have hnonneg : 0 ≤ (s.updateTokens clock).tokens := by
    rw [htokens]
    exact le_min (add_nonneg h.nonneg hcredit) hr.le
  have hhistory : (s.updateTokens clock).history =
      s.history ++ [⟨clock s.reads, s.bytesPerSec, (s.updateTokens clock).tokens, 0⟩] := rfl
  have hgranted : ∀ p, granted p (s.updateTokens clock).history = granted p s.history := by
    intro p
    rw [hhistory, granted_append, ite_self, Nat.add_zero]
  have hspent : ∀ a, (∀ e ∈ (s.updateTokens clock).history, a ≤ e.time → e.rate = s.bytesPerSec) →
      (granted (a ≤ ·) (s.updateTokens clock).history : Rat) + (s.updateTokens clock).tokens ≤
        allowance s.bytesPerSec a (clock s.reads) := by
    intro a hall
    rw [hgranted]
    -- nothing was granted since, or the allowance grows by what is credited
    by_cases ha : s.lastUpdate < a
    · rw [h.granted_since ha, Nat.cast_zero, zero_add]
      exact le_trans hcapped (le_allowance h.rate _ _)
    · have hold := h.spent a fun e he => hall e (hhistory ▸ List.mem_append_left _ he)
      have hless : (s.updateTokens clock).tokens ≤ _ := htokens ▸ min_le_left _ _
      have hcr := credit_le h.rate (clock s.reads) s.lastUpdate
      have hsplit : ((clock s.reads - a : Nat) : Rat) =
          ((clock s.reads - s.lastUpdate : Nat) : Rat) + ((s.lastUpdate - a : Nat) : Rat) := by
        have := h.updated
        rw [← Nat.cast_add]
        congr 1
        omega
      unfold allowance at hold ⊢
      rw [hsplit, mul_add, add_div]
      linarith
  exact h.record hhistory h.rate hnonneg hcapped h.stamped h.updated (Nat.le_refl _)
    (fun hlt => absurd hlt (Nat.lt_irrefl _)) (hclock (Nat.le_succ _)) hspent

/-- **A payment** right after a reading keeps the bucket sound, if it can be made. -/
theorem Sound.grant {s : RateLimiter} (h : Sound clock s)
    (hfresh : ∀ e ∈ s.history, e.time ≤ s.lastUpdate) {w : WaitingHandler}
    (henough : (w.bytes : Rat) ≤ s.tokens) : Sound clock (s.grant w) := by
  have hbytes : (0 : Rat) ≤ w.bytes := Nat.cast_nonneg _
  have hnonneg : 0 ≤ s.tokens - w.bytes := sub_nonneg.mpr henough
  have hcapped : s.tokens - w.bytes ≤ s.bytesPerSec := le_trans (sub_le_self _ hbytes) h.capped
  have hhistory : (s.grant w).history =
      s.history ++ [⟨s.lastUpdate, s.bytesPerSec, s.tokens - w.bytes, w.bytes⟩] := rfl
  have hspent : ∀ a, (∀ e ∈ (s.grant w).history, a ≤ e.time → e.rate = s.bytesPerSec) →
      (granted (a ≤ ·) (s.grant w).history : Rat) + (s.tokens - w.bytes) ≤
        allowance s.bytesPerSec a s.lastUpdate := by
    intro a hall
    have hold := h.spent a fun e he => hall e (hhistory ▸ List.mem_append_left _ he)
    rw [hhistory, granted_append]
    split
    · push_cast
      linarith
    · rw [Nat.add_zero]
      linarith
  exact h.record hhistory h.rate hnonneg hcapped hfresh (Nat.le_refl _) (Nat.le_refl _)
    (fun hlt => absurd hlt (Nat.lt_irrefl _)) h.updated hspent

/-- **A new rate** keeps the bucket sound. -/
theorem Sound.setRate {s : RateLimiter} (h : Sound clock s) (hclock : Monotone clock)
    {bytesPerSec : Int} (hrate : 0 < bytesPerSec) : Sound clock (s.setRate clock bytesPerSec) := by
  have hr : (0 : Rat) < bytesPerSec := Int.cast_pos.mpr hrate
  have htokens : (s.setRate clock bytesPerSec).tokens = min s.tokens bytesPerSec := rfl
  have hnonneg : 0 ≤ min s.tokens (bytesPerSec : Rat) := le_min h.nonneg hr.le
  have hcapped : min s.tokens (bytesPerSec : Rat) ≤ bytesPerSec := min_le_right _ _
  have hhistory : (s.setRate clock bytesPerSec).history =
      s.history ++ [⟨clock s.reads, bytesPerSec, min s.tokens bytesPerSec, 0⟩] := rfl
  have hspent : ∀ a, (∀ e ∈ (s.setRate clock bytesPerSec).history, a ≤ e.time →
        e.rate = bytesPerSec) →
      (granted (a ≤ ·) (s.setRate clock bytesPerSec).history : Rat) + min s.tokens bytesPerSec ≤
        allowance bytesPerSec a s.lastUpdate := by
    intro a hall
    have hgranted : granted (a ≤ ·) (s.setRate clock bytesPerSec).history =
        granted (a ≤ ·) s.history := by
      rw [hhistory, granted_append, ite_self, Nat.add_zero]
    rw [hgranted]
    by_cases hsome : ∃ e ∈ s.history, a ≤ e.time
    · -- an entry of the old rate is in sight, so the old rate is the new one
      obtain ⟨e, he, hae⟩ := hsome
      obtain ⟨e', he', hlate, hcurrent⟩ := h.current e he
      have hsame : s.bytesPerSec = bytesPerSec := hcurrent ▸
        hall e' (hhistory ▸ List.mem_append_left _ he') (Nat.le_trans hae hlate)
      have hold := h.spent a fun x hx hax =>
        (hall x (hhistory ▸ List.mem_append_left _ hx) hax).trans hsame.symm
      rw [hsame] at hold
      have := min_le_left s.tokens (bytesPerSec : Rat)
      linarith
    · have hzero : granted (a ≤ ·) s.history = 0 := granted_eq_zero fun e he hae =>
        absurd ⟨e, he, of_decide_eq_true hae⟩ hsome
      rw [hzero, Nat.cast_zero, zero_add]
      exact le_trans hcapped (le_allowance hrate _ _)
  exact h.record hhistory hrate hnonneg hcapped h.stamped (Nat.le_refl _) h.updated
    (fun _ => rfl) (hclock (Nat.le_succ _)) hspent

/-! ## The queue -/

/-- What holds between two events. -/
structure Kept (clock : Nat → Nat) (s : RateLimiter) : Prop where
  sound : Sound clock s
  /-- The requests are posted in the order of their arrival, each once. -/
  order : s.posted ++ s.waitingHandlers = s.arrived
  armed : s.waitingHandlers ≠ [] → s.timer.isSome = true

/-- A payment in `async_wait` or in `schedule_timer` follows a reading of the clock. -/
theorem Sound.pay {s : RateLimiter} (h : Sound clock s) (hclock : Monotone clock)
    {w : WaitingHandler} (henough : (w.bytes : Rat) ≤ (s.updateTokens clock).tokens) :
    Sound clock ((s.updateTokens clock).grant w) := by
  refine (h.updateTokens hclock).grant ?_ henough
  intro e he
  rcases List.mem_append.mp he with he | he
  · exact h.stamped e he
  · rw [List.mem_singleton.mp he]
    exact Nat.le_refl _

/-- **`schedule_timer`** posts a prefix of the queue, and arms the timer for the rest. -/
theorem scheduleFrom_kept (hclock : Monotone clock) :
    ∀ (ws : List WaitingHandler) (s : RateLimiter), Sound clock s → s.posted ++ ws = s.arrived →
      Kept clock (scheduleFrom clock ws s)
  | [], s, h, horder =>
      { sound := h.frame hclock rfl rfl rfl rfl (Nat.le_refl _)
        order := horder
        armed := fun hne => absurd rfl hne }
  | first :: rest, s, h, horder => by
      unfold scheduleFrom
      dsimp only
      split
      · rename_i henough
        refine scheduleFrom_kept hclock rest _ (h.pay hclock henough) ?_
        show (s.posted ++ [first]) ++ rest = s.arrived
        rw [List.append_assoc]
        exact horder
      · exact
          { sound := (h.updateTokens hclock).frame hclock rfl rfl rfl rfl (Nat.le_succ _)
            order := horder
            armed := fun _ => rfl }

theorem asyncWait_kept (hclock : Monotone clock) {s : RateLimiter} (h : Kept clock s)
    (w : WaitingHandler) : Kept clock (s.asyncWait clock w) := by
  have hsound : Sound clock { s with arrived := s.arrived ++ [w] } :=
    h.sound.frame hclock rfl rfl rfl rfl (Nat.le_refl _)
  have horder : s.posted ++ (s.waitingHandlers ++ [w]) = s.arrived ++ [w] := by
    rw [← List.append_assoc, h.order]
  unfold asyncWait
  dsimp only
  rw [if_neg (not_le.mpr h.sound.rate)]
  split
  · rename_i hfast
    have hempty : s.waitingHandlers = [] := hfast.1
    refine
      { sound := hsound.pay hclock hfast.2
        order := ?_
        armed := fun hne => absurd hempty hne }
    show (s.posted ++ [w]) ++ s.waitingHandlers = s.arrived ++ [w]
    rw [hempty, List.append_nil, ← h.order, hempty, List.append_nil]
  · split
    · exact scheduleFrom_kept hclock _ _
        ((hsound.updateTokens hclock).frame hclock rfl rfl rfl rfl (Nat.le_refl _)) horder
    · rename_i hlength
      -- somebody waits already, and the timer is armed for him
      refine
        { sound := (hsound.updateTokens hclock).frame hclock rfl rfl rfl rfl (Nat.le_refl _)
          order := horder
          armed := fun _ => h.armed fun hempty => hlength ?_ }
      show (s.waitingHandlers ++ [w]).length = 1
      rw [hempty]
      rfl

/-- One step keeps the limiter in order. -/
theorem step_kept (hclock : Monotone clock) {s s' : RateLimiter} {e : Event} (h : Kept clock s)
    (hok : positiveRates s e = true) (hstep : step clock s e = some s') : Kept clock s' := by
  cases e with
  | asyncWait w =>
      rw [← Option.some.inj hstep]
      exact asyncWait_kept hclock h w
  | setRate bytesPerSec =>
      rw [← Option.some.inj hstep]
      exact ⟨h.sound.setRate hclock (of_decide_eq_true hok), h.order, h.armed⟩
  | timer =>
      dsimp only [step] at hstep
      split at hstep
      · exact absurd hstep (by simp)
      · split at hstep
        · rw [← Option.some.inj hstep]
          exact scheduleFrom_kept hclock _ _
            (h.sound.frame hclock rfl rfl rfl rfl (Nat.le_refl _)) h.order
        · exact absurd hstep (by simp)

theorem kept_of_reach (hclock : Monotone clock) {bytesPerSec : Int} (hrate : 0 < bytesPerSec)
    {s : RateLimiter}
    (hs : Reach (step clock) (fun s e => positiveRates s e = true) (make clock bytesPerSec) s) :
    Kept clock s :=
  hs.invariant (P := Kept clock)
    ⟨sound_make clock hrate hclock, rfl, fun hne => absurd rfl hne⟩
    fun _ _ _ h hok hstep => step_kept hclock h hok hstep

/-- **The token bucket law.** Requests are posted in the order of arrival, each at most once;
after every change the tokens are between zero and the rate; over an interval in which the
rate is `R`, the bytes paid for are at most `R` and `R` for every second of the interval; and
the timer is armed whenever a request waits. -/
theorem token_bucket (hclock : Monotone clock) {bytesPerSec : Int} (hrate : 0 < bytesPerSec)
    {s : RateLimiter}
    (hs : Reach (step clock) (fun s e => positiveRates s e = true) (make clock bytesPerSec) s) :
    s.posted ++ s.waitingHandlers = s.arrived ∧
    (∀ e ∈ s.history, 0 ≤ e.tokens ∧ e.tokens ≤ e.rate) ∧
    (0 ≤ s.tokens ∧ s.tokens ≤ s.bytesPerSec) ∧
    (∀ (a b : Nat) (R : Int), a ≤ b → 0 < R →
      (∀ e ∈ s.history, a ≤ e.time → e.time ≤ b → e.rate = R) →
      (granted (fun t => a ≤ t && t ≤ b) s.history : Rat) ≤
        R + R * ((b - a : Nat) : Rat) / 1000000000) ∧
    (s.waitingHandlers ≠ [] → s.timer.isSome = true) := by
  have h := kept_of_reach hclock hrate hs
  exact ⟨h.order, h.sound.levels, ⟨h.sound.nonneg, h.sound.capped⟩, h.sound.bound, h.armed⟩

/-- A kilobyte a second, the clock read every millisecond. The second request has to wait for
the timer, and the law bounds what has been paid for in the first six milliseconds. -/
theorem token_bucket_example :
    ∃ s : RateLimiter, s.posted ++ s.waitingHandlers = [⟨1000, 0⟩, ⟨3, 1⟩] ∧
      s.posted = [⟨1000, 0⟩, ⟨3, 1⟩] ∧
      (granted (fun t => 0 ≤ t && t ≤ 6000000) s.history : Rat) ≤ 1000 + 6 := by
  have hclock : Monotone fun n : Nat => n * 1000000 := fun _ _ h => Nat.mul_le_mul_right _ h
  obtain ⟨s, hreach, hseen⟩ := exists_of_runGuarded (step fun n => n * 1000000) positiveRates
    [.asyncWait ⟨1000, 0⟩, .asyncWait ⟨3, 1⟩, .timer]
    (fun s => (s.posted, s.arrived, s.history.all fun e => e.rate == 1000))
    (s := make (fun n => n * 1000000) 1000)
    (a := ([⟨1000, 0⟩, ⟨3, 1⟩], [⟨1000, 0⟩, ⟨3, 1⟩], true)) (by decide +kernel)
  obtain ⟨horder, -, -, hbound, -⟩ := token_bucket hclock (by decide) hreach
  rw [Prod.mk.injEq, Prod.mk.injEq] at hseen
  refine ⟨s, horder.trans hseen.2.1, hseen.1, ?_⟩
  have h := hbound 0 6000000 1000 (by decide) (by decide) fun e he _ _ =>
    eq_of_beq (List.all_eq_true.mp hseen.2.2 e he)
  norm_num at h ⊢
  exact h

end RateLimiter

end Cfrp.Bridge
