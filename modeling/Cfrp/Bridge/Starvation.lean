import Cfrp.Bridge.RateLimiter
import Mathlib.Tactic.FieldSimp

/-!
# The head of the rate limiter's queue

The delay of `schedule_timer` is the time in which the rate makes up for the tokens that are
missing, cut to whole microseconds. But the bucket never holds more than one second of the
rate. A request for more than that is not paid however long it waits, and it holds up
everything behind it.

Below that size the head is paid when the whole microseconds between the readings cover the
delay. Each reading drops the part of a microsecond since the last one, and every request
that joins the queue meanwhile reads the clock once.
-/

namespace Cfrp.Bridge

open Lib

namespace RateLimiter

variable {clock : Nat → Nat}

/-! ## What each event does while somebody waits -/

theorem asyncWait_behind {s : RateLimiter} (hrate : 0 < s.bytesPerSec)
    (hwaiting : s.waitingHandlers ≠ []) (w : WaitingHandler) :
    s.asyncWait clock w =
      { s.updateTokens clock with
        arrived := s.arrived ++ [w], waitingHandlers := s.waitingHandlers ++ [w] } := by
  have hlength : (s.waitingHandlers ++ [w]).length ≠ 1 := by
    have := List.length_pos_iff.mpr hwaiting
    rw [List.length_append, List.length_singleton]
    omega
  unfold asyncWait
  dsimp only
  rw [if_neg (not_le.mpr hrate), if_neg fun h => hwaiting h.1]
  exact if_neg hlength

theorem scheduleFrom_posted :
    ∀ (ws : List WaitingHandler) (s : RateLimiter), s.posted <+: (scheduleFrom clock ws s).posted
  | [], _ => List.prefix_refl _
  | first :: rest, s => by
      unfold scheduleFrom
      dsimp only
      split
      · exact (List.prefix_append s.posted [first]).trans
          (scheduleFrom_posted rest ((s.updateTokens clock).grant first))
      · exact List.prefix_refl _

theorem scheduleFrom_pays {s : RateLimiter} {first : WaitingHandler} (rest : List WaitingHandler)
    (henough : (first.bytes : Rat) ≤ (s.updateTokens clock).tokens) :
    s.posted ++ [first] <+: (scheduleFrom clock (first :: rest) s).posted := by
  unfold scheduleFrom
  dsimp only
  rw [if_pos henough]
  exact scheduleFrom_posted rest ((s.updateTokens clock).grant first)

/-- A head that cannot be paid stays, and the timer is armed for its delay. -/
theorem scheduleFrom_waits {s : RateLimiter} {first : WaitingHandler} (rest : List WaitingHandler)
    (hmissing : (s.updateTokens clock).tokens < first.bytes) :
    scheduleFrom clock (first :: rest) s =
      { s.updateTokens clock with waitingHandlers := first :: rest }.arm clock
        ((s.updateTokens clock).delayMicros first) := by
  conv_lhs => unfold scheduleFrom
  dsimp only
  rw [if_neg (not_le.mpr hmissing)]

theorem step_timer {s s' : RateLimiter} (h : step clock s .timer = some s') :
    s' = scheduleFrom clock s.waitingHandlers { s with timer := none } := by
  dsimp only [step] at h
  split at h
  · exact absurd h (by simp)
  · split at h
    · exact (Option.some.inj h).symm
    · exact absurd h (by simp)

/-- Nothing that was posted is taken back. -/
theorem step_posted {s s' : RateLimiter} {e : Event} (h : step clock s e = some s') :
    s.posted <+: s'.posted := by
  cases e with
  | asyncWait w =>
      rw [← Option.some.inj h]
      unfold asyncWait
      dsimp only
      split
      · exact List.prefix_append _ _
      · split
        · exact List.prefix_append _ _
        · split
          · refine List.IsPrefix.trans ?_ (scheduleFrom_posted _ _)
            exact List.prefix_refl _
          · exact List.prefix_refl _
  | setRate bytesPerSec =>
      rw [← Option.some.inj h]
      exact List.prefix_refl _
  | timer =>
      rw [step_timer h]
      exact scheduleFrom_posted s.waitingHandlers { s with timer := none }

/-- What is true while `first` waits: it is still the head, and nothing was posted since. -/
structure Waits (clock : Nat → Nat) (posted : List WaitingHandler) (first : WaitingHandler)
    (s : RateLimiter) : Prop where
  sound : Sound clock s
  posted : s.posted = posted
  head : ∃ rest, s.waitingHandlers = first :: rest

theorem Waits.nonempty {posted : List WaitingHandler} {first : WaitingHandler} {s : RateLimiter}
    (h : Waits clock posted first s) : s.waitingHandlers ≠ [] := by
  obtain ⟨rest, hrest⟩ := h.head
  rw [hrest]
  exact List.cons_ne_nil _ _

/-- A firing that does not pay the head credits its reading and leaves the head waiting. -/
theorem Waits.fires {posted : List WaitingHandler} {first : WaitingHandler} {s s' : RateLimiter}
    (hclock : Monotone clock) (h : Waits clock posted first s)
    (hstep : step clock s .timer = some s') :
    ((first.bytes : Rat) ≤ (s.updateTokens clock).tokens ∧ posted ++ [first] <+: s'.posted) ∨
    ((s.updateTokens clock).tokens < first.bytes ∧ Waits clock posted first s' ∧
      s'.bytesPerSec = s.bytesPerSec ∧ s'.tokens = (s.updateTokens clock).tokens) := by
  obtain ⟨rest, hrest⟩ := h.head
  obtain ⟨t, ht⟩ : ∃ t : RateLimiter, { s with timer := none } = t := ⟨_, rfl⟩
  have htokens : (t.updateTokens clock).tokens = (s.updateTokens clock).tokens := by
    rw [← ht]
    rfl
  have hsound : Sound clock t := by
    rw [← ht]
    exact h.sound.frame hclock rfl rfl rfl rfl (Nat.le_refl _)
  have hposted : t.posted = posted := by
    rw [← ht]
    exact h.posted
  rw [step_timer hstep, ht, hrest]
  by_cases henough : (first.bytes : Rat) ≤ (s.updateTokens clock).tokens
  · exact Or.inl ⟨henough, hposted ▸ scheduleFrom_pays rest (htokens ▸ henough)⟩
  · have hmissing := not_le.mp henough
    rw [scheduleFrom_waits rest (htokens ▸ hmissing)]
    refine Or.inr ⟨hmissing, ⟨?_, hposted, rest, rfl⟩, ?_, htokens⟩
    · exact (hsound.updateTokens hclock).frame hclock rfl rfl rfl rfl (Nat.le_succ _)
    · rw [← ht]
      rfl

/-- A request that comes meanwhile credits its reading and joins the queue. -/
theorem Waits.asyncWait {posted : List WaitingHandler} {first : WaitingHandler} {s : RateLimiter}
    (hclock : Monotone clock) (h : Waits clock posted first s) (w : WaitingHandler) :
    Waits clock posted first (s.asyncWait clock w) ∧
      (s.asyncWait clock w).bytesPerSec = s.bytesPerSec ∧
      (s.asyncWait clock w).tokens = (s.updateTokens clock).tokens := by
  obtain ⟨rest, hrest⟩ := h.head
  rw [asyncWait_behind h.sound.rate h.nonempty]
  refine ⟨⟨(h.sound.updateTokens hclock).frame hclock rfl rfl rfl rfl (Nat.le_refl _), h.posted,
    rest ++ [w], ?_⟩, rfl, rfl⟩
  show s.waitingHandlers ++ [w] = _
  rw [hrest]
  rfl

/-! ## Requests that join the queue -/

/-- The last reading of the clock, and those after it. -/
def reading (clock : Nat → Nat) (s : RateLimiter) : Nat → Nat
  | 0 => s.lastUpdate
  | n + 1 => clock (s.reads + n)

/-- The whole microseconds that the next `n` readings credit. -/
def wholeMicros (clock : Nat → Nat) (s : RateLimiter) : Nat → Nat
  | 0 => 0
  | n + 1 => wholeMicros clock s n + (reading clock s (n + 1) - reading clock s n) / 1000

/-- The tokens after the next `n` readings. -/
def tokensAfter (clock : Nat → Nat) (s : RateLimiter) (n : Nat) : Rat :=
  min (s.tokens + s.bytesPerSec * wholeMicros clock s n / 1000000) s.bytesPerSec

theorem reading_le_succ (hclock : Monotone clock) {s : RateLimiter} (h : Sound clock s) (n : Nat) :
    reading clock s n ≤ reading clock s (n + 1) := by
  cases n with
  | zero => exact h.updated
  | succ n => exact hclock (Nat.le_succ _)

/-- Each of `n` readings drops less than a microsecond. -/
theorem reading_lt_wholeMicros (hclock : Monotone clock) {s : RateLimiter} (h : Sound clock s) :
    ∀ n, reading clock s n ≤ s.lastUpdate + 1000 * wholeMicros clock s n + 999 * n
  | 0 => Nat.le_refl _
  | n + 1 => by
      have ih := reading_lt_wholeMicros hclock h n
      have hle := reading_le_succ hclock h n
      show _ ≤ s.lastUpdate +
        1000 * (wholeMicros clock s n + (reading clock s (n + 1) - reading clock s n) / 1000) + _
      omega

/-- Two credits are capped like their sum. -/
theorem tokensAfter_succ {s : RateLimiter} (hrate : 0 < s.bytesPerSec) (n : Nat) :
    min (tokensAfter clock s n +
        ((reading clock s (n + 1) - reading clock s n) / 1000 : Nat) * s.bytesPerSec / 1000000)
        s.bytesPerSec = tokensAfter clock s (n + 1) := by
  have hr : (0 : Rat) < s.bytesPerSec := Int.cast_pos.mpr hrate
  unfold tokensAfter
  show _ = min (s.tokens + s.bytesPerSec * ((wholeMicros clock s n +
    (reading clock s (n + 1) - reading clock s n) / 1000 : Nat) : Rat) / 1000000) s.bytesPerSec
  generalize (reading clock s (n + 1) - reading clock s n) / 1000 = elapsed
  have hcredit : (0 : Rat) ≤ elapsed * s.bytesPerSec / 1000000 := by positivity
  have hsum : s.tokens + s.bytesPerSec * ((wholeMicros clock s n + elapsed : Nat) : Rat) / 1000000 =
      s.tokens + s.bytesPerSec * wholeMicros clock s n / 1000000 +
        elapsed * s.bytesPerSec / 1000000 := by
    push_cast
    ring
  rw [min_add, min_assoc, min_eq_right (le_add_of_nonneg_right hcredit), hsum]

/-- The state after `n` requests have joined a queue with `first` at its head. -/
structure Joined (clock : Nat → Nat) (s₀ : RateLimiter) (first : WaitingHandler) (n : Nat)
    (s : RateLimiter) : Prop where
  waits : Waits clock s₀.posted first s
  rate : s.bytesPerSec = s₀.bytesPerSec
  tokens : s.tokens = tokensAfter clock s₀ n
  last : s.lastUpdate = reading clock s₀ n
  reads : s.reads = s₀.reads + n

theorem Waits.joined {s : RateLimiter} {first : WaitingHandler}
    (h : Waits clock s.posted first s) : Joined clock s first 0 s where
  waits := h
  rate := rfl
  tokens := by
    unfold tokensAfter wholeMicros
    rw [Nat.cast_zero, mul_zero, zero_div, add_zero, min_eq_left h.sound.capped]
  last := rfl
  reads := rfl

/-- What the next reading makes of the tokens. -/
theorem Joined.next {s₀ s : RateLimiter} {first : WaitingHandler} {n : Nat}
    (h : Joined clock s₀ first n s) :
    (s.updateTokens clock).tokens = tokensAfter clock s₀ (n + 1) := by
  rw [updateTokens_tokens, h.tokens, h.last, h.reads, h.rate]
  exact tokensAfter_succ (h.rate ▸ h.waits.sound.rate) n

theorem Joined.asyncWait {s₀ s : RateLimiter} {first : WaitingHandler} {n : Nat}
    (hclock : Monotone clock) (h : Joined clock s₀ first n s) (w : WaitingHandler) :
    Joined clock s₀ first (n + 1) (s.asyncWait clock w) := by
  obtain ⟨hwaits, hrate, htokens⟩ := h.waits.asyncWait hclock w
  have hbehind : s.asyncWait clock w = _ := asyncWait_behind h.waits.sound.rate h.waits.nonempty w
  refine
    { waits := hwaits
      rate := hrate.trans h.rate
      tokens := htokens.trans h.next
      last := ?_
      reads := ?_ }
  · rw [hbehind]
    show clock s.reads = clock (s₀.reads + n)
    rw [h.reads]
  · rw [hbehind]
    show s.reads + 1 = s₀.reads + (n + 1)
    rw [h.reads, Nat.add_assoc]

theorem joined_of_runAll (hclock : Monotone clock) {s₀ : RateLimiter} {first : WaitingHandler} :
    ∀ (joins : List WaitingHandler) (n : Nat) (s s' : RateLimiter), Joined clock s₀ first n s →
      runAll (step clock) s (joins.map Event.asyncWait) = some s' →
      Joined clock s₀ first (n + joins.length) s'
  | [], _, _, _, h, hrun => Option.some.inj hrun ▸ h
  | w :: joins, n, s, s', h, hrun => by
      have := joined_of_runAll hclock joins (n + 1) _ s' (h.asyncWait hclock w) hrun
      rw [List.length_cons, Nat.add_comm joins.length, ← Nat.add_assoc]
      exact this

/-- **The firing of the timer** pays the head exactly when the bucket, refilled by the readings
since, holds enough. -/
theorem Joined.fires (hclock : Monotone clock) {s₀ s s' : RateLimiter} {first : WaitingHandler}
    {n : Nat} (h : Joined clock s₀ first n s) (hstep : step clock s .timer = some s') :
    s₀.posted ++ [first] <+: s'.posted ↔ (first.bytes : Rat) ≤ tokensAfter clock s₀ (n + 1) := by
  rw [← h.next]
  rcases h.waits.fires hclock hstep with ⟨henough, hpaid⟩ | ⟨hmissing, hwaits, -, -⟩
  · exact ⟨fun _ => henough, fun _ => hpaid⟩
  · refine ⟨fun hpaid => ?_, fun henough => absurd henough (not_le.mpr hmissing)⟩
    have hlength := (hwaits.posted ▸ hpaid).length_le
    rw [List.length_append] at hlength
    exact absurd hlength (Nat.not_succ_le_self _)

/-! ## The delay -/

/-- The delay and one microsecond make up for what is missing. -/
theorem le_of_delayMicros_lt {s : RateLimiter} (h : Sound clock s) {first : WaitingHandler}
    {micros : Nat} (hlt : s.delayMicros first < micros) :
    (first.bytes : Rat) ≤ s.tokens + s.bytesPerSec * micros / 1000000 := by
  have hr : (0 : Rat) < s.bytesPerSec := Int.cast_pos.mpr h.rate
  have hfloor := Nat.lt_floor_add_one (((first.bytes : Rat) - s.tokens) * 1000000 / s.bytesPerSec)
  have hmicros : ((s.delayMicros first : Nat) : Rat) + 1 ≤ micros := by exact_mod_cast hlt
  have hbound : ((first.bytes : Rat) - s.tokens) * 1000000 / s.bytesPerSec < micros :=
    lt_of_lt_of_le hfloor hmicros
  rw [div_lt_iff₀ hr] at hbound
  linarith

/-- The more tokens, the shorter the delay. -/
theorem delayMicros_le {s s' : RateLimiter} (h : Sound clock s) {first : WaitingHandler}
    (hrate : s'.bytesPerSec = s.bytesPerSec) (htokens : s.tokens ≤ s'.tokens) :
    s'.delayMicros first ≤ s.delayMicros first := by
  have hr : (0 : Rat) < s.bytesPerSec := Int.cast_pos.mpr h.rate
  unfold delayMicros
  rw [hrate]
  refine Nat.floor_mono (div_le_div_of_nonneg_right ?_ hr.le)
  linarith

theorem Sound.le_updateTokens {s : RateLimiter} (h : Sound clock s) :
    s.tokens ≤ (s.updateTokens clock).tokens := by
  have hr : (0 : Rat) < s.bytesPerSec := Int.cast_pos.mpr h.rate
  rw [updateTokens_tokens]
  exact le_min (le_add_of_nonneg_right (by positivity)) h.capped

/-- A credit of at least a microsecond that does not pay the head shortens its delay. -/
theorem delayMicros_lt {s s' : RateLimiter} (h : Sound clock s) {first : WaitingHandler}
    {micros : Nat} (hmicros : 1 ≤ micros) (hfits : (first.bytes : Rat) ≤ s.bytesPerSec)
    (hrate : s'.bytesPerSec = s.bytesPerSec)
    (htokens : s'.tokens = min (s.tokens + micros * s.bytesPerSec / 1000000) s.bytesPerSec)
    (hmissing : s'.tokens < first.bytes) : s'.delayMicros first < s.delayMicros first := by
  have hr : (0 : Rat) < s.bytesPerSec := Int.cast_pos.mpr h.rate
  have hone : (1 : Rat) ≤ micros := by exact_mod_cast hmicros
  have hcredit : s'.tokens = s.tokens + micros * s.bytesPerSec / 1000000 := by
    rw [htokens]
    refine min_eq_left (le_of_lt ?_)
    by_contra hge
    rw [htokens, min_eq_right (not_lt.mp hge)] at hmissing
    exact absurd hfits (not_le.mpr hmissing)
  unfold delayMicros
  rw [hrate, hcredit]
  rw [hcredit] at hmissing
  have hsub : ((first.bytes : Rat) - (s.tokens + micros * s.bytesPerSec / 1000000)) * 1000000 /
      s.bytesPerSec = ((first.bytes : Rat) - s.tokens) * 1000000 / s.bytesPerSec - micros := by
    field_simp
    ring
  rw [hsub, Nat.floor_sub_natCast]
  have hle : micros ≤ ⌊((first.bytes : Rat) - s.tokens) * 1000000 / s.bytesPerSec⌋₊ := by
    refine Nat.le_floor ?_
    rw [le_div_iff₀ hr]
    linarith
  omega

/-! ## Firing after firing -/

/-- No new rate, and every firing at least a microsecond after the last reading. -/
def spaced (clock : Nat → Nat) (s : RateLimiter) : Event → Bool
  | .asyncWait _ => true
  | .setRate _ => false
  | .timer => s.lastUpdate + 1000 ≤ clock s.reads

/-- No rate as large as the request of `first`. -/
def ratesBelow (first : WaitingHandler) (_ : RateLimiter) : Event → Bool
  | .setRate bytesPerSec => 0 < bytesPerSec && bytesPerSec < first.bytes
  | _ => true

def firings (es : List Event) : Nat :=
  es.countP fun e => match e with
    | .timer => true
    | _ => false

theorem runAll_posted {ok : RateLimiter → Event → Bool} :
    ∀ {es : List Event} {s s' : RateLimiter}, runAll (guarded (step clock) ok) s es = some s' →
      s.posted <+: s'.posted
  | [], _, _, h => Option.some.inj h ▸ List.prefix_refl _
  | e :: es, s, s', h => by
      rw [runAll, Option.bind_eq_some_iff] at h
      obtain ⟨t, ht, hrest⟩ := h
      rw [guarded, Option.ite_none_right_eq_some] at ht
      exact (step_posted ht.2).trans (runAll_posted hrest)

/-- A request that fits into the rate is paid after at most as many firings as its delay has
microseconds, and one more. -/
theorem paid_of_firings (hclock : Monotone clock) {posted : List WaitingHandler}
    {first : WaitingHandler} :
    ∀ (es : List Event) (s s' : RateLimiter), Waits clock posted first s →
      (first.bytes : Rat) ≤ s.bytesPerSec →
      runAll (guarded (step clock) (spaced clock)) s es = some s' →
      s.delayMicros first < firings es → posted ++ [first] <+: s'.posted
  | [], _, _, _, _, _, hlt => absurd hlt (Nat.not_lt_zero _)
  | e :: es, s, s', h, hfits, hrun, hlt => by
      rw [runAll, Option.bind_eq_some_iff] at hrun
      obtain ⟨t, ht, hrest⟩ := hrun
      rw [guarded, Option.ite_none_right_eq_some] at ht
      obtain ⟨hspaced, hstep⟩ := ht
      cases e with
      | setRate r => exact absurd hspaced (by simp [spaced])
      | asyncWait w =>
          obtain ⟨hwaits, hrate, htokens⟩ := h.asyncWait hclock w
          rw [← Option.some.inj hstep] at hrest
          refine paid_of_firings hclock es _ s' hwaits (hrate ▸ hfits) hrest ?_
          refine Nat.lt_of_le_of_lt (delayMicros_le h.sound hrate ?_) hlt
          rw [htokens]
          exact h.sound.le_updateTokens
      | timer =>
          rcases h.fires hclock hstep with ⟨-, hpaid⟩ | ⟨hmissing, hwaits, hrate, htokens⟩
          · exact hpaid.trans (runAll_posted hrest)
          · refine paid_of_firings hclock es t s' hwaits (hrate ▸ hfits) hrest ?_
            have hcount : firings (.timer :: es) = firings es + 1 := List.countP_cons_of_pos rfl
            -- the firing credits at least a microsecond, which the delay loses
            have hmicros : 1 ≤ (clock s.reads - s.lastUpdate) / 1000 := by
              have := of_decide_eq_true hspaced
              omega
            have hless := delayMicros_lt h.sound hmicros hfits hrate
              (htokens.trans (updateTokens_tokens clock s)) (htokens ▸ hmissing)
            omega

/-- A request that exceeds every rate is never paid. -/
theorem Waits.forever (hclock : Monotone clock) {posted : List WaitingHandler}
    {first : WaitingHandler} {s s' : RateLimiter} (h : Waits clock posted first s)
    (hexceeds : s.bytesPerSec < first.bytes)
    (hs : Reach (step clock) (fun s e => ratesBelow first s e = true) s s') :
    s'.posted = posted := by
  have hkept : Waits clock posted first s' ∧ s'.bytesPerSec < first.bytes := by
    refine hs.invariant (P := fun s => Waits clock posted first s ∧ s.bytesPerSec < first.bytes)
      ⟨h, hexceeds⟩ fun t e t' ht hok hstep => ?_
    obtain ⟨hwaits, hless⟩ := ht
    cases e with
    | asyncWait w =>
        rw [← Option.some.inj hstep]
        obtain ⟨hwaits', hrate, -⟩ := hwaits.asyncWait hclock w
        exact ⟨hwaits', hrate ▸ hless⟩
    | setRate r =>
        rw [ratesBelow, Bool.and_eq_true, decide_eq_true_eq, decide_eq_true_eq] at hok
        rw [← Option.some.inj hstep]
        exact ⟨⟨hwaits.sound.setRate hclock hok.1, hwaits.posted, hwaits.head⟩, hok.2⟩
    | timer =>
        rcases hwaits.fires hclock hstep with ⟨henough, -⟩ | ⟨-, hwaits', hrate, -⟩
        · -- the bucket never holds more than the rate
          have hcapped := (hwaits.sound.updateTokens hclock).capped
          have hless' : (t.bytesPerSec : Rat) < ((first.bytes : Int) : Rat) :=
            Int.cast_lt.mpr hless
          rw [Int.cast_natCast] at hless'
          exact absurd (lt_of_le_of_lt (le_trans henough hcapped) hless') (lt_irrefl _)
        · exact ⟨hwaits', hrate ▸ hless⟩
  exact hkept.1.posted

/-! ## The head of the queue -/

/-- **When the head is paid.** A firing of the timer pays the head exactly when the request
fits into the rate and the whole microseconds of the readings since cover what is missing.
They do when the delay is over, with a microsecond for its truncation and one for every
request that has joined. So a head that fits waits for finitely many firings that are a
microsecond apart, and one that does not waits for ever. -/
theorem head_paid_iff (hclock : Monotone clock) {bytesPerSec : Int} (hrate : 0 < bytesPerSec)
    {s : RateLimiter}
    (hs : Reach (step clock) (fun s e => positiveRates s e = true) (make clock bytesPerSec) s)
    {first : WaitingHandler} {rest : List WaitingHandler}
    (hwaiting : s.waitingHandlers = first :: rest) {joins : List WaitingHandler}
    {s₁ s₂ : RateLimiter} (hjoins : runAll (step clock) s (joins.map Event.asyncWait) = some s₁)
    (hfire : step clock s₁ .timer = some s₂) :
    (s.posted ++ [first] <+: s₂.posted ↔ (first.bytes : Int) ≤ s.bytesPerSec ∧
      (first.bytes : Rat) ≤
        s.tokens + s.bytesPerSec * wholeMicros clock s (joins.length + 1) / 1000000) ∧
    (s.lastUpdate + (s.delayMicros first + 1 + joins.length) * 1000 ≤ clock s₁.reads →
      (first.bytes : Rat) ≤
        s.tokens + s.bytesPerSec * wholeMicros clock s (joins.length + 1) / 1000000) ∧
    ((first.bytes : Int) ≤ s.bytesPerSec → ∀ es s',
      runAll (guarded (step clock) (spaced clock)) s es = some s' →
      s.delayMicros first < firings es → s.posted ++ [first] <+: s'.posted) ∧
    (s.bytesPerSec < first.bytes → ∀ s',
      Reach (step clock) (fun s e => ratesBelow first s e = true) s s' → s'.posted = s.posted) := by
  have hsound := (kept_of_reach hclock hrate hs).sound
  have hwaits : Waits clock s.posted first s := ⟨hsound, rfl, rest, hwaiting⟩
  have hjoined := joined_of_runAll hclock joins 0 s s₁ hwaits.joined hjoins
  rw [Nat.zero_add] at hjoined
  have hfits : (first.bytes : Int) ≤ s.bytesPerSec ↔ (first.bytes : Rat) ≤ s.bytesPerSec := by
    rw [← Int.cast_natCast (R := Rat), Int.cast_le]
  refine ⟨?_, ?_, ?_, ?_⟩
  · rw [hjoined.fires hclock hfire, tokensAfter, le_min_iff, hfits, and_comm]
  · intro helapsed
    refine le_of_delayMicros_lt hsound ?_
    have hdropped := reading_lt_wholeMicros hclock hsound (joins.length + 1)
    rw [hjoined.reads] at helapsed
    have hreading : reading clock s (joins.length + 1) = clock (s.reads + joins.length) := rfl
    omega
  · intro hle es s' hrun hlt
    exact paid_of_firings hclock es s s' hwaits (hfits.mp hle) hrun hlt
  · intro hexceeds s' hreach
    exact hwaits.forever hclock hexceeds hreach

/-- Two bytes are missing at a kilobyte a second, and two milliseconds later they are paid. -/
theorem head_paid_iff_example :
    ∃ s s₂ : RateLimiter, s.waitingHandlers = [⟨3, 1⟩] ∧
      s.posted ++ [⟨3, 1⟩] <+: s₂.posted := by
  have hclock : Monotone fun n : Nat => n * 1000000 := fun _ _ h => Nat.mul_le_mul_right _ h
  obtain ⟨s, hreach, hseen⟩ := exists_of_runGuarded (step fun n => n * 1000000) positiveRates
    [.asyncWait ⟨1000, 0⟩, .asyncWait ⟨3, 1⟩]
    (fun s => (s.waitingHandlers, (step (fun n => n * 1000000) s .timer).isSome, s.bytesPerSec,
      decide (s.lastUpdate + (s.delayMicros ⟨3, 1⟩ + 1 + 0) * 1000 ≤ s.reads * 1000000)))
    (s := make (fun n => n * 1000000) 1000)
    (a := ([⟨3, 1⟩], true, 1000, true)) (by decide +kernel)
  rw [Prod.mk.injEq, Prod.mk.injEq, Prod.mk.injEq] at hseen
  obtain ⟨hwaiting, hfires, hrate, helapsed⟩ := hseen
  obtain ⟨s₂, hs₂⟩ := Option.isSome_iff_exists.mp hfires
  have hnobody : runAll (step fun n => n * 1000000) s
      (([] : List WaitingHandler).map Event.asyncWait) = some s := rfl
  have h := head_paid_iff hclock (by decide) hreach hwaiting hnobody hs₂
  refine ⟨s, s₂, hwaiting, h.1.mpr ⟨?_, h.2.1 (of_decide_eq_true helapsed)⟩⟩
  rw [hrate]
  decide

/-- At a kilobyte a second, the 32768 bytes of one read are not paid when their delay is over. -/
theorem head_not_paid : ¬ ∀ (clock : Nat → Nat) (bytesPerSec : Int) (s s' : RateLimiter)
    (first : WaitingHandler), Monotone clock → 0 < bytesPerSec →
    Reach (step clock) (fun s e => positiveRates s e = true) (make clock bytesPerSec) s →
    s.waitingHandlers = [first] → first.bytes ≤ 32768 → step clock s .timer = some s' →
    s.lastUpdate + (s.delayMicros first + 1) * 1000 ≤ clock s.reads →
    s.posted ++ [first] <+: s'.posted := by
  intro hall
  have hclock : Monotone fun n : Nat => n * 100000000000 :=
    fun _ _ h => Nat.mul_le_mul_right _ h
  obtain ⟨s, hreach, hseen⟩ := exists_of_runGuarded (step fun n => n * 100000000000) positiveRates
    [.asyncWait ⟨32768, 0⟩]
    (fun s => (s.waitingHandlers, (step (fun n => n * 100000000000) s .timer).map posted,
      decide (s.lastUpdate + (s.delayMicros ⟨32768, 0⟩ + 1) * 1000 ≤ s.reads * 100000000000)))
    (s := make (fun n => n * 100000000000) 1000)
    (a := ([⟨32768, 0⟩], some [], true)) (by decide +kernel)
  rw [Prod.mk.injEq, Prod.mk.injEq] at hseen
  obtain ⟨hwaiting, hfires, helapsed⟩ := hseen
  obtain ⟨s', hs', hposted⟩ := Option.map_eq_some_iff.mp hfires
  have hpaid := hall _ 1000 s s' ⟨32768, 0⟩ hclock (by decide) hreach hwaiting (Nat.le_refl _) hs'
    (of_decide_eq_true helapsed)
  rw [hposted] at hpaid
  exact absurd hpaid.length_le (by simp)

end RateLimiter

end Cfrp.Bridge
