import Cfrp.Mux.Refine

/-!
# Heartbeats

`schedule_heartbeat` sets a timer for 30 seconds. When it is over, a session that has read
nothing for more than 120 seconds stops; otherwise it sends a ping and sets the timer again.
A `Timed` session has a clock and this timer beside the session of the other modules, whose
steps are left as they are. Setting the timer again needs its handler to run: `cancel` comes
too late for a handler that is queued already, so a session that was stopped may still ping.

How soon a handler runs is up to the machine and how soon a ping is read is up to the network
and the other end. `prompt` and `hears` say that there is a bound on each.
-/

namespace Cfrp.Mux

open Lib

namespace Session

/-- The period of the heartbeat and the silence it tolerates, in nanoseconds. -/
def heartbeatPeriod : Nat := 30 * 10 ^ 9

def maxIdle : Nat := 120 * 10 ^ 9

/-! ### A session is let go only after it has stopped -/

variable {s s' : Session}

/-- The outstanding read is still the same, and nothing posted has been lost. -/
def KeepsReading (s s' : Session) : Prop :=
  s'.reading = s.reading ∧ ∀ task ∈ s.posted, task ∈ s'.posted

theorem keepsReading_post (s : Session) (task : SessionTask) :
    KeepsReading s { s with posted := s.posted ++ [task] } :=
  ⟨rfl, fun _ hmem => List.mem_append_left _ hmem⟩

theorem KeepsReading.send (h : KeepsReading s s') (pw : PendingFrame) :
    KeepsReading s (s'.asyncSendFrame pw) := by
  have hsame := Pair.asyncSendFrame_same s' pw
  exact ⟨hsame.reading.trans h.1, fun _ hmem => hsame.posted ▸ h.2 _ hmem⟩

theorem KeepsReading.perform (h : KeepsReading s s') (o : Nat) (r : MuxStream × List Effect) :
    KeepsReading s (s'.perform o r) := by
  have hsame := Pair.perform_same s' o r
  exact ⟨hsame.reading.trans h.1, fun _ hmem => hsame.posted ▸ h.2 _ hmem⟩

theorem keepsReading_callHandler (s : Session) (ec : ErrorCode) (handler : FrameHandler) :
    KeepsReading s (s.callHandler ec handler) := by
  cases handler with
  | none => exact ⟨rfl, fun _ h => h⟩
  | failPending o =>
      rw [callHandler]
      split
      · exact ⟨rfl, fun _ h => h⟩
      · exact ⟨rfl, fun _ h => h⟩
  | invoke handler n => exact ⟨rfl, fun _ h => h⟩
  | user handler => exact ⟨rfl, fun _ h => h⟩

theorem keepsReading_writeDone {ec : ErrorCode} (h : s.writeDone ec = some s') :
    KeepsReading s s' := by
  rw [writeDone] at h
  split at h
  · cases h
  · rename_i pw rest _
    obtain ⟨hreading, hposted⟩ :=
      keepsReading_callHandler { s with writeQueue := rest, writing := false } ec pw.handler
    rw [← Option.some.inj h]
    split
    · have hsame := Pair.doWrite_same
        (callHandler { s with writeQueue := rest, writing := false } ec pw.handler)
      exact ⟨hsame.reading.trans hreading, fun _ hmem => hsame.posted ▸ hposted _ hmem⟩
    · exact ⟨hreading, fun _ hmem => List.mem_append_left _ (hposted _ hmem)⟩

/-- Without a read the session has stopped, or is about to. -/
structure Served (s : Session) : Prop where
  reading : s.reading = .idle → s.stopped = true ∨ SessionTask.stop ∈ s.posted
  alive : s.alive = false → s.stopped = true

theorem Served.keeps (h : Served s) (hk : KeepsReading s s') (hlife : s'.lifetime = s.lifetime) :
    Served s' := by
  obtain ⟨halive, hstopped⟩ := Prod.mk.inj hlife
  refine ⟨fun hidle => ?_, fun ha => hstopped.trans (h.alive (halive.symm.trans ha))⟩
  exact (h.reading (hk.1.symm.trans hidle)).imp hstopped.trans (hk.2 _)

theorem served_of_stopped (h : s.stopped = true) : Served s :=
  ⟨fun _ => Or.inl h, fun _ => h⟩

/-- A read is outstanding, or its end has posted `stop`. -/
theorem Served.read (h : Served s) {r : Reading} (hr : r = .idle → SessionTask.stop ∈ s'.posted)
    (hlife : s'.lifetime = s.lifetime) : Served { s' with reading := r } := by
  obtain ⟨halive, hstopped⟩ := Prod.mk.inj hlife
  exact ⟨fun hidle => Or.inr (hr hidle), fun ha => hstopped.trans (h.alive (halive.symm.trans ha))⟩

theorem Served.step (h : Served s) {e : Event} (hstep : s.step e = some s') : Served s' := by
  cases stepped_of_step hstep with
  | openStream onStrand _ =>
      rw [openStream]
      split
      · exact h.keeps (KeepsReading.send ⟨rfl, fun _ hm => hm⟩ _) (send_lifetime _ _)
      · exact h.keeps (keepsReading_post s _) rfl
  | asyncRead size handler readAll _ =>
      exact h.keeps (KeepsReading.perform ⟨rfl, fun _ hm => hm⟩ _ _) perform_lifetime
  | asyncWrite buffers handler _ =>
      exact h.keeps (KeepsReading.perform ⟨rfl, fun _ hm => hm⟩ _ _) perform_lifetime
  | close _ => exact h.keeps (KeepsReading.perform ⟨rfl, fun _ hm => hm⟩ _ _) perform_lifetime
  | destroy _ _ => exact h.keeps (KeepsReading.perform ⟨rfl, fun _ hm => hm⟩ _ _) perform_lifetime
  | sendFrame f handler _ =>
      cases handler with
      | none => exact h.keeps (KeepsReading.send ⟨rfl, fun _ hm => hm⟩ _) (send_lifetime _ _)
      | some _ => exact h.keeps (KeepsReading.send ⟨rfl, fun _ hm => hm⟩ _) (send_lifetime _ _)
  | postFrame f handler _ =>
      cases handler with
      | none => exact h.keeps (keepsReading_post s _) rfl
      | some _ => exact h.keeps (keepsReading_post s _) rfl
  | heartbeat _ => exact h.keeps (KeepsReading.send ⟨rfl, fun _ hm => hm⟩ _) (send_lifetime _ _)
  | stop running _ => exact served_of_stopped (stop_stopped s running)
  | postStop _ => exact h.keeps (keepsReading_post s _) rfl
  | @runStream o obj t tasks _ _ =>
      cases t with
      | arrival a => exact h.keeps (KeepsReading.perform ⟨rfl, fun _ hm => hm⟩ _ _) perform_lifetime
      | failWrites ec =>
          exact h.keeps (KeepsReading.perform ⟨rfl, fun _ hm => hm⟩ _ _) perform_lifetime
      | complete c => exact h.keeps ⟨rfl, fun _ hm => hm⟩ rfl
  | @sendPosted pw posted hposted =>
      have hsame := Pair.asyncSendFrame_same { s with posted } pw
      have hlife := send_lifetime { s with posted } pw
      refine ⟨fun hidle => ?_, fun ha => ?_⟩
      · refine (h.reading (hsame.reading.symm.trans hidle)).imp
          (fun hs => (congrArg Prod.snd hlife).trans hs) fun hmem => ?_
        rw [hposted] at hmem
        rw [hsame.posted]
        exact (List.mem_cons.mp hmem).resolve_left (by simp)
      · exact (congrArg Prod.snd hlife).trans (h.alive ((congrArg Prod.fst hlife).symm.trans ha))
  | stopPosted _ => exact served_of_stopped (stop_stopped _ _)
  | writeOk _ _ hdone => exact h.keeps (keepsReading_writeDone hdone) (writeDone_lifetime hdone)
  | writeError _ hdone => exact h.keeps (keepsReading_writeDone hdone) (writeDone_lifetime hdone)
  | late _ _ hstopped => exact served_of_stopped hstopped
  | header _ _ _ _ _ => exact h.read (fun hidle => by cases hidle) rfl
  | tooLong _ _ _ _ =>
      exact h.read (fun _ => List.mem_append_right _ (List.mem_singleton_self _)) rfl
  | headerFrame _ _ _ =>
      exact h.read (fun hidle => by cases hidle) (handleFrame_lifetime s _ _)
  | bodyFrame _ _ _ =>
      exact h.read (fun hidle => by cases hidle) (handleFrame_lifetime s _ _)
  | readError _ _ =>
      exact h.read (fun _ => List.mem_append_right _ (List.mem_singleton_self _)) rfl
  | expire _ hposted _ hreading =>
      refine served_of_stopped ((h.reading hreading).resolve_right fun hmem => ?_)
      rw [hposted] at hmem
      exact List.not_mem_nil hmem

end Session

/-- A session with its heartbeat timer. `pings` and `zombie` are history: when it sent pings,
and whether it has declared its connection dead. -/
structure Timed where
  session : Session
  now : Nat
  lastReadTime : Nat
  /-- The expiry of `heartbeat_timer_`, while it is waited for. -/
  heartbeatTimer : Option Nat
  /-- The expiry that a queued handler was waiting for. -/
  queued : Option Nat := none
  pings : List Nat := []
  zombie : Bool := false

namespace Timed

open Session

inductive Event where
  | elapse (d : Nat)
  /-- The wait is over, and its handler is queued. -/
  | expires
  /-- The handler runs. -/
  | fire
  /-- Anything else that happens to the session. -/
  | session (e : Session.Event)

/-- The handler of the timer. -/
def fire (t : Timed) : Option Timed :=
  if t.session.alive = false then some { t with queued := none }
  else if t.now - t.lastReadTime > maxIdle then
    (t.session.step (.stop none)).map fun session =>
      { t with session, heartbeatTimer := none, queued := none,
               zombie := t.zombie || !t.session.stopped }
  else
    (t.session.step .heartbeat).map fun session =>
      { t with session, heartbeatTimer := some (t.now + heartbeatPeriod), queued := none,
               pings := t.now :: t.pings }

/-- A header or a body has been read by a session that was not stopped. -/
def reads (s : Session) : Session.Event → Bool
  | .recvHeader _ | .recvBody _ => !s.stopped
  | _ => false

def step (t : Timed) : Event → Option Timed
  | .elapse d => some { t with now := t.now + d }
  | .expires =>
      match t.heartbeatTimer with
      | some expiry =>
          if expiry ≤ t.now then some { t with heartbeatTimer := none, queued := some expiry }
          else none
      | none => none
  | .fire => if t.queued.isSome then t.fire else none
  | .session e =>
      if e = .heartbeat then none
      else
        (t.session.step e).map fun session =>
          { t with
            session
            lastReadTime := if reads t.session e then t.now else t.lastReadTime
            -- `stop` cancels the timer
            heartbeatTimer :=
              if session.stopped && !t.session.stopped then none else t.heartbeatTimer }

/-- A session that is created and started at some time. -/
def start (isServer : Bool) (at₀ : Nat) : Timed where
  session := { isServer }
  now := at₀
  lastReadTime := at₀
  heartbeatTimer := some (at₀ + heartbeatPeriod)

/-- Time does not pass a timer, or a handler that is queued, by more than `latency`. -/
def prompt (latency : Nat) (t : Timed) : Event → Prop
  | .elapse d => ∀ expiry, t.heartbeatTimer = some expiry ∨ t.queued = some expiry →
      t.now + d ≤ expiry + latency
  | _ => True

instance (latency : Nat) (t : Timed) : (e : Event) → Decidable (prompt latency t e)
  | .elapse d => decidable_of_iff (∀ expiry ∈ t.heartbeatTimer.toList ++ t.queued.toList,
      t.now + d ≤ expiry + latency) (by simp [prompt])
  | .expires => isTrue trivial
  | .fire => isTrue trivial
  | .session _ => isTrue trivial

/-- The timer is waited for, or its handler is queued. -/
def Armed (t : Timed) (expiry : Nat) : Prop :=
  t.heartbeatTimer = some expiry ∨ t.queued = some expiry

/-! ## One session -/

/-- What is known of the clock, the timer and the pings of a session. -/
structure Beats (latency at₀ : Nat) (t : Timed) : Prop where
  served : t.session.Served
  /-- A session that runs waits for its next heartbeat. -/
  armed : t.session.stopped = false → ∃ expiry, t.Armed expiry
  lastRead : at₀ ≤ t.lastReadTime ∧ t.lastReadTime ≤ t.now
  pinged : ∀ p ∈ t.pings, p ≤ t.now
  /-- It was set at the start or with a ping, when the silence was still tolerated. -/
  expiry : ∀ {expiry}, t.Armed expiry →
    (expiry = at₀ + heartbeatPeriod ∨ ∃ p ∈ t.pings, expiry = p + heartbeatPeriod) ∧
      expiry ≤ t.lastReadTime + maxIdle + heartbeatPeriod ∧ t.now ≤ expiry + latency
  /-- There is a ping in every stretch of time of a period and the latency. -/
  window : t.session.stopped = false → ∀ x, at₀ ≤ x →
    x + heartbeatPeriod + latency < t.now →
      ∃ p ∈ t.pings, x < p ∧ p ≤ x + heartbeatPeriod + latency

variable {latency at₀ : Nat} {t t' : Timed}

theorem beats_start (isServer : Bool) (latency at₀ : Nat) :
    Beats latency at₀ (start isServer at₀) where
  served := ⟨fun h => (by cases h), fun h => (by cases h)⟩
  armed _ := ⟨_, Or.inl rfl⟩
  lastRead := ⟨Nat.le_refl _, Nat.le_refl _⟩
  pinged _ h := absurd h List.not_mem_nil
  expiry := by
    rintro expiry (h | h)
    · obtain rfl := Option.some.inj h
      show _ ∧ at₀ + heartbeatPeriod ≤ at₀ + maxIdle + heartbeatPeriod ∧
        at₀ ≤ at₀ + heartbeatPeriod + latency
      exact ⟨Or.inl rfl, by omega, by omega⟩
    · cases h
  window _ x hx hlt := by
    have hnow : (start isServer at₀).now = at₀ := rfl
    omega

theorem Beats.elapse (h : Beats latency at₀ t) {d : Nat}
    (hprompt : prompt latency t (.elapse d)) : Beats latency at₀ { t with now := t.now + d } := by
  obtain ⟨hstart, hread⟩ := h.lastRead
  refine ⟨h.served, h.armed, ⟨hstart, Nat.le_trans hread (Nat.le_add_right _ _)⟩,
    fun p hp => Nat.le_trans (h.pinged p hp) (Nat.le_add_right _ _), fun {expiry} ha => ?_, ?_⟩
  · obtain ⟨hset, hidle, -⟩ := h.expiry ha
    exact ⟨hset, hidle, hprompt expiry ha⟩
  · intro hrun x hx hlt
    by_cases hold : x + heartbeatPeriod + latency < t.now
    · exact h.window hrun x hx hold
    · -- the stretch has just come to its end, so the last ping before it is in it
      obtain ⟨expiry, ha⟩ := h.armed hrun
      have hlate : t.now + d ≤ expiry + latency := hprompt expiry ha
      have hlt : x + heartbeatPeriod + latency < t.now + d := hlt
      obtain ⟨rfl | ⟨p, hp, rfl⟩, -, -⟩ := h.expiry ha
      · omega
      · have hpast := h.pinged p hp
        exact ⟨p, hp, by omega, by omega⟩

theorem Beats.expires (h : Beats latency at₀ t) (hstep : t.step .expires = some t') :
    Beats latency at₀ t' := by
  simp only [step] at hstep
  cases htimer : t.heartbeatTimer with
  | none =>
      rw [htimer] at hstep
      cases hstep
  | some expiry =>
      simp only [htimer, Option.ite_none_right_eq_some, Option.some.injEq] at hstep
      obtain ⟨-, rfl⟩ := hstep
      refine ⟨h.served, fun _ => ⟨expiry, Or.inr rfl⟩, h.lastRead, h.pinged, fun {e} ha => ?_,
        h.window⟩
      rcases ha with ha | ha
      · cases ha
      · obtain rfl := Option.some.inj ha
        exact h.expiry (Or.inl htimer)

/-- The three ways through the handler. -/
theorem fire_cases (hstep : t.step .fire = some t') :
    (t.session.alive = false ∧ t' = { t with queued := none }) ∨
    (t.session.alive = true ∧ maxIdle < t.now - t.lastReadTime ∧ ∃ session,
      t.session.step (.stop none) = some session ∧ session.stopped = true ∧
      t' = { t with session, heartbeatTimer := none, queued := none,
                    zombie := t.zombie || !t.session.stopped }) ∨
    (t.session.alive = true ∧ t.now - t.lastReadTime ≤ maxIdle ∧ ∃ session,
      t.session.step .heartbeat = some session ∧ session.lifetime = t.session.lifetime ∧
      t' = { t with session, heartbeatTimer := some (t.now + heartbeatPeriod), queued := none,
                    pings := t.now :: t.pings }) := by
  simp only [step, Option.ite_none_right_eq_some] at hstep
  obtain ⟨-, hstep⟩ := hstep
  rw [fire] at hstep
  by_cases halive : t.session.alive = false
  · rw [if_pos halive] at hstep
    exact Or.inl ⟨halive, (Option.some.inj hstep).symm⟩
  · rw [if_neg halive] at hstep
    rw [Bool.not_eq_false] at halive
    refine Or.inr ?_
    by_cases hidle : t.now - t.lastReadTime > maxIdle
    · rw [if_pos hidle, Option.map_eq_some_iff] at hstep
      obtain ⟨session, hsession, rfl⟩ := hstep
      refine Or.inl ⟨halive, hidle, session, hsession, ?_, rfl⟩
      simp only [Session.step, if_pos halive, Option.some.injEq] at hsession
      rw [← hsession]
      exact stop_stopped _ _
    · rw [if_neg hidle, Option.map_eq_some_iff] at hstep
      obtain ⟨session, hsession, rfl⟩ := hstep
      refine Or.inr ⟨halive, Nat.le_of_not_lt hidle, session, hsession, ?_, rfl⟩
      simp only [Session.step, if_pos halive, Option.some.injEq] at hsession
      rw [← hsession]
      exact send_lifetime _ _

theorem Beats.fire (h : Beats latency at₀ t) (hstep : t.step .fire = some t') :
    Beats latency at₀ t' := by
  obtain ⟨hstart, hread⟩ := h.lastRead
  rcases fire_cases hstep with ⟨halive, rfl⟩ | ⟨-, -, session, hsession, hstopped, rfl⟩ |
    ⟨-, hidle, session, hsession, hlife, rfl⟩
  · have hstopped := h.served.alive halive
    refine ⟨h.served, fun hrun => ?_, h.lastRead, h.pinged, fun {e} ha => ?_, fun hrun => ?_⟩
    · cases hstopped.symm.trans hrun
    · rcases ha with ha | ha
      · exact h.expiry (Or.inl ha)
      · cases ha
    · cases hstopped.symm.trans hrun
  · refine ⟨h.served.step hsession, fun hrun => ?_, h.lastRead, h.pinged, fun {e} ha => ?_,
      fun hrun => ?_⟩
    · cases hstopped.symm.trans hrun
    · rcases ha with ha | ha <;> cases ha
    · cases hstopped.symm.trans hrun
  · obtain ⟨-, hstop⟩ := Prod.mk.inj hlife
    refine ⟨h.served.step hsession, fun _ => ⟨_, Or.inl rfl⟩, h.lastRead, fun p hp => ?_,
      fun {e} ha => ?_, ?_⟩
    · rcases List.mem_cons.mp hp with rfl | hp
      · exact Nat.le_refl _
      · exact h.pinged p hp
    · rcases ha with ha | ha
      · obtain rfl := Option.some.inj ha
        refine ⟨Or.inr ⟨t.now, List.mem_cons_self, rfl⟩, ?_, ?_⟩
        · show t.now + heartbeatPeriod ≤ t.lastReadTime + maxIdle + heartbeatPeriod
          omega
        · show t.now ≤ t.now + heartbeatPeriod + latency
          omega
      · cases ha
    · intro hrun x hx hlt
      obtain ⟨p, hp, hwindow⟩ := h.window (hstop ▸ hrun) x hx hlt
      exact ⟨p, List.mem_cons_of_mem _ hp, hwindow⟩

theorem Beats.session (h : Beats latency at₀ t) {e : Session.Event}
    (hstep : t.step (.session e) = some t') : Beats latency at₀ t' := by
  simp only [step, Option.ite_none_left_eq_some, Option.map_eq_some_iff] at hstep
  obtain ⟨-, session, hsession, rfl⟩ := hstep
  obtain ⟨hstart, hread⟩ := h.lastRead
  have hrunning : session.stopped = false → t.session.stopped = false := fun hrun => by
    rw [← Bool.not_eq_true]
    exact fun hs => absurd (step_stopped hsession hs) (by simp [hrun])
  have hmono : t.lastReadTime ≤ if reads t.session e then t.now else t.lastReadTime := by
    split <;> omega
  refine ⟨h.served.step hsession, fun hrun => ?_, ⟨Nat.le_trans hstart hmono, ?_⟩, h.pinged,
    fun {expiry} ha => ?_, fun hrun => h.window (hrunning hrun)⟩
  · obtain ⟨expiry, harmed⟩ := h.armed (hrunning hrun)
    refine ⟨expiry, ?_⟩
    have hkept : ¬(session.stopped && !t.session.stopped) = true := by
      simp [show session.stopped = false from hrun]
    show (if session.stopped && !t.session.stopped then none else t.heartbeatTimer) = _ ∨ _
    rw [if_neg hkept]
    exact harmed
  · show (if reads t.session e then t.now else t.lastReadTime) ≤ t.now
    split <;> omega
  · have hold : t.Armed expiry := by
      rcases ha with ha | ha
      · refine Or.inl ?_
        dsimp only at ha
        split at ha
        · cases ha
        · exact ha
      · exact Or.inr ha
    obtain ⟨hset, hidle, hlate⟩ := h.expiry hold
    exact ⟨hset, Nat.le_trans hidle (Nat.add_le_add_right (Nat.add_le_add_right hmono _) _), hlate⟩

theorem Beats.step (h : Beats latency at₀ t) {e : Event} (hprompt : prompt latency t e)
    (hstep : t.step e = some t') : Beats latency at₀ t' := by
  cases e with
  | elapse d =>
      obtain rfl := Option.some.inj hstep
      exact h.elapse hprompt
  | expires => exact h.expires hstep
  | fire => exact h.fire hstep
  | session e => exact h.session hstep

theorem beats_of_reach {isServer : Bool}
    (h : Reach step (prompt latency) (start isServer at₀) t) : Beats latency at₀ t :=
  h.invariant (beats_start isServer latency at₀) fun _ _ _ hs hok hstep => hs.step hok hstep

/-- **A silent connection is noticed.** A session that runs has read something in the last
150 seconds, but for the latency of its handlers. It declares the connection dead only after
120 seconds of silence. And the timer does not outlive the silence either, even if the session
was stopped while its handler was queued. -/
theorem silence_noticed {isServer : Bool}
    (h : Reach step (prompt latency) (start isServer at₀) t) :
    (t.session.stopped = false →
      t.now ≤ t.lastReadTime + maxIdle + heartbeatPeriod + latency) ∧
    (∀ expiry, t.Armed expiry → t.now ≤ t.lastReadTime + maxIdle + heartbeatPeriod + latency) ∧
    ∀ e t', t.step e = some t' → t'.zombie = true → t.zombie = true ∨
      e = .fire ∧ t.session.stopped = false ∧ t.lastReadTime + maxIdle < t.now := by
  have hbeats := beats_of_reach h
  have harmed : ∀ expiry, t.Armed expiry →
      t.now ≤ t.lastReadTime + maxIdle + heartbeatPeriod + latency := fun expiry ha => by
    obtain ⟨-, hidle, hlate⟩ := hbeats.expiry ha
    omega
  refine ⟨fun hrun => ?_, harmed, fun e t' hstep hzombie => ?_⟩
  · obtain ⟨expiry, ha⟩ := hbeats.armed hrun
    exact harmed expiry ha
  · cases e with
    | elapse d =>
        obtain rfl := Option.some.inj hstep
        exact Or.inl hzombie
    | expires =>
        simp only [step] at hstep
        split at hstep
        · rw [Option.ite_none_right_eq_some] at hstep
          obtain ⟨-, hstep⟩ := hstep
          obtain rfl := Option.some.inj hstep
          exact Or.inl hzombie
        · cases hstep
    | fire =>
        rcases fire_cases hstep with ⟨-, rfl⟩ | ⟨-, hidle, session, -, -, rfl⟩ |
          ⟨-, -, session, -, -, rfl⟩
        · exact Or.inl hzombie
        · refine ((Bool.or_eq_true _ _).mp hzombie).imp id fun hrun => ⟨rfl, ?_, by omega⟩
          rwa [Bool.not_eq_true'] at hrun
        · exact Or.inl hzombie
    | session e =>
        simp only [step, Option.ite_none_left_eq_some, Option.map_eq_some_iff] at hstep
        obtain ⟨-, session, -, rfl⟩ := hstep
        exact Or.inl hzombie

/-- The heartbeat of a session whose peer is silent. -/
def beat : List Event := [.elapse heartbeatPeriod, .expires, .fire]

/-- After five periods without a sound the connection is dead. -/
theorem silence_noticed_fiveBeats :
    ∃ t : Timed, t.zombie = false ∧ t.now = 5 * heartbeatPeriod ∧
      ∀ t', t.step .fire = some t' → t'.zombie = true → t.lastReadTime + maxIdle < t.now := by
  obtain ⟨t, hreach, hobs⟩ := exists_of_runGuarded step (fun t e => decide (prompt 0 t e))
    (beat ++ beat ++ beat ++ beat ++ [.elapse heartbeatPeriod, .expires])
    (fun t => (t.zombie, t.now)) (s := start false 0) (a := (false, 5 * heartbeatPeriod))
    (by decide +kernel)
  obtain ⟨hzombie, hnow⟩ := Prod.mk.inj hobs
  have hnoticed := (silence_noticed (hreach.mono fun _ _ => of_decide_eq_true)).2.2
  refine ⟨t, hzombie, hnow, fun t' hstep hz => ?_⟩
  rcases hnoticed .fire t' hstep hz with hold | ⟨-, -, hlate⟩
  · cases hzombie.symm.trans hold
  · exact hlate

end Timed

/-! ## Two sessions -/

/-- The two ends of a connection. -/
structure Duo where
  left : Timed
  right : Timed

namespace Duo

open Session Timed

inductive Event where
  | elapse (d : Nat)
  | left (e : Timed.Event)
  | right (e : Timed.Event)

def isElapse : Timed.Event → Bool
  | .elapse _ => true
  | _ => false

def step (s : Duo) : Event → Option Duo
  | .elapse d => (s.left.step (.elapse d)).bind fun left =>
      (s.right.step (.elapse d)).map fun right => { left, right }
  | .left e => if isElapse e then none else (s.left.step e).map fun left => { s with left }
  | .right e => if isElapse e then none else (s.right.step e).map fun right => { s with right }

/-- While both ends run, a ping is read within `delay` of being sent: by then the other end has
read something at the time of the ping or later. -/
def hears (delay : Nat) (a b : Timed) (d : Nat) : Prop :=
  a.session.stopped = false → b.session.stopped = false → ∀ p ∈ a.pings,
    p + delay < a.now + d → p ≤ b.lastReadTime

instance (delay : Nat) (a b : Timed) (d : Nat) : Decidable (hears delay a b d) :=
  inferInstanceAs (Decidable (_ → _ → ∀ p ∈ a.pings, _ → _))

/-- The machines and the network keep to their bounds. -/
def punctual (latency delay : Nat) (s : Duo) : Event → Prop
  | .elapse d => prompt latency s.left (.elapse d) ∧ prompt latency s.right (.elapse d) ∧
      hears delay s.left s.right d ∧ hears delay s.right s.left d
  | _ => True

instance (latency delay : Nat) (s : Duo) : (e : Event) → Decidable (punctual latency delay s e)
  | .elapse _ => inferInstanceAs (Decidable (_ ∧ _ ∧ _ ∧ _))
  | .left _ => isTrue trivial
  | .right _ => isTrue trivial

def start (at₀ : Nat) : Duo := { left := Timed.start false at₀, right := Timed.start true at₀ }

/-! ### Every run -/

variable {latency delay at₀ : Nat} {s s' : Duo}

/-- An end that hears pings in time has read something not long ago. -/
theorem recent_of_hears {a b : Timed} (ha : Beats latency at₀ a) (hb : Beats latency at₀ b)
    (hruna : a.session.stopped = false) (hsame : a.now = b.now)
    (hheard : ∀ p ∈ a.pings, p + delay < a.now → p ≤ b.lastReadTime) :
    b.now ≤ b.lastReadTime + heartbeatPeriod + latency + delay := by
  by_contra hlate
  obtain ⟨p, hp, hafter, hbefore⟩ :=
    ha.window hruna b.lastReadTime hb.lastRead.1 (by omega)
  have := hheard p hp (by omega)
  omega

/-- What is known of the two ends together. -/
structure Inv (latency delay at₀ : Nat) (s : Duo) : Prop where
  left : Beats latency at₀ s.left
  right : Beats latency at₀ s.right
  sameTime : s.left.now = s.right.now
  heardRight : s.left.session.stopped = false → s.right.session.stopped = false →
    ∀ p ∈ s.left.pings, p + delay < s.left.now → p ≤ s.right.lastReadTime
  heardLeft : s.right.session.stopped = false → s.left.session.stopped = false →
    ∀ p ∈ s.right.pings, p + delay < s.right.now → p ≤ s.left.lastReadTime
  leftZombie : s.left.zombie = true →
    s.left.session.stopped = true ∧ s.right.session.stopped = true ∧ s.right.zombie = false
  rightZombie : s.right.zombie = true →
    s.right.session.stopped = true ∧ s.left.session.stopped = true ∧ s.left.zombie = false

/-- The other way round. -/
def swap (s : Duo) : Duo := { left := s.right, right := s.left }

theorem Inv.swap (h : Inv latency delay at₀ s) : Inv latency delay at₀ s.swap :=
  ⟨h.right, h.left, h.sameTime.symm, h.heardLeft, h.heardRight, h.rightZombie, h.leftZombie⟩

theorem inv_start (latency delay at₀ : Nat) : Inv latency delay at₀ (start at₀) where
  left := beats_start false latency at₀
  right := beats_start true latency at₀
  sameTime := rfl
  heardRight _ _ p hp := absurd hp List.not_mem_nil
  heardLeft _ _ p hp := absurd hp List.not_mem_nil
  leftZombie h := by cases h
  rightZombie h := by cases h

/-- What an end does by itself: its clock stands still, what it has read stays read, it sends
pings of this moment only, and it declares its connection dead only after a long silence. -/
theorem own_step {t t' : Timed} {e : Timed.Event} (he : isElapse e = false)
    (hbeats : Beats latency at₀ t) (hstep : t.step e = some t') :
    t'.now = t.now ∧ t.lastReadTime ≤ t'.lastReadTime ∧
      (∀ p ∈ t'.pings, p ∈ t.pings ∨ p = t.now) ∧
      (t.session.stopped = true → t'.session.stopped = true) ∧
      (t'.zombie = true → t.zombie = true ∨ t.session.stopped = false ∧
        t'.session.stopped = true ∧ maxIdle < t.now - t.lastReadTime) := by
  cases e with
  | elapse d => cases he
  | expires =>
      simp only [Timed.step] at hstep
      split at hstep
      · rw [Option.ite_none_right_eq_some] at hstep
        obtain ⟨-, hstep⟩ := hstep
        obtain rfl := Option.some.inj hstep
        exact ⟨rfl, Nat.le_refl _, fun p hp => Or.inl hp, id, Or.inl⟩
      · cases hstep
  | fire =>
      rcases fire_cases hstep with ⟨-, rfl⟩ | ⟨-, hidle, session, hsession, hstopped, rfl⟩ |
        ⟨-, -, session, hsession, -, rfl⟩
      · exact ⟨rfl, Nat.le_refl _, fun p hp => Or.inl hp, id, Or.inl⟩
      · refine ⟨rfl, Nat.le_refl _, fun p hp => Or.inl hp, step_stopped hsession, fun hz => ?_⟩
        refine ((Bool.or_eq_true _ _).mp hz).imp id fun hrun => ⟨?_, hstopped, hidle⟩
        rwa [Bool.not_eq_true'] at hrun
      · refine ⟨rfl, Nat.le_refl _, fun p hp => ?_, step_stopped hsession, Or.inl⟩
        exact (List.mem_cons.mp hp).symm
  | session e =>
      simp only [Timed.step, Option.ite_none_left_eq_some, Option.map_eq_some_iff] at hstep
      obtain ⟨-, session, hsession, rfl⟩ := hstep
      have hread := hbeats.lastRead.2
      refine ⟨rfl, ?_, fun p hp => Or.inl hp, step_stopped hsession, Or.inl⟩
      show t.lastReadTime ≤ if reads t.session e then t.now else t.lastReadTime
      split <;> omega

/-- The left end does something. -/
theorem Inv.own (hbound : heartbeatPeriod + latency + delay ≤ maxIdle)
    (h : Inv latency delay at₀ s) {e : Timed.Event} (he : isElapse e = false) {left : Timed}
    (hstep : s.left.step e = some left) : Inv latency delay at₀ { s with left } := by
  obtain ⟨hnow, hread, hpings, hstays, hzombie⟩ := own_step he h.left hstep
  have hprompt : prompt latency s.left e := by
    cases e with
    | elapse d => cases he
    | _ => trivial
  have hrunning : left.session.stopped = false → s.left.session.stopped = false := fun hrun => by
    rw [← Bool.not_eq_true]
    exact fun hs => absurd (hstays hs) (by simp [hrun])
  refine ⟨h.left.step hprompt hstep, h.right, hnow.trans h.sameTime, ?_, ?_, ?_, ?_⟩
  · intro hrun hother p hp hlate
    have hlate : p + delay < s.left.now := hnow ▸ hlate
    rcases hpings p hp with hp | rfl
    · exact h.heardRight (hrunning hrun) hother p hp hlate
    · omega
  · intro hother hrun p hp hlate
    exact Nat.le_trans (h.heardLeft hother (hrunning hrun) p hp hlate) hread
  · intro hz
    rcases hzombie hz with hz | ⟨hrun, hstopped, hidle⟩
    · obtain ⟨hs, hrest⟩ := h.leftZombie hz
      exact ⟨hstays hs, hrest⟩
    · -- the other end does not run any more, or its pings would have been heard
      have hother : s.right.session.stopped = true := by
        rw [← Bool.not_eq_false]
        intro hother
        have := recent_of_hears h.right h.left hother h.sameTime.symm (h.heardLeft hother hrun)
        omega
      refine ⟨hstopped, hother, ?_⟩
      rw [← Bool.not_eq_true]
      exact fun hz => absurd (h.rightZombie hz).2.1 (by simp [hrun])
  · intro hz
    obtain ⟨hs, hl, hlz⟩ := h.rightZombie hz
    refine ⟨hs, hstays hl, ?_⟩
    rw [← Bool.not_eq_true]
    intro hz'
    rcases hzombie hz' with hz' | ⟨hrun, -⟩
    · exact absurd hz' (by simp [hlz])
    · exact absurd hl (by simp [hrun])

theorem Inv.step (hbound : heartbeatPeriod + latency + delay ≤ maxIdle)
    (h : Inv latency delay at₀ s) {e : Event} (hok : punctual latency delay s e)
    (hstep : s.step e = some s') : Inv latency delay at₀ s' := by
  cases e with
  | elapse d =>
      obtain rfl := Option.some.inj hstep
      obtain ⟨hpl, hpr, hlr, hrl⟩ := hok
      refine ⟨h.left.elapse hpl, h.right.elapse hpr, ?_, hlr, hrl, h.leftZombie, h.rightZombie⟩
      exact congrArg (· + d) h.sameTime
  | left e =>
      simp only [Duo.step, Option.ite_none_left_eq_some, Option.map_eq_some_iff] at hstep
      obtain ⟨he, left, hleft, rfl⟩ := hstep
      exact h.own hbound (Bool.not_eq_true _ ▸ he) hleft
  | right e =>
      simp only [Duo.step, Option.ite_none_left_eq_some, Option.map_eq_some_iff] at hstep
      obtain ⟨he, right, hright, rfl⟩ := hstep
      exact (h.swap.own hbound (Bool.not_eq_true _ ▸ he) hright).swap

/-- **No false alarm.** When the handlers are late by at most `latency` and a ping is read
within `delay`, and these and the period are not more than 120 seconds together, then an end
declares the connection dead only if the other end was stopped before, and not by its own
heartbeat. -/
theorem no_false_alarm (hbound : heartbeatPeriod + latency + delay ≤ maxIdle)
    (h : Reach step (punctual latency delay) (start at₀) s) :
    (s.left.zombie = true → s.right.session.stopped = true ∧ s.right.zombie = false) ∧
    (s.right.zombie = true → s.left.session.stopped = true ∧ s.left.zombie = false) := by
  have hinv : Inv latency delay at₀ s :=
    h.invariant (inv_start latency delay at₀) fun _ _ _ hs hok hstep => hs.step hbound hok hstep
  exact ⟨fun hz => (hinv.leftZombie hz).2, fun hz => (hinv.rightZombie hz).2⟩

/-- The heartbeat of the left end. -/
def beat : List Event := [.elapse heartbeatPeriod, .left .expires, .left .fire]

/-- The right end is stopped, and five periods later the left one notices. -/
theorem no_false_alarm_stopped :
    ∃ s : Duo, s.left.zombie = true ∧ s.right.session.stopped = true ∧ s.right.zombie = false := by
  obtain ⟨s, hreach, hobs⟩ := exists_of_runGuarded step
    (fun s e => decide (punctual 0 0 s e))
    (.right (.session (.stop none)) :: beat ++ beat ++ beat ++ beat ++ beat)
    (fun s => s.left.zombie) (s := start 0) (a := true) (by decide +kernel)
  obtain ⟨hright, -⟩ := no_false_alarm (by decide) (hreach.mono fun _ _ => of_decide_eq_true)
  exact ⟨s, hobs, hright hobs⟩

end Duo

end Cfrp.Mux
