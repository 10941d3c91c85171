import Cfrp.Client.Attempts

/-!
# Superseded attempts

A callback of an attempt that was replaced should do nothing to the present one. The
guard of the callbacks, `connection_id_`, tells attempts of different `DoConnect`s
apart, but not the QUIC endpoints of one; and `HandleDisconnect`, which most failures
post, and the UDP receive have no guard at all. `AttemptInv` says enough about the tasks
of a reachable client to know exactly when a superseded callback is ignored.
-/

namespace Cfrp

open Lib

/-- The handlers of a `DoConnect` before it has got as far as a session. -/
def TaskKind.dial : TaskKind → Bool
  | .resolve | .connect | .handshake => true
  | _ => false

/-- The callbacks that belong to a QUIC session. -/
def TaskKind.ofQuic : TaskKind → Bool
  | .timer | .onConnected | .onClosed => true
  | _ => false

namespace Connector

variable {s s' : Connector} {a : AttemptId} {q : QuicAttempt} {t : ClientTask} {out : Outcome}
  {cause : Cause}

/-! ## What is said of a callback -/

/-- The attempt of the callback was replaced or given up. -/
def Superseded (s : Connector) (t : ClientTask) : Prop := s.current ≠ some t.attempt

/-- The `HandleDisconnect`s that are posted. -/
def orders (s : Connector) : List ClientTask := s.tasks.filter fun t => t.kind = .disconnect

/-- Nothing happened to the present attempt, and nobody has ordered its end. -/
structure SameAttempt (s s' : Connector) : Prop where
  current : s'.current = s.current
  connectionId : s'.connectionId = s.connectionId
  currentProtocol : s'.currentProtocol = s.currentProtocol
  quicEndpointIndex : s'.quicEndpointIndex = s.quicEndpointIndex
  quicSession : s'.quicSession = s.quicSession
  quicAttempts : s'.quicAttempts = s.quicAttempts
  muxSession : s'.muxSession = s.muxSession
  handshakeTimer : s'.handshakeTimer = s.handshakeTimer
  orders : s'.orders = s.orders

/-- The callback returns at its guard, or it is a receive that reports nothing bad. -/
def Ignored (s : Connector) (t : ClientTask) (out : Outcome) : Prop :=
  match t.kind with
  | .timer => t.connId ≠ s.connectionId ∨ s.currentProtocol ≠ "quic"
  | .udp => out.ec ≠ .connectionRefused ∧ out.ec ≠ .connectionReset
  | .disconnect => False
  | _ => t.connId ≠ s.connectionId

/-! ## The invariant -/

/-- The outstanding handlers of the present `DoConnect`. -/
def dials (s : Connector) : List ClientTask :=
  s.tasks.filter fun t => t.kind.dial && t.connId == s.connectionId

structure AttemptInv (s : Connector) : Prop where
  taskIds : ∀ t ∈ s.tasks, t.connId ≤ s.connectionId
  quicIds : ∀ a q, s.quicAttempts a = some q → q.connId ≤ s.connectionId ∧ a < s.nextAttempt
  /-- A `DoConnect` has one handler outstanding until it makes QUIC sessions. -/
  once : s.dials.length ≤ 1
  dial : ∀ t ∈ s.dials, s.current = some t.attempt ∧
    ∀ a q, s.quicAttempts a = some q → q.connId ≠ s.connectionId
  ofQuic : ∀ t ∈ s.tasks, t.kind.ofQuic = true →
    ∃ q, s.quicAttempts t.attempt = some q ∧ q.connId = t.connId
  waiting : ∀ w, s.handshakeTimer = some w → ∃ q, s.quicAttempts w.1 = some q ∧ q.connId = w.2
  /-- Of the sessions of the present `DoConnect`, only the one in use is open. -/
  opened : ∀ a q, s.quicAttempts a = some q → q.closed = false → q.connId = s.connectionId →
    s.current = some a ∧ s.quicSession = some a

theorem mem_dials : t ∈ s.dials ↔ t ∈ s.tasks ∧ t.kind.dial = true ∧ t.connId = s.connectionId := by
  simp [dials]

theorem attemptInv_init (protocol : String) : AttemptInv (init protocol) where
  taskIds t ht := by cases ht
  quicIds a q hq := by cases hq
  once := by simp [dials, init]
  dial t ht := by cases ht
  ofQuic t ht := by cases ht
  waiting w hw := by cases hw
  opened a q hq := by cases hq

/-! ## Tasks -/

/-- A task that is no handler of a `DoConnect`. -/
theorem AttemptInv.push (h : AttemptInv s) {connId : Nat} {kind : TaskKind}
    (hid : connId ≤ s.connectionId) (hdial : kind.dial = false)
    (hquic : kind.ofQuic = true → ∃ q, s.quicAttempts a = some q ∧ q.connId = connId) :
    AttemptInv (s.push a connId kind) := by
  have hdials : (s.push a connId kind).dials = s.dials := by
    simp [dials, Connector.push, List.filter_append, hdial]
  constructor
  case taskIds =>
    intro t ht
    rcases List.mem_append.mp ht with ht | ht
    · exact h.taskIds t ht
    · rw [List.mem_singleton.mp ht]
      exact hid
  case quicIds => exact h.quicIds
  case once => exact by rw [hdials]; exact h.once
  case dial => exact by rw [hdials]; exact h.dial
  case ofQuic =>
    intro t ht hk
    rcases List.mem_append.mp ht with ht | ht
    · exact h.ofQuic t ht hk
    · obtain rfl := List.mem_singleton.mp ht
      exact hquic hk
  case waiting => exact h.waiting
  case opened => exact h.opened

/-- The next handler of a `DoConnect`. -/
theorem AttemptInv.pushDial (h : AttemptInv s) {kind : TaskKind} (hnone : s.dials = [])
    (hcurrent : s.current = some a) (hquic : kind.ofQuic = false)
    (hfree : ∀ a q, s.quicAttempts a = some q → q.connId ≠ s.connectionId) :
    AttemptInv (s.push a s.connectionId kind) := by
  have hdials : (s.push a s.connectionId kind).dials.Sublist [⟨a, s.connectionId, kind⟩] := by
    have hd : (s.push a s.connectionId kind).dials = s.dials ++
        [(⟨a, s.connectionId, kind⟩ : ClientTask)].filter
          fun t => t.kind.dial && t.connId == s.connectionId :=
      List.filter_append _ _
    rw [hd, hnone, List.nil_append]
    exact List.filter_sublist
  constructor
  case taskIds =>
    intro t ht
    rcases List.mem_append.mp ht with ht | ht
    · exact h.taskIds t ht
    · rw [List.mem_singleton.mp ht]
      exact Nat.le_refl _
  case quicIds => exact h.quicIds
  case once => exact hdials.length_le
  case dial =>
    intro t ht
    rw [List.mem_singleton.mp (hdials.subset ht)]
    exact ⟨hcurrent, hfree⟩
  case ofQuic =>
    intro t ht hk
    rcases List.mem_append.mp ht with ht | ht
    · exact h.ofQuic t ht hk
    · obtain rfl := List.mem_singleton.mp ht
      rw [hquic] at hk
      cases hk
  case waiting => exact h.waiting
  case opened => exact h.opened

/-- Fewer tasks. -/
theorem AttemptInv.subTasks (h : AttemptInv s) {tasks : List ClientTask}
    (hsub : tasks.Sublist s.tasks) : AttemptInv { s with tasks } := by
  have hdials : ({ s with tasks } : Connector).dials.Sublist s.dials := hsub.filter _
  exact ⟨fun t ht => h.taskIds t (hsub.subset ht), h.quicIds, Nat.le_trans hdials.length_le h.once,
    fun t ht => h.dial t (hdials.subset ht), fun t ht => h.ofQuic t (hsub.subset ht), h.waiting,
    h.opened⟩

theorem AttemptInv.consume (h : AttemptInv s) (t : ClientTask) : AttemptInv (s.consume t) := by
  rw [Connector.consume]
  split
  · exact h
  · exact h.subTasks List.erase_sublist

/-- The handler of a `DoConnect` that runs was the only one. -/
theorem dials_consume (h : AttemptInv s) (ht : t ∈ s.dials) : (s.consume t).dials = [] := by
  obtain ⟨-, hdial, -⟩ := mem_dials.mp ht
  have hkind : t.kind ≠ .control := by
    intro hk
    rw [hk] at hdial
    cases hdial
  have herase : (s.consume t).dials = s.dials.erase t := by
    rw [Connector.consume, if_neg hkind]
    exact (List.erase_filter ..).symm
  have hlen := h.once
  rw [herase, ← List.length_eq_zero_iff, List.length_erase_of_mem ht]
  omega

/-! ## Sessions -/

theorem AttemptInv.cancelTimer (h : AttemptInv s) : AttemptInv s.cancelTimer :=
  { h with waiting := fun _ hw => by cases hw }

/-- `close_session` marks the session and queues its callback, once. -/
theorem closeSession_cases (s : Connector) (a : AttemptId) :
    (s.closeSession a = s ∧ ∀ q, s.quicAttempts a = some q → q.closed = true) ∨
    ∃ q, s.quicAttempts a = some q ∧ q.closed = false ∧
      s.closeSession a =
        { s with
          quicAttempts := Function.update s.quicAttempts a (some { q with closed := true }) }.push
            a q.connId .onClosed := by
  unfold Connector.closeSession
  cases hq : s.quicAttempts a with
  | none => exact .inl ⟨rfl, fun q hq => by cases hq⟩
  | some q =>
      cases hclosed : q.closed with
      | true => exact .inl ⟨if_pos hclosed, fun p hp => Option.some.inj hp ▸ hclosed⟩
      | false => exact .inr ⟨q, rfl, hclosed, if_neg (by simp [hclosed])⟩

/-- What an attempt was made for is settled when it is made. -/
theorem update_connId {q' : QuicAttempt} (hq : s.quicAttempts a = some q)
    (hid : q'.connId = q.connId) {b : AttemptId} {p : QuicAttempt}
    (hp : Function.update s.quicAttempts a (some q') b = some p) :
    ∃ p₀, s.quicAttempts b = some p₀ ∧ p.connId = p₀.connId := by
  by_cases hb : b = a
  · subst hb
    rw [Function.update_self] at hp
    obtain rfl := Option.some.inj hp
    exact ⟨q, hq, hid⟩
  · rw [Function.update_of_ne hb] at hp
    exact ⟨p, hp, rfl⟩

theorem update_quicIds {q' : QuicAttempt} (hq : s.quicAttempts a = some q)
    (hid : q'.connId = q.connId) {b : AttemptId} {n : Nat}
    (hb : ∃ p, s.quicAttempts b = some p ∧ p.connId = n) :
    ∃ p, Function.update s.quicAttempts a (some q') b = some p ∧ p.connId = n := by
  obtain ⟨p, hp, hn⟩ := hb
  by_cases hba : b = a
  · subst hba
    rw [hq] at hp
    obtain rfl := Option.some.inj hp
    exact ⟨q', Function.update_self .., hid.trans hn⟩
  · exact ⟨p, by rw [Function.update_of_ne hba, hp], hn⟩

theorem AttemptInv.closeSession (h : AttemptInv s) (a : AttemptId) :
    AttemptInv (s.closeSession a) := by
  rcases closeSession_cases s a with ⟨heq, -⟩ | ⟨q, hq, -, heq⟩
  · rw [heq]
    exact h
  rw [heq]
  have hkeep : ({ q with closed := true } : QuicAttempt).connId = q.connId := rfl
  have hmarked : AttemptInv { s with
      quicAttempts := Function.update s.quicAttempts a (some { q with closed := true }) } := by
    refine ⟨h.taskIds, fun b p hp => ?_, h.once, fun t ht => ⟨(h.dial t ht).1, fun b p hp => ?_⟩,
      fun t ht hk => update_quicIds hq hkeep (h.ofQuic t ht hk),
      fun w hw => update_quicIds hq hkeep (h.waiting w hw), fun b p hp hopen hid => ?_⟩
    · obtain ⟨p₀, hp₀, hid⟩ := update_connId hq hkeep hp
      rw [hid]
      exact h.quicIds b p₀ hp₀
    · obtain ⟨p₀, hp₀, hid⟩ := update_connId hq hkeep hp
      rw [hid]
      exact (h.dial t ht).2 b p₀ hp₀
    · have hp : Function.update s.quicAttempts a (some { q with closed := true }) b = some p := hp
      by_cases hb : b = a
      · subst hb
        rw [Function.update_self] at hp
        obtain rfl := Option.some.inj hp
        cases hopen
      · rw [Function.update_of_ne hb] at hp
        exact h.opened b p hp hopen hid
  exact hmarked.push (h.quicIds a q hq).1 rfl fun _ => ⟨_, Function.update_self .., rfl⟩

/-- After `close_session` the session is closed, and the others are as they were. -/
theorem closeSession_closed {b : AttemptId} {p : QuicAttempt}
    (hp : (s.closeSession a).quicAttempts b = some p) (hopen : p.closed = false) :
    b ≠ a ∧ s.quicAttempts b = some p := by
  rcases closeSession_cases s a with ⟨heq, hall⟩ | ⟨q, hq, -, heq⟩
  · rw [heq] at hp
    refine ⟨?_, hp⟩
    intro hb
    subst hb
    rw [hall p hp] at hopen
    cases hopen
  · rw [heq] at hp
    have hp : Function.update s.quicAttempts a (some { q with closed := true }) b = some p := hp
    by_cases hb : b = a
    · subst hb
      rw [Function.update_self] at hp
      obtain rfl := Option.some.inj hp
      cases hopen
    · rw [Function.update_of_ne hb] at hp
      exact ⟨hb, hp⟩

/-- What `close_session` changes. -/
theorem closeSession_eq (s : Connector) (a : AttemptId) :
    ∃ quicAttempts tasks, s.closeSession a = { s with quicAttempts, tasks } ∧
      (s.closeSession a).orders = s.orders ∧ (s.closeSession a).dials = s.dials := by
  rcases closeSession_cases s a with ⟨heq, -⟩ | ⟨q, -, -, heq⟩
  · exact ⟨s.quicAttempts, s.tasks, by rw [heq], by rw [heq], by rw [heq]⟩
  · refine ⟨_, _, heq, ?_, ?_⟩
    · rw [heq]
      simp [Connector.push, orders, List.filter_append]
    · rw [heq]
      simp [Connector.push, dials, List.filter_append, TaskKind.dial]

theorem dropSession_none (hs : s.quicSession = none) : s.dropSession = s := by
  rw [Connector.dropSession, hs]

theorem dropSession_some (hs : s.quicSession = some a) :
    s.dropSession = { s.closeSession a with quicSession := none } := by
  rw [Connector.dropSession, hs]

/-- The session in use goes; of the sessions of the present `DoConnect` none is open. -/
theorem AttemptInv.dropSession (h : AttemptInv s) : AttemptInv s.dropSession := by
  cases hs : s.quicSession with
  | none =>
      rw [dropSession_none hs]
      exact h
  | some a =>
      rw [dropSession_some hs]
      have hc := h.closeSession a
      have hid' : (s.closeSession a).connectionId = s.connectionId := by
        obtain ⟨_, _, heq, -, -⟩ := closeSession_eq s a
        rw [heq]
      refine ⟨hc.taskIds, hc.quicIds, hc.once, hc.dial, hc.ofQuic, hc.waiting,
        fun b p hp hopen hid => ?_⟩
      obtain ⟨hb, hp⟩ := closeSession_closed hp hopen
      have hopened := (h.opened b p hp hopen (hid.trans hid')).2
      rw [hs] at hopened
      exact absurd (Option.some.inj hopened).symm hb

theorem dropSession_eq (s : Connector) :
    ∃ quicAttempts tasks, s.dropSession = { s with quicAttempts, tasks, quicSession := none } ∧
      s.dropSession.orders = s.orders ∧ s.dropSession.dials = s.dials := by
  cases hs : s.quicSession with
  | none =>
      rw [dropSession_none hs]
      exact ⟨s.quicAttempts, s.tasks, by rw [← hs], rfl, rfl⟩
  | some a =>
      rw [dropSession_some hs]
      obtain ⟨quicAttempts, tasks, heq, horders, hdials⟩ := closeSession_eq s a
      exact ⟨quicAttempts, tasks, by rw [heq], horders, hdials⟩

/-- With no session in use, those of the present `DoConnect` are closed. -/
theorem AttemptInv.allClosed (h : AttemptInv s) (hnone : s.quicSession = none)
    (hq : s.quicAttempts a = some q) (hid : q.connId = s.connectionId) : q.closed = true := by
  cases hclosed : q.closed with
  | true => rfl
  | false =>
      have hopened := (h.opened a q hq hclosed hid).2
      rw [hnone] at hopened
      cases hopened

/-! ## The next attempt -/

/-- A new session for the present `DoConnect`, which has no other open. -/
theorem AttemptInv.doQuicConnect (h : AttemptInv s) (hdials : s.dials = [])
    (hnone : s.quicSession = none) (cause : Cause) :
    AttemptInv (s.doQuicConnect s.connectionId cause) := by
  have hnew : ∀ b p,
      Function.update s.quicAttempts s.nextAttempt (some { connId := s.connectionId }) b = some p →
      b = s.nextAttempt ∧ p.connId = s.connectionId ∨ s.quicAttempts b = some p := by
    intro b p hp
    by_cases hb : b = s.nextAttempt
    · subst hb
      rw [Function.update_self] at hp
      obtain rfl := Option.some.inj hp
      exact .inl ⟨rfl, rfl⟩
    · rw [Function.update_of_ne hb] at hp
      exact .inr hp
  have hmade : AttemptInv { s with
      nextAttempt := s.nextAttempt + 1
      current := some s.nextAttempt
      abandoned := s.abandon cause
      quicAttempts := Function.update s.quicAttempts s.nextAttempt
        (some { connId := s.connectionId })
      quicSession := some s.nextAttempt
      udpSocket := some s.nextAttempt
      handshakeTimer := some (s.nextAttempt, s.connectionId) } := by
    constructor
    case taskIds => exact h.taskIds
    case quicIds =>
      intro b p hp
      rcases hnew b p hp with ⟨rfl, hid⟩ | hp
      · rw [hid]
        exact ⟨Nat.le_refl _, Nat.lt_succ_self _⟩
      · exact ⟨(h.quicIds b p hp).1, Nat.lt_succ_of_lt (h.quicIds b p hp).2⟩
    case once => exact h.once
    case dial =>
      intro t ht
      have ht : t ∈ s.dials := ht
      rw [hdials] at ht
      cases ht
    case ofQuic =>
      intro t ht hk
      obtain ⟨p, hp, hid⟩ := h.ofQuic t ht hk
      -- the number of the new attempt was not taken
      have hne : t.attempt ≠ s.nextAttempt := Nat.ne_of_lt (h.quicIds _ p hp).2
      exact ⟨p, (Function.update_of_ne hne _ _).trans hp, hid⟩
    case waiting =>
      intro w hw
      obtain rfl := Option.some.inj hw
      exact ⟨_, Function.update_self .., rfl⟩
    case opened =>
      intro b p hp hopen hid
      rcases hnew b p hp with ⟨rfl, -⟩ | hp
      · exact ⟨rfl, rfl⟩
      · rw [h.allClosed hnone hp hid] at hopen
        cases hopen
  exact hmade.push (Nat.le_refl _) rfl fun hk => by cases hk

theorem nextUsable_pos {usable : UdpEndpoint → Bool} {es : List UdpEndpoint} {n : Nat}
    (h : nextUsable usable es = some n) : 0 < n := by
  cases es with
  | nil => cases h
  | cons e es =>
      rw [nextUsable] at h
      split at h
      · obtain rfl := Option.some.inj h
        exact Nat.one_pos
      · obtain ⟨m, -, rfl⟩ := Option.map_eq_some_iff.mp h
        exact Nat.succ_pos m

/-- `TryNextQuicEndpoint` past its guard: it goes on to the next usable endpoint, or there is
none. -/
theorem nextQuicEndpoint_cases (s : Connector) (connId : Nat) (cause : Cause)
    (usable : UdpEndpoint → Bool) :
    (∃ n, nextUsable usable (s.quicEndpoints.drop s.quicEndpointIndex) = some n ∧
      s.nextQuicEndpoint connId cause usable =
        ({ s.cancelTimer.dropSession with
          quicEndpointIndex := s.quicEndpointIndex + n }.doQuicConnect connId cause, true)) ∨
    nextUsable usable (s.quicEndpoints.drop s.quicEndpointIndex) = none ∧
      ∃ udpSocket, s.nextQuicEndpoint connId cause usable =
        ({ s.cancelTimer.dropSession with
          quicEndpointIndex := max s.quicEndpointIndex s.quicEndpoints.length, udpSocket },
          false) := by
  have hsame : s.cancelTimer.dropSession.quicEndpoints = s.quicEndpoints ∧
      s.cancelTimer.dropSession.quicEndpointIndex = s.quicEndpointIndex := by
    obtain ⟨_, _, heq, -, -⟩ := dropSession_eq s.cancelTimer
    rw [heq]
    exact ⟨rfl, rfl⟩
  rw [Connector.nextQuicEndpoint]
  simp only [hsame.1, hsame.2]
  cases nextUsable usable (s.quicEndpoints.drop s.quicEndpointIndex) with
  | some n => exact .inl ⟨n, rfl, rfl⟩
  | none => exact .inr ⟨rfl, _, rfl⟩

theorem tryNextQuicEndpoint_cases (s : Connector) (cause : Cause) (usable : UdpEndpoint → Bool) :
    (∃ n, 0 < n ∧ s.tryNextQuicEndpoint s.connectionId cause usable =
      ({ s.cancelTimer.dropSession with
        quicEndpointIndex := s.quicEndpointIndex + n }.doQuicConnect s.connectionId cause, true)) ∨
    ∃ quicEndpointIndex udpSocket, s.tryNextQuicEndpoint s.connectionId cause usable =
      ({ s.cancelTimer.dropSession with quicEndpointIndex, udpSocket }, false) := by
  rw [Connector.tryNextQuicEndpoint, if_neg (not_not_intro rfl)]
  rcases nextQuicEndpoint_cases s s.connectionId cause usable with ⟨n, hn, heq⟩ | ⟨-, _, heq⟩
  · exact .inl ⟨n, nextUsable_pos hn, heq⟩
  · exact .inr ⟨_, _, heq⟩

theorem AttemptInv.tryNextQuicEndpoint (h : AttemptInv s) (hdials : s.dials = []) (cause : Cause)
    (usable : UdpEndpoint → Bool) :
    AttemptInv (s.tryNextQuicEndpoint s.connectionId cause usable).1 := by
  have hd := h.cancelTimer.dropSession
  obtain ⟨_, _, heq, -, hdials'⟩ := dropSession_eq s.cancelTimer
  have hnone : s.cancelTimer.dropSession.quicSession = none := by rw [heq]
  have hid : s.cancelTimer.dropSession.connectionId = s.connectionId := by rw [heq]; rfl
  rcases tryNextQuicEndpoint_cases s cause usable with ⟨n, -, htry⟩ | ⟨_, _, htry⟩
  · rw [htry, ← hid]
    have hmoved : AttemptInv { s.cancelTimer.dropSession with
        quicEndpointIndex := s.quicEndpointIndex + n } := { hd with }
    exact hmoved.doQuicConnect (hdials'.trans hdials) hnone cause
  · rw [htry]
    exact { hd with }

/-! ## A new `connection_id_` -/

/-- With a new `connection_id_` there is nothing yet of its `DoConnect`. -/
theorem AttemptInv.newId (h : AttemptInv s) (s' : Connector)
    (hid : s.connectionId < s'.connectionId) (htasks : s'.tasks = s.tasks)
    (hquic : s'.quicAttempts = s.quicAttempts)
    (htimer : s'.handshakeTimer = s.handshakeTimer) (hnext : s.nextAttempt ≤ s'.nextAttempt) :
    AttemptInv s' ∧ s'.dials = [] ∧
      ∀ a q, s'.quicAttempts a = some q → q.connId ≠ s'.connectionId := by
  have hdials : s'.dials = [] := by
    refine List.filter_eq_nil_iff.mpr fun t ht => ?_
    rw [htasks] at ht
    have hle := h.taskIds t ht
    have hne : t.connId ≠ s'.connectionId := by omega
    simp [hne]
  have hfree : ∀ a q, s'.quicAttempts a = some q → q.connId ≠ s'.connectionId := by
    intro a q hq
    rw [hquic] at hq
    have hle := (h.quicIds a q hq).1
    omega
  refine ⟨⟨fun t ht => ?_, fun a q hq => ?_, by rw [hdials]; exact Nat.zero_le 1, fun t ht => ?_,
    by rw [htasks, hquic]; exact h.ofQuic, by rw [htimer, hquic]; exact h.waiting,
    fun a q hq _ hid' => absurd hid' (hfree a q hq)⟩, hdials, hfree⟩
  · rw [htasks] at ht
    have hle := h.taskIds t ht
    omega
  · rw [hquic] at hq
    obtain ⟨hle, hlt⟩ := h.quicIds a q hq
    exact ⟨by omega, Nat.lt_of_lt_of_le hlt hnext⟩
  · rw [hdials] at ht
    cases ht

theorem AttemptInv.handleDisconnect (h : AttemptInv s) (cause : Cause) :
    AttemptInv (s.handleDisconnect cause) := by
  have hd := (h.newId { s with
      connectionId := s.connectionId + 1, muxSession := none
      current := none, abandoned := s.abandon cause }
    (Nat.lt_succ_self _) rfl rfl rfl (Nat.le_refl _)).1.dropSession
  unfold Connector.handleDisconnect
  simp only
  split
  · exact { hd with }
  split
  · split
    · exact { hd with }
    split
    · exact { hd with }
    · exact { hd with }
  · exact { hd with }

theorem AttemptInv.doConnect (h : AttemptInv s) : AttemptInv s.doConnect := by
  obtain ⟨hinv, hdials, hfree⟩ := h.newId { s with
      connectionId := s.connectionId + 1
      nextAttempt := s.nextAttempt + 1
      current := some s.nextAttempt
      abandoned := s.abandon .reconnect
      tried := s.tried ++ [s.currentProtocol] }
    (Nat.lt_succ_self _) rfl rfl rfl (Nat.le_succ _)
  exact hinv.pushDial hdials rfl rfl hfree

/-! ## Every step keeps the invariant -/

/-- What `HandleDisconnect` and `DoConnect` decide by, and nothing else changes. -/
structure Plan where
  protocol : String
  currentProtocol : String
  connectionId : Nat
  connects : Nat
  reconnectTimer : Bool
  reconnects : Nat
  stopping : Bool
  tried : List String

def plan (s : Connector) : Plan :=
  ⟨s.protocol, s.currentProtocol, s.connectionId, s.connects, s.reconnectTimer, s.reconnects,
    s.stopping, s.tried⟩

theorem plan_dropSession (s : Connector) : s.dropSession.plan = s.plan := by
  obtain ⟨_, _, heq, -, -⟩ := dropSession_eq s
  rw [heq]
  rfl

theorem plan_tryNextQuicEndpoint (s : Connector) (connId : Nat) (cause : Cause)
    (usable : UdpEndpoint → Bool) :
    (s.tryNextQuicEndpoint connId cause usable).1.plan = s.plan := by
  by_cases hid : connId = s.connectionId
  · subst hid
    rcases tryNextQuicEndpoint_cases s cause usable with ⟨n, -, htry⟩ | ⟨_, _, htry⟩
    · rw [htry]
      exact plan_dropSession s.cancelTimer
    · rw [htry]
      exact plan_dropSession s.cancelTimer
  · rw [Connector.tryNextQuicEndpoint, if_pos hid]

theorem plan_consume (s : Connector) (t : ClientTask) : (s.consume t).plan = s.plan := by
  rw [Connector.consume]
  split
  · rfl
  · rfl

/-- What the callback of a task may rely on. -/
structure Runs (s : Connector) (t : ClientTask) : Prop where
  inv : AttemptInv s
  taskId : t.connId ≤ s.connectionId
  dial : t.kind.dial = true → t.connId = s.connectionId → s.dials = [] ∧
    s.current = some t.attempt ∧ ∀ a q, s.quicAttempts a = some q → q.connId ≠ s.connectionId
  ofQuic : t.kind.ofQuic = true → ∃ q, s.quicAttempts t.attempt = some q ∧ q.connId = t.connId

theorem runs_of_mem (h : AttemptInv s) (ht : t ∈ s.tasks) : Runs (s.consume t) t := by
  have hplan : (s.consume t).connectionId = s.connectionId :=
    congrArg Plan.connectionId (plan_consume s t)
  have hsame : (s.consume t).current = s.current ∧ (s.consume t).quicAttempts = s.quicAttempts := by
    rw [Connector.consume]
    split
    · exact ⟨rfl, rfl⟩
    · exact ⟨rfl, rfl⟩
  refine ⟨h.consume t, by rw [hplan]; exact h.taskIds t ht, fun hd hid => ?_, fun hk => ?_⟩
  · have hmem := mem_dials.mpr ⟨ht, hd, hid.trans hplan⟩
    rw [hsame.1, hsame.2, hplan]
    exact ⟨dials_consume h hmem, h.dial t hmem⟩
  · rw [hsame.2]
    exact h.ofQuic t ht hk

/-- While a session of the present `DoConnect` exists, its handlers are done. -/
theorem Runs.noDials (h : Runs s t) (hk : t.kind.ofQuic = true) (hid : t.connId = s.connectionId) :
    s.dials = [] := by
  obtain ⟨q, hq, hq'⟩ := h.ofQuic hk
  refine List.eq_nil_iff_forall_not_mem.mpr fun t' ht' => ?_
  exact (h.inv.dial t' ht').2 _ q hq (hq'.trans hid)

theorem AttemptInv.postDisconnect (h : AttemptInv s) (hid : t.connId ≤ s.connectionId) :
    AttemptInv (s.postDisconnect t) :=
  h.push hid rfl fun hk => by cases hk

theorem AttemptInv.onConnect (h : AttemptInv s) (hid : t.connId ≤ s.connectionId)
    (ec : ConnectError) : AttemptInv (s.onConnect t ec) := by
  unfold Connector.onConnect
  split
  · have hc : AttemptInv { s.cancelTimer with reconnectDelay := 0, muxSession := some t.attempt } :=
      { h.cancelTimer with }
    exact hc.push (Nat.le_refl _) rfl fun hk => by cases hk
  · exact h.cancelTimer.postDisconnect hid

/-- `TryNextQuicEndpoint` in a callback of a session. -/
theorem Runs.tryNextQuicEndpoint (h : Runs s t) (hk : t.kind.ofQuic = true)
    (hid : t.connId = s.connectionId) (cause : Cause) (usable : UdpEndpoint → Bool) :
    AttemptInv (match s.tryNextQuicEndpoint t.connId cause usable with
      | (s, true) => s
      | (s, false) => s.postDisconnect t) := by
  have htry := h.inv.tryNextQuicEndpoint (h.noDials hk hid) cause usable
  have hplan := plan_tryNextQuicEndpoint s t.connId cause usable
  rw [← hid] at htry
  split
  · next heq =>
      rw [heq] at htry
      exact htry
  · next heq =>
      rw [heq] at htry hplan
      exact htry.postDisconnect
        (Nat.le_trans h.taskId (Nat.le_of_eq (congrArg Plan.connectionId hplan).symm))

/-- What a callback does: nothing, or what its guards let it do. -/
inductive Handled (s : Connector) (t : ClientTask) (out : Outcome) : Connector → Prop where
  | returned : Handled s t out s
  | hungUp : Handled s t out (s.handleDisconnect (.callback t.attempt))
  /-- `async_resolve` finds the endpoints of a QUIC server. -/
  | resolved : t.kind.dial = true → t.connId = s.connectionId →
      Handled s t out
        (match { s with
            quicEndpoints := out.results.eraseDups, quicEndpointIndex := 0 }.tryNextQuicEndpoint
            s.connectionId (.callback t.attempt) out.usable with
          | (s, true) => s
          | (s, false) => s.handleDisconnect (.callback t.attempt))
  /-- The next handler of the same `DoConnect`. -/
  | dialled {kind : TaskKind} : t.kind.dial = true → t.connId = s.connectionId →
      kind.ofQuic = false → Handled s t out (s.push t.attempt s.connectionId kind)
  | connected (ec : ConnectError) : Handled s t out (s.onConnect t ec)
  | posted {s₀ : Connector} : s₀ = s ∨ s₀ = s.cancelTimer → Handled s t out (s₀.postDisconnect t)
  /-- A QUIC session is over before its handshake is. -/
  | triedNext {s₀ : Connector} : s₀ = s ∨ s₀ = s.cancelTimer → t.kind.ofQuic = true →
      t.connId = s.connectionId →
      Handled s t out
        (match s₀.tryNextQuicEndpoint t.connId (.callback t.attempt) out.usable with
          | (s, true) => s
          | (s, false) => s.postDisconnect t)
  | readOn : Handled s t out (s.doUdpRead t.attempt)

theorem handled (s : Connector) (t : ClientTask) (out : Outcome) :
    Handled s t out (s.handler t out) := by
  unfold Connector.handler
  cases hk : t.kind with
  | resolve =>
      simp only
      split
      · exact .returned
      next hid =>
      have hid : t.connId = s.connectionId := not_not.mp hid
      split
      · exact .hungUp
      split
      · rw [hid]
        exact .resolved (by rw [hk]; rfl) hid
      · rw [hid]
        exact .dialled (by rw [hk]; rfl) hid rfl
  | connect =>
      simp only
      split
      · exact .returned
      next hid =>
      have hid : t.connId = s.connectionId := not_not.mp hid
      split
      · rw [hid]
        exact .dialled (by rw [hk]; rfl) hid rfl
      · exact .hungUp
  | handshake =>
      simp only
      split
      · exact .returned
      · exact .connected _
  | control =>
      simp only
      split
      · exact .returned
      · exact .posted (.inl rfl)
  | timer =>
      simp only
      split
      · exact .returned
      next hid =>
      split
      · exact .returned
      split
      · exact .triedNext (.inl rfl) (by rw [hk]; rfl) (not_not.mp hid)
      · exact .posted (.inl rfl)
  | onConnected =>
      simp only
      split
      · exact .returned
      split
      · exact .connected _
      · exact .posted (.inr rfl)
  | onClosed =>
      simp only
      split
      · exact .returned
      next hid => exact .triedNext (.inr rfl) (by rw [hk]; rfl) (not_not.mp hid)
  | udp =>
      simp only
      split
      · exact .readOn
      split
      · exact .returned
      split
      · exact .posted (.inl rfl)
      split
      · exact .readOn
      · exact .returned
  | disconnect => exact .hungUp

theorem Runs.handler (h : Runs s t) (out : Outcome) : AttemptInv (s.handler t out) := by
  have hrun := handled s t out
  generalize s.handler t out = s' at hrun
  cases hrun with
  | returned => exact h.inv
  | hungUp => exact h.inv.handleDisconnect _
  | resolved hdial hid =>
      obtain ⟨hdials, -, -⟩ := h.dial hdial hid
      have hfound : AttemptInv { s with
          quicEndpoints := out.results.eraseDups, quicEndpointIndex := 0 } := { h.inv with }
      have htry := hfound.tryNextQuicEndpoint hdials (.callback t.attempt) out.usable
      split
      · next heq =>
          rw [heq] at htry
          exact htry
      · next heq =>
          rw [heq] at htry
          exact htry.handleDisconnect _
  | dialled hdial hid hquic =>
      -- the handler that runs was the only one of its `DoConnect`
      obtain ⟨hdials, hcurrent, hfree⟩ := h.dial hdial hid
      exact h.inv.pushDial hdials hcurrent hquic hfree
  | connected ec => exact h.inv.onConnect h.taskId ec
  | posted hs =>
      rcases hs with rfl | rfl
      · exact h.inv.postDisconnect h.taskId
      · exact h.inv.cancelTimer.postDisconnect h.taskId
  | triedNext hs hquic hid =>
      rcases hs with rfl | rfl
      · exact h.tryNextQuicEndpoint hquic hid _ _
      · have hc : Runs s.cancelTimer t := ⟨h.inv.cancelTimer, h.taskId, h.dial, h.ofQuic⟩
        exact hc.tryNextQuicEndpoint hquic hid _ _
  | readOn => exact h.inv.push (Nat.le_refl _) rfl fun hk => by cases hk

theorem step_attemptInv (h : AttemptInv s) {e : Event} (hs : step s e = some s') :
    AttemptInv s' := by
  cases e with
  | connect =>
      rw [step] at hs
      split at hs
      · cases hs
      obtain rfl := Option.some.inj hs
      split
      · exact { h with }
      · exact AttemptInv.doConnect { h with }
  | fire =>
      rw [step] at hs
      split at hs
      · obtain rfl := Option.some.inj hs
        exact { h with }
      · cases hs
  | reconnect =>
      rw [step] at hs
      split at hs
      · cases hs
      · obtain rfl := Option.some.inj hs
        exact AttemptInv.doConnect { h with }
  | expire =>
      obtain ⟨w, hw, rfl⟩ := Option.map_eq_some_iff.mp hs
      obtain ⟨q, hq, hid⟩ := h.waiting w hw
      have hle := (h.quicIds _ q hq).1
      exact h.cancelTimer.push (by rw [← hid]; exact hle) rfl fun _ => ⟨q, hq, hid⟩
  | quicConnected a =>
      obtain ⟨q, hq, hs⟩ := Option.bind_eq_some_iff.mp hs
      split at hs
      · cases hs
      · obtain rfl := Option.some.inj hs
        exact h.push (h.quicIds a q hq).1 rfl fun _ => ⟨q, hq, rfl⟩
  | quicClosed a =>
      obtain ⟨q, hq, hs⟩ := Option.bind_eq_some_iff.mp hs
      split at hs
      · cases hs
      · obtain rfl := Option.some.inj hs
        exact h.closeSession a
  | run t out =>
      rw [step] at hs
      split at hs
      · next ht =>
          obtain rfl := Option.some.inj hs
          exact (runs_of_mem h ht).handler out
      · cases hs
  | stop =>
      obtain rfl := Option.some.inj hs
      have hstop : AttemptInv { s with stopping := true } := { h with }
      exact hstop.handleDisconnect _

theorem attemptInv_of_reach {protocol : String} (h : Reach step anyStep (init protocol) s) :
    AttemptInv s :=
  h.invariant (attemptInv_init protocol) fun _ _ _ hi _ hs => step_attemptInv hi hs

end Connector

end Cfrp
