import Cfrp.Lib.Keyed
import Cfrp.Client.Superseded

/-!
# What superseded callbacks do

A superseded callback is inert exactly when its guard turns it away (`sameAttempt_iff`).
In a run in which every superseded callback is turned away, an attempt ends by its own
callbacks only, and the "auto" protocols are tried in turn.
-/

namespace Cfrp

open Lib

namespace Connector

variable {s s' : Connector} {t : ClientTask} {out : Outcome} {cause : Cause} {protocol : String}

/-! ## Ignored callbacks -/

theorem orders_consume (ht : t.kind ≠ .disconnect) : (s.consume t).orders = s.orders := by
  unfold Connector.consume
  split
  · rfl
  · show (s.tasks.erase t).filter _ = s.tasks.filter _
    rw [← List.erase_filter]
    refine List.erase_of_not_mem fun hmem => ?_
    exact ht (of_decide_eq_true (List.mem_filter.mp hmem).2)

theorem sameAttempt_consume (ht : t.kind ≠ .disconnect) : SameAttempt s (s.consume t) := by
  have horders : (s.consume t).orders = s.orders := orders_consume ht
  unfold Connector.consume at horders ⊢
  split
  · exact ⟨rfl, rfl, rfl, rfl, rfl, rfl, rfl, rfl, rfl⟩
  · next hk =>
      rw [if_neg hk] at horders
      exact ⟨rfl, rfl, rfl, rfl, rfl, rfl, rfl, rfl, horders⟩

theorem SameAttempt.doUdpRead (h : SameAttempt s s') (a : AttemptId) :
    SameAttempt s (s'.doUdpRead a) := by
  refine { h with orders := ?_ }
  have horders : (s'.doUdpRead a).orders = s'.orders := by
    simp [Connector.doUdpRead, Connector.push, Connector.orders, List.filter_append]
  rw [horders, h.orders]

/-- A callback that is turned away does nothing, or reads on. -/
theorem handler_ignored (h : Ignored s t out) :
    (s.consume t).handler t out = s.consume t ∨
      (s.consume t).handler t out = (s.consume t).doUdpRead t.attempt := by
  have hid : (s.consume t).connectionId = s.connectionId :=
    congrArg Plan.connectionId (plan_consume s t)
  have hprotocol : (s.consume t).currentProtocol = s.currentProtocol :=
    congrArg Plan.currentProtocol (plan_consume s t)
  unfold Ignored at h
  unfold Connector.handler
  cases hk : t.kind with
  | disconnect =>
      rw [hk] at h
      exact h.elim
  | timer =>
      rw [hk] at h
      refine .inl ?_
      simp only [hid, hprotocol]
      rcases h with h | h
      · rw [if_pos h]
      · rw [if_pos h, ite_self]
  | udp =>
      rw [hk] at h
      simp only [h.1, h.2, or_self, if_false]
      split
      · exact .inr rfl
      split
      · exact .inl rfl
      split
      · exact .inr rfl
      · exact .inl rfl
  | resolve | connect | handshake | control | onConnected | onClosed =>
      rw [hk] at h
      refine .inl ?_
      simp only [hid]
      rw [if_pos h]

theorem sameAttempt_of_ignored (h : Ignored s t out) :
    SameAttempt s ((s.consume t).handler t out) := by
  have hkind : t.kind ≠ .disconnect := by
    intro hk
    rw [Ignored, hk] at h
    exact h
  have hs : SameAttempt s (s.consume t) := sameAttempt_consume hkind
  rcases handler_ignored h with heq | heq
  · rw [heq]
    exact hs
  · rw [heq]
    exact hs.doUdpRead _

/-! ## Callbacks that pass -/

/-- The present attempt is at another endpoint, or its end is ordered, or it is over. -/
def Disturbed (s s' : Connector) : Prop :=
  s'.orders ≠ s.orders ∨ s'.quicEndpointIndex ≠ s.quicEndpointIndex ∨
    s'.connectionId ≠ s.connectionId

theorem Disturbed.not_same (h : Disturbed s s') : ¬ SameAttempt s s' := by
  intro hs
  rcases h with h | h | h
  · exact h hs.orders
  · exact h hs.quicEndpointIndex
  · exact h hs.connectionId

theorem orders_postDisconnect (s : Connector) (t : ClientTask) :
    (s.postDisconnect t).orders = s.orders ++ [⟨t.attempt, t.connId, .disconnect⟩] := by
  simp [postDisconnect, Connector.push, orders, List.filter_append]

theorem disturbed_postDisconnect (h : s'.orders = s.orders) :
    Disturbed s (s'.postDisconnect t) := by
  refine .inl ?_
  rw [orders_postDisconnect, h]
  simp

theorem connectionId_handleDisconnect (s : Connector) (cause : Cause) :
    (s.handleDisconnect cause).connectionId = s.connectionId + 1 := by
  have hplan := plan_dropSession { s with
    connectionId := s.connectionId + 1, muxSession := none
    current := none, abandoned := s.abandon cause }
  have hid := congrArg Plan.connectionId hplan
  unfold Connector.handleDisconnect
  simp only
  split
  · exact hid
  split
  · split
    · exact hid
    split
    · exact hid
    · exact hid
  · exact hid

/-- A superseded callback that tries the next endpoint leaves the present one. -/
theorem disturbed_tryNextQuicEndpoint (horders : s'.orders = s.orders)
    (hindex : s'.quicEndpointIndex = s.quicEndpointIndex) (hid : t.connId = s'.connectionId)
    (usable : UdpEndpoint → Bool) :
    Disturbed s (match s'.tryNextQuicEndpoint t.connId cause usable with
      | (s, true) => s
      | (s, false) => s.postDisconnect t) := by
  rw [hid]
  rcases tryNextQuicEndpoint_cases s' cause usable with ⟨n, hn, htry⟩ | ⟨_, _, htry⟩
  · rw [htry]
    refine .inr (.inl ?_)
    show s'.quicEndpointIndex + n ≠ s.quicEndpointIndex
    omega
  · rw [htry]
    obtain ⟨_, _, -, horders', -⟩ := dropSession_eq s'.cancelTimer
    exact disturbed_postDisconnect (horders'.trans horders)

theorem disturbed_of_not_ignored (h : AttemptInv s) (ht : t ∈ s.tasks) (hold : Superseded s t)
    (hpass : ¬ Ignored s t out) : Disturbed s ((s.consume t).handler t out) := by
  have hid : (s.consume t).connectionId = s.connectionId :=
    congrArg Plan.connectionId (plan_consume s t)
  have hprotocol : (s.consume t).currentProtocol = s.currentProtocol :=
    congrArg Plan.currentProtocol (plan_consume s t)
  have hruns := runs_of_mem h ht
  -- the handler of a `DoConnect` that passes is the present attempt's
  have hdial : t.kind.dial = true → t.connId ≠ s.connectionId := fun hd heq =>
    hold (h.dial t (mem_dials.mpr ⟨ht, hd, heq⟩)).1
  unfold Ignored at hpass
  unfold Connector.handler
  cases hk : t.kind with
  | resolve | connect | handshake =>
      rw [hk] at hpass hdial
      exact absurd (hdial rfl) hpass
  | control =>
      have horders : (s.consume t).orders = s.orders := orders_consume (by simp [hk])
      rw [hk] at hpass
      simp only [hid]
      rw [if_neg hpass]
      exact disturbed_postDisconnect horders
  | timer =>
      have hs : SameAttempt s (s.consume t) := sameAttempt_consume (by simp [hk])
      rw [hk, not_or] at hpass
      simp only [hid, hprotocol]
      rw [if_neg hpass.1, if_neg hpass.2]
      split
      · exact disturbed_tryNextQuicEndpoint hs.orders hs.quicEndpointIndex
          ((not_not.mp hpass.1).trans hid.symm) _
      · exact disturbed_postDisconnect hs.orders
  | onConnected =>
      have hs : SameAttempt s (s.consume t) := sameAttempt_consume (by simp [hk])
      rw [hk] at hpass
      simp only [hid]
      rw [if_neg hpass]
      split
      · next hopen =>
          -- a session of the present `DoConnect` that is open is the one in use
          obtain ⟨q, hq, hq'⟩ := hruns.ofQuic (by rw [hk]; rfl)
          rw [hq] at hopen
          have hclosed : q.closed = false := by simpa using hopen
          rw [hs.quicAttempts] at hq
          have hid' : q.connId = s.connectionId := hq'.trans (not_not.mp hpass)
          exact absurd (h.opened _ q hq hclosed hid').1 hold
      · exact disturbed_postDisconnect hs.orders
  | onClosed =>
      have hs : SameAttempt s (s.consume t) := sameAttempt_consume (by simp [hk])
      rw [hk] at hpass
      simp only [hid]
      rw [if_neg hpass]
      have horders : (s.consume t).cancelTimer.orders = s.orders := hs.orders
      exact disturbed_tryNextQuicEndpoint horders hs.quicEndpointIndex
        ((not_not.mp hpass).trans hid.symm) _
  | udp =>
      have hs : SameAttempt s (s.consume t) := sameAttempt_consume (by simp [hk])
      have hbad : out.ec = .connectionRefused ∨ out.ec = .connectionReset := by
        rw [hk] at hpass
        by_contra hno
        rw [not_or] at hno
        exact hpass hno
      have hother : out.ec ≠ .success ∧ out.ec ≠ .operationAborted := by
        rcases hbad with hec | hec
        · simp [hec]
        · simp [hec]
      simp only
      rw [if_neg hother.1, if_neg hother.2, if_pos hbad]
      exact disturbed_postDisconnect hs.orders
  | disconnect =>
      refine .inr (.inr ?_)
      simp only
      rw [connectionId_handleDisconnect, hid]
      omega

/-- **A superseded callback is inert exactly when its guard turns it away.** -/
theorem sameAttempt_iff (h : AttemptInv s) (ht : t ∈ s.tasks) (hold : Superseded s t) :
    SameAttempt s ((s.consume t).handler t out) ↔ Ignored s t out := by
  refine ⟨fun hs => ?_, sameAttempt_of_ignored⟩
  by_contra hpass
  exact (disturbed_of_not_ignored h ht hold hpass).not_same hs

/-! ## Runs without superseded callbacks -/

/-- A callback that runs belongs to the present attempt, or its guard turns it away. -/
def Careful (s : Connector) : Event → Prop
  | .run t out => Superseded s t → Ignored s t out
  | _ => True

/-- The protocols of "auto", in their order. -/
def protocolAt (n : Nat) : String :=
  if n % 3 = 0 then "quic" else if n % 3 = 1 then "tcp" else "websocket"

/-- An attempt ends by a callback of its own, or by `Stop`. -/
def OwnCauses (abandoned : List (AttemptId × Cause)) : Prop :=
  ∀ p ∈ abandoned, p.2 = .callback p.1 ∨ p.2 = .user

/-- The tries of "auto" go through the protocols in turn. -/
def InTurn (tried : List String) : Prop :=
  ∀ n protocol, tried[n]? = some protocol → protocol = protocolAt n

/-- How many `DoConnect`s are to come: those that are posted, and those of the timer. -/
def toCome (s : Connector) : Nat := s.connects + s.reconnectTimer.toNat + s.reconnects

/-- At most one `DoConnect` is to come, and none while there is an attempt. -/
structure Orderly (s : Connector) : Prop where
  causes : OwnCauses s.abandoned
  busy : s.current ≠ none → s.toCome = 0
  idle : s.toCome ≤ 1
  inTurn : s.protocol = "auto" → InTurn s.tried
  /-- The protocol of the present attempt is the one tried last. -/
  present : s.protocol = "auto" → s.current ≠ none →
    ∃ n, s.tried.length = n + 1 ∧ s.currentProtocol = protocolAt n
  next : s.protocol = "auto" → 0 < s.toCome → s.currentProtocol = protocolAt s.tried.length

theorem orderly_init (protocol : String) : Orderly (init protocol) where
  causes p hp := by cases hp
  busy hc := absurd rfl hc
  idle := Nat.le_refl _
  inTurn _ n p hp := by cases hp
  present _ hc := absurd rfl hc
  next hp _ := by
    show (if protocol = "auto" then "quic" else protocol) = protocolAt 0
    have hauto : protocol = "auto" := hp
    rw [if_pos hauto]
    rfl

/-- A step that leaves the plan alone, and at most replaces the present attempt. -/
theorem Orderly.of_plan (h : Orderly s) (hplan : s'.plan = s.plan)
    (hcurrent : s'.current ≠ none → s.current ≠ none) (hcauses : OwnCauses s'.abandoned) :
    Orderly s' := by
  have hprotocol : s'.protocol = s.protocol := congrArg Plan.protocol hplan
  have hcp : s'.currentProtocol = s.currentProtocol := congrArg Plan.currentProtocol hplan
  have htoCome : s'.toCome = s.toCome :=
    congrArg (fun p : Plan => p.connects + p.reconnectTimer.toNat + p.reconnects) hplan
  have htried : s'.tried = s.tried := congrArg Plan.tried hplan
  refine ⟨hcauses, ?_, ?_, ?_, ?_, ?_⟩
  · rw [htoCome]
    exact fun hc => h.busy (hcurrent hc)
  · rw [htoCome]
    exact h.idle
  · rw [hprotocol, htried]
    exact h.inTurn
  · rw [hprotocol, htried, hcp]
    exact fun ha hc => h.present ha (hcurrent hc)
  · rw [hprotocol, htoCome, hcp, htried]
    exact h.next

/-- The present attempt ends for the given cause. -/
theorem Orderly.abandon (h : Orderly s)
    (hown : ∀ a, s.current = some a → cause = .callback a ∨ cause = .user) :
    OwnCauses (s.abandon cause) := by
  intro p hp
  rcases List.mem_append.mp hp with hp | hp
  · exact h.causes p hp
  · obtain ⟨a, ha, rfl⟩ := List.mem_map.mp hp
    exact hown a (Option.mem_toList.mp ha)

theorem protocolAt_succ (n : Nat) : protocolAt (n + 1) =
    if protocolAt n = "quic" then "tcp"
    else if protocolAt n = "tcp" then "websocket" else "quic" := by
  unfold protocolAt
  obtain hn | hn | hn : n % 3 = 0 ∨ n % 3 = 1 ∨ n % 3 = 2 := by omega
  · have hsucc : (n + 1) % 3 = 1 := by omega
    simp [hn, hsucc]
  · have hsucc : (n + 1) % 3 = 2 := by omega
    simp [hn, hsucc]
  · have hsucc : (n + 1) % 3 = 0 := by omega
    simp [hn, hsucc]

/-- The present attempt is over, and the next `DoConnect` is arranged. -/
theorem Orderly.idleAfter (h : Orderly s) (hcurrent : s'.current = none)
    (hcauses : OwnCauses s'.abandoned) (hprotocol : s'.protocol = s.protocol)
    (htried : s'.tried = s.tried) (hidle : s'.toCome ≤ 1)
    (hnext : s.protocol = "auto" → 0 < s'.toCome →
      s'.currentProtocol = protocolAt s.tried.length) : Orderly s' := by
  refine ⟨hcauses, fun hc => absurd hcurrent hc, hidle, ?_, fun _ hc => absurd hcurrent hc, ?_⟩
  · rw [hprotocol, htried]
    exact h.inTurn
  · rw [hprotocol, htried]
    exact hnext

theorem Orderly.handleDisconnect (h : Orderly s)
    (hown : ∀ a, s.current = some a → cause = .callback a ∨ cause = .user)
    (hcurrent : s.current ≠ none ∨ s.stopping = true) : Orderly (s.handleDisconnect cause) := by
  have hcauses := h.abandon hown
  obtain ⟨quicAttempts, tasks, heq, -, -⟩ := dropSession_eq { s with
    connectionId := s.connectionId + 1, muxSession := none
    current := none, abandoned := s.abandon cause }
  unfold Connector.handleDisconnect
  simp only [heq]
  split
  · exact h.idleAfter rfl hcauses rfl rfl h.idle h.next
  next hstop =>
  have hbusy : s.current ≠ none := hcurrent.resolve_right hstop
  have hnone : s.connects + s.reconnectTimer.toNat + s.reconnects = 0 := h.busy hbusy
  have hfailover : s.connects + 1 + s.reconnectTimer.toNat + s.reconnects ≤ 1 := by omega
  have hscheduled : s.connects + 1 + s.reconnects ≤ 1 := by omega
  split
  · next hauto =>
      obtain ⟨n, hlen, hcp⟩ := h.present hauto hbusy
      have hnext := protocolAt_succ n
      rw [← hcp, ← hlen] at hnext
      split
      · next hquic =>
          rw [if_pos hquic] at hnext
          exact h.idleAfter rfl hcauses rfl rfl hfailover fun _ _ => hnext.symm
      next hquic =>
      rw [if_neg hquic] at hnext
      split
      · next htcp =>
          rw [if_pos htcp] at hnext
          exact h.idleAfter rfl hcauses rfl rfl hfailover fun _ _ => hnext.symm
      · next htcp =>
          rw [if_neg htcp] at hnext
          exact h.idleAfter rfl hcauses rfl rfl hscheduled fun _ _ => hnext.symm
  · next hauto =>
      exact h.idleAfter rfl hcauses rfl rfl hscheduled fun ha _ => absurd ha hauto

/-- The `DoConnect` that was to come is the only one. -/
theorem Orderly.doConnect (h : Orderly s) (connects reconnects : Nat)
    (hone : connects + s.reconnectTimer.toNat + reconnects + 1 = s.toCome) :
    Orderly { s with connects, reconnects }.doConnect := by
  have hpending : 0 < s.toCome := by omega
  have hidle := h.idle
  have hlast : connects + s.reconnectTimer.toNat + reconnects = 0 := by omega
  have hnone : s.current = none := by
    by_contra hc
    rw [h.busy hc] at hpending
    exact absurd hpending (Nat.lt_irrefl 0)
  have hown : ∀ a, s.current = some a → Cause.reconnect = .callback a ∨
      Cause.reconnect = .user := by
    rw [hnone]
    intro a ha
    cases ha
  refine ⟨h.abandon hown, fun _ => hlast, Nat.le_trans (Nat.le_of_eq hlast) (Nat.zero_le 1),
    fun ha => ?_, fun ha _ => ⟨s.tried.length, ?_, h.next ha hpending⟩,
    fun _ hlt => absurd hlast (Nat.ne_of_gt hlt)⟩
  · intro n p hp
    have hp : (s.tried ++ [s.currentProtocol])[n]? = some p := hp
    rcases of_getElem?_concat hp with hp | ⟨rfl, rfl⟩
    · exact h.inTurn ha n p hp
    · exact h.next ha hpending
  · show (s.tried ++ [s.currentProtocol]).length = _
    rw [List.length_append]
    rfl

/-! ### One step -/

theorem Orderly.push (h : Orderly s) (a : AttemptId) (connId : Nat) (kind : TaskKind) :
    Orderly (s.push a connId kind) :=
  h.of_plan rfl id h.causes

theorem Orderly.cancelTimer (h : Orderly s) : Orderly s.cancelTimer :=
  h.of_plan rfl id h.causes

theorem own_of_current (hcur : s.current = some t.attempt) :
    ∀ a, s.current = some a →
      Cause.callback t.attempt = .callback a ∨ Cause.callback t.attempt = .user := by
  intro a ha
  rw [hcur] at ha
  exact .inl (congrArg Cause.callback (Option.some.inj ha))

/-- `TryNextQuicEndpoint` for the present attempt, past its guard. -/
theorem Orderly.tryNextQuicEndpoint (h : Orderly s) (hcur : s.current = some t.attempt)
    (usable : UdpEndpoint → Bool) :
    Orderly (s.tryNextQuicEndpoint s.connectionId (.callback t.attempt) usable).1 ∧
      ((s.tryNextQuicEndpoint s.connectionId (.callback t.attempt) usable).2 = false →
        (s.tryNextQuicEndpoint s.connectionId (.callback t.attempt) usable).1.current =
          some t.attempt) := by
  have hbusy : s.current ≠ none := by
    rw [hcur]
    exact Option.some_ne_none _
  have hplan := plan_tryNextQuicEndpoint s s.connectionId (.callback t.attempt) usable
  obtain ⟨_, _, heq, -, -⟩ := dropSession_eq s.cancelTimer
  rcases tryNextQuicEndpoint_cases s (.callback t.attempt) usable with ⟨n, -, htry⟩ | ⟨_, _, htry⟩
  · rw [htry] at hplan ⊢
    refine ⟨h.of_plan hplan (fun _ => hbusy) ?_, fun hf => by cases hf⟩
    show OwnCauses (s.cancelTimer.dropSession.abandoned ++
      s.cancelTimer.dropSession.current.toList.map _)
    rw [heq]
    exact h.abandon (own_of_current hcur)
  · rw [htry] at hplan ⊢
    refine ⟨h.of_plan hplan (fun _ => hbusy) ?_, fun _ => ?_⟩
    · show OwnCauses s.cancelTimer.dropSession.abandoned
      rw [heq]
      exact h.causes
    · show s.cancelTimer.dropSession.current = _
      rw [heq]
      exact hcur

theorem Orderly.onConnect (h : Orderly s) (t : ClientTask) (ec : ConnectError) :
    Orderly (s.onConnect t ec) := by
  unfold Connector.onConnect
  split
  · exact h.of_plan rfl id h.causes
  · exact h.cancelTimer.push _ _ _

theorem Orderly.tryOrPost (h : Orderly s) (hcur : s.current = some t.attempt)
    (hid : t.connId = s.connectionId) (usable : UdpEndpoint → Bool) :
    Orderly (match s.tryNextQuicEndpoint t.connId (.callback t.attempt) usable with
      | (s, true) => s
      | (s, false) => s.postDisconnect t) := by
  obtain ⟨htry, -⟩ := h.tryNextQuicEndpoint hcur usable
  rw [hid]
  split
  · next heq =>
      rw [heq] at htry
      exact htry
  · next heq =>
      rw [heq] at htry
      exact htry.push _ _ _

/-- A callback of the present attempt. -/
theorem Orderly.handler (h : Orderly s) (hcur : s.current = some t.attempt) :
    Orderly (s.handler t out) := by
  have hbusy : s.current ≠ none := by
    rw [hcur]
    exact Option.some_ne_none _
  have hover : Orderly (s.handleDisconnect (.callback t.attempt)) :=
    h.handleDisconnect (own_of_current hcur) (.inl hbusy)
  have hrun := handled s t out
  generalize s.handler t out = s' at hrun
  cases hrun with
  | returned => exact h
  | hungUp => exact hover
  | resolved _ _ =>
      have hfound : Orderly { s with
          quicEndpoints := out.results.eraseDups, quicEndpointIndex := 0 } :=
        h.of_plan rfl id h.causes
      obtain ⟨htry, hkept⟩ := hfound.tryNextQuicEndpoint hcur out.usable
      split
      · next heq =>
          rw [heq] at htry
          exact htry
      · next heq =>
          -- no endpoint is left, and the attempt is still the present one
          rw [heq] at htry hkept
          have hcur' := hkept rfl
          refine htry.handleDisconnect (own_of_current hcur') (.inl ?_)
          rw [hcur']
          exact Option.some_ne_none _
  | dialled _ _ _ => exact h.push _ _ _
  | connected ec => exact h.onConnect t ec
  | posted hs =>
      rcases hs with rfl | rfl
      · exact h.push _ _ _
      · exact h.cancelTimer.push _ _ _
  | triedNext hs _ hid =>
      rcases hs with rfl | rfl
      · exact h.tryOrPost hcur hid _
      · exact h.cancelTimer.tryOrPost hcur hid _
  | readOn => exact h.push _ _ _

theorem Orderly.consume (h : Orderly s) (t : ClientTask) :
    Orderly (s.consume t) ∧ (s.consume t).current = s.current := by
  unfold Connector.consume
  split
  · exact ⟨h, rfl⟩
  · exact ⟨h.of_plan rfl id h.causes, rfl⟩

theorem step_orderly (h : Orderly s) {e : Event} (hok : Careful s e) (hs : step s e = some s') :
    Orderly s' := by
  cases e with
  | connect =>
      rw [step] at hs
      split at hs
      · cases hs
      next hconnects =>
      have hone : s.connects - 1 + s.reconnectTimer.toNat + s.reconnects + 1 = s.toCome := by
        rw [toCome]
        omega
      have hidle := h.idle
      obtain rfl := Option.some.inj hs
      split
      · refine ⟨h.causes, fun hc => ?_, ?_, h.inTurn, h.present, fun ha _ => h.next ha (by omega)⟩
        · have hnone := h.busy hc
          omega
        · show s.connects - 1 + s.reconnectTimer.toNat + s.reconnects ≤ 1
          omega
      · exact h.doConnect _ _ hone
  | fire =>
      rw [step] at hs
      split at hs
      · next htimer =>
          have hsame : s.connects + 0 + (s.reconnects + 1) = s.toCome := by
            rw [toCome, htimer]
            show s.connects + 0 + (s.reconnects + 1) = s.connects + 1 + s.reconnects
            omega
          obtain rfl := Option.some.inj hs
          exact ⟨h.causes, fun hc => hsame.trans (h.busy hc),
            Nat.le_trans (Nat.le_of_eq hsame) h.idle, h.inTurn, h.present,
            fun ha hlt => h.next ha (Nat.lt_of_lt_of_eq hlt hsame)⟩
      · cases hs
  | reconnect =>
      rw [step] at hs
      split at hs
      · cases hs
      next hqueued =>
      obtain rfl := Option.some.inj hs
      refine h.doConnect s.connects (s.reconnects - 1) ?_
      rw [toCome]
      omega
  | expire =>
      obtain ⟨w, -, rfl⟩ := Option.map_eq_some_iff.mp hs
      exact h.cancelTimer.push _ _ _
  | quicConnected a =>
      obtain ⟨q, -, hs⟩ := Option.bind_eq_some_iff.mp hs
      split at hs
      · cases hs
      · obtain rfl := Option.some.inj hs
        exact h.push _ _ _
  | quicClosed a =>
      obtain ⟨q, -, hs⟩ := Option.bind_eq_some_iff.mp hs
      split at hs
      · cases hs
      · obtain rfl := Option.some.inj hs
        obtain ⟨_, _, heq, -, -⟩ := closeSession_eq s a
        rw [heq]
        exact h.of_plan rfl id h.causes
  | run t out =>
      rw [step] at hs
      split at hs
      · obtain rfl := Option.some.inj hs
        obtain ⟨hrun, hcur⟩ := h.consume t
        by_cases hold : Superseded s t
        · rcases handler_ignored (hok hold) with heq | heq
          · rw [heq]
            exact hrun
          · rw [heq]
            exact hrun.push _ _ _
        · exact hrun.handler (hcur.trans (not_not.mp hold))
      · cases hs
  | stop =>
      obtain rfl := Option.some.inj hs
      have hstop : Orderly { s with stopping := true } :=
        ⟨h.causes, h.busy, h.idle, h.inTurn, h.present, h.next⟩
      exact hstop.handleDisconnect (fun _ _ => .inr rfl) (.inr rfl)

theorem orderly_of_reach (h : Reach step Careful (init protocol) s) : Orderly s :=
  h.invariant (orderly_init protocol) fun _ _ _ hi hok hs => step_orderly hi hok hs

/-- **Superseded attempts.** A callback of an attempt that was replaced or given up leaves
the present one as it is exactly when its guard turns it away. In a run whose superseded
callbacks are all turned away, an attempt ends by its own callbacks or by `Stop`, and
"auto" tries the protocols in turn. -/
theorem superseded_inert (h : Reach step anyStep (init protocol) s) :
    (∀ t out s', step s (.run t out) = some s' → Superseded s t →
      (SameAttempt s s' ↔ Ignored s t out)) ∧
    (Reach step Careful (init protocol) s →
      OwnCauses s.abandoned ∧ (s.protocol = "auto" → InTurn s.tried)) := by
  refine ⟨fun t out s' hs hold => ?_, fun hcareful => ?_⟩
  · rw [step] at hs
    split at hs
    · next ht =>
        obtain rfl := Option.some.inj hs
        exact sameAttempt_iff (attemptInv_of_reach h) ht hold
    · cases hs
  · have horderly := orderly_of_reach hcareful
    exact ⟨horderly.causes, horderly.inTurn⟩

/-- `on_closed` of the first endpoint's session, which a timeout closed. -/
def staleClosed : ClientTask := ⟨1, 1, .onClosed⟩

/-- The first endpoint times out. Its session's callback is queued, the second endpoint
is being tried, and the callback would go on to the third. -/
theorem timeout_run : ∃ s, Reach step Careful (init "auto") s ∧
    s.current = some 2 ∧ s.quicEndpointIndex = 2 ∧ s.protocol = "auto" ∧
      (step s (.run staleClosed {})).map (fun s' => (s'.current, s'.quicEndpointIndex)) =
        some (some 3, 3) := by
  have hown {s : Connector} {t : ClientTask} {out : Outcome} (hcur : s.current = some t.attempt) :
      Careful s (.run t out) := fun hold => absurd hcur hold
  have h₀ : Reach step Careful (init "auto") (init "auto") := Reach.init
  have h₁ := h₀.next .connect trivial rfl
  have h₂ := h₁.next (.run ⟨0, 1, .resolve⟩ { results := [1, 2, 3] }) (hown rfl) rfl
  have h₃ := h₂.next .expire trivial rfl
  have h₄ := h₃.next (.run ⟨1, 1, .timer⟩ {}) (hown rfl) rfl
  exact ⟨_, h₄, rfl, rfl, rfl, rfl⟩

theorem superseded_inert_timeout : ∃ s s', step s (.run staleClosed {}) = some s' ∧
    (SameAttempt s s' ↔ Ignored s staleClosed {}) ∧ OwnCauses s.abandoned ∧ InTurn s.tried := by
  obtain ⟨s, hs, hcurrent, -, hauto, hrun⟩ := timeout_run
  obtain ⟨s', hs', -⟩ := Option.map_eq_some_iff.mp hrun
  have hold : Superseded s staleClosed := by
    rw [Superseded, hcurrent]
    decide
  obtain ⟨hsame, hcareful⟩ := superseded_inert hs.any
  obtain ⟨hcauses, htried⟩ := hcareful hs
  exact ⟨s, s', hs', hsame _ _ _ hs' hold, hcauses, htried hauto⟩

/-- The guard does not tell the endpoints of one `DoConnect` apart: the callback of the
first endpoint abandons the second. -/
theorem stale_closed_not_inert : ¬ ∀ (protocol : String) (s s' : Connector) (t : ClientTask)
    (out : Outcome), Reach step anyStep (init protocol) s → step s (.run t out) = some s' →
      Superseded s t → s'.current = s.current ∧ s'.quicEndpointIndex = s.quicEndpointIndex := by
  intro hall
  obtain ⟨s, hs, hcurrent, hindex, -, hrun⟩ := timeout_run
  obtain ⟨s', hs', hobs⟩ := Option.map_eq_some_iff.mp hrun
  have hold : Superseded s staleClosed := by
    rw [Superseded, hcurrent]
    decide
  obtain ⟨-, hsame⟩ := hall _ s s' _ _ hs.any hs' hold
  have hnext : s'.quicEndpointIndex = 3 := congrArg Prod.snd hobs
  omega

end Connector

end Cfrp
