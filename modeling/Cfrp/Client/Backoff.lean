import Cfrp.Lib.Keyed
import Cfrp.Client.Threads
import Mathlib.Data.List.Infix

/-!
# The delay before a reconnect

`ScheduleReconnect` waits ten seconds more every time, up to ten minutes. The count starts
again in `OnConnect`, when a connection has been made, and the answer to the login that is
then sent makes no difference to it. A `LoginRun` keeps the delays since the last successful
login and since the last connection, both history.
-/

namespace Cfrp

open Lib

namespace Connector

variable {s s' : Connector} {t : ClientTask} {out : Outcome} {cause : Cause}

/-- What an event does to the delay. -/
inductive Pace where
  | kept
  /-- `OnConnect` without an error. -/
  | opened
  /-- `ScheduleReconnect`, and how long it waits. -/
  | scheduled (delay : Nat)
  deriving DecidableEq

/-- `HandleDisconnect` gets as far as `ScheduleReconnect`, unless the client stops or there is a
protocol to fail over to at once. -/
def hangUp (s : Connector) : Pace :=
  if s.stopping then .kept
  else if s.protocol = "auto" ∧ (s.currentProtocol = "quic" ∨ s.currentProtocol = "tcp") then .kept
  else .scheduled s.reconnectDelay

/-- The callbacks that call `HandleDisconnect` on the strand. -/
def pace (s : Connector) : Event → Pace
  | .run t out =>
      match t.kind with
      | .resolve =>
          if t.connId ≠ s.connectionId then .kept
          else if out.ec ≠ .success then s.hangUp
          else if s.currentProtocol = "quic" then
            if (nextUsable out.usable out.results.eraseDups).isSome then .kept else s.hangUp
          else .kept
      | .connect => if t.connId ≠ s.connectionId ∨ out.ec = .success then .kept else s.hangUp
      | .disconnect => s.hangUp
      | _ => .kept
  | _ => .kept

end Connector

/-- The callbacks off the strand call `OnConnect`, and post their `HandleDisconnect`s. -/
def Threads.pace (s : Threads) : ThreadEvent → Connector.Pace
  | .client e => s.client.pace e
  | .enter _ _ => .kept
  | .goOn c _ =>
      match c.stage with
      | .entered => if c.task.kind = .handshake ∧ c.ec = .success then .opened else .kept
      | .opened => .opened
      | .trying => .kept

/-- A client, and the delays of its `ScheduleReconnect`s. -/
structure LoginRun where
  client : Threads
  /-- Since the last successful login. -/
  waits : List Nat := []
  /-- Since the last connection. -/
  sinceOpen : List Nat := []

inductive LoginEvent where
  | client (e : ThreadEvent)
  /-- `LoginResp`, which comes on the control stream. -/
  | loginResp (ok : Bool)

namespace LoginRun

def start (protocol : String) : LoginRun := { client := .start protocol }

def step (r : LoginRun) : LoginEvent → Option LoginRun
  | .client e =>
      (r.client.step e).map fun s =>
        match r.client.pace e with
        | .kept => { r with client := s }
        | .opened => { r with client := s, sinceOpen := [] }
        | .scheduled delay => ⟨s, r.waits ++ [delay], r.sinceOpen ++ [delay]⟩
  | .loginResp ok =>
      if r.client.client.muxSession.isSome then some (if ok then { r with waits := [] } else r)
      else none

end LoginRun

/-! ## What a step does to the delay -/

namespace Connector

variable {s s' s'' : Connector} {a : AttemptId} {t : ClientTask} {out : Outcome} {cause : Cause}

/-- Neither the delay nor the timer nor the session changes. -/
structure Kept (s s' : Connector) : Prop where
  delay : s'.reconnectDelay = s.reconnectDelay
  timer : s'.reconnectTimer = s.reconnectTimer
  session : s'.muxSession = s.muxSession

theorem Kept.refl (s : Connector) : Kept s s := ⟨rfl, rfl, rfl⟩

theorem Kept.trans (h : Kept s s') (h' : Kept s' s'') : Kept s s'' :=
  ⟨h'.delay.trans h.delay, h'.timer.trans h.timer, h'.session.trans h.session⟩

theorem kept_push (s : Connector) (a : AttemptId) (connId : Nat) (kind : TaskKind) :
    Kept s (s.push a connId kind) := ⟨rfl, rfl, rfl⟩

theorem kept_consume (s : Connector) (t : ClientTask) : Kept s (s.consume t) := by
  rw [Connector.consume]
  split
  · exact Kept.refl s
  · exact ⟨rfl, rfl, rfl⟩

theorem kept_closeSession (s : Connector) (a : AttemptId) : Kept s (s.closeSession a) := by
  obtain ⟨_, _, heq, -, -⟩ := closeSession_eq s a
  rw [heq]
  exact ⟨rfl, rfl, rfl⟩

theorem kept_dropSession (s : Connector) : Kept s s.dropSession := by
  obtain ⟨_, _, heq, -, -⟩ := dropSession_eq s
  rw [heq]
  exact ⟨rfl, rfl, rfl⟩

theorem kept_nextQuicEndpoint (s : Connector) (connId : Nat) (cause : Cause)
    (usable : UdpEndpoint → Bool) : Kept s (s.nextQuicEndpoint connId cause usable).1 := by
  have hdropped := kept_dropSession s.cancelTimer
  rcases nextQuicEndpoint_cases s connId cause usable with ⟨n, -, htry⟩ | ⟨-, _, htry⟩
  · rw [htry]
    exact ⟨hdropped.delay, hdropped.timer, hdropped.session⟩
  · rw [htry]
    exact ⟨hdropped.delay, hdropped.timer, hdropped.session⟩

theorem kept_tryNextQuicEndpoint (s : Connector) (connId : Nat) (cause : Cause)
    (usable : UdpEndpoint → Bool) : Kept s (s.tryNextQuicEndpoint connId cause usable).1 := by
  rw [Connector.tryNextQuicEndpoint]
  split
  · exact Kept.refl s
  · exact kept_nextQuicEndpoint s connId cause usable

/-- `TryNextQuicEndpoint` finds an endpoint. -/
theorem tryNextQuicEndpoint_snd (s : Connector) (cause : Cause) (usable : UdpEndpoint → Bool) :
    (s.tryNextQuicEndpoint s.connectionId cause usable).2 =
      (nextUsable usable (s.quicEndpoints.drop s.quicEndpointIndex)).isSome := by
  have hsame : s.cancelTimer.dropSession.quicEndpoints = s.quicEndpoints ∧
      s.cancelTimer.dropSession.quicEndpointIndex = s.quicEndpointIndex := by
    obtain ⟨_, _, heq, -, -⟩ := dropSession_eq s.cancelTimer
    rw [heq]
    exact ⟨rfl, rfl⟩
  rw [Connector.tryNextQuicEndpoint, if_neg (not_not_intro rfl), Connector.nextQuicEndpoint]
  simp only [hsame.1, hsame.2]
  cases nextUsable usable (s.quicEndpoints.drop s.quicEndpointIndex) <;> rfl

/-- What an event leaves of the delay. -/
inductive Paced (s s' : Connector) : Pace → Prop where
  | kept :
      s'.reconnectDelay = s.reconnectDelay →
      (s'.reconnectTimer = true → s.reconnectTimer = true) →
      (s'.muxSession.isSome → s.muxSession.isSome) → Paced s s' .kept
  | opened : s'.reconnectDelay = 0 → Paced s s' .opened
  | scheduled :
      s'.reconnectDelay =
        (if s.reconnectDelay < 600 then s.reconnectDelay + 10 else s.reconnectDelay) →
      s'.reconnectTimer = true → s'.muxSession = none → Paced s s' (.scheduled s.reconnectDelay)

theorem Kept.paced (h : Kept s s') : Paced s s' .kept :=
  .kept h.delay (fun htimer => h.timer ▸ htimer) (fun hsession => h.session ▸ hsession)

/-- An event that first does something else. -/
theorem Kept.then_paced {p : Pace} (h : Kept s s') (h' : Paced s' s'' p) : Paced s s'' p := by
  cases h' with
  | kept hdelay htimer hsession =>
      exact .kept (hdelay.trans h.delay) (fun hs => h.timer ▸ htimer hs) fun hs =>
        h.session ▸ hsession hs
  | opened hdelay => exact .opened hdelay
  | scheduled hdelay htimer hsession =>
      rw [h.delay] at hdelay ⊢
      exact .scheduled hdelay htimer hsession

theorem paced_handleDisconnect (s : Connector) (cause : Cause) :
    Paced s (s.handleDisconnect cause) s.hangUp := by
  obtain ⟨_, _, heq, -, -⟩ := dropSession_eq { s with
    connectionId := s.connectionId + 1, muxSession := none
    current := none, abandoned := s.abandon cause }
  rw [Connector.handleDisconnect, hangUp]
  simp only [heq]
  split
  -- a client that stops schedules nothing
  · exact .kept rfl id fun h => by cases h
  split
  · rename_i hauto
    split
    -- from QUIC to TCP, and from TCP to WebSocket, without a delay
    · rename_i hquic
      rw [if_pos ⟨hauto, .inl hquic⟩]
      exact .kept rfl id fun h => by cases h
    split
    · rename_i htcp
      rw [if_pos ⟨hauto, .inr htcp⟩]
      exact .kept rfl id fun h => by cases h
    · rename_i hquic htcp
      rw [if_neg fun h => h.2.elim hquic htcp]
      exact .scheduled rfl rfl rfl
  · rename_i hauto
    rw [if_neg fun h => hauto h.1]
    exact .scheduled rfl rfl rfl

theorem hangUp_congr (h : Kept s s') (hplan : s'.plan = s.plan) : s'.hangUp = s.hangUp := by
  have hstopping : s'.stopping = s.stopping := congrArg Plan.stopping hplan
  have hprotocol : s'.protocol = s.protocol := congrArg Plan.protocol hplan
  have hcurrent : s'.currentProtocol = s.currentProtocol := congrArg Plan.currentProtocol hplan
  rw [hangUp, hangUp, hstopping, hprotocol, hcurrent, h.delay]

/-- The endpoints that `async_resolve` found. -/
theorem paced_tryOrHangUp (s : Connector) (cause : Cause) (usable : UdpEndpoint → Bool) :
    Paced s
      (match s.tryNextQuicEndpoint s.connectionId cause usable with
        | (s, true) => s
        | (s, false) => s.handleDisconnect cause)
      (if (nextUsable usable (s.quicEndpoints.drop s.quicEndpointIndex)).isSome then .kept
        else s.hangUp) := by
  have htry := kept_tryNextQuicEndpoint s s.connectionId cause usable
  have hplan := plan_tryNextQuicEndpoint s s.connectionId cause usable
  have hfound := tryNextQuicEndpoint_snd s cause usable
  rw [← hfound]
  split
  · rename_i heq
    rw [heq] at htry ⊢
    exact htry.paced
  · rename_i heq
    rw [heq] at htry hplan ⊢
    -- the attempts on the endpoints have left alone what HandleDisconnect looks at
    rw [if_neg Bool.false_ne_true, ← hangUp_congr htry hplan]
    exact htry.then_paced (paced_handleDisconnect _ _)

/-- **What a callback on the strand does to the delay.** -/
theorem paced_handler (s : Connector) (t : ClientTask) (out : Outcome)
    (hk : t.kind.offStrand = false) : Paced s (s.handler t out) (s.pace (.run t out)) := by
  have hkept : Paced s s .kept := (Kept.refl s).paced
  have hover := paced_handleDisconnect s (.callback t.attempt)
  rw [Connector.handler, pace]
  cases hkind : t.kind with
  | resolve =>
      simp only
      split
      · exact hkept
      rename_i hid
      split
      · exact hover
      split
      · have hfound : Kept s { s with
            quicEndpoints := out.results.eraseDups, quicEndpointIndex := 0 } := ⟨rfl, rfl, rfl⟩
        -- the handler's `connection_id_` is the present one, so the endpoints are tried
        rw [not_not.mp hid]
        exact hfound.then_paced (paced_tryOrHangUp _ (.callback t.attempt) out.usable)
      · exact (kept_push _ _ _ _).paced
  | connect =>
      simp only
      split
      · rename_i hid
        rw [if_pos (.inl hid)]
        exact hkept
      rename_i hid
      split
      · rename_i hec
        rw [if_pos (.inr hec)]
        exact (kept_push _ _ _ _).paced
      · rename_i hec
        rw [if_neg fun h => h.elim hid hec]
        exact hover
  | handshake | control | timer | onConnected | onClosed =>
      rw [hkind] at hk
      cases hk
  | udp =>
      simp only
      split
      · exact (kept_push _ _ _ _).paced
      split
      · exact hkept
      split
      · exact (kept_push _ _ _ _).paced
      split
      · exact (kept_push _ _ _ _).paced
      · exact hkept
  | disconnect => exact hover

/-- What happens on the strand, and around the client. -/
theorem paced_step {e : Event} (hwhole : Threads.whole e = true) (hs : s.step e = some s') :
    Paced s s' (s.pace e) := by
  cases e with
  | connect =>
      rw [Connector.step] at hs
      split at hs
      · cases hs
      · cases hs
        split
        · exact Kept.paced ⟨rfl, rfl, rfl⟩
        · exact Kept.paced ⟨rfl, rfl, rfl⟩
  | fire =>
      rw [Connector.step] at hs
      split at hs
      · cases hs
        exact .kept rfl (fun h => by cases h) id
      · cases hs
  | reconnect =>
      rw [Connector.step] at hs
      split at hs
      · cases hs
      · cases hs
        exact Kept.paced ⟨rfl, rfl, rfl⟩
  | expire =>
      obtain ⟨w, -, rfl⟩ := Option.map_eq_some_iff.mp hs
      exact Kept.paced ⟨rfl, rfl, rfl⟩
  | quicConnected a =>
      obtain ⟨q, -, hs⟩ := Option.bind_eq_some_iff.mp hs
      split at hs
      · cases hs
      · cases hs
        exact (kept_push _ _ _ _).paced
  | quicClosed a =>
      obtain ⟨q, -, hs⟩ := Option.bind_eq_some_iff.mp hs
      split at hs
      · cases hs
      · cases hs
        exact (kept_closeSession s a).paced
  | run t out =>
      obtain ⟨-, hs⟩ := Option.ite_none_right_eq_some.mp hs
      cases hs
      have hpace : s.pace (.run t out) = (s.consume t).pace (.run t out) := by
        rw [Connector.consume]
        split <;> rfl
      rw [Threads.whole, Bool.not_eq_true'] at hwhole
      rw [hpace]
      exact (kept_consume s t).then_paced (paced_handler _ t out hwhole)
  | stop =>
      cases hs
      have hstop : Paced { s with stopping := true } _ _ :=
        paced_handleDisconnect { s with stopping := true } .user
      exact (Kept.mk rfl rfl rfl : Kept s { s with stopping := true }).then_paced hstop

end Connector

namespace Threads

open Connector

variable {s s' : Threads} {c : Running}

theorem kept_tryNext (s : Threads) (c : Running) : Kept s.client (s.tryNext c).client := by
  rw [tryNext]
  split
  · exact kept_push _ _ _ _
  · exact Kept.refl _

/-- A callback off the strand. -/
theorem paced_goOn (s : Threads) (c : Running) (usable : UdpEndpoint → Bool) :
    Paced s.client (s.goOn c usable).client (s.pace (.goOn c usable)) := by
  have hcancelled : Kept s.client s.client.cancelTimer := ⟨rfl, rfl, rfl⟩
  rw [goOn, pace]
  cases c.stage with
  | entered =>
      simp only [body]
      cases c.task.kind with
      | handshake =>
          simp only [Connector.onConnect, true_and]
          split
          · exact .opened rfl
          · exact (hcancelled.trans (kept_push _ _ _ _)).paced
      | control => exact (kept_push _ _ _ _).paced
      | timer =>
          simp only
          split
          · exact (Kept.refl _).paced
          split
          · exact (kept_tryNext s c).paced
          · exact (kept_push _ _ _ _).paced
      | onConnected =>
          simp only
          split
          · exact hcancelled.paced
          · exact (hcancelled.trans (kept_push _ _ _ _)).paced
      | onClosed =>
          have hnext := kept_tryNext { s with client := s.client.cancelTimer } c
          exact (hcancelled.trans hnext).paced
      | resolve | connect | udp | disconnect => exact (Kept.refl _).paced
  | opened => exact .opened rfl
  | trying =>
      have htry := kept_nextQuicEndpoint s.client c.task.connId (.callback c.task.attempt) usable
      simp only
      split
      · next heq =>
          rw [heq] at htry
          exact htry.paced
      · next heq =>
          rw [heq] at htry
          exact (htry.trans (kept_push _ _ _ _)).paced

/-- **What an event does to the delay.** -/
theorem paced_step {e : ThreadEvent} (hs : s.step e = some s') :
    Paced s.client s'.client (s.pace e) := by
  cases e with
  | client e =>
      obtain ⟨hwhole, hs⟩ := Option.ite_none_right_eq_some.mp hs
      obtain ⟨client, hclient, rfl⟩ := Option.map_eq_some_iff.mp hs
      exact Connector.paced_step hwhole hclient
  | enter t ec =>
      obtain ⟨-, hs⟩ := Option.ite_none_right_eq_some.mp hs
      cases hs
      have hkept := kept_consume s.client t
      split
      · exact hkept.paced
      · exact hkept.paced
  | goOn c usable =>
      obtain ⟨-, hs⟩ := Option.ite_none_right_eq_some.mp hs
      cases hs
      exact paced_goOn { s with running := s.running.erase c } c usable

end Threads

namespace LoginRun

open Connector

variable {r r' : LoginRun} {protocol : String}

/-- The delays are those of the `ScheduleReconnect`s since the last connection. -/
structure Backoff (r : LoginRun) : Prop where
  next : r.client.client.reconnectDelay = min (10 * r.sinceOpen.length) 600
  delays : ∀ (k delay : Nat), r.sinceOpen[k]? = some delay → delay = min (10 * k) 600
  limit : ∀ delay ∈ r.waits, delay ≤ 600
  /-- Nothing was scheduled since the connection that a login is sent on. -/
  login : r.client.client.muxSession.isSome → r.sinceOpen = []
  within : r.sinceOpen <:+ r.waits

theorem backoff_start (protocol : String) : Backoff (start protocol) where
  next := rfl
  delays k delay h := by cases h
  limit delay h := by cases h
  login _ := rfl
  within := List.suffix_refl _

theorem Backoff.step (h : Backoff r) {e : LoginEvent} (he : r.step e = some r') : Backoff r' := by
  cases e with
  | client e =>
      obtain ⟨s, hs, rfl⟩ := Option.map_eq_some_iff.mp he
      have hpaced := Threads.paced_step hs
      generalize r.client.pace e = p at hpaced
      cases hpaced with
      | kept hdelay _ hsession =>
          exact ⟨hdelay.trans h.next, h.delays, h.limit, fun hs => h.login (hsession hs), h.within⟩
      | opened hdelay =>
          exact ⟨hdelay, fun _ _ h => (by cases h), h.limit, fun _ => rfl, List.nil_suffix⟩
      | scheduled hdelay _ hsession =>
          refine ⟨?_, fun k delay hk => ?_, fun delay hmem => ?_, fun hs => ?_, ?_⟩
          · show s.client.reconnectDelay =
              min (10 * (r.sinceOpen ++ [r.client.client.reconnectDelay]).length) 600
            rw [hdelay, h.next, List.length_append, List.length_singleton]
            split <;> omega
          · rcases of_getElem?_concat hk with hk | ⟨rfl, rfl⟩
            · exact h.delays k delay hk
            · exact h.next
          · rcases List.mem_append.mp hmem with hmem | hmem
            · exact h.limit delay hmem
            · rw [List.mem_singleton.mp hmem, h.next]
              exact Nat.min_le_right _ _
          · rw [hsession] at hs
            cases hs
          · obtain ⟨before, hbefore⟩ := h.within
            exact ⟨before, by rw [← List.append_assoc, hbefore]⟩
  | loginResp ok =>
      rw [LoginRun.step] at he
      split at he
      · rename_i hsession
        cases he
        cases ok with
        | false => exact h
        | true =>
            refine ⟨h.next, h.delays, fun _ hmem => (by cases hmem), h.login, ?_⟩
            show r.sinceOpen <:+ []
            rw [h.login hsession]
      · cases he

/-- **Every reconnect since the last connection waits ten seconds more than the one before it**,
the first none, up to ten minutes. -/
theorem backoff_of_reach (h : Reach step anyStep (start protocol) r) :
    (∀ (k delay : Nat), r.sinceOpen[k]? = some delay → delay = min (10 * k) 600) ∧
      (∀ delay ∈ r.waits, delay ≤ 600) ∧ r.sinceOpen <:+ r.waits := by
  have hb : Backoff r := h.invariant (backoff_start protocol) fun _ _ _ hb _ hs => hb.step hs
  exact ⟨hb.delays, hb.limit, hb.within⟩

/-- The name cannot be resolved, three times over. -/
theorem backoff_unresolved : ∃ r : LoginRun, r.waits = [0, 10, 20] ∧
    (∀ (k delay : Nat), r.sinceOpen[k]? = some delay → delay = min (10 * k) 600) ∧
      (∀ delay ∈ r.waits, delay ≤ 600) ∧ r.sinceOpen <:+ r.waits := by
  obtain ⟨r, h, hwaits⟩ := exists_of_runAll step
    [.client (.client .connect), .client (.client (.run ⟨0, 1, .resolve⟩ { ec := .other })),
      .client (.client .fire), .client (.client .reconnect),
      .client (.client (.run ⟨1, 3, .resolve⟩ { ec := .other })),
      .client (.client .fire), .client (.client .reconnect),
      .client (.client (.run ⟨2, 5, .resolve⟩ { ec := .other }))]
    (fun r => r.waits) (s := start "tcp") rfl
  exact ⟨r, hwaits, backoff_of_reach h⟩

/-- A connection whose login the server rejects. -/
def rejectedLogin (a : AttemptId) (connId : Nat) : List LoginEvent :=
  [.client (.client (.run ⟨a, connId, .resolve⟩ {})),
    .client (.client (.run ⟨a, connId, .connect⟩ {})),
    .client (.enter ⟨a, connId, .handshake⟩ .success),
    .client (.goOn ⟨⟨a, connId, .handshake⟩, .success, .entered⟩ fun _ => true), .loginResp false,
    .client (.enter ⟨a, connId, .control⟩ .success),
    .client (.goOn ⟨⟨a, connId, .control⟩, .success, .entered⟩ fun _ => true),
    .client (.client (.run ⟨a, connId, .disconnect⟩ {}))]

/-- The server accepts every connection and rejects every login: the client is back at once. -/
theorem rejected_at_once : ¬ ∀ (protocol : String) (r : LoginRun),
    Reach step anyStep (start protocol) r →
      ∀ (k delay : Nat), r.waits[k]? = some delay → min (10 * k) 600 ≤ delay := by
  intro hall
  obtain ⟨r, h, hwaits⟩ := exists_of_runAll step
    (.client (.client .connect) :: rejectedLogin 0 1 ++
      [.client (.client .fire), .client (.client .reconnect)] ++ rejectedLogin 1 3)
    (fun r => r.waits) (s := start "tcp") (show _ = some [0, 0] from rfl)
  have hsecond : r.waits[1]? = some 0 := by
    rw [hwaits]
    rfl
  exact absurd (hall "tcp" r h 1 0 hsecond) (by decide)

end LoginRun

end Cfrp
