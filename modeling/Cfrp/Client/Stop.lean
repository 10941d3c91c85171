import Cfrp.Client.Threads

/-!
# After Stop

`Stop` gives up the present attempt and leaves everything that is pending where it is: the
handlers of old attempts, the handshake timer, posted failovers, the reconnect timer. It is
turned away later, by `connection_id_` or by `stopping_`, with two exceptions: the handler of
`reconnect_timer_` looks at neither, and a callback that has had its last look goes on.
-/

namespace Cfrp

open Lib

/-- The callback starts something when it goes on: it has reached `OnConnect`, or the loop of
`TryNextQuicEndpoint` with an endpoint left to try. -/
def Running.starts (c : Running) (s : Connector) : Bool :=
  match c.stage with
  | .entered => decide (c.task.kind = .handshake ∧ c.ec = .success)
  | .opened => true
  | .trying => decide (s.quicEndpointIndex < s.quicEndpoints.length)

namespace Connector

variable {s s' s'' : Connector} {a : AttemptId} {t : ClientTask} {out : Outcome} {cause : Cause}
  {protocol : String}

/-- The event has started nothing. `DoConnect` and `TryNextQuicEndpoint` make an attempt,
`OnConnect` makes the session; and where there is no session there is no control stream, so
that `SendMessage` returns. -/
structure Quiet (s s' : Connector) : Prop where
  attempts : s'.nextAttempt = s.nextAttempt
  before : s.muxSession = none
  after : s'.muxSession = none

/-! ## The client at rest -/

/-- Everything that is pending is turned away. -/
structure Halted (s : Connector) : Prop where
  stopping : s.stopping = true
  timer : s.reconnectTimer = false
  reconnects : s.reconnects = 0
  session : s.muxSession = none
  tasks : ∀ t ∈ s.tasks, t.kind = .udp ∨ t.kind = .disconnect ∨ t.connId < s.connectionId
  closed : ∀ a q, s.quicAttempts a = some q → q.closed = true
  waiting : ∀ w, s.handshakeTimer = some w → w.2 < s.connectionId

/-- No attempt is made, and what the callbacks look at only gets further away from them. -/
structure Still (s s' : Connector) : Prop where
  attempts : s'.nextAttempt = s.nextAttempt
  connectionId : s.connectionId ≤ s'.connectionId
  endpoints : s'.quicEndpoints = s.quicEndpoints
  index : s.quicEndpointIndex ≤ s'.quicEndpointIndex

theorem Still.refl (s : Connector) : Still s s :=
  ⟨rfl, Nat.le_refl _, rfl, Nat.le_refl _⟩

theorem Still.trans (h : Still s s') (h' : Still s' s'') : Still s s'' :=
  ⟨h'.attempts.trans h.attempts, Nat.le_trans h.connectionId h'.connectionId,
    h'.endpoints.trans h.endpoints, Nat.le_trans h.index h'.index⟩

theorem still_consume (s : Connector) (t : ClientTask) : Still s (s.consume t) := by
  rw [Connector.consume]
  split
  · exact Still.refl s
  · exact ⟨rfl, Nat.le_refl _, rfl, Nat.le_refl _⟩

/-- The client after `Stop`. -/
theorem handleDisconnect_stopping (hstop : s.stopping = true) (cause : Cause) :
    s.handleDisconnect cause =
      { ({ s with
          connectionId := s.connectionId + 1, muxSession := none
          current := none, abandoned := s.abandon cause } : Connector).dropSession with
        udpSocket := none } := by
  obtain ⟨_, _, heq, -, -⟩ := dropSession_eq { s with
    connectionId := s.connectionId + 1, muxSession := none
    current := none, abandoned := s.abandon cause }
  rw [Connector.handleDisconnect]
  simp only [heq]
  rw [if_pos hstop]

theorem still_handleDisconnect (hstop : s.stopping = true) (cause : Cause) :
    Still s (s.handleDisconnect cause) := by
  obtain ⟨_, _, heq, -, -⟩ := dropSession_eq { s with
    connectionId := s.connectionId + 1, muxSession := none
    current := none, abandoned := s.abandon cause }
  rw [handleDisconnect_stopping hstop, heq]
  exact ⟨rfl, Nat.le_succ _, rfl, Nat.le_refl _⟩

/-- The callback that `close_session` queues is no newer than its session. -/
theorem tasks_dropSession {n : Nat} (htasks : ∀ t ∈ s.tasks, t.connId ≤ n)
    (hsessions : ∀ a q, s.quicAttempts a = some q → q.connId ≤ n) :
    ∀ t ∈ s.dropSession.tasks, t.connId ≤ n := by
  cases hs : s.quicSession with
  | none =>
      rw [dropSession_none hs]
      exact htasks
  | some a =>
      rw [dropSession_some hs]
      rcases closeSession_cases s a with ⟨heq, -⟩ | ⟨q, hq, -, heq⟩
      · rw [heq]
        exact htasks
      · rw [heq]
        intro t ht
        rcases List.mem_append.mp ht with ht | ht
        · exact htasks t ht
        · rw [List.mem_singleton.mp ht]
          exact hsessions a q hq

/-- `Stop`, with no reconnect pending. -/
theorem halted_handleDisconnect (h : Counted s) (hstop : s.stopping = true)
    (htimer : s.reconnectTimer = false) (hqueued : s.reconnects = 0) (cause : Cause) :
    Halted (s.handleDisconnect cause) := by
  have hnew : Counted { s with
      connectionId := s.connectionId + 1, muxSession := none
      current := none, abandoned := s.abandon cause } := h.newId _ rfl rfl rfl rfl rfl
  have hclosed := hnew.dropSession.2
  have htasks := tasks_dropSession (s := { s with
      connectionId := s.connectionId + 1, muxSession := none
      current := none, abandoned := s.abandon cause }) h.tasks h.sessions
  rw [handleDisconnect_stopping hstop]
  obtain ⟨_, _, heq, -, -⟩ := dropSession_eq { s with
    connectionId := s.connectionId + 1, muxSession := none
    current := none, abandoned := s.abandon cause }
  rw [heq] at hclosed htasks ⊢
  -- whatever is pending was given the `connection_id_` that has just been left behind
  exact ⟨hstop, htimer, hqueued, rfl, fun t ht => .inr (.inr (Nat.lt_succ_of_le (htasks t ht))),
    hclosed, fun w hw => Nat.lt_succ_of_le (h.waiting w hw)⟩

theorem Halted.push (h : Halted s) {connId : Nat} {kind : TaskKind}
    (hid : kind = .udp ∨ kind = .disconnect ∨ connId < s.connectionId) :
    Halted (s.push a connId kind) := by
  refine { h with tasks := fun t ht => ?_ }
  rcases List.mem_append.mp ht with ht | ht
  · exact h.tasks t ht
  · rw [List.mem_singleton.mp ht]
    exact hid

theorem Halted.postDisconnect (h : Halted s) (t : ClientTask) : Halted (s.postDisconnect t) :=
  h.push (.inr (.inl rfl))

theorem Halted.consume (h : Halted s) (t : ClientTask) : Halted (s.consume t) := by
  rw [Connector.consume]
  split
  · exact h
  · exact { h with tasks := fun t ht => h.tasks t (List.mem_of_mem_erase ht) }

theorem Halted.cancelTimer (h : Halted s) : Halted s.cancelTimer :=
  { h with waiting := fun _ hw => by cases hw }

/-- The sessions are closed: none is left to close. -/
theorem Halted.dropSession (h : Halted s) : s.dropSession = { s with quicSession := none } := by
  cases hs : s.quicSession with
  | none => rw [dropSession_none hs, ← hs]
  | some a =>
      rw [dropSession_some hs]
      rcases closeSession_cases s a with ⟨heq, -⟩ | ⟨q, hq, hopen, -⟩
      · rw [heq]
      · rw [h.closed a q hq] at hopen
        cases hopen

theorem Halted.handleDisconnect (h : Halted s) (cause : Cause) :
    Halted (s.handleDisconnect cause) ∧ Still s (s.handleDisconnect cause) := by
  refine ⟨?_, still_handleDisconnect h.stopping cause⟩
  have hnew : Halted { s with
      connectionId := s.connectionId + 1, muxSession := none
      current := none, abandoned := s.abandon cause } :=
    { h with
      session := rfl
      tasks := fun t ht => (h.tasks t ht).imp id (.imp id Nat.lt_succ_of_lt)
      waiting := fun w hw => Nat.lt_succ_of_lt (h.waiting w hw) }
  rw [handleDisconnect_stopping h.stopping, hnew.dropSession]
  exact { hnew with }

/-- A receive asks for the next one, posts a `HandleDisconnect`, or is the last. -/
theorem Halted.udp (h : Halted s) (hk : t.kind = .udp) (out : Outcome) :
    Halted (s.handler t out) ∧ Still s (s.handler t out) := by
  have hread : Halted (s.doUdpRead t.attempt) := h.push (.inl rfl)
  have hpost : Halted (s.postDisconnect t) := h.postDisconnect t
  rw [Connector.handler, hk]
  simp only
  split
  · exact ⟨hread, rfl, Nat.le_refl _, rfl, Nat.le_refl _⟩
  split
  · exact ⟨h, Still.refl s⟩
  split
  · exact ⟨hpost, rfl, Nat.le_refl _, rfl, Nat.le_refl _⟩
  split
  · exact ⟨hread, rfl, Nat.le_refl _, rfl, Nat.le_refl _⟩
  · exact ⟨h, Still.refl s⟩

/-- A callback that is one step. -/
theorem Halted.run (h : Halted s) (ht : t ∈ s.tasks) (hk : t.kind.offStrand = false) :
    Halted ((s.consume t).handler t out) ∧ Still s ((s.consume t).handler t out) := by
  have hc := h.consume t
  have hstill := still_consume s t
  cases hkind : t.kind with
  | resolve | connect =>
      have hid : t.connId ≠ (s.consume t).connectionId := by
        rw [connectionId_consume]
        have hlt := h.tasks t ht
        rw [hkind] at hlt
        exact Nat.ne_of_lt ((hlt.resolve_left (by decide)).resolve_left (by decide))
      have hstale : (s.consume t).handler t out = s.consume t := by
        rw [Connector.handler, hkind]
        simp only
        rw [if_pos hid]
      rw [hstale]
      exact ⟨hc, hstill⟩
  | udp =>
      obtain ⟨hdone, hstill'⟩ := hc.udp hkind out
      exact ⟨hdone, hstill.trans hstill'⟩
  | disconnect =>
      obtain ⟨hover, hstill'⟩ := hc.handleDisconnect (.callback t.attempt)
      have hrun : (s.consume t).handler t out =
          (s.consume t).handleDisconnect (.callback t.attempt) := by
        rw [Connector.handler, hkind]
      rw [hrun]
      exact ⟨hover, hstill.trans hstill'⟩
  | handshake | control | timer | onConnected | onClosed =>
      rw [hkind] at hk
      cases hk

/-- What happens on the strand, and around the client. -/
theorem Halted.step (h : Halted s) {e : Event} (hwhole : Threads.whole e = true)
    (hs : step s e = some s') : Halted s' ∧ Still s s' := by
  cases e with
  | connect =>
      rw [Connector.step] at hs
      split at hs
      · cases hs
      · cases hs
        rw [if_pos h.stopping]
        exact ⟨{ h with }, rfl, Nat.le_refl _, rfl, Nat.le_refl _⟩
  | fire =>
      rw [Connector.step, h.timer] at hs
      cases hs
  | reconnect =>
      rw [Connector.step, if_pos h.reconnects] at hs
      cases hs
  | expire =>
      obtain ⟨w, hw, rfl⟩ := Option.map_eq_some_iff.mp hs
      exact ⟨h.cancelTimer.push (.inr (.inr (h.waiting w hw))), rfl, Nat.le_refl _, rfl,
        Nat.le_refl _⟩
  | quicConnected a | quicClosed a =>
      obtain ⟨q, hq, hs⟩ := Option.bind_eq_some_iff.mp hs
      rw [h.closed a q hq] at hs
      cases hs
  | run t out =>
      obtain ⟨ht, hs⟩ := Option.ite_none_right_eq_some.mp hs
      obtain rfl := Option.some.inj hs
      exact h.run ht (by rw [Threads.whole, Bool.not_eq_true'] at hwhole; exact hwhole)
  | stop =>
      cases hs
      have hstop : Halted { s with stopping := true } := { h with stopping := rfl }
      obtain ⟨hover, hstill⟩ := hstop.handleDisconnect .user
      exact ⟨hover, hstill.attempts, hstill.connectionId, hstill.endpoints, hstill.index⟩

end Connector

namespace Threads

open Connector

variable {s s' : Threads} {c : Running} {t : ClientTask} {protocol : String}

/-- The callbacks that are part way through are turned away too, or have nothing to start. -/
structure Halted (s : Threads) : Prop where
  client : s.client.Halted
  running : ∀ c ∈ s.running, c.task.connId < s.client.connectionId ∧ c.starts s.client = false

/-- The client is further on, and what a callback had nothing to start with is no more. -/
theorem starts_of_still {client client' : Connector} (h : Still client client')
    (hc : c.starts client = false) : c.starts client' = false := by
  rw [Running.starts] at hc ⊢
  cases hstage : c.stage with
  | entered =>
      rw [hstage] at hc
      exact hc
  | opened =>
      rw [hstage] at hc
      cases hc
  | trying =>
      rw [hstage] at hc
      have hle := Nat.le_of_not_lt (of_decide_eq_false hc)
      refine decide_eq_false (Nat.not_lt_of_le ?_)
      rw [h.endpoints]
      exact Nat.le_trans hle h.index

theorem Halted.move (h : Halted s) {client : Connector} (hclient : client.Halted)
    (hstill : Still s.client client) : Halted { s with client } :=
  ⟨hclient, fun c hc => ⟨Nat.lt_of_lt_of_le (h.running c hc).1 hstill.connectionId,
    starts_of_still hstill (h.running c hc).2⟩⟩

theorem still_post (client : Connector) (t : ClientTask) : Still client (client.postDisconnect t) :=
  ⟨rfl, Nat.le_refl _, rfl, Nat.le_refl _⟩

theorem still_cancel (client : Connector) : Still client client.cancelTimer :=
  ⟨rfl, Nat.le_refl _, rfl, Nat.le_refl _⟩

/-- `TryNextQuicEndpoint` looks at `connection_id_` once more. -/
theorem tryNext_stale (hid : c.task.connId < s.client.connectionId) :
    s.tryNext c = { s with client := s.client.postDisconnect c.task } := by
  rw [Threads.tryNext, if_pos (Nat.ne_of_lt hid)]

/-- A callback of a client that has stopped posts a `HandleDisconnect` at most. -/
inductive Turned (s : Threads) (t : ClientTask) : Threads → Prop where
  | returned : Turned s t s
  | posted {client : Connector} : client = s.client ∨ client = s.client.cancelTimer →
      Turned s t { s with client := client.postDisconnect t }

theorem turned_body (h : s.client.Halted) (hid : c.task.connId < s.client.connectionId)
    (hfails : c.task.kind = .handshake → c.ec ≠ .success) : Turned s c.task (s.body c) := by
  rw [Threads.body]
  split
  · next hk =>
      have hpost : s.client.onConnect c.task c.ec =
          s.client.cancelTimer.postDisconnect c.task := if_neg (hfails hk)
      rw [hpost]
      exact .posted (.inr rfl)
  · exact .posted (.inl rfl)
  · split
    · exact .returned
    split
    · rw [tryNext_stale hid]
      exact .posted (.inl rfl)
    · exact .posted (.inl rfl)
  · have hclosed : ¬ ((s.client.cancelTimer.quicAttempts c.task.attempt).any
        fun q => !q.closed) = true := by
      show ¬ ((s.client.quicAttempts c.task.attempt).any fun q => !q.closed) = true
      cases hq : s.client.quicAttempts c.task.attempt with
      | none => exact Bool.false_ne_true
      | some q =>
          rw [Option.any_some, h.closed _ q hq]
          exact Bool.false_ne_true
    simp only
    rw [if_neg hclosed]
    exact .posted (.inr rfl)
  · have hstale : ({ s with client := s.client.cancelTimer } : Threads).tryNext c =
        { s with client := s.client.cancelTimer.postDisconnect c.task } := tryNext_stale hid
    rw [hstale]
    exact .posted (.inr rfl)
  · exact .returned

theorem Halted.turned (h : Halted s) (ht : Turned s t s') :
    Halted s' ∧ Still s.client s'.client := by
  cases ht with
  | returned => exact ⟨h, Still.refl _⟩
  | posted hclient =>
      rcases hclient with rfl | rfl
      · have hstill := still_post s.client t
        exact ⟨h.move (h.client.postDisconnect t) hstill, hstill⟩
      · have hstill := (still_cancel s.client).trans (still_post s.client.cancelTimer t)
        exact ⟨h.move (h.client.cancelTimer.postDisconnect t) hstill, hstill⟩

/-- The loop of `TryNextQuicEndpoint` has no endpoint left. -/
theorem Halted.goOn_trying (h : Halted s) (hstage : c.stage = .trying)
    (hnone : s.client.quicEndpoints.length ≤ s.client.quicEndpointIndex)
    (usable : UdpEndpoint → Bool) :
    Halted (s.goOn c usable) ∧ Still s.client (s.goOn c usable).client := by
  -- the loop is not entered, and a HandleDisconnect is posted
  have hdrop : s.client.quicEndpoints.drop s.client.quicEndpointIndex = [] :=
    List.drop_eq_nil_of_le hnone
  rcases nextQuicEndpoint_cases s.client c.task.connId (.callback c.task.attempt) usable with
    ⟨n, hn, -⟩ | ⟨-, udpSocket, heq⟩
  · rw [hdrop] at hn
    cases hn
  · have hdropped := h.client.cancelTimer.dropSession
    rw [hdropped] at heq
    have hdone : s.goOn c usable = { s with
        client := { s.client.cancelTimer with
          quicSession := none, udpSocket
          quicEndpointIndex := max s.client.quicEndpointIndex
            s.client.quicEndpoints.length }.postDisconnect c.task } := by
      rw [Threads.goOn, hstage]
      simp only [heq]
    rw [hdone]
    have hstill : Still s.client ({ s.client.cancelTimer with
          quicSession := none, udpSocket
          quicEndpointIndex := max s.client.quicEndpointIndex
            s.client.quicEndpoints.length }.postDisconnect c.task) :=
      ⟨rfl, Nat.le_refl _, rfl, Nat.le_max_left _ _⟩
    refine ⟨h.move (Connector.Halted.postDisconnect ?_ _) hstill, hstill⟩
    exact { h.client.cancelTimer with }

/-- **A callback of a client that has stopped starts nothing.** -/
theorem Halted.goOn (h : Halted s) (hid : c.task.connId < s.client.connectionId)
    (hquiet : c.starts s.client = false) (usable : UdpEndpoint → Bool) :
    Halted (s.goOn c usable) ∧ Still s.client (s.goOn c usable).client := by
  rw [Running.starts] at hquiet
  cases hstage : c.stage with
  | entered =>
      rw [hstage] at hquiet
      have hbody : s.goOn c usable = s.body c := by rw [Threads.goOn, hstage]
      rw [hbody]
      refine h.turned (turned_body h.client hid fun hk hec => ?_)
      exact of_decide_eq_false hquiet ⟨hk, hec⟩
  | opened =>
      rw [hstage] at hquiet
      cases hquiet
  | trying =>
      rw [hstage] at hquiet
      exact h.goOn_trying hstage (Nat.le_of_not_lt (of_decide_eq_false hquiet)) usable

/-- **No event of a client that has stopped starts anything.** -/
theorem Halted.step (h : Halted s) {e : ThreadEvent} (hs : step s e = some s') :
    Halted s' ∧ Still s.client s'.client := by
  cases e with
  | client e =>
      obtain ⟨hwhole, hs⟩ := Option.ite_none_right_eq_some.mp hs
      obtain ⟨client, hclient, rfl⟩ := Option.map_eq_some_iff.mp hs
      obtain ⟨hdone, hstill⟩ := h.client.step hwhole hclient
      exact ⟨h.move hdone hstill, hstill⟩
  | enter t ec =>
      obtain ⟨⟨hoff, ht⟩, hs⟩ := Option.ite_none_right_eq_some.mp hs
      obtain rfl := Option.some.inj hs
      -- what is not on the strand is behind `connection_id_`, and is turned away
      have hid : t.connId < (s.client.consume t).connectionId := by
        rw [connectionId_consume]
        refine ((h.client.tasks t ht).resolve_left ?_).resolve_left ?_
        · intro hk
          rw [hk] at hoff
          cases hoff
        · intro hk
          rw [hk] at hoff
          cases hoff
      have hstill := still_consume s.client t
      rw [if_pos (Nat.ne_of_lt hid)]
      exact ⟨h.move (h.client.consume t) hstill, hstill⟩
  | goOn c usable =>
      obtain ⟨hc, hs⟩ := Option.ite_none_right_eq_some.mp hs
      obtain rfl := Option.some.inj hs
      obtain ⟨hid, hquiet⟩ := h.running c hc
      have hrest : Halted { s with running := s.running.erase c } :=
        ⟨h.client, fun d hd => h.running d (List.mem_of_mem_erase hd)⟩
      exact hrest.goOn hid hquiet usable

/-! ## What is not turned away -/

/-- `Stop`, in a client that may have callbacks part way through. -/
theorem stop_eq (hs : step s (.client .stop) = some s') :
    s' = { s with client := { s.client with stopping := true }.handleDisconnect .user } := by
  exact (Option.some.inj hs).symm

theorem fire_queues (harmed : s.client.reconnectTimer = true) :
    ∃ s', step s (.client .fire) = some s' ∧ s'.client.reconnects ≠ 0 := by
  refine ⟨{ s with
    client := { s.client with
      reconnectTimer := false, reconnects := s.client.reconnects + 1 } }, ?_, Nat.succ_ne_zero _⟩
  rw [step, if_pos (show whole .fire = true from rfl), Connector.step, if_pos harmed]
  rfl

theorem loud_reconnect (hqueued : s.client.reconnects ≠ 0) :
    ∃ s', step s (.client .reconnect) = some s' ∧ ¬ Quiet s.client s'.client := by
  refine ⟨{ s with
    client := { s.client with reconnects := s.client.reconnects - 1 }.doConnect }, ?_, ?_⟩
  · rw [step, if_pos (show whole .reconnect = true from rfl), Connector.step, if_neg hqueued]
    rfl
  · exact fun hquiet => Nat.succ_ne_self _ hquiet.attempts

theorem nextUsable_all {es : List UdpEndpoint} (h : es ≠ []) :
    nextUsable (fun _ => true) es = some 1 := by
  cases es with
  | nil => exact absurd rfl h
  | cons e es => rfl

theorem loud_goOn (hc : c ∈ s.running) (hstarts : c.starts s.client = true) :
    ∃ s', step s (.goOn c fun _ => true) = some s' ∧ ¬ Quiet s.client s'.client := by
  refine ⟨{ s with running := s.running.erase c }.goOn c fun _ => true, ?_, fun hquiet => ?_⟩
  · rw [step, if_pos hc]
  rw [Running.starts] at hstarts
  cases hstage : c.stage with
  | entered =>
      rw [hstage] at hstarts
      obtain ⟨hk, hec⟩ := of_decide_eq_true hstarts
      have hafter := hquiet.after
      rw [goOn, hstage] at hafter
      -- `OnConnect` has made a session
      simp only [body, hk, hec] at hafter
      cases hafter
  | opened =>
      have hafter := hquiet.after
      rw [goOn, hstage] at hafter
      cases hafter
  | trying =>
      rw [hstage] at hstarts
      have hleft : s.client.quicEndpoints.drop s.client.quicEndpointIndex ≠ [] := by
        intro hnil
        have hle := List.drop_eq_nil_iff.mp hnil
        exact absurd (of_decide_eq_true hstarts) (Nat.not_lt_of_le hle)
      -- an endpoint is left, and the first usable one is tried
      rcases nextQuicEndpoint_cases s.client c.task.connId (.callback c.task.attempt)
        (fun _ => true) with ⟨n, -, heq⟩ | ⟨hnone, -⟩
      · have hattempts := hquiet.attempts
        rw [goOn, hstage] at hattempts
        simp only [heq] at hattempts
        obtain ⟨_, _, hsame, -, -⟩ := dropSession_eq s.client.cancelTimer
        rw [hsame] at hattempts
        exact absurd hattempts (Nat.succ_ne_self _)
      · rw [nextUsable_all hleft] at hnone
        cases hnone

/-! ## Stop -/

/-- What `Stop` leaves as it is. -/
theorem kept_by_stop (client : Connector) :
    ∃ quicAttempts tasks, { client with stopping := true }.handleDisconnect .user =
      { client with
        stopping := true, connectionId := client.connectionId + 1, muxSession := none
        current := none, abandoned := client.abandon .user, quicAttempts, tasks
        quicSession := none, udpSocket := none } := by
  obtain ⟨quicAttempts, tasks, heq, -, -⟩ := dropSession_eq { client with
    stopping := true, connectionId := client.connectionId + 1, muxSession := none
    current := none, abandoned := client.abandon .user }
  refine ⟨quicAttempts, tasks, ?_⟩
  rw [handleDisconnect_stopping rfl]
  exact congrArg (fun s : Connector => { s with udpSocket := none }) heq

theorem starts_by_stop (client : Connector) (c : Running) :
    c.starts ({ client with stopping := true }.handleDisconnect .user) = c.starts client := by
  obtain ⟨_, _, heq⟩ := kept_by_stop client
  rw [heq]
  rfl

/-- **`Stop` is terminal** exactly when no reconnect is pending and no callback is past its last
look with something to start: the handler of `reconnect_timer_` does not look at `stopping_`,
and connects. -/
theorem stop_terminal (h : Reach step anyStep (start protocol) s)
    (hstop : step s (.client .stop) = some s') :
    (∀ s₁ e s₂, Reach step anyStep s' s₁ → step s₁ e = some s₂ → Quiet s₁.client s₂.client) ↔
      s.client.reconnectTimer = false ∧ s.client.reconnects = 0 ∧
        ∀ c ∈ s.running, c.starts s.client = false := by
  have hbehind := behind_of_reach h
  obtain rfl := stop_eq hstop
  obtain ⟨_, _, hkept⟩ := kept_by_stop s.client
  constructor
  · intro hquiet
    refine ⟨eq_false_of_ne_true fun harmed => ?_, by_contra fun hqueued => ?_,
      fun c hc => eq_false_of_ne_true fun hstarts => ?_⟩
    · -- the timer fires, and its handler runs
      obtain ⟨s₁, hfire, hqueued⟩ := fire_queues (s := { s with
          client := { s.client with stopping := true }.handleDisconnect .user })
        (by rw [hkept]; exact harmed)
      obtain ⟨s₂, hs, hloud⟩ := loud_reconnect hqueued
      exact hloud (hquiet _ _ s₂ (Reach.init.next _ trivial hfire) hs)
    · obtain ⟨s₂, hs, hloud⟩ := loud_reconnect (s := { s with
          client := { s.client with stopping := true }.handleDisconnect .user })
        (by rw [hkept]; exact hqueued)
      exact hloud (hquiet _ _ s₂ Reach.init hs)
    · obtain ⟨s₂, hs, hloud⟩ := loud_goOn (s := { s with
          client := { s.client with stopping := true }.handleDisconnect .user }) hc
        ((starts_by_stop s.client c).trans hstarts)
      exact hloud (hquiet _ _ s₂ Reach.init hs)
  · rintro ⟨htimer, hqueued, hrunning⟩ s₁ e s₂ h₁ hs
    have hcounted : Counted { s.client with stopping := true } := { hbehind.client with }
    have hstopped : Halted { s with
        client := { s.client with stopping := true }.handleDisconnect .user } := by
      refine ⟨halted_handleDisconnect hcounted rfl htimer hqueued .user, fun c hc => ⟨?_, ?_⟩⟩
      · show _ < Connector.connectionId _
        rw [hkept]
        exact Nat.lt_succ_of_le (hbehind.running c hc)
      · exact (starts_by_stop s.client c).trans (hrunning c hc)
    have hhalted : Halted s₁ := h₁.invariant hstopped fun _ _ _ hi _ hs => (hi.step hs).1
    obtain ⟨hafter, hstill⟩ := hhalted.step hs
    exact ⟨hstill.attempts, hhalted.client.session, hafter.client.session⟩

/-- Stopped while the control stream is open. -/
theorem stop_terminal_session : ∃ s s', s.client.muxSession = some 0 ∧
    step s (.client .stop) = some s' ∧
      ∀ s₁ e s₂, Reach step anyStep s' s₁ → step s₁ e = some s₂ → Quiet s₁.client s₂.client := by
  obtain ⟨s, hs, hobs⟩ := exists_of_runAll step
    [.client .connect, .client (.run ⟨0, 1, .resolve⟩ {}), .client (.run ⟨0, 1, .connect⟩ {}),
      .enter ⟨0, 1, .handshake⟩ .success,
      .goOn ⟨⟨0, 1, .handshake⟩, .success, .entered⟩ fun _ => true]
    (fun s => (s.client.muxSession, s.client.reconnectTimer, s.client.reconnects, s.running))
    (s := start "tcp") (a := (some 0, false, 0, [])) rfl
  simp only [Prod.mk.injEq] at hobs
  obtain ⟨hsession, htimer, hqueued, hrunning⟩ := hobs
  refine ⟨s, _, hsession, rfl, (stop_terminal hs rfl).mpr ⟨htimer, hqueued, ?_⟩⟩
  rw [hrunning]
  exact fun c hc => (by cases hc)

/-- The name cannot be resolved, the client stops, and the timer takes it to a new session. -/
theorem reconnect_after_stop : ∃ s s', Reach step anyStep (start "tcp") s ∧
    step s (.client .stop) = some s' ∧ ∃ s₁, Reach step anyStep s' s₁ ∧
      (step s₁ (.goOn ⟨⟨1, 4, .handshake⟩, .success, .entered⟩ fun _ => true)).map
        (·.client.muxSession) = some (some 1) := by
  have h₀ : Reach step anyStep (start "tcp") (start "tcp") := Reach.init
  have h₁ := h₀.next (.client .connect) trivial rfl
  have h₂ := h₁.next (.client (.run ⟨0, 1, .resolve⟩ { ec := .other })) trivial rfl
  refine ⟨_, _, h₂, rfl, ?_⟩
  refine exists_of_runAll step
    [.client .fire, .client .reconnect, .client (.run ⟨1, 4, .resolve⟩ {}),
      .client (.run ⟨1, 4, .connect⟩ {}), .enter ⟨1, 4, .handshake⟩ .success]
    (fun s => (step s (.goOn ⟨⟨1, 4, .handshake⟩, .success, .entered⟩ fun _ => true)).map
      (·.client.muxSession)) ?_
  rfl

theorem stop_not_terminal : ¬ ∀ (protocol : String) (s s' : Threads),
    Reach step anyStep (start protocol) s → step s (.client .stop) = some s' →
      ∀ s₁ e s₂, Reach step anyStep s' s₁ → step s₁ e = some s₂ → Quiet s₁.client s₂.client := by
  intro hall
  obtain ⟨s, s', h, hstop, s₁, h₁, hmux⟩ := reconnect_after_stop
  obtain ⟨s₂, hs, hsome⟩ := Option.map_eq_some_iff.mp hmux
  have hnone := (hall _ s s' h hstop s₁ _ s₂ h₁ hs).after
  rw [hsome] at hnone
  cases hnone

end Threads

end Cfrp
