import Cfrp.Client.Inert

/-!
# Callbacks off the strand

The handlers of `async_resolve` and `async_connect`, the posted `DoConnect` and
`HandleDisconnect` and the handler of `reconnect_timer_` run on the client's strand, one
after the other. The other callbacks do not: `handshake_timer_` and the QUIC sessions have
executors of their own, and what `bind_executor` adds to the handlers of an `AsyncStream`
is lost, since they are passed on as `std::function`s. They look at `connection_id_` and
then do their work, and whatever is on the strand may run in between.

A `Threads` is a client together with the callbacks that are part way through. What a
callback does after its last look is one step. A client whose callbacks are never
interrupted is a `Connector` (`reach_of_reach`).
-/

namespace Cfrp

open Lib

/-- The callbacks that look at `connection_id_` and are not on the strand. -/
def TaskKind.offStrand : TaskKind → Bool
  | .handshake | .control | .timer | .onConnected | .onClosed => true
  | .resolve | .connect | .udp | .disconnect => false

/-- The last thing a callback has done. -/
inductive CallbackStage where
  /-- It has looked at `connection_id_`. -/
  | entered
  /-- `on_connected`: `open_stream` has returned a stream. -/
  | opened
  /-- `TryNextQuicEndpoint` has looked at `connection_id_`. -/
  | trying
  deriving DecidableEq

/-- A callback that is part way through. -/
structure Running where
  task : ClientTask
  ec : ConnectError
  stage : CallbackStage
  deriving DecidableEq

structure Threads where
  client : Connector
  running : List Running := []

inductive ThreadEvent where
  /-- What runs on the strand, and what happens around the client. -/
  | client (e : Connector.Event)
  /-- A callback looks at `connection_id_`. -/
  | enter (t : ClientTask) (ec : ConnectError)
  /-- A callback goes on. `RebindUdpSocketForEndpoint` succeeds for the usable endpoints. -/
  | goOn (c : Running) (usable : UdpEndpoint → Bool)

namespace Threads

def start (protocol : String) : Threads := { client := .init protocol }

/-- The call of `TryNextQuicEndpoint` in a callback. -/
def tryNext (s : Threads) (c : Running) : Threads :=
  if c.task.connId ≠ s.client.connectionId then
    { s with client := s.client.postDisconnect c.task }
  else { s with running := s.running ++ [{ c with stage := .trying }] }

/-- A callback, past its look at `connection_id_`. -/
def body (s : Threads) (c : Running) : Threads :=
  match c.task.kind with
  | .handshake => { s with client := s.client.onConnect c.task c.ec }
  | .control => { s with client := s.client.postDisconnect c.task }
  | .timer =>
      -- the timer that is left over from a QUIC attempt matters to QUIC only
      if s.client.currentProtocol ≠ "quic" then s
      else if s.client.protocol = "auto" then s.tryNext c
      else { s with client := s.client.postDisconnect c.task }
  | .onConnected =>
      let s := { s with client := s.client.cancelTimer }
      -- `open_stream` returns nothing once the session is closed
      if (s.client.quicAttempts c.task.attempt).any fun q => !q.closed then
        { s with running := s.running ++ [{ c with stage := .opened }] }
      else { s with client := s.client.postDisconnect c.task }
  | .onClosed => { s with client := s.client.cancelTimer }.tryNext c
  | _ => s

def goOn (s : Threads) (c : Running) (usable : UdpEndpoint → Bool) : Threads :=
  match c.stage with
  | .entered => s.body c
  | .opened => { s with client := s.client.onConnect c.task .success }
  | .trying =>
      match s.client.nextQuicEndpoint c.task.connId (.callback c.task.attempt) usable with
      | (client, true) => { s with client }
      -- no endpoint is left
      | (client, false) => { s with client := client.postDisconnect c.task }

/-- What is one step: everything but a callback that can be interrupted. -/
def whole : Connector.Event → Bool
  | .run t _ => !t.kind.offStrand
  | _ => true

def step (s : Threads) : ThreadEvent → Option Threads
  | .client e =>
      if whole e then (s.client.step e).map fun client => { s with client } else none
  | .enter t ec =>
      if t.kind.offStrand = true ∧ t ∈ s.client.tasks then
        let client := s.client.consume t
        some (if t.connId ≠ client.connectionId then { s with client }
          else { client, running := s.running ++ [⟨t, ec, .entered⟩] })
      else none
  | .goOn c usable =>
      if c ∈ s.running then some ({ s with running := s.running.erase c }.goOn c usable) else none

/-! ## Callbacks that are not interrupted -/

section Uninterrupted

variable {client client' : Connector} {s : Threads} {c : Running} {t : ClientTask}
  {usable : UdpEndpoint → Bool} {protocol : String}

/-- The only callback under way goes on. -/
theorem step_goOn (client : Connector) (c : Running) (usable : UdpEndpoint → Bool) :
    step ⟨client, [c]⟩ (.goOn c usable) = some (goOn ⟨client, []⟩ c usable) := by
  rw [step, if_pos (List.mem_singleton_self c), List.erase_cons_head]

/-- `TryNextQuicEndpoint` in a callback, from its look at `connection_id_` to its end. -/
theorem reach_tryNext (client : Connector) (c : Running) (usable : UdpEndpoint → Bool) :
    Reach step anyStep (tryNext ⟨client, []⟩ c)
      ⟨match client.tryNextQuicEndpoint c.task.connId (.callback c.task.attempt) usable with
        | (s, true) => s
        | (s, false) => s.postDisconnect c.task, []⟩ := by
  rw [tryNext, Connector.tryNextQuicEndpoint]
  split
  · exact Reach.init
  · refine Reach.init.next (.goOn { c with stage := .trying } usable) trivial ?_
    refine (step_goOn client { c with stage := .trying } usable).trans ?_
    rw [goOn]
    simp only
    split
    · rfl
    · rfl

/-- A callback past its look at `connection_id_` goes on to its end. -/
theorem reach_body (client : Connector) (ht : t.kind.offStrand = true)
    (hid : t.connId = client.connectionId) (out : Outcome) :
    Reach step anyStep (body ⟨client, []⟩ ⟨t, out.ec, .entered⟩) ⟨client.handler t out, []⟩ := by
  -- the handler begins with the same look at `connection_id_`, which it passes
  have hpass : ¬ t.connId ≠ client.connectionId := not_not_intro hid
  rw [body, Connector.handler]
  cases hk : t.kind with
  | handshake =>
      simp only
      rw [if_neg hpass]
      exact Reach.init
  | control =>
      simp only
      rw [if_neg hpass]
      exact Reach.init
  | timer =>
      simp only
      rw [if_neg hpass]
      split
      · exact Reach.init
      split
      · exact reach_tryNext client ⟨t, out.ec, .entered⟩ out.usable
      · exact Reach.init
  | onConnected =>
      simp only
      rw [if_neg hpass]
      -- cancelling the timer leaves the sessions alone
      have hsame : client.cancelTimer.quicAttempts = client.quicAttempts := rfl
      rw [hsame]
      split
      · exact Reach.init.next (.goOn ⟨t, out.ec, .opened⟩ out.usable) trivial
          (step_goOn client.cancelTimer ⟨t, out.ec, .opened⟩ out.usable)
      · exact Reach.init
  | onClosed =>
      simp only
      rw [if_neg hpass]
      exact reach_tryNext client.cancelTimer ⟨t, out.ec, .entered⟩ out.usable
  | resolve | connect | udp | disconnect =>
      rw [hk] at ht
      cases ht

/-- A callback that is turned away does nothing more. -/
theorem handler_stale (ht : t.kind.offStrand = true) (hid : t.connId ≠ client.connectionId)
    (out : Outcome) : client.handler t out = client := by
  rw [Connector.handler]
  cases hk : t.kind with
  | handshake | control | timer | onConnected | onClosed =>
      simp only
      rw [if_pos hid]
  | resolve | connect | udp | disconnect =>
      rw [hk] at ht
      cases ht

/-- A step of the client is a run in which nothing comes between the parts of a callback. -/
theorem reach_of_step {e : Connector.Event} (h : client.step e = some client') :
    Reach step anyStep ⟨client, []⟩ ⟨client', []⟩ := by
  by_cases hwhole : whole e = true
  · exact Reach.init.next (.client e) trivial (by rw [step, if_pos hwhole, h, Option.map_some])
  cases e with
  | run t out =>
      have ht : t.kind.offStrand = true := by
        rw [whole, Bool.not_eq_true', Bool.not_eq_false] at hwhole
        exact hwhole
      obtain ⟨hmem, h⟩ := Option.ite_none_right_eq_some.mp h
      cases h
      have henter : step ⟨client, []⟩ (.enter t out.ec) =
          some (if t.connId ≠ (client.consume t).connectionId then ⟨client.consume t, []⟩
            else ⟨client.consume t, [⟨t, out.ec, .entered⟩]⟩) := by
        rw [step, if_pos ⟨ht, hmem⟩]
        rfl
      -- turned away at once, or taken apart and put together again
      split at henter
      · next hid =>
          rw [handler_stale ht hid]
          exact Reach.init.next _ trivial henter
      · next hid =>
          refine (Reach.init.next _ trivial henter).trans ?_
          refine (Reach.init.next _ trivial (step_goOn _ _ out.usable)).trans ?_
          exact reach_body _ ht (not_not.mp hid) out
  | connect | fire | reconnect | expire | quicConnected | quicClosed | stop =>
      exact absurd rfl hwhole

/-- **A client whose callbacks are never interrupted** is one of the clients here. -/
theorem reach_of_reach (h : Reach Connector.step anyStep (.init protocol) client) :
    Reach step anyStep (start protocol) ⟨client, []⟩ :=
  h.invariant (P := fun client => Reach step anyStep (start protocol) ⟨client, []⟩) Reach.init
    fun _ _ _ hr _ hs => hr.trans (reach_of_step hs)

end Uninterrupted

end Threads

namespace Connector

variable {s s' : Connector} {a : AttemptId} {t : ClientTask}

/-! ## What is behind the present `connection_id_` -/

/-- Nothing is ahead of `connection_id_`, and only the session in use is open. -/
structure Counted (s : Connector) : Prop where
  tasks : ∀ t ∈ s.tasks, t.connId ≤ s.connectionId
  sessions : ∀ a q, s.quicAttempts a = some q → q.connId ≤ s.connectionId
  waiting : ∀ w, s.handshakeTimer = some w → w.2 ≤ s.connectionId
  opened : ∀ a q, s.quicAttempts a = some q → q.closed = false → s.quicSession = some a

theorem counted_init (protocol : String) : Counted (init protocol) where
  tasks t ht := by cases ht
  sessions a q hq := by cases hq
  waiting w hw := by cases hw
  opened a q hq := by cases hq

theorem Counted.push (h : Counted s) {connId : Nat} {kind : TaskKind}
    (hid : connId ≤ s.connectionId) : Counted (s.push a connId kind) := by
  refine { h with tasks := fun t ht => ?_ }
  rcases List.mem_append.mp ht with ht | ht
  · exact h.tasks t ht
  · rw [List.mem_singleton.mp ht]
    exact hid

theorem Counted.consume (h : Counted s) (t : ClientTask) : Counted (s.consume t) := by
  rw [Connector.consume]
  split
  · exact h
  · exact { h with tasks := fun t ht => h.tasks t (List.mem_of_mem_erase ht) }

theorem connectionId_consume (s : Connector) (t : ClientTask) :
    (s.consume t).connectionId = s.connectionId :=
  congrArg Plan.connectionId (plan_consume s t)

theorem Counted.cancelTimer (h : Counted s) : Counted s.cancelTimer :=
  { h with waiting := fun _ hw => by cases hw }

theorem Counted.closeSession (h : Counted s) (a : AttemptId) : Counted (s.closeSession a) := by
  have hopen : ∀ b q, (s.closeSession a).quicAttempts b = some q → q.closed = false →
      s.quicSession = some b := by
    intro b q hq hopen
    exact h.opened b q (closeSession_closed hq hopen).2 hopen
  rcases closeSession_cases s a with ⟨heq, -⟩ | ⟨q, hq, -, heq⟩
  · rw [heq]
    exact h
  · rw [heq] at hopen ⊢
    refine Counted.push ?_ (h.sessions a q hq)
    refine ⟨h.tasks, fun b p hp => ?_, h.waiting, hopen⟩
    have hid : ({ q with closed := true } : QuicAttempt).connId = q.connId := rfl
    obtain ⟨p₀, hp₀, hid⟩ := update_connId hq hid hp
    rw [hid]
    exact h.sessions b p₀ hp₀

/-- Without the session in use, all of them are closed. -/
theorem Counted.dropSession (h : Counted s) : Counted s.dropSession ∧
    ∀ a q, s.dropSession.quicAttempts a = some q → q.closed = true := by
  have hclosed : ∀ b q, s.dropSession.quicAttempts b = some q → q.closed = true := by
    intro b q hq
    refine eq_true_of_ne_false fun hopen => ?_
    cases hs : s.quicSession with
    -- an open session would be the one in use
    | none =>
        rw [dropSession_none hs] at hq
        have hused := h.opened b q hq hopen
        rw [hs] at hused
        cases hused
    | some a =>
        rw [dropSession_some hs] at hq
        obtain ⟨hne, hq⟩ := closeSession_closed hq hopen
        have hused := h.opened b q hq hopen
        rw [hs] at hused
        exact hne (Option.some.inj hused).symm
  refine ⟨?_, hclosed⟩
  have hnone : ∀ b q, s.dropSession.quicAttempts b = some q → q.closed = false →
      s.dropSession.quicSession = some b := by
    intro b q hq hopen
    rw [hclosed b q hq] at hopen
    cases hopen
  cases hs : s.quicSession with
  | none =>
      rw [dropSession_none hs]
      exact h
  | some a =>
      rw [dropSession_some hs] at hnone ⊢
      have hc := h.closeSession a
      exact ⟨hc.tasks, hc.sessions, hc.waiting, hnone⟩

/-- A new session where all are closed. -/
theorem Counted.doQuicConnect (h : Counted s)
    (hclosed : ∀ a q, s.quicAttempts a = some q → q.closed = true) {connId : Nat}
    (hid : connId ≤ s.connectionId) (cause : Cause) : Counted (s.doQuicConnect connId cause) := by
  have hnew : ∀ b p,
      Function.update s.quicAttempts s.nextAttempt (some { connId }) b = some p →
      b = s.nextAttempt ∧ p.connId = connId ∨ s.quicAttempts b = some p := by
    intro b p hp
    by_cases hb : b = s.nextAttempt
    · subst hb
      rw [Function.update_self] at hp
      obtain rfl := Option.some.inj hp
      exact .inl ⟨rfl, rfl⟩
    · rw [Function.update_of_ne hb] at hp
      exact .inr hp
  -- the new session is in use, and the others were closed
  have hmade : Counted { s with
      nextAttempt := s.nextAttempt + 1
      current := some s.nextAttempt
      abandoned := s.abandon cause
      quicAttempts := Function.update s.quicAttempts s.nextAttempt (some { connId })
      quicSession := some s.nextAttempt
      udpSocket := some s.nextAttempt
      handshakeTimer := some (s.nextAttempt, connId) } := by
    refine ⟨h.tasks, fun b p hp => ?_, fun w hw => ?_, fun b p hp hopen => ?_⟩
    · rcases hnew b p hp with ⟨-, hp⟩ | hp
      · rw [hp]
        exact hid
      · exact h.sessions b p hp
    · obtain rfl := Option.some.inj hw
      exact hid
    · rcases hnew b p hp with ⟨rfl, -⟩ | hp
      · rfl
      · rw [hclosed b p hp] at hopen
        cases hopen
  exact hmade.push (Nat.le_refl _)

theorem Counted.nextQuicEndpoint (h : Counted s) {connId : Nat} (hid : connId ≤ s.connectionId)
    (cause : Cause) (usable : UdpEndpoint → Bool) :
    Counted (s.nextQuicEndpoint connId cause usable).1 ∧
      (s.nextQuicEndpoint connId cause usable).1.connectionId = s.connectionId := by
  obtain ⟨hd, hclosed⟩ := h.cancelTimer.dropSession
  -- the session that is dropped takes no `connection_id_` with it
  have hsame : s.cancelTimer.dropSession.connectionId = s.connectionId :=
    congrArg Plan.connectionId (plan_dropSession s.cancelTimer)
  rcases nextQuicEndpoint_cases s connId cause usable with ⟨n, -, heq⟩ | ⟨-, _, heq⟩
  · rw [heq]
    have hmoved : Counted { s.cancelTimer.dropSession with
        quicEndpointIndex := s.quicEndpointIndex + n } := { hd with }
    exact ⟨hmoved.doQuicConnect hclosed (Nat.le_trans hid (Nat.le_of_eq hsame.symm)) cause, hsame⟩
  · rw [heq]
    exact ⟨{ hd with }, hsame⟩

theorem Counted.tryNextQuicEndpoint (h : Counted s) {connId : Nat} (hid : connId ≤ s.connectionId)
    (cause : Cause) (usable : UdpEndpoint → Bool) :
    Counted (s.tryNextQuicEndpoint connId cause usable).1 ∧
      (s.tryNextQuicEndpoint connId cause usable).1.connectionId = s.connectionId := by
  rw [Connector.tryNextQuicEndpoint]
  split
  · exact ⟨h, rfl⟩
  · exact h.nextQuicEndpoint hid cause usable

/-- A new `connection_id_`. -/
theorem Counted.newId (h : Counted s) (s' : Connector)
    (hid : s'.connectionId = s.connectionId + 1) (htasks : s'.tasks = s.tasks)
    (hquic : s'.quicAttempts = s.quicAttempts) (hused : s'.quicSession = s.quicSession)
    (htimer : s'.handshakeTimer = s.handshakeTimer) : Counted s' := by
  constructor
  · rw [htasks, hid]
    exact fun t ht => Nat.le_succ_of_le (h.tasks t ht)
  · rw [hquic, hid]
    exact fun a q hq => Nat.le_succ_of_le (h.sessions a q hq)
  · rw [htimer, hid]
    exact fun w hw => Nat.le_succ_of_le (h.waiting w hw)
  · rw [hquic, hused]
    exact h.opened

theorem Counted.handleDisconnect (h : Counted s) (cause : Cause) :
    Counted (s.handleDisconnect cause) ∧
      s.connectionId ≤ (s.handleDisconnect cause).connectionId := by
  have hd := (h.newId { s with
      connectionId := s.connectionId + 1, muxSession := none
      current := none, abandoned := s.abandon cause } rfl rfl rfl rfl rfl).dropSession.1
  refine ⟨?_, by rw [connectionId_handleDisconnect]; exact Nat.le_succ _⟩
  rw [Connector.handleDisconnect]
  simp only
  split
  · exact { hd with }
  split
  · split
    · exact { hd with }
    split
    · exact { hd with }
    · exact { hd with }
  · exact { hd with }

theorem Counted.doConnect (h : Counted s) : Counted s.doConnect := by
  have hnew := h.newId { s with
      connectionId := s.connectionId + 1
      nextAttempt := s.nextAttempt + 1
      current := some s.nextAttempt
      abandoned := s.abandon .reconnect
      tried := s.tried ++ [s.currentProtocol] } rfl rfl rfl rfl rfl
  exact hnew.push (Nat.le_refl _)

theorem Counted.onConnect (h : Counted s) (hid : t.connId ≤ s.connectionId) (ec : ConnectError) :
    Counted (s.onConnect t ec) ∧ (s.onConnect t ec).connectionId = s.connectionId := by
  rw [Connector.onConnect]
  split
  · have hc : Counted { s.cancelTimer with reconnectDelay := 0, muxSession := some t.attempt } :=
      { h.cancelTimer with }
    exact ⟨hc.push (Nat.le_refl _), rfl⟩
  · exact ⟨h.cancelTimer.push hid, rfl⟩

/-- A callback, on the strand or not. -/
theorem Counted.handler (h : Counted s) (hid : t.connId ≤ s.connectionId) (out : Outcome) :
    Counted (s.handler t out) ∧ s.connectionId ≤ (s.handler t out).connectionId := by
  have hrun := handled s t out
  generalize s.handler t out = s' at hrun
  cases hrun with
  | returned => exact ⟨h, Nat.le_refl _⟩
  | hungUp => exact h.handleDisconnect _
  | resolved _ _ =>
      have hfound : Counted { s with
          quicEndpoints := out.results.eraseDups, quicEndpointIndex := 0 } := { h with }
      obtain ⟨htry, hsame⟩ := hfound.tryNextQuicEndpoint (Nat.le_refl s.connectionId)
        (.callback t.attempt) out.usable
      split
      · next heq =>
          rw [heq] at htry hsame
          exact ⟨htry, Nat.le_of_eq hsame.symm⟩
      · next heq =>
          rw [heq] at htry hsame
          obtain ⟨hover, hle⟩ := htry.handleDisconnect (.callback t.attempt)
          exact ⟨hover, Nat.le_trans (Nat.le_of_eq hsame.symm) hle⟩
  | dialled _ _ _ => exact ⟨h.push (Nat.le_refl _), Nat.le_refl _⟩
  | connected ec =>
      obtain ⟨hdone, hsame⟩ := h.onConnect hid ec
      exact ⟨hdone, Nat.le_of_eq hsame.symm⟩
  | posted hs =>
      rcases hs with rfl | rfl
      · exact ⟨h.push hid, Nat.le_refl _⟩
      · exact ⟨h.cancelTimer.push hid, Nat.le_refl _⟩
  | @triedNext s₀ hs _ _ =>
      -- `on_closed` cancels the handshake timer first, the timer's own handler does not
      have hstart : Counted s₀ ∧ s₀.connectionId = s.connectionId := by
        rcases hs with rfl | rfl
        · exact ⟨h, rfl⟩
        · exact ⟨h.cancelTimer, rfl⟩
      obtain ⟨htry, hsame⟩ := hstart.1.tryNextQuicEndpoint
        (Nat.le_trans hid (Nat.le_of_eq hstart.2.symm)) (.callback t.attempt) out.usable
      have hsame := hsame.trans hstart.2
      split
      · next heq =>
          rw [heq] at htry hsame
          exact ⟨htry, Nat.le_of_eq hsame.symm⟩
      · next heq =>
          rw [heq] at htry hsame
          exact ⟨htry.push (Nat.le_trans hid (Nat.le_of_eq hsame.symm)), Nat.le_of_eq hsame.symm⟩
  | readOn => exact ⟨h.push (Nat.le_refl _), Nat.le_refl _⟩

theorem step_counted (h : Counted s) {e : Event} (hs : step s e = some s') :
    Counted s' ∧ s.connectionId ≤ s'.connectionId := by
  cases e with
  | connect =>
      rw [step] at hs
      split at hs
      · cases hs
      obtain rfl := Option.some.inj hs
      split
      · exact ⟨{ h with }, Nat.le_refl _⟩
      · exact ⟨Counted.doConnect { h with }, Nat.le_succ _⟩
  | fire =>
      rw [step] at hs
      split at hs
      · obtain rfl := Option.some.inj hs
        exact ⟨{ h with }, Nat.le_refl _⟩
      · cases hs
  | reconnect =>
      rw [step] at hs
      split at hs
      · cases hs
      · obtain rfl := Option.some.inj hs
        exact ⟨Counted.doConnect { h with }, Nat.le_succ _⟩
  | expire =>
      obtain ⟨w, hw, rfl⟩ := Option.map_eq_some_iff.mp hs
      exact ⟨h.cancelTimer.push (h.waiting w hw), Nat.le_refl _⟩
  | quicConnected a =>
      obtain ⟨q, hq, hs⟩ := Option.bind_eq_some_iff.mp hs
      split at hs
      · cases hs
      · obtain rfl := Option.some.inj hs
        exact ⟨h.push (h.sessions a q hq), Nat.le_refl _⟩
  | quicClosed a =>
      obtain ⟨q, -, hs⟩ := Option.bind_eq_some_iff.mp hs
      split at hs
      · cases hs
      · obtain rfl := Option.some.inj hs
        obtain ⟨_, _, heq, -, -⟩ := closeSession_eq s a
        exact ⟨h.closeSession a, Nat.le_of_eq (by rw [heq])⟩
  | run t out =>
      obtain ⟨ht, hs⟩ := Option.ite_none_right_eq_some.mp hs
      obtain rfl := Option.some.inj hs
      have hid := connectionId_consume s t
      obtain ⟨hdone, hle⟩ := (h.consume t).handler
        (Nat.le_trans (h.tasks t ht) (Nat.le_of_eq hid.symm)) out
      exact ⟨hdone, Nat.le_trans (Nat.le_of_eq hid.symm) hle⟩
  | stop =>
      obtain rfl := Option.some.inj hs
      have hstop : Counted { s with stopping := true } := { h with }
      exact hstop.handleDisconnect _

end Connector

namespace Threads

variable {s s' : Threads} {c : Running} {protocol : String}

/-- Nothing is ahead of `connection_id_`, with the callbacks that are part way through. -/
structure Behind (s : Threads) : Prop where
  client : s.client.Counted
  running : ∀ c ∈ s.running, c.task.connId ≤ s.client.connectionId

theorem behind_start (protocol : String) : Behind (start protocol) where
  client := Connector.counted_init protocol
  running c hc := by cases hc

/-- The client has moved, and the callbacks that are part way through are where they were. -/
theorem Behind.move (h : Behind s) {client : Connector} (hclient : client.Counted)
    (hid : s.client.connectionId ≤ client.connectionId) : Behind { s with client } :=
  ⟨hclient, fun c hc => Nat.le_trans (h.running c hc) hid⟩

theorem Behind.post (h : Behind s) (hid : c.task.connId ≤ s.client.connectionId) :
    Behind { s with client := s.client.postDisconnect c.task } :=
  h.move (h.client.push hid) (Nat.le_refl _)

theorem Behind.cancelTimer (h : Behind s) : Behind { s with client := s.client.cancelTimer } :=
  h.move h.client.cancelTimer (Nat.le_refl _)

/-- A callback has got further. -/
theorem Behind.add (h : Behind s) (hid : c.task.connId ≤ s.client.connectionId)
    (stage : CallbackStage) : Behind { s with running := s.running ++ [{ c with stage }] } := by
  refine ⟨h.client, fun d hd => ?_⟩
  rcases List.mem_append.mp hd with hd | hd
  · exact h.running d hd
  · rw [List.mem_singleton.mp hd]
    exact hid

theorem Behind.tryNext (h : Behind s) (hid : c.task.connId ≤ s.client.connectionId) :
    Behind (s.tryNext c) := by
  rw [Threads.tryNext]
  split
  · exact h.post hid
  · exact h.add hid .trying

theorem Behind.body (h : Behind s) (hid : c.task.connId ≤ s.client.connectionId) :
    Behind (s.body c) := by
  rw [Threads.body]
  split
  · obtain ⟨hdone, hsame⟩ := h.client.onConnect hid c.ec
    exact h.move hdone (Nat.le_of_eq hsame.symm)
  · exact h.post hid
  · split
    · exact h
    split
    · exact h.tryNext hid
    · exact h.post hid
  · simp only
    split
    · exact h.cancelTimer.add hid .opened
    · exact h.cancelTimer.post hid
  · exact h.cancelTimer.tryNext hid
  · exact h

theorem Behind.goOn (h : Behind s) (hid : c.task.connId ≤ s.client.connectionId)
    (usable : UdpEndpoint → Bool) : Behind (s.goOn c usable) := by
  rw [Threads.goOn]
  split
  · exact h.body hid
  · obtain ⟨hdone, hsame⟩ := h.client.onConnect hid .success
    exact h.move hdone (Nat.le_of_eq hsame.symm)
  · obtain ⟨htry, hsame⟩ :=
      h.client.nextQuicEndpoint hid (.callback c.task.attempt) usable
    split
    · next heq =>
        rw [heq] at htry hsame
        exact h.move htry (Nat.le_of_eq hsame.symm)
    · next heq =>
        rw [heq] at htry hsame
        have hle := Nat.le_of_eq hsame.symm
        exact h.move (htry.push (Nat.le_trans hid hle)) hle

theorem step_behind (h : Behind s) {e : ThreadEvent} (hs : step s e = some s') : Behind s' := by
  cases e with
  | client e =>
      obtain ⟨-, hs⟩ := Option.ite_none_right_eq_some.mp hs
      obtain ⟨client, hclient, rfl⟩ := Option.map_eq_some_iff.mp hs
      obtain ⟨hdone, hle⟩ := Connector.step_counted h.client hclient
      exact h.move hdone hle
  | enter t ec =>
      obtain ⟨⟨-, ht⟩, hs⟩ := Option.ite_none_right_eq_some.mp hs
      obtain rfl := Option.some.inj hs
      have hid := Connector.connectionId_consume s.client t
      -- a task of the client becomes a callback that is under way
      have hmoved := h.move (h.client.consume t) (Nat.le_of_eq hid.symm)
      split
      · exact hmoved
      · exact hmoved.add (c := ⟨t, ec, .entered⟩)
          (Nat.le_trans (h.client.tasks t ht) (Nat.le_of_eq hid.symm)) .entered
  | goOn c usable =>
      obtain ⟨hc, hs⟩ := Option.ite_none_right_eq_some.mp hs
      obtain rfl := Option.some.inj hs
      have hrest : Behind { s with running := s.running.erase c } :=
        ⟨h.client, fun d hd => h.running d (List.mem_of_mem_erase hd)⟩
      exact hrest.goOn (h.running c hc) usable

theorem behind_of_reach (h : Reach step anyStep (start protocol) s) : Behind s :=
  h.invariant (behind_start protocol) fun _ _ _ hi _ hs => step_behind hi hs

end Threads

end Cfrp
