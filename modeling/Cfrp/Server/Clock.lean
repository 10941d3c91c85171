import Cfrp.Server.Accept
import Cfrp.Server.Ownership
import Cfrp.Lib.Keyed

/-!
# Who is on a clock

An open connection is on a clock when some timer of the server is due to close it, and
nothing can move the deadline of that timer. `ClockInv` ties the timers to the stages:
it holds in every reachable state, and from it the connections nobody has logged in on
are on a clock as long as the accept path has not come to `start_mux`, and again from
the moment stream 1 is opened. In between, and on QUIC, they are not.
-/

namespace Cfrp

open Lib Protocol

namespace Frontend

variable {s s' : Frontend} {c : ConnId} {k : CtrlId} {m : MuxId} {t : TimerId}

/-! ## What is said of a connection -/

/-- The mux session runs on the connection, and ending it closes the connection. -/
def Carries (s : Frontend) (c : ConnId) (m : MuxId) : Prop :=
  ∃ mux conn, s.muxes[m]? = some mux ∧ mux.conn = c ∧ s.conns[c]? = some conn ∧ conn.stage ≠ .quic

/-- The connection is closed, or its closing is under way: its mux session is stopping,
or the `Stop` that leads there is posted. -/
def Closing (s : Frontend) (c : ConnId) : Prop :=
  (∃ conn, s.conns[c]? = some conn ∧ conn.closed = true) ∨
  (∃ m mux, s.Carries c m ∧ s.muxes[m]? = some mux ∧ mux.stopping = true) ∨
  ∃ k cs, k ∈ s.stops ∧ s.server.controls k = some cs ∧ s.Carries c cs.muxSession

/-- A control session was started on the connection. -/
def HasControl (s : Frontend) (c : ConnId) (k : CtrlId) (cs : ControlSession) : Prop :=
  s.server.controls k = some cs ∧ ∃ mux, s.muxes[cs.muxSession]? = some mux ∧ mux.conn = c

/-- Somebody has logged in on the connection. -/
def LoggedIn (s : Frontend) (c : ConnId) : Prop :=
  ∃ k cs, s.HasControl c k cs ∧ cs.authenticated = true

/-- The timer is armed, or its handler is queued. -/
def Pending (s : Frontend) (t : TimerId) (target : TimerTarget) : Prop :=
  ∃ timer, s.timers[t]? = some timer ∧ timer.target = target ∧ timer.state ≠ .over

/-- **On a clock.** Some timer is pending whose handler closes the connection, and no
step moves its deadline. -/
def OnClock (s : Frontend) (c : ConnId) : Prop :=
  ∃ t timer, s.timers[t]? = some timer ∧ timer.state ≠ .over ∧
    (∀ locked s', (s.setTimer t .expired).step (.runTimer t locked) = some s' → s'.Closing c) ∧
    ∀ e s', s.step e = some s' →
      ∃ timer', s'.timers[t]? = some timer' ∧ timer'.deadline = timer.deadline

/-- The accept path is under way, or it has led to a control session. -/
def Watched (s : Frontend) (c : ConnId) : Prop :=
  ∃ conn, s.conns[c]? = some conn ∧
    (conn.stage.pending = true ∨ conn.stage = .muxed ∧ ∃ k cs, s.HasControl c k cs)

/-! ## Control sessions -/

/-- What messages and traffic leave alone of the control sessions. -/
structure ControlsKept (s s' : Server) : Prop where
  next : s'.nextControl = s.nextControl
  back : ∀ k cs', s'.controls k = some cs' → ∃ cs, s.controls k = some cs ∧
    cs'.muxSession = cs.muxSession ∧ cs'.stopped = cs.stopped ∧
    (cs.authenticated = true → cs'.authenticated = true)

theorem ControlsKept.of_eq {s s' : Server} (hnext : s'.nextControl = s.nextControl)
    (hcontrols : s'.controls = s.controls) : ControlsKept s s' where
  next := hnext
  back k cs' h := by
    rw [hcontrols] at h
    exact ⟨cs', h, rfl, rfl, id⟩

theorem ControlsKept.of_update {s s' : Server} {c : CtrlId} {cs cs' : ControlSession}
    (hnext : s'.nextControl = s.nextControl) (hc : s.controls c = some cs)
    (hcontrols : s'.controls = Function.update s.controls c (some cs'))
    (hmux : cs'.muxSession = cs.muxSession) (hstopped : cs'.stopped = cs.stopped)
    (hauth : cs.authenticated = true → cs'.authenticated = true) : ControlsKept s s' where
  next := hnext
  back k ds h := by
    rcases Server.controls_update_cases hcontrols h with ⟨rfl, rfl⟩ | ⟨-, h⟩
    · exact ⟨cs, hc, hmux, hstopped, hauth⟩
    · exact ⟨ds, h, rfl, rfl, id⟩

theorem message_kept {s s' : Server} {c : CtrlId} {msg : Message} {thrown : Option Thrown}
    (h : s.step (.message c msg thrown) = some s') : ControlsKept s s' := by
  obtain ⟨cs, hc, rfl⟩ := Option.map_eq_some_iff.mp h
  rcases ControlSession.handleMessage_cases s c cs msg thrown with
    ⟨m, -, heq⟩ | ⟨m, -, -, heq⟩ | ⟨m, -, -, heq⟩ | heq
  · rw [heq]
    rcases ControlSession.handleLogin_cases s c cs m with ⟨-, n, resp, -, heq⟩ | ⟨-, resp, heq⟩
    · rw [heq]
      exact .of_update rfl hc rfl rfl rfl fun _ => rfl
    · rw [heq]
      exact .of_eq rfl rfl
  · rw [heq]
    rcases ControlSession.handleRegisterProxy_cases s c cs m thrown with
      ⟨-, resp, heq⟩ | ⟨-, resp, heq⟩ | ⟨-, resp, heq⟩
    · rw [heq]
      exact .of_eq rfl rfl
    · rw [heq]
      exact .of_update rfl hc rfl rfl rfl id
    · rw [heq]
      refine .of_update rfl hc rfl ?_ ?_ ?_
      · rw [ControlSession.addListener]; split <;> rfl
      · rw [ControlSession.addListener]; split <;> rfl
      · rw [ControlSession.addListener]; split <;> exact id
  · rw [heq]
    rcases ControlSession.handleUnregisterProxy_cases s c cs m.name with
      heq | ⟨p, ps, us, -, -, heq⟩
    · rw [heq]
      exact .of_eq rfl rfl
    · rw [heq]
      exact .of_update rfl hc rfl rfl rfl id
  · rw [heq]
    exact .of_eq rfl rfl

theorem ControlsKept.of_onlyTickets {s s' : Server} (h : Server.OnlyTickets s s') :
    ControlsKept s s' := by
  obtain ⟨_, _, _, _, _, _, rfl⟩ := h
  exact .of_eq rfl rfl

theorem traffic_kept {s s' : Server} {e : Server.Event} (he : isTraffic e = true)
    (h : s.step e = some s') : ControlsKept s s' := by
  have husers : e.isUserTraffic = true → ControlsKept s s' := fun hu => by
    rcases Server.step_userTraffic hu h with ⟨c, ticket, -, -, hfiles⟩ | rfl
    · exact .of_onlyTickets hfiles.only
    · exact .of_eq rfl rfl
  cases e with
  | controlStream mux => cases he
  | message c msg thrown => cases he
  | stop c => cases he
  | acceptUser l ticket socket now locked => exact husers rfl
  | receiveUdp l endpoint ticket now locked => exact husers rfl
  | vhostRequest domain data ticket socket now locked => exact husers rfl
  | workStream mux bytes =>
      rw [Server.step, Option.ite_none_right_eq_some] at h
      rcases Server.handleWorkStream_cases (Option.some.inj h.2) with
        rfl | ⟨hand, -, -, -, -, honly, -⟩
      · exact .of_eq rfl rfl
      · exact .of_onlyTickets honly

/-! ## What a step does -/

theorem waiting_eq {conn : Connection} {stage : Stage} (h : s.waiting c stage = some conn) :
    s.conns[c]? = some conn ∧ conn.stage = stage := by
  obtain ⟨hc, hstage⟩ := Option.filter_eq_some_iff.mp h
  exact ⟨hc, by simpa using hstage⟩

/-- What a step does. The handlers of the accept path all end in one of three ways. -/
inductive Stepped (s : Frontend) : Frontend → Prop where
  | accepted : Stepped s s.accept
  | gaveUp {c : ConnId} {conn : Connection} : s.conns[c]? = some conn →
      conn.stage.pending = true → Stepped s (s.giveUp c conn)
  | movedOn {c : ConnId} {conn : Connection} {stage : Stage} : s.conns[c]? = some conn →
      conn.stage.pending = true → stage ≠ .quic → Stepped s (s.setStage c stage)
  | startedMux {c : ConnId} {conn : Connection} : s.conns[c]? = some conn →
      conn.stage.pending = true → Stepped s (s.startMux c conn)
  | metQuic : Stepped s { s with conns := s.conns ++ [{ stage := .quic }] }
  | openedQuic {c : ConnId} {conn : Connection} : s.conns[c]? = some conn →
      conn.stage = .quic → Stepped s { s with muxes := s.muxes ++ [{ conn := c }] }
  | closedQuic (c : ConnId) : Stepped s (s.closeConn c)
  | openedControl {m : MuxId} {mux : MuxSession} : s.muxes[m]? = some mux →
      Stepped s (s.controlStream m)
  | served {server : Server} : ControlsKept s.server server → Stepped s { s with server }
  | stoppedControl {k : CtrlId} {cs : ControlSession} : s.server.controls k = some cs →
      Stepped s (s.stopControl k cs)
  | stoppedMux {m : MuxId} {mux : MuxSession} : s.muxes[m]? = some mux →
      Stepped s (s.stopMux m mux)
  | ticked (now : Time) : Stepped s { s with clock := now }
  | expired {t : TimerId} {timer : SteadyTimer} : s.timers[t]? = some timer →
      Stepped s (s.setTimer t .expired)
  | ranTimer {t : TimerId} {timer : SteadyTimer} {locked : Bool} : s.timers[t]? = some timer →
      s.lockable locked timer.target = true →
      Stepped s ((s.setTimer t .over).runHandler locked timer.target)

theorem stepped_peeked {conn : Connection} (hc : s.conns[c]? = some conn)
    (hpending : conn.stage.pending = true) (byte : Option Byte) :
    Stepped s (s.peeked c conn byte) := by
  cases byte with
  | none => exact .gaveUp hc hpending
  | some b =>
      rw [peeked]
      split
      · exact .gaveUp hc hpending
      split
      · exact .movedOn hc hpending (by simp)
      · exact .movedOn hc hpending (by simp)

theorem stepped_handshook {conn : Connection} (hc : s.conns[c]? = some conn)
    (hpending : conn.stage.pending = true) (ok : Bool) : Stepped s (s.handshook c conn ok) := by
  rw [handshook]
  split
  · split
    · exact .movedOn hc hpending (by simp)
    · exact .startedMux hc hpending
  · exact .gaveUp hc hpending

theorem stepped_firstRead {conn : Connection} (hc : s.conns[c]? = some conn)
    (hpending : conn.stage.pending = true) (byte : Option Byte) :
    Stepped s (s.firstRead c conn byte) := by
  cases byte with
  | none => exact .gaveUp hc hpending
  | some b =>
      rw [firstRead]
      split
      · exact .movedOn hc hpending (by simp)
      · exact .startedMux hc hpending

theorem stepped_upgraded {conn : Connection} (hc : s.conns[c]? = some conn)
    (hpending : conn.stage.pending = true) (ok : Bool) : Stepped s (s.upgraded c conn ok) := by
  rw [upgraded]
  split
  · exact .startedMux hc hpending
  · exact .gaveUp hc hpending

theorem stepped_of_step {e : Event} (hstep : s.step e = some s') : Stepped s s' := by
  cases e with
  | accept =>
      rw [← Option.some.inj hstep]
      exact .accepted
  | peeked c byte =>
      obtain ⟨conn, hw, rfl⟩ := Option.map_eq_some_iff.mp hstep
      obtain ⟨hc, hstage⟩ := waiting_eq hw
      exact stepped_peeked hc (by rw [hstage]; rfl) byte
  | handshook c ok =>
      obtain ⟨conn, hw, rfl⟩ := Option.map_eq_some_iff.mp hstep
      obtain ⟨hc, hstage⟩ := waiting_eq hw
      exact stepped_handshook hc (by rw [hstage]; rfl) ok
  | firstRead c byte =>
      obtain ⟨conn, hw, rfl⟩ := Option.map_eq_some_iff.mp hstep
      obtain ⟨hc, hstage⟩ := waiting_eq hw
      exact stepped_firstRead hc (by rw [hstage]; rfl) byte
  | upgraded c ok =>
      obtain ⟨conn, hw, rfl⟩ := Option.map_eq_some_iff.mp hstep
      obtain ⟨hc, hstage⟩ := waiting_eq hw
      exact stepped_upgraded hc (by rw [hstage]; rfl) ok
  | newQuic =>
      rw [step, Option.ite_none_right_eq_some] at hstep
      rw [← Option.some.inj hstep.2]
      exact .metQuic
  | quicStream c =>
      obtain ⟨conn, hw, rfl⟩ := Option.map_eq_some_iff.mp hstep
      obtain ⟨hc, hstage⟩ := waiting_eq hw
      exact .openedQuic hc hstage
  | quicClosed c =>
      obtain ⟨conn, hw, rfl⟩ := Option.map_eq_some_iff.mp hstep
      exact .closedQuic c
  | controlStream m =>
      obtain ⟨mux, hm, hstep⟩ := Option.bind_eq_some_iff.mp hstep
      split at hstep
      · cases hstep
      · rw [← Option.some.inj hstep]
        exact .openedControl hm
  | message k msg thrown =>
      obtain ⟨server, hserver, rfl⟩ := Option.map_eq_some_iff.mp hstep
      exact .served (message_kept hserver)
  | stop k =>
      obtain ⟨cs, hk, rfl⟩ := Option.map_eq_some_iff.mp hstep
      exact .stoppedControl hk
  | muxStop m =>
      obtain ⟨mux, hm, rfl⟩ := Option.map_eq_some_iff.mp hstep
      exact .stoppedMux hm
  | traffic e =>
      rw [step, Option.ite_none_right_eq_some] at hstep
      obtain ⟨server, hserver, rfl⟩ := Option.map_eq_some_iff.mp hstep.2
      exact .served (traffic_kept hstep.1 hserver)
  | tick now =>
      rw [step, Option.ite_none_right_eq_some] at hstep
      rw [← Option.some.inj hstep.2]
      exact .ticked now
  | expire t =>
      obtain ⟨timer, ht, hstep⟩ := Option.bind_eq_some_iff.mp hstep
      rw [Option.ite_none_right_eq_some] at hstep
      rw [← Option.some.inj hstep.2]
      exact .expired ht
  | runTimer t locked =>
      obtain ⟨timer, ht, hstep⟩ := Option.bind_eq_some_iff.mp hstep
      rw [Option.ite_none_right_eq_some] at hstep
      rw [← Option.some.inj hstep.2]
      exact .ranTimer ht hstep.1.2

/-! ## The invariant -/

/-- Nobody needs the timer of this target any more. -/
def Released (s : Frontend) : TimerTarget → Prop
  | .handshake c => ∀ conn : Connection, s.conns[c]? = some conn →
      conn.stage.pending = true → conn.closed = true
  | .auth k => ∀ cs, s.server.controls k = some cs → cs.authenticated = false →
      cs.stopped = false → k ∈ s.stops

/-- What the server owes a control session: its mux session, and a timer as long as
nobody has logged in. -/
structure ControlInv (s : Frontend) (k : CtrlId) (cs : ControlSession) : Prop where
  old : k < s.server.nextControl
  mux : ∃ mux, s.muxes[cs.muxSession]? = some mux ∧ (cs.stopped = true → mux.stopping = true)
  timer : cs.authenticated = false → cs.stopped = false → k ∈ s.stops ∨ ∃ t, s.Pending t (.auth k)

/-- **The invariant.** -/
structure ClockInv (s : Frontend) : Prop where
  conns : ∀ (c : ConnId) (conn : Connection), s.conns[c]? = some conn → conn.stage ≠ .quic →
    ∃ timer, s.timers[conn.timer]? = some timer ∧ timer.target = .handshake c ∧
      (conn.stage.pending = true → conn.closed = false → timer.state ≠ .over)
  muxes : ∀ (m : MuxId) (mux : MuxSession), s.muxes[m]? = some mux →
    ∃ conn : Connection, s.conns[mux.conn]? = some conn ∧ (conn.stage = .muxed ∨ conn.stage = .quic)
  controls : ∀ k cs, s.server.controls k = some cs → s.ControlInv k cs

theorem clockInv_init (token : String) (allowedPorts : List PortRange)
    (allowedClients : List String) (protocol : String) (sslEnable : Bool) :
    ClockInv (init token allowedPorts allowedClients protocol sslEnable) where
  conns c conn h := by cases h
  muxes m mux h := by cases h
  controls k cs h := by cases h

/-- A connection moves on without a mux session. -/
theorem ClockInv.modifyConn (h : ClockInv s) {conn : Connection} (hc : s.conns[c]? = some conn)
    {f : Connection → Connection} (htimer : (f conn).timer = conn.timer)
    (hquic : (f conn).stage = .quic ↔ conn.stage = .quic)
    (hmuxed : conn.stage = .muxed → (f conn).stage = .muxed)
    (hpending : (f conn).stage.pending = true → (f conn).closed = false →
      conn.stage.pending = true ∧ conn.closed = false) : ClockInv (s.modifyConn c f) where
  conns c' conn' hc' hstage := by
    rcases of_getElem?_modify hc hc' with ⟨rfl, rfl⟩ | ⟨-, hc'⟩
    · obtain ⟨timer, ht, htarget, hover⟩ := h.conns c' conn hc fun hq => hstage (hquic.mpr hq)
      refine ⟨timer, by rw [htimer]; exact ht, htarget, fun hp hcl => ?_⟩
      obtain ⟨hp', hcl'⟩ := hpending hp hcl
      exact hover hp' hcl'
    · exact h.conns c' conn' hc' hstage
  muxes m mux hm := by
    obtain ⟨conn', hc', hstage⟩ := h.muxes m mux hm
    show ∃ conn, (s.conns.modify c f)[mux.conn]? = some conn ∧ _
    rw [List.getElem?_modify]
    by_cases heq : c = mux.conn
    · subst heq
      rw [hc] at hc'
      cases hc'
      refine ⟨f conn, by simp [hc], ?_⟩
      exact hstage.imp hmuxed hquic.mpr
    · exact ⟨conn', by simp [heq, hc'], hstage⟩
  controls k cs hk := ⟨(h.controls k cs hk).old, (h.controls k cs hk).mux,
    (h.controls k cs hk).timer⟩

/-- A timer changes its state. It is over only when nobody needs it. -/
theorem ClockInv.modifyTimer (h : ClockInv s) {timer : SteadyTimer}
    (ht : s.timers[t]? = some timer) {f : SteadyTimer → SteadyTimer}
    (htarget : (f timer).target = timer.target)
    (hover : timer.state ≠ .over → (f timer).state = .over → s.Released timer.target) :
    ClockInv { s with timers := s.timers.modify t f } := by
  have hkept : ∀ (t' : TimerId) (timer' : SteadyTimer), s.timers[t']? = some timer' →
      ∃ timer'' : SteadyTimer, (s.timers.modify t f)[t']? = some timer'' ∧
        timer''.target = timer'.target ∧
        (timer'.state ≠ .over → timer''.state = .over → s.Released timer'.target) := by
    intro t' timer' ht'
    rw [List.getElem?_modify]
    by_cases heq : t = t'
    · subst heq
      rw [ht] at ht'
      cases ht'
      exact ⟨f timer, by simp [ht], htarget, hover⟩
    · exact ⟨timer', by simp [heq, ht'], rfl, fun hn ho => absurd ho hn⟩
  refine ⟨fun c conn hc hstage => ?_, h.muxes, fun k cs hk => ⟨(h.controls k cs hk).old,
    (h.controls k cs hk).mux, fun hauth hstop => ?_⟩⟩
  · obtain ⟨timer', ht', htarget', hneed⟩ := h.conns c conn hc hstage
    obtain ⟨timer'', ht'', heq, hrel⟩ := hkept _ _ ht'
    refine ⟨timer'', ht'', heq.trans htarget', fun hp hcl ho => ?_⟩
    have hreleased := hrel (hneed hp hcl) ho
    rw [htarget'] at hreleased
    rw [hreleased conn hc hp] at hcl
    cases hcl
  · rcases (h.controls k cs hk).timer hauth hstop with hposted | ⟨t', timer', ht', htarget', hneed⟩
    · exact Or.inl hposted
    · obtain ⟨timer'', ht'', heq, hrel⟩ := hkept _ _ ht'
      by_cases ho : timer''.state = .over
      · have hreleased := hrel hneed ho
        rw [htarget'] at hreleased
        exact Or.inl (hreleased cs hk hauth hstop)
      · exact Or.inr ⟨t', timer'', ht'', heq.trans htarget', ho⟩

/-- The timer of a connection is cancelled once its accept path is over. -/
theorem ClockInv.cancelTimer (h : ClockInv s) {conn : Connection} (hc : s.conns[c]? = some conn)
    (hquic : conn.stage ≠ .quic) (hover : conn.stage.pending = true → conn.closed = true) :
    ClockInv (s.cancelTimer conn.timer) := by
  obtain ⟨timer, ht, htarget, -⟩ := h.conns c conn hc hquic
  refine h.modifyTimer ht (f := SteadyTimer.cancel) ?_ fun _ _ => ?_
  · rw [SteadyTimer.cancel]
    split <;> rfl
  · rw [htarget]
    intro conn' hc' hp
    rw [hc] at hc'
    cases hc'
    exact hover hp

/-- A mux session is made on a connection whose accept path is over. -/
theorem ClockInv.addMux (h : ClockInv s) {conn : Connection} (hc : s.conns[c]? = some conn)
    (hstage : conn.stage = .muxed ∨ conn.stage = .quic) :
    ClockInv { s with muxes := s.muxes ++ [{ conn := c }] } where
  conns := h.conns
  muxes m mux hm := by
    rcases of_getElem?_concat hm with hm | ⟨-, rfl⟩
    · exact h.muxes m mux hm
    · exact ⟨conn, hc, hstage⟩
  controls k cs hk := by
    have hold := h.controls k cs hk
    obtain ⟨mux, hm, hstop⟩ := hold.mux
    exact ⟨hold.old, ⟨mux, getElem?_concat_of_some hm, hstop⟩, hold.timer⟩

/-- Mux sessions are told to stop. -/
theorem ClockInv.setMuxes (h : ClockInv s) {muxes : List MuxSession}
    (hback : ∀ (m : MuxId) (mux' : MuxSession), muxes[m]? = some mux' →
      ∃ mux : MuxSession, s.muxes[m]? = some mux ∧ mux'.conn = mux.conn)
    (hforth : ∀ (m : MuxId) (mux : MuxSession), s.muxes[m]? = some mux →
      ∃ mux' : MuxSession, muxes[m]? = some mux' ∧ (mux.stopping = true → mux'.stopping = true)) :
    ClockInv { s with muxes } where
  conns := h.conns
  muxes m mux' hm := by
    obtain ⟨mux, hm, hconn⟩ := hback m mux' hm
    rw [hconn]
    exact h.muxes m mux hm
  controls k cs hk := by
    have hold := h.controls k cs hk
    obtain ⟨mux, hm, hstop⟩ := hold.mux
    obtain ⟨mux', hm', hstop'⟩ := hforth _ _ hm
    exact ⟨hold.old, ⟨mux', hm', fun hs => hstop' (hstop hs)⟩, hold.timer⟩

/-- Control sessions read messages. -/
theorem ClockInv.setServer (h : ClockInv s) {server : Server}
    (hkept : ControlsKept s.server server) : ClockInv { s with server } where
  conns := h.conns
  muxes := h.muxes
  controls k cs' hk := by
    obtain ⟨cs, hk, hmux, hstopped, hauth⟩ := hkept.back k cs' hk
    have hold := h.controls k cs hk
    refine ⟨?_, ?_, fun ha hs => hold.timer ?_ (hstopped ▸ hs)⟩
    · show k < server.nextControl
      rw [hkept.next]
      exact hold.old
    · rw [hmux, hstopped]
      exact hold.mux
    · cases hcs : cs.authenticated with
      | false => rfl
      | true =>
          rw [hauth hcs] at ha
          cases ha

theorem ClockInv.startTimer (h : ClockInv s) (after : Time) (target : TimerTarget) :
    ClockInv (s.startTimer after target) where
  conns c conn hc hstage := by
    obtain ⟨timer, ht, hrest⟩ := h.conns c conn hc hstage
    exact ⟨timer, getElem?_concat_of_some ht, hrest⟩
  muxes := h.muxes
  controls k cs hk := by
    have hold := h.controls k cs hk
    refine ⟨hold.old, hold.mux, fun ha hs => (hold.timer ha hs).imp id ?_⟩
    rintro ⟨t, timer, ht, hrest⟩
    exact ⟨t, timer, getElem?_concat_of_some ht, hrest⟩

/-- A new connection. -/
theorem ClockInv.addConn (h : ClockInv s) {conn : Connection}
    (htimer : conn.stage ≠ .quic → ∃ timer, s.timers[conn.timer]? = some timer ∧
      timer.target = .handshake s.conns.length ∧ timer.state ≠ .over) :
    ClockInv { s with conns := s.conns ++ [conn] } where
  conns c conn' hc hstage := by
    rcases of_getElem?_concat hc with hc | ⟨rfl, rfl⟩
    · exact h.conns c conn' hc hstage
    · obtain ⟨timer, ht, htarget, hover⟩ := htimer hstage
      exact ⟨timer, ht, htarget, fun _ _ => hover⟩
  muxes m mux hm := by
    obtain ⟨conn', hc, hstage⟩ := h.muxes m mux hm
    exact ⟨conn', getElem?_concat_of_some hc, hstage⟩
  controls k cs hk := ⟨(h.controls k cs hk).old, (h.controls k cs hk).mux,
    (h.controls k cs hk).timer⟩

/-! ## Steps -/

theorem getElem?_modifyConn {conn : Connection} (hc : s.conns[c]? = some conn)
    (f : Connection → Connection) : (s.modifyConn c f).conns[c]? = some (f conn) := by
  show (s.conns.modify c f)[c]? = _
  simp [hc]

theorem pending_ne_quic {stage : Stage} (h : stage.pending = true) : stage ≠ .quic := by
  rintro rfl
  cases h

theorem pending_ne_muxed {stage : Stage} (h : stage.pending = true) : stage ≠ .muxed := by
  rintro rfl
  cases h

theorem ClockInv.closeConn (h : ClockInv s) (c : ConnId) : ClockInv (s.closeConn c) := by
  cases hc : s.conns[c]? with
  | none =>
      have hsame : s.closeConn c = s := by
        rw [Frontend.closeConn, Frontend.modifyConn, List.modify_eq_set_getElem?, hc]
        rfl
      rw [hsame]
      exact h
  | some conn => exact h.modifyConn hc rfl Iff.rfl id fun _ hcl => by cases hcl

theorem ClockInv.setStage (h : ClockInv s) {conn : Connection} (hc : s.conns[c]? = some conn)
    (hpending : conn.stage.pending = true) (stage : Stage) (hquic : stage ≠ .quic) :
    ClockInv (s.setStage c stage) :=
  h.modifyConn hc rfl ⟨fun hq => absurd hq hquic, fun hq => absurd hq (pending_ne_quic hpending)⟩
    (fun hm => absurd hm (pending_ne_muxed hpending)) fun _ hcl => ⟨hpending, hcl⟩

theorem ClockInv.giveUp (h : ClockInv s) {conn : Connection} (hc : s.conns[c]? = some conn)
    (hpending : conn.stage.pending = true) : ClockInv (s.giveUp c conn) := by
  have hclosed := getElem?_modifyConn hc fun conn => { conn with closed := true }
  have hdropped : ((s.closeConn c).setStage c .dropped).conns[c]? =
      some { conn with stage := .dropped, closed := true } :=
    getElem?_modifyConn (s := s.closeConn c) hclosed fun conn => { conn with stage := .dropped }
  have hinv := (h.closeConn c).setStage hclosed hpending .dropped (by simp)
  have hcancelled := hinv.cancelTimer hdropped (by simp) fun _ => rfl
  exact hcancelled

theorem ClockInv.startMux (h : ClockInv s) {conn : Connection} (hc : s.conns[c]? = some conn)
    (hpending : conn.stage.pending = true) : ClockInv (s.startMux c conn) := by
  have hmuxed := getElem?_modifyConn hc fun conn => { conn with stage := .muxed }
  have hinv := h.setStage hc hpending .muxed (by simp)
  have hcancelled := hinv.cancelTimer hmuxed (by simp) fun hp => by cases hp
  exact hcancelled.addMux hmuxed (Or.inl rfl)

theorem ClockInv.accept (h : ClockInv s) : ClockInv s.accept := by
  have hstarted := h.startTimer handshakeTimeout (.handshake s.conns.length)
  refine hstarted.addConn fun _ => ?_
  exact ⟨_, List.getElem?_concat_length, rfl, by simp⟩

theorem ClockInv.controlStream (h : ClockInv s) {mux : MuxSession} (hm : s.muxes[m]? = some mux) :
    ClockInv (s.controlStream m) := by
  have hstarted := h.startTimer authTimeout (.auth s.server.nextControl)
  refine ⟨hstarted.conns, h.muxes, fun k cs hk => ?_⟩
  rcases Server.controls_update_cases (s := s.server) (c := s.server.nextControl) rfl hk with
    ⟨rfl, rfl⟩ | ⟨-, hk⟩
  · refine ⟨Nat.lt_succ_self _, ⟨mux, hm, fun hs => by cases hs⟩, fun _ _ => Or.inr ?_⟩
    exact ⟨s.timers.length, _, List.getElem?_concat_length, rfl, by simp⟩
  · have hold := hstarted.controls k cs hk
    exact ⟨Nat.lt_succ_of_lt hold.old, hold.mux, hold.timer⟩

theorem ClockInv.stopControl (h : ClockInv s) {cs : ControlSession}
    (hk : s.server.controls k = some cs) : ClockInv (s.stopControl k cs) := by
  have hmuxes : ClockInv { s with
      muxes := s.muxes.modify cs.muxSession fun mux => { mux with stopping := true } } := by
    obtain ⟨mux, hm, -⟩ := (h.controls k cs hk).mux
    refine h.setMuxes (fun m mux' hm' => ?_) fun m mux' hm' => ?_
    · rcases of_getElem?_modify hm hm' with ⟨rfl, rfl⟩ | ⟨-, hm'⟩
      · exact ⟨mux, hm, rfl⟩
      · exact ⟨mux', hm', rfl⟩
    · rw [List.getElem?_modify, hm']
      exact ⟨_, rfl, fun hs => by dsimp only; split <;> simp [hs]⟩
  refine ⟨hmuxes.conns, hmuxes.muxes, fun k' cs' hk' => ?_⟩
  have hstop : (s.stopControl k cs).server = ControlSession.stop s.server k cs := rfl
  rw [hstop, ControlSession.stop_eq] at hk'
  have hnext : (s.stopControl k cs).server.nextControl = s.server.nextControl := by
    rw [hstop, ControlSession.stop_eq]
  rcases Server.controls_update_cases (s := s.server) (c := k) rfl hk' with ⟨rfl, rfl⟩ | ⟨-, hk'⟩
  · obtain ⟨mux, hm, -⟩ := (h.controls k' cs hk).mux
    refine ⟨hnext ▸ (h.controls k' cs hk).old, ⟨{ mux with stopping := true }, ?_, fun _ => rfl⟩,
      fun _ hs => by cases hs⟩
    show (s.muxes.modify cs.muxSession _)[cs.muxSession]? = _
    simp [hm]
  · have hold := hmuxes.controls k' cs' hk'
    exact ⟨hnext ▸ hold.old, hold.mux, hold.timer⟩

theorem ClockInv.stopMux (h : ClockInv s) {mux : MuxSession} (hm : s.muxes[m]? = some mux) :
    ClockInv (s.stopMux m mux) := by
  have hmuxes : ClockInv
      { s with muxes := s.muxes.set m { mux with stopping := true, stopped := true } } := by
    refine h.setMuxes (fun m' mux' hm' => ?_) fun m' mux' hm' => ?_
    · rw [List.getElem?_set] at hm'
      split at hm'
      · rename_i heq
        split at hm'
        · cases hm'
          exact ⟨mux, heq ▸ hm, rfl⟩
        · cases hm'
      · exact ⟨mux', hm', rfl⟩
    · rw [List.getElem?_set]
      split
      · rename_i heq
        rw [if_pos (heq ▸ (List.getElem?_eq_some_iff.mp hm').1)]
        exact ⟨_, rfl, fun _ => rfl⟩
      · exact ⟨mux', hm', id⟩
  rw [Frontend.stopMux]
  split
  · split
    · exact hmuxes
    · exact hmuxes.closeConn mux.conn
  · exact hmuxes

theorem getElem?_setTimer {timer : SteadyTimer} (ht : s.timers[t]? = some timer)
    (state : TimerState) : (s.setTimer t state).timers[t]? = some { timer with state } := by
  show (s.timers.modify t _)[t]? = _
  simp [ht]

/-- What a handler does, it does not do to timers, and it does not depend on them. -/
theorem runHandler_setTimer (t : TimerId) (state : TimerState) (locked : Bool)
    (target : TimerTarget) : (s.setTimer t state).runHandler locked target =
      (s.runHandler locked target).setTimer t state := by
  cases target with
  | handshake c =>
      show (if s.holdsState c then _ else _) = setTimer (if s.holdsState c then _ else _) t state
      cases s.holdsState c <;> rfl
  | auth k =>
      show (if s.awaitsLogin locked k then _ else _) =
        setTimer (if s.awaitsLogin locked k then _ else _) t state
      cases s.awaitsLogin locked k <;> rfl

theorem runHandler_timers (locked : Bool) (target : TimerTarget) :
    (s.runHandler locked target).timers = s.timers := by
  cases target <;> rw [runHandler] <;> split <;> rfl

theorem ClockInv.runHandler (h : ClockInv s) (locked : Bool) (target : TimerTarget) :
    ClockInv (s.runHandler locked target) := by
  cases target with
  | handshake c =>
      rw [Frontend.runHandler]
      split
      · exact h.closeConn c
      · exact h
  | auth k =>
      rw [Frontend.runHandler]
      split
      · refine ⟨h.conns, h.muxes, fun k' cs' hk' => ?_⟩
        have hold := h.controls k' cs' hk'
        exact ⟨hold.old, hold.mux, fun ha hs => (hold.timer ha hs).imp (List.mem_append_left _) id⟩
      · exact h

theorem holdsState_iff : s.holdsState c = true ↔
    ∃ conn, s.conns[c]? = some conn ∧ conn.stage.pending = true := by
  rw [holdsState]
  cases s.conns[c]? with
  | none => simp
  | some conn => simp

theorem awaitsLogin_of {locked : Bool} {cs : ControlSession} (hk : s.server.controls k = some cs)
    (hlocked : s.lockable locked (.auth k) = true) (hauth : cs.authenticated = false)
    (hstop : cs.stopped = false) : s.awaitsLogin locked k = true := by
  rw [lockable, hk] at hlocked
  have hl : locked = true := by simpa [hstop] using hlocked
  rw [awaitsLogin, hk]
  simp [hl, hauth]

/-- After its handler, nobody needs a timer. -/
theorem released_runHandler {locked : Bool} {target : TimerTarget}
    (hlocked : s.lockable locked target = true) : (s.runHandler locked target).Released target := by
  cases target with
  | handshake c =>
      intro conn hc hp
      rw [runHandler] at hc
      split at hc
      · rename_i hheld
        obtain ⟨conn₀, hc₀, -⟩ := holdsState_iff.mp hheld
        rw [closeConn, getElem?_modifyConn hc₀] at hc
        cases hc
        rfl
      · rename_i hfree
        exact absurd (holdsState_iff.mpr ⟨conn, hc, hp⟩) hfree
  | auth k =>
      intro cs hk hauth hstop
      have hserver : (s.runHandler locked (.auth k)).server = s.server := by
        rw [runHandler]
        split <;> rfl
      rw [hserver] at hk
      rw [runHandler, if_pos (awaitsLogin_of hk hlocked hauth hstop)]
      exact List.mem_append_right _ List.mem_cons_self

/-- **One step.** -/
theorem clockInv_step {e : Event} (h : ClockInv s) (hstep : s.step e = some s') :
    ClockInv s' := by
  cases stepped_of_step hstep with
  | accepted => exact h.accept
  | gaveUp hc hpending => exact h.giveUp hc hpending
  | movedOn hc hpending hquic => exact h.setStage hc hpending _ hquic
  | startedMux hc hpending => exact h.startMux hc hpending
  | metQuic => exact h.addConn fun hq => absurd rfl hq
  | openedQuic hc hstage => exact h.addMux hc (Or.inr hstage)
  | closedQuic c => exact h.closeConn c
  | openedControl hm => exact h.controlStream hm
  | served hkept => exact h.setServer hkept
  | stoppedControl hk => exact h.stopControl hk
  | stoppedMux hm => exact h.stopMux hm
  | ticked now =>
      exact ⟨h.conns, h.muxes, fun k cs hk => ⟨(h.controls k cs hk).old, (h.controls k cs hk).mux,
        (h.controls k cs hk).timer⟩⟩
  | expired ht => exact h.modifyTimer ht rfl fun _ ho => by cases ho
  | @ranTimer t timer locked ht hlocked =>
      rw [runHandler_setTimer]
      have ht' : (s.runHandler locked timer.target).timers[t]? = some timer := by
        rw [runHandler_timers]
        exact ht
      -- the handler has run by the time its timer is over
      exact (h.runHandler locked timer.target).modifyTimer ht' rfl
        fun _ _ => released_runHandler hlocked

/-! ## Deadlines -/

theorem deadline_cancel (timer : SteadyTimer) : timer.cancel.deadline = timer.deadline := by
  rw [SteadyTimer.cancel]
  split <;> rfl

theorem timers_stopMux (s : Frontend) (m : MuxId) (mux : MuxSession) :
    (s.stopMux m mux).timers = s.timers := by
  rw [stopMux]
  split
  · split <;> rfl
  · rfl

/-- The timers a step leaves: one may have changed its state, or there is a new one. -/
theorem step_timers {e : Event} (hstep : s.step e = some s') :
    s'.timers = s.timers ∨
    (∃ t f, s'.timers = s.timers.modify t f ∧ ∀ timer, (f timer).deadline = timer.deadline) ∨
    ∃ timer, s'.timers = s.timers ++ [timer] := by
  cases stepped_of_step hstep with
  | accepted | openedControl => exact Or.inr (Or.inr ⟨_, rfl⟩)
  | gaveUp | startedMux => exact Or.inr (Or.inl ⟨_, _, rfl, deadline_cancel⟩)
  | movedOn | metQuic | openedQuic | closedQuic | served | stoppedControl | ticked =>
      exact Or.inl rfl
  | stoppedMux => exact Or.inl (timers_stopMux s _ _)
  | expired => exact Or.inr (Or.inl ⟨_, _, rfl, fun _ => rfl⟩)
  | ranTimer =>
      rw [runHandler_timers]
      exact Or.inr (Or.inl ⟨_, _, rfl, fun _ => rfl⟩)

/-- No step moves a deadline. -/
theorem step_deadline {e : Event} (hstep : s.step e = some s') {timer : SteadyTimer}
    (ht : s.timers[t]? = some timer) :
    ∃ timer' : SteadyTimer, s'.timers[t]? = some timer' ∧ timer'.deadline = timer.deadline := by
  rcases step_timers hstep with heq | ⟨t', f, heq, hf⟩ | ⟨new, heq⟩
  · rw [heq]
    exact ⟨timer, ht, rfl⟩
  · rw [heq, List.getElem?_modify, ht]
    refine ⟨_, rfl, ?_⟩
    dsimp only
    split
    · exact hf timer
    · rfl
  · rw [heq]
    exact ⟨timer, getElem?_concat_of_some ht, rfl⟩

/-! ## Expiry -/

/-- The state once the timer has expired and its handler has run. -/
def afterExpiry (s : Frontend) (t : TimerId) (locked : Bool) (target : TimerTarget) : Frontend :=
  ((s.runHandler locked target).setTimer t .expired).setTimer t .over

theorem step_expired {timer : SteadyTimer} (ht : s.timers[t]? = some timer) (locked : Bool) :
    (s.setTimer t .expired).step (.runTimer t locked) =
      if s.lockable locked timer.target then some (s.afterExpiry t locked timer.target)
      else none := by
  rw [step, getElem?_setTimer ht, Option.bind_some, runHandler_setTimer, runHandler_setTimer]
  simp only [true_and]
  rfl

theorem closing_afterExpiry {locked : Bool} {target : TimerTarget} :
    (s.afterExpiry t locked target).Closing c ↔ (s.runHandler locked target).Closing c := Iff.rfl

/-- Closing the socket of one connection closes no other. -/
theorem closing_closeConn {c₀ : ConnId} (h : (s.closeConn c₀).Closing c) :
    c = c₀ ∨ s.Closing c := by
  by_cases heq : c = c₀
  · exact Or.inl heq
  · have hconns : (s.closeConn c₀).conns[c]? = s.conns[c]? := by
      show (s.conns.modify c₀ _)[c]? = _
      rw [List.getElem?_modify]
      simp [Ne.symm heq]
    have hcarries : ∀ m, (s.closeConn c₀).Carries c m → s.Carries c m := by
      rintro m ⟨mux, conn, hm, hconn, hc, hquic⟩
      exact ⟨mux, conn, hm, hconn, hconns ▸ hc, hquic⟩
    refine Or.inr ?_
    rcases h with ⟨conn, hc, hcl⟩ | ⟨m, mux, hm, hrest⟩ | ⟨k, cs, hk, hcs, hm⟩
    · exact Or.inl ⟨conn, hconns ▸ hc, hcl⟩
    · exact Or.inr (Or.inl ⟨m, mux, hcarries m hm, hrest⟩)
    · exact Or.inr (Or.inr ⟨k, cs, hk, hcs, hcarries _ hm⟩)

/-- A connection that has a control session, and is no QUIC session, carries it. -/
theorem HasControl.carries {cs : ControlSession} (h : s.HasControl c k cs) {conn : Connection}
    (hc : s.conns[c]? = some conn) (hquic : conn.stage ≠ .quic) : s.Carries c cs.muxSession := by
  obtain ⟨-, mux, hm, hconn⟩ := h
  exact ⟨mux, conn, hm, hconn, hc, hquic⟩

/-- A timer whose handler closes a connection stands at a stage that is watched. -/
theorem watched_of_expiry (h : ClockInv s) (hopen : ¬s.Closing c) {locked : Bool}
    {target : TimerTarget} (hclosing : (s.runHandler locked target).Closing c) : s.Watched c := by
  cases target with
  | handshake c₀ =>
      rw [runHandler] at hclosing
      split at hclosing
      · rename_i hheld
        rcases closing_closeConn hclosing with rfl | hold
        · obtain ⟨conn, hc, hp⟩ := holdsState_iff.mp hheld
          exact ⟨conn, hc, Or.inl hp⟩
        · exact absurd hold hopen
      · exact absurd hclosing hopen
  | auth k =>
      rw [runHandler] at hclosing
      split at hclosing
      · rcases hclosing with hcl | hcl | ⟨k', cs, hk', hcs, hm⟩
        · exact absurd (Or.inl hcl) hopen
        · exact absurd (Or.inr (Or.inl hcl)) hopen
        · rcases List.mem_append.mp hk' with hk' | hk'
          · exact absurd (Or.inr (Or.inr ⟨k', cs, hk', hcs, hm⟩)) hopen
          · -- the `Stop` just posted is that of a session on this connection
            obtain ⟨mux, conn, hmux, hconn, hc, hquic⟩ := hm
            obtain ⟨conn', hc', hstage⟩ := h.muxes _ mux hmux
            rw [hconn] at hc'
            obtain rfl : conn = conn' := Option.some.inj (hc.symm.trans hc')
            exact ⟨conn, hc, Or.inr ⟨hstage.resolve_right hquic, k', cs, hcs, mux, hmux, hconn⟩⟩
      · exact absurd hclosing hopen

/-- **Who is on a clock.** -/
theorem onClock_iff (h : ClockInv s) (hopen : ¬s.Closing c) (hnew : ¬s.LoggedIn c) :
    s.OnClock c ↔ s.Watched c := by
  constructor
  · rintro ⟨t, timer, ht, -, hcloses, -⟩
    have hlockable : s.lockable true timer.target = true := by
      cases timer.target with
      | handshake c => rfl
      | auth k =>
          rw [lockable]
          cases s.server.controls k <;> simp
    have hstep := step_expired ht true
    rw [if_pos hlockable] at hstep
    exact watched_of_expiry h hopen (closing_afterExpiry.mp (hcloses true _ hstep))
  · rintro ⟨conn, hc, hp | ⟨hmuxed, k, cs, hcontrol⟩⟩
    · have hcl : conn.closed = false := by
        cases hcl : conn.closed with
        | false => rfl
        | true => exact absurd (Or.inl ⟨conn, hc, hcl⟩) hopen
      obtain ⟨timer, ht, htarget, hover⟩ := h.conns c conn hc (pending_ne_quic hp)
      refine ⟨conn.timer, timer, ht, hover hp hcl, fun locked s' hstep => ?_,
        fun e s' hstep => step_deadline hstep ht⟩
      rw [step_expired ht, Option.ite_none_right_eq_some] at hstep
      rw [← Option.some.inj hstep.2, closing_afterExpiry, htarget, runHandler,
        if_pos (holdsState_iff.mpr ⟨conn, hc, hp⟩)]
      exact Or.inl ⟨_, getElem?_modifyConn hc _, rfl⟩
    · have hcarries := hcontrol.carries hc (by rw [hmuxed]; simp)
      have hold := h.controls k cs hcontrol.1
      have hauth : cs.authenticated = false := by
        cases ha : cs.authenticated with
        | false => rfl
        | true => exact absurd ⟨k, cs, hcontrol, ha⟩ hnew
      have hstop : cs.stopped = false := by
        cases hs : cs.stopped with
        | false => rfl
        | true =>
            obtain ⟨mux, hm, hstopping⟩ := hold.mux
            exact absurd (Or.inr (Or.inl ⟨_, mux, hcarries, hm, hstopping hs⟩)) hopen
      rcases hold.timer hauth hstop with hposted | ⟨t, timer, ht, htarget, hover⟩
      · exact absurd (Or.inr (Or.inr ⟨k, cs, hposted, hcontrol.1, hcarries⟩)) hopen
      · refine ⟨t, timer, ht, hover, fun locked s' hstep => ?_,
          fun e s' hstep => step_deadline hstep ht⟩
        rw [step_expired ht, Option.ite_none_right_eq_some, htarget] at hstep
        rw [← Option.some.inj hstep.2, closing_afterExpiry, runHandler,
          if_pos (awaitsLogin_of hcontrol.1 hstep.1 hauth hstop)]
        exact Or.inr (Or.inr ⟨k, cs, List.mem_append_right _ List.mem_cons_self,
          hcontrol.1, hcarries⟩)

/-! ## Runs -/

section

variable {token : String} {allowedPorts : List PortRange} {allowedClients : List String}
  {protocol : String} {sslEnable : Bool}

theorem clockInv_of_reach
    (h : Reach step anyStep (init token allowedPorts allowedClients protocol sslEnable) s) :
    ClockInv s :=
  h.invariant (clockInv_init token allowedPorts allowedClients protocol sslEnable)
    fun _ _ _ hinv _ hstep => clockInv_step hinv hstep

/-- **Unauthenticated connections and their clock.** In every reachable state, an open
connection on which nobody has logged in is on a clock if and only if the server is
still on the accept path with it, or it is a TCP connection whose stream 1 was opened. -/
theorem on_clock_iff_watched
    (h : Reach step anyStep (init token allowedPorts allowedClients protocol sslEnable) s)
    (hopen : ¬s.Closing c) (hnew : ¬s.LoggedIn c) : s.OnClock c ↔ s.Watched c :=
  onClock_iff (clockInv_of_reach h) hopen hnew

end

/-- No control session object exists. -/
theorem not_loggedIn_of_none (h : ∀ k, s.server.controls k = none) : ¬s.LoggedIn c := by
  rintro ⟨k, cs, ⟨hk, -⟩, -⟩
  rw [h k] at hk
  cases hk

/-- A connection on a server where nothing was stopped. -/
theorem not_closing_of {conn : Connection} (hc : s.conns[c]? = some conn)
    (hclosed : conn.closed = false) (hmuxes : ∀ mux ∈ s.muxes, mux.stopping = false)
    (hstops : s.stops = []) : ¬s.Closing c := by
  rintro (⟨conn', hc', hcl⟩ | ⟨m, mux, -, hm, hstop⟩ | ⟨k, cs, hk, -⟩)
  · rw [hc] at hc'
    cases hc'
    rw [hclosed] at hcl
    cases hcl
  · rw [hmuxes mux (List.mem_of_getElem? hm)] at hstop
    cases hstop
  · rw [hstops] at hk
    cases hk

/-- A TLS connection whose client says nothing is on its clock. -/
theorem on_clock_stalledTls : ∃ s : Frontend,
    Reach step anyStep (init "token" [] [] "auto" true) s ∧ s.OnClock 0 := by
  obtain ⟨s, hs, hobs⟩ := exists_of_runAll step
    [.accept, .tick 1000000000, .peeked 0 (some 0x16), .tick 2000000000]
    (fun s => (s.conns, s.muxes, s.stops, s.server.controls))
    (s := init "token" [] [] "auto" true)
    (a := ([{ stage := .handshaking }], [], [], fun _ => none)) rfl
  simp only [Prod.mk.injEq] at hobs
  obtain ⟨hconns, hmuxes, hstops, hcontrols⟩ := hobs
  have hc : s.conns[0]? = some { stage := .handshaking } := by rw [hconns]; rfl
  have hopen : ¬s.Closing 0 := not_closing_of hc rfl (by rw [hmuxes]; simp) hstops
  have hnew : ¬s.LoggedIn 0 := not_loggedIn_of_none fun k => by rw [hcontrols]
  exact ⟨s, hs, (on_clock_iff_watched hs hopen hnew).mpr ⟨_, hc, Or.inl rfl⟩⟩

/-- **No clock.** A client that completes the handshake and opens no stream is still
connected after an hour, and no timer is left. -/
theorem no_clock_loginless : ∃ s : Frontend,
    Reach step anyStep (init "token" [] [] "tcp" true) s ∧
    s.conns[0]? = some { stage := .muxed } ∧ s.clock = 3600000000000 ∧
    ¬s.Closing 0 ∧ ¬s.LoggedIn 0 ∧ ¬s.OnClock 0 := by
  obtain ⟨s, hs, hobs⟩ := exists_of_runAll step
    [.accept, .peeked 0 (some 0x16), .tick 1000000000, .handshook 0 true, .tick 3600000000000]
    (fun s => (s.conns, s.muxes, s.stops, s.server.controls, s.timers, s.clock))
    (s := init "token" [] [] "tcp" true)
    (a := ([{ stage := .muxed }], [{ conn := 0 }], [], fun _ => none,
      [{ deadline := 3000000000, state := .over, target := .handshake 0 }], 3600000000000)) rfl
  simp only [Prod.mk.injEq] at hobs
  obtain ⟨hconns, hmuxes, hstops, hcontrols, htimers, hclock⟩ := hobs
  have hc : s.conns[0]? = some { stage := .muxed } := by rw [hconns]; rfl
  refine ⟨s, hs, hc, hclock, not_closing_of hc rfl (by rw [hmuxes]; simp) hstops,
    not_loggedIn_of_none fun k => by rw [hcontrols], ?_⟩
  rintro ⟨t, timer, ht, hover, -⟩
  rw [htimers] at ht
  obtain rfl := List.mem_singleton.mp (List.mem_of_getElem? ht)
  exact hover rfl

end Frontend

end Cfrp
