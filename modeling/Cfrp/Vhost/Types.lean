import Cfrp.Server.Ownership
import Cfrp.Vhost.Accept

/-!
# One route table for two types

`vhost_routes_` is keyed by the domain alone, and the read handler does not compare the type
that is stored with a route to the type of its port. So a request goes where the last
registration that named its domain says, of whatever type that is, until a session that has
the domain stops. `inForce` is this registration, computed from what the sessions did and not
from the table.
-/

namespace Cfrp

open Lib Protocol ControlSession Vhost

/-- A registration of an `http` or `https` proxy, with the domains it routed: all of its own
if it was accepted, and those before the exception if not. -/
structure Registration where
  session : CtrlId
  proxyName : String
  type : String
  domains : List String
  deriving DecidableEq

def Registration.route (reg : Registration) : VhostRoute := ⟨reg.session, reg.proxyName, reg.type⟩

/-- What matters to the routes, the newest first. -/
inductive VhostRecord where
  | registered (reg : Registration)
  | stopped (c : CtrlId)

/-- The registrations of the sessions that have not stopped since. -/
def liveRegistrations : List VhostRecord → List Registration
  | [] => []
  | .registered reg :: history => reg :: liveRegistrations history
  | .stopped c :: history => (liveRegistrations history).filter fun reg => reg.session ≠ c

/-- The last registration of the domain, unless a session that had registered the domain too
has stopped after it. -/
def inForce (domain : String) : List VhostRecord → Option Registration
  | [] => none
  | .registered reg :: history =>
      if domain ∈ reg.domains then some reg else inForce domain history
  | .stopped c :: history =>
      if ∃ reg ∈ liveRegistrations history, reg.session = c ∧ domain ∈ reg.domains then none
      else inForce domain history

/-- The server, and what its sessions did. -/
structure VhostRun where
  server : Server
  history : List VhostRecord

namespace VhostRun

/-- What a handler adds to the history. -/
def recorded (s : Server) : Server.Event → List VhostRecord
  | .message c (.registerProxy m) thrown =>
      match s.controls c with
      | none => []
      | some cs =>
          if cs.authenticated && isVhostType (typeOf m) then
            [.registered ⟨c, m.name, typeOf m, routedDomains m thrown⟩]
          else []
  | .stop c => [.stopped c]
  | _ => []

def step (r : VhostRun) (e : Server.Event) : Option VhostRun :=
  (r.server.step e).map fun s => ⟨s, recorded r.server e ++ r.history⟩

/-- Vhost registrations come from sessions that have not stopped. -/
def registersLive (r : VhostRun) : Server.Event → Bool
  | .message c (.registerProxy m) _ =>
      !isVhostType (typeOf m) || (r.server.controls c).all fun cs => !cs.stopped
  | _ => true

/-- A live session locks: its own read handler holds it. -/
def Locks (r : VhostRun) (locked : CtrlId → Bool) : Prop :=
  ∀ c cs, r.server.controls c = some cs → cs.stopped = false → locked c = true

/-- A connection on the port of this type with these first bytes goes to a live registration
of its domain with this type if there is one, and never to one of another type. -/
def RespectsType (r : VhostRun) (locked : CtrlId → Bool) (type : String) (data : List Byte) :
    Prop :=
  (∀ reg ∈ liveRegistrations r.history, reg.type = type → domainOf type data ∈ reg.domains →
    ∃ reg' ∈ liveRegistrations r.history, reg'.type = type ∧ domainOf type data ∈ reg'.domains ∧
      r.server.vhostTarget locked (domainOf type data) = some reg'.route) ∧
  ∀ route, r.server.vhostTarget locked (domainOf type data) = some route → route.type = type

end VhostRun

/-! ## The history and the table -/

/-- What is in force is live. -/
theorem mem_of_inForce {domain : String} {reg : Registration} :
    ∀ {history : List VhostRecord}, inForce domain history = some reg →
      reg ∈ liveRegistrations history ∧ domain ∈ reg.domains
  | [], h => absurd h (by simp [inForce])
  | .registered new :: history, h => by
      unfold inForce at h
      split at h
      · rename_i hnew
        obtain rfl := Option.some.inj h
        exact ⟨List.mem_cons_self, hnew⟩
      · obtain ⟨hlive, hdomain⟩ := mem_of_inForce h
        exact ⟨List.mem_cons_of_mem _ hlive, hdomain⟩
  | .stopped c :: history, h => by
      unfold inForce at h
      split at h
      · exact absurd h (by simp)
      · rename_i hnone
        obtain ⟨hlive, hdomain⟩ := mem_of_inForce h
        refine ⟨List.mem_filter.mpr ⟨hlive, ?_⟩, hdomain⟩
        exact decide_eq_true fun heq => hnone ⟨reg, hlive, heq, hdomain⟩

namespace VhostRun

/-- The table holds what is in force, and every session its own domains. -/
structure Recorded (r : VhostRun) : Prop where
  owned : r.server.Owned
  routes : ∀ d, r.server.vhostRoutes.lookup d = (inForce d r.history).map Registration.route
  domains : ∀ c cs, r.server.controls c = some cs → ∀ d,
    d ∈ cs.registeredDomains ↔
      ∃ reg ∈ liveRegistrations r.history, reg.session = c ∧ d ∈ reg.domains
  running : ∀ reg ∈ liveRegistrations r.history,
    ∃ cs, r.server.controls reg.session = some cs ∧ cs.stopped = false

/-- Nothing changed that the history is about. -/
theorem Recorded.same {r : VhostRun} (h : r.Recorded) {s : Server} (howned : s.Owned)
    (hroutes : s.vhostRoutes = r.server.vhostRoutes)
    (hcontrols : s.controls = r.server.controls) : Recorded ⟨s, r.history⟩ where
  owned := howned
  routes d := by
    show s.vhostRoutes.lookup d = _
    rw [hroutes]
    exact h.routes d
  domains c cs hc := h.domains c cs (hcontrols ▸ hc)
  running reg hreg := by
    show ∃ cs, s.controls reg.session = some cs ∧ _
    rw [hcontrols]
    exact h.running reg hreg

/-- A handler replaced its session object, and kept the domains. -/
theorem Recorded.update {r : VhostRun} (h : r.Recorded) {s : Server} {c : CtrlId}
    {cs cs' : ControlSession} (hc : r.server.controls c = some cs) (howned : s.Owned)
    (hroutes : s.vhostRoutes = r.server.vhostRoutes)
    (hcontrols : s.controls = Function.update r.server.controls c (some cs'))
    (hdomains : cs'.registeredDomains = cs.registeredDomains)
    (hstopped : cs'.stopped = cs.stopped) : Recorded ⟨s, r.history⟩ where
  owned := howned
  routes d := by
    show s.vhostRoutes.lookup d = _
    rw [hroutes]
    exact h.routes d
  domains d ds hd := by
    rcases Server.controls_update_cases hcontrols hd with ⟨rfl, rfl⟩ | ⟨-, hd⟩
    · rw [hdomains]
      exact h.domains d cs hc
    · exact h.domains d ds hd
  running reg hreg :=
    Server.exists_control_update hc hcontrols (fun hrun => hstopped.trans hrun)
      (fun _ hrun _ => hrun) (h.running reg hreg)

/-- A new session has no domains yet. -/
theorem recorded_controlStream {r : VhostRun} (h : r.Recorded) (mux : MuxId) :
    Recorded ⟨r.server.handleControlStream mux, r.history⟩ := by
  have hfresh : r.server.controls r.server.nextControl = none := h.owned.fresh (Nat.le_refl _)
  have hcontrols : (r.server.handleControlStream mux).controls =
      Function.update r.server.controls r.server.nextControl (some { muxSession := mux }) := rfl
  refine ⟨Server.owned_controlStream h.owned mux, h.routes, ?_, ?_⟩
  · intro c cs hc d
    rcases Server.controls_update_cases hcontrols hc with ⟨rfl, rfl⟩ | ⟨-, hc⟩
    · constructor
      · exact fun hd => absurd hd List.not_mem_nil
      · rintro ⟨reg, hreg, hsession, -⟩
        obtain ⟨cs, hcs, -⟩ := h.running reg hreg
        rw [hsession, hfresh] at hcs
        exact absurd hcs (by simp)
    · exact h.domains c cs hc d
  · intro reg hreg
    obtain ⟨cs, hcs, hrun⟩ := h.running reg hreg
    have hne : reg.session ≠ r.server.nextControl := fun heq => by
      rw [heq, hfresh] at hcs
      exact absurd hcs (by simp)
    exact ⟨cs, (Function.update_of_ne hne _ _).trans hcs, hrun⟩

/-- A vhost registration is in force for all the domains it routed. -/
theorem recorded_vhost {r : VhostRun} (h : r.Recorded) {c : CtrlId} {cs cs' : ControlSession}
    (hc : r.server.controls c = some cs) (hrun : cs.stopped = false) {s : Server}
    (howned : s.Owned) {reg : Registration} (hsession : reg.session = c)
    (hroutes : s.vhostRoutes = Table.insertAll r.server.vhostRoutes reg.domains reg.route)
    (hcontrols : s.controls = Function.update r.server.controls c (some cs'))
    (hdomains : cs'.registeredDomains =
      reg.domains.foldl (fun ds d => ds.insert d) cs.registeredDomains)
    (hstopped : cs'.stopped = cs.stopped) : Recorded ⟨s, .registered reg :: r.history⟩ where
  owned := howned
  routes d := by
    show s.vhostRoutes.lookup d = _
    rw [hroutes, Table.lookup_insertAll, inForce]
    split
    · rfl
    · exact h.routes d
  domains d ds hd dom := by
    rcases Server.controls_update_cases hcontrols hd with ⟨rfl, rfl⟩ | ⟨hne, hd⟩
    · rw [hdomains, mem_foldl_insert, h.domains d cs hc]
      constructor
      · rintro (hnew | ⟨old, hold, hrest⟩)
        · exact ⟨reg, List.mem_cons_self, hsession, hnew⟩
        · exact ⟨old, List.mem_cons_of_mem _ hold, hrest⟩
      · rintro ⟨old, hold, hrest⟩
        rcases List.mem_cons.mp hold with rfl | hold
        · exact Or.inl hrest.2
        · exact Or.inr ⟨old, hold, hrest⟩
    · rw [h.domains d ds hd]
      constructor
      · rintro ⟨old, hold, hrest⟩
        exact ⟨old, List.mem_cons_of_mem _ hold, hrest⟩
      · rintro ⟨old, hold, hrest⟩
        rcases List.mem_cons.mp hold with rfl | hold
        · exact absurd (hrest.1.symm.trans hsession) hne
        · exact ⟨old, hold, hrest⟩
  running old hold := by
    refine Server.exists_control_update (P := fun ds => ds.stopped = false) hc hcontrols
      (fun hrun => hstopped.trans hrun) (fun _ hrun _ => hrun) ?_
    rcases List.mem_cons.mp hold with rfl | hold
    · exact ⟨cs, hsession ▸ hc, hrun⟩
    · exact h.running old hold

theorem recorded_stop {r : VhostRun} (h : r.Recorded) {c : CtrlId} {cs : ControlSession}
    (hc : r.server.controls c = some cs) :
    Recorded ⟨ControlSession.stop r.server c cs, .stopped c :: r.history⟩ := by
  have hcontrols : (ControlSession.stop r.server c cs).controls =
      Function.update r.server.controls c (some { cs with
        proxies := [], udpProxies := [], registeredDomains := [], stopped := true }) := by
    rw [stop_eq]
  have hroutes : (ControlSession.stop r.server c cs).vhostRoutes =
      Table.eraseAll r.server.vhostRoutes cs.registeredDomains := by
    rw [stop_eq]
  refine ⟨Server.owned_actsFor h.owned hc (Server.actsFor_stop hc), ?_, ?_, ?_⟩
  · intro d
    show (ControlSession.stop r.server c cs).vhostRoutes.lookup d = _
    rw [hroutes, Table.lookup_eraseAll, inForce, if_congr (h.domains c cs hc d) rfl rfl]
    split
    · rfl
    · exact h.routes d
  · intro d ds hd dom
    rcases Server.controls_update_cases hcontrols hd with ⟨rfl, rfl⟩ | ⟨hne, hd⟩
    · constructor
      · exact fun hdom => absurd hdom List.not_mem_nil
      · rintro ⟨reg, hreg, hsession, -⟩
        exact absurd hsession (of_decide_eq_true (List.mem_filter.mp hreg).2)
    · rw [h.domains d ds hd]
      constructor
      · rintro ⟨reg, hreg, hsession, hdom⟩
        exact ⟨reg, List.mem_filter.mpr ⟨hreg, decide_eq_true (hsession ▸ hne)⟩, hsession, hdom⟩
      · rintro ⟨reg, hreg, hrest⟩
        exact ⟨reg, (List.mem_filter.mp hreg).1, hrest⟩
  · intro reg hreg
    obtain ⟨hreg, hne⟩ := List.mem_filter.mp hreg
    obtain ⟨ds, hds, hrun⟩ := h.running reg hreg
    refine ⟨ds, ?_, hrun⟩
    show (ControlSession.stop r.server c cs).controls reg.session = some ds
    rw [hcontrols, Function.update_of_ne (of_decide_eq_true hne)]
    exact hds

theorem addListener_stopped (cs : ControlSession) (l : Listener) :
    (cs.addListener l).stopped = cs.stopped := by
  unfold ControlSession.addListener
  cases l.kind with
  | tcp => rfl
  | udp => rfl

/-- What is recorded of a registration. -/
theorem recorded_of_control {s : Server} {c : CtrlId} {cs : ControlSession}
    (hc : s.controls c = some cs) (m : RegisterProxyMessage) (thrown : Option Thrown) :
    recorded s (.message c (.registerProxy m) thrown) =
      if cs.authenticated && isVhostType (typeOf m) then
        [.registered ⟨c, m.name, typeOf m, routedDomains m thrown⟩]
      else [] := by
  simp only [recorded, hc]

theorem recorded_registerProxy {r : VhostRun} (h : r.Recorded) {c : CtrlId} {cs : ControlSession}
    (hc : r.server.controls c = some cs) (hauth : cs.authenticated = true)
    (m : RegisterProxyMessage) (thrown : Option Thrown)
    (hok : r.registersLive (.message c (.registerProxy m) thrown) = true)
    (howned : (handleRegisterProxy r.server c cs m thrown).Owned) :
    Recorded ⟨handleRegisterProxy r.server c cs m thrown,
      recorded r.server (.message c (.registerProxy m) thrown) ++ r.history⟩ := by
  rw [recorded_of_control hc, hauth, Bool.true_and]
  rcases handleRegisterProxy_cases r.server c cs m thrown with
    ⟨hvhost, resp, heq⟩ | ⟨hvhost, resp, heq⟩ | ⟨hvhost, resp, heq⟩
  · rw [heq] at howned ⊢
    rw [hvhost]
    exact h.same howned rfl rfl
  · rw [heq] at howned ⊢
    rw [hvhost]
    have hrun : cs.stopped = false := by simpa [registersLive, hvhost, hc] using hok
    exact recorded_vhost h hc hrun howned rfl rfl rfl rfl rfl
  · rw [heq] at howned ⊢
    rw [hvhost]
    exact h.update hc howned rfl rfl (Server.addListener_fields cs _).2.2
      (addListener_stopped cs _)

theorem recorded_message {r : VhostRun} (h : r.Recorded) {c : CtrlId} {cs : ControlSession}
    (hc : r.server.controls c = some cs) (msg : Message) (thrown : Option Thrown)
    (hok : r.registersLive (.message c msg thrown) = true) :
    Recorded ⟨ControlSession.handleMessage r.server c cs msg thrown,
      recorded r.server (.message c msg thrown) ++ r.history⟩ := by
  have howned : (ControlSession.handleMessage r.server c cs msg thrown).Owned :=
    Server.owned_step h.owned (Server.step_message hc msg thrown)
  cases msg with
  | login m =>
      have howned : (handleLogin r.server c cs m).Owned := howned
      show Recorded ⟨handleLogin r.server c cs m, r.history⟩
      rcases handleLogin_cases r.server c cs m with ⟨-, n, resp, -, heq⟩ | ⟨-, resp, heq⟩
      · rw [heq] at howned ⊢
        exact h.update hc howned rfl rfl rfl rfl
      · rw [heq] at howned ⊢
        exact h.same howned rfl rfl
  | registerProxy m =>
      cases hauth : cs.authenticated with
      | true =>
          have hhandled : ControlSession.handleMessage r.server c cs (.registerProxy m) thrown =
              handleRegisterProxy r.server c cs m thrown := if_pos hauth
          rw [hhandled] at howned ⊢
          exact recorded_registerProxy h hc hauth m thrown hok howned
      | false =>
          have hignored : ControlSession.handleMessage r.server c cs (.registerProxy m) thrown =
              r.server := if_neg (by rw [hauth]; exact Bool.false_ne_true)
          rw [hignored, recorded_of_control hc, hauth]
          exact h
  | unregisterProxy m =>
      show Recorded ⟨if cs.authenticated then handleUnregisterProxy r.server c cs m.name
        else r.server, r.history⟩
      split
      · rename_i hauth
        have hhandled : ControlSession.handleMessage r.server c cs (.unregisterProxy m) thrown =
            handleUnregisterProxy r.server c cs m.name := if_pos hauth
        rw [hhandled] at howned
        rcases handleUnregisterProxy_cases r.server c cs m.name with heq | ⟨p, ps, us, -, -, heq⟩
        · rw [heq]
          exact h
        · rw [heq] at howned ⊢
          exact h.update hc howned rfl rfl rfl rfl
      · exact h
  | _ => exact h

/-- **One step** keeps the table and the history together. -/
theorem recorded_step {r r' : VhostRun} {e : Server.Event} (h : r.Recorded)
    (hok : r.registersLive e = true) (hstep : r.step e = some r') : r'.Recorded := by
  obtain ⟨s, hs, rfl⟩ := Option.map_eq_some_iff.mp hstep
  have howned := Server.owned_step h.owned hs
  have htickets : Server.OnlyTickets r.server s → Recorded ⟨s, r.history⟩ := by
    rintro ⟨_, _, _, _, _, _, rfl⟩
    exact h.same howned rfl rfl
  cases e with
  | controlStream mux =>
      obtain rfl := Option.some.inj hs
      exact recorded_controlStream h mux
  | message c msg thrown =>
      obtain ⟨cs, hc, rfl⟩ := Option.map_eq_some_iff.mp hs
      exact recorded_message h hc msg thrown hok
  | stop c =>
      obtain ⟨cs, hc, rfl⟩ := Option.map_eq_some_iff.mp hs
      exact recorded_stop h hc
  | workStream mux bytes =>
      obtain ⟨-, hs⟩ := Option.ite_none_right_eq_some.mp hs
      rcases Server.handleWorkStream_cases (Option.some.inj hs) with
        rfl | ⟨hand, -, -, -, -, honly, -⟩
      · exact h
      · exact htickets honly
  | acceptUser l ticket socket now locked =>
      rcases Server.step_userTraffic rfl hs with ⟨c, t, -, -, hfiles⟩ | rfl
      · exact htickets hfiles.only
      · exact h
  | receiveUdp l endpoint ticket now locked =>
      rcases Server.step_userTraffic rfl hs with ⟨c, t, -, -, hfiles⟩ | rfl
      · exact htickets hfiles.only
      · exact h
  | vhostRequest domain data ticket socket now locked =>
      rcases Server.step_userTraffic rfl hs with ⟨c, t, -, -, hfiles⟩ | rfl
      · exact htickets hfiles.only
      · exact h

theorem recorded_init (token : String) (ports : List PortRange) (clients : List String) :
    Recorded ⟨Server.init token ports clients, []⟩ where
  owned := Server.owned_init token ports clients
  routes _ := rfl
  domains c cs hc := absurd hc (by simp [Server.init])
  running reg hreg := absurd hreg List.not_mem_nil

/-- A request goes to what is in force for its domain. -/
theorem Recorded.target {r : VhostRun} (h : r.Recorded) {locked : CtrlId → Bool}
    (hlocked : r.Locks locked) (domain : String) :
    r.server.vhostTarget locked domain =
      (inForce domain r.history).map Registration.route := by
  unfold Server.vhostTarget
  rw [h.routes]
  cases hreg : inForce domain r.history with
  | none => rfl
  | some reg =>
      obtain ⟨cs, hcs, hrun⟩ := h.running reg (mem_of_inForce hreg).1
      rw [Option.map_some, Option.filter_some]
      exact if_pos (hlocked reg.session cs hcs hrun)

/-- **The type of a vhost request.** At any point of any run: a request on the port of a type
goes where it should exactly when what is in force for its domain is of that type, or nothing
is and no live registration of the domain is of that type. -/
theorem respectsType_iff {token : String} {ports : List PortRange} {clients : List String}
    {r : VhostRun}
    (h : Reach step (fun r e => r.registersLive e = true) ⟨Server.init token ports clients, []⟩ r)
    {locked : CtrlId → Bool} (hlocked : r.Locks locked) (type : String) (data : List Byte) :
    r.RespectsType locked type data ↔
      match inForce (domainOf type data) r.history with
      | some reg => reg.type = type
      | none => ∀ reg ∈ liveRegistrations r.history, domainOf type data ∈ reg.domains →
          reg.type ≠ type := by
  have hinv : r.Recorded := h.invariant (recorded_init token ports clients)
    fun _ _ _ hr hok hstep => recorded_step hr hok hstep
  unfold RespectsType
  rw [hinv.target hlocked]
  cases hreg : inForce (domainOf type data) r.history with
  | some reg =>
      obtain ⟨hlive, hdomain⟩ := mem_of_inForce hreg
      constructor
      · exact fun hrespects => hrespects.2 reg.route rfl
      · intro htype
        refine ⟨fun _ _ _ _ => ⟨reg, hlive, htype, hdomain, rfl⟩, fun route hroute => ?_⟩
        obtain rfl := Option.some.inj hroute
        exact htype
  | none =>
      constructor
      · intro hrespects reg hlive hdomain htype
        obtain ⟨reg', -, -, -, htarget⟩ := hrespects.1 reg hlive htype hdomain
        exact absurd htarget (by simp)
      · intro hnone
        refine ⟨fun reg hlive htype hdomain => absurd htype (hnone reg hlive hdomain), ?_⟩
        exact fun route hroute => absurd hroute (by simp)

theorem respectsType_iff_example : ∃ r : VhostRun,
    r.server.vhostRoutes.lookup "a" = some ⟨0, "web", "http"⟩ ∧
      r.RespectsType (fun _ => true) "http" (bytesOf "GET / HTTP/1.1\r\nHost: a\r\n\r\n") := by
  obtain ⟨r, hreach, hobs⟩ := exists_of_runGuarded step registersLive
    [.controlStream 1, .message 0 (.login ⟨"tok", "a"⟩) none,
      .message 0 (.registerProxy ⟨"web", "http", 0, ["a"], 0⟩) none]
    (fun r => (r.server.vhostRoutes.lookup "a", inForce "a" r.history))
    (s := ⟨Server.init "tok" [] [], []⟩)
    (a := (some ⟨0, "web", "http"⟩, some ⟨0, "web", "http", ["a"]⟩)) (by decide)
  obtain ⟨hroute, hforce⟩ := Prod.mk.inj hobs
  have hdomain : domainOf "http" (bytesOf "GET / HTTP/1.1\r\nHost: a\r\n\r\n") = "a" := by decide
  refine ⟨r, hroute, (respectsType_iff hreach (fun _ _ _ _ => rfl) "http" _).mpr ?_⟩
  rw [hdomain, hforce]

/-- A session registers a domain for `http` and then for `https`, and its `http` requests go to
the second proxy. -/
theorem respectsType_misses : ¬ ∀ (r : VhostRun) (locked : CtrlId → Bool) (type : String)
    (data : List Byte),
    Reach step (fun r e => r.registersLive e = true) ⟨Server.init "tok" [] [], []⟩ r →
    r.Locks locked → r.RespectsType locked type data := by
  intro hall
  obtain ⟨r, hreach, hobs⟩ := exists_of_runGuarded step registersLive
    [.controlStream 1, .message 0 (.login ⟨"tok", "a"⟩) none,
      .message 0 (.registerProxy ⟨"web", "http", 0, ["a"], 0⟩) none,
      .message 0 (.registerProxy ⟨"tls", "https", 0, ["a"], 0⟩) none]
    (fun r => r.server.vhostRoutes.lookup "a")
    (s := ⟨Server.init "tok" [] [], []⟩) (a := some ⟨0, "tls", "https"⟩) (by decide)
  have hdomain : domainOf "http" (bytesOf "GET / HTTP/1.1\r\nHost: a\r\n\r\n") = "a" := by decide
  obtain ⟨-, htype⟩ := hall r (fun _ => true) "http"
    (bytesOf "GET / HTTP/1.1\r\nHost: a\r\n\r\n") hreach fun _ _ _ _ => rfl
  have htarget : r.server.vhostTarget (fun _ => true) "a" = some ⟨0, "tls", "https"⟩ := by
    unfold Server.vhostTarget
    rw [hobs]
    rfl
  rw [hdomain] at htype
  exact absurd (htype _ htarget) (by decide)

end VhostRun

end Cfrp
