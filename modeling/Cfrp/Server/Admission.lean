import Cfrp.Server.Ownership

/-!
# Who is let in

The token, the list of allowed clients and the list of allowed ports are looked at in two
places, `HandleLogin` and the registration of a proxy, and everything else relies on that. A
run of the server is a list of events here, so that "has logged in" can be said of the
messages that were handled: nothing is done on behalf of a session without an accepted login
among its messages, whatever the other sessions and the users do.
-/

namespace Cfrp

open Lib Protocol

namespace Server

/-- Something is done on behalf of a session: it holds an entry of one of the tables, or a
listener, or it was told of a user, or a user who came for it was taken over by a work stream.
The work stream need not be one of the session's own: whoever presents the ticket gets the
user. -/
inductive ActsOnBehalf (s : Server) (c : CtrlId) : Prop where
  | name {n} (h : s.sessions.lookup n = some c)
  | route {d r} (h : s.vhostRoutes.lookup d = some r) (hc : r.session = c)
  | limiter {n rl} (h : s.proxyRateLimiters.lookup n = some rl) (hc : c ∈ rl.owners)
  | listener {l} (h : l ∈ s.listeners) (hc : l.session = c)
  | pending {t} (h : s.PendingFor t c)
  | announced {m} (h : (c, Message.newUserConn m) ∈ s.sent)
  | handed {hand} (h : hand ∈ s.handed) (hc : hand.owner = c)

/-- The session sent a login that was accepted. -/
def LoggedIn (token : String) (clients : List String) (es : List Event) (c : CtrlId) : Prop :=
  ∃ m thrown, Event.message c (.login m) thrown ∈ es ∧ m.token = token ∧
    (clients = [] ∨ m.name ∈ clients)

/-! ## One step -/

/-- What `main` has configured. -/
def SameConfig (s s' : Server) : Prop :=
  s'.token = s.token ∧ s'.allowedPorts = s.allowedPorts ∧ s'.allowedClients = s.allowedClients

theorem OnlyTickets.sameConfig {s s' : Server} (h : OnlyTickets s s') :
    SameConfig s s' ∧ s'.listeners = s.listeners ∧ s'.controls = s.controls := by
  obtain ⟨_, _, _, _, _, _, rfl⟩ := h
  exact ⟨⟨rfl, rfl, rfl⟩, rfl, rfl⟩

/-- A session that is logged in after a message was before, or the message is the login. -/
structure AdmitsBy (s s' : Server) (c : CtrlId) (msg : Message) : Prop where
  config : SameConfig s s'
  login : ∀ {d}, s'.Authenticated d → s.Authenticated d ∨
    d = c ∧ ∃ m, msg = .login m ∧ ControlSession.loginAccepted s m = true
  ports : ∀ {l}, l ∈ s'.listeners → l ∈ s.listeners ∨ s.isPortAllowed l.port = true

/-- The object of a session is replaced by one that is as much logged in. -/
theorem authenticated_of_update {s s' : Server} {c d : CtrlId} {cs cs' : ControlSession}
    (hc : s.controls c = some cs)
    (hs' : s'.controls = Function.update s.controls c (some cs'))
    (hauth : cs'.authenticated = true → cs.authenticated = true) (h : s'.Authenticated d) :
    s.Authenticated d := by
  obtain ⟨ds, hds, ha⟩ := h
  rcases controls_update_cases hs' hds with ⟨rfl, rfl⟩ | ⟨-, hds⟩
  · exact ⟨cs, hc, hauth ha⟩
  · exact ⟨ds, hds, ha⟩

theorem admitsBy_login {s : Server} {c : CtrlId} {cs : ControlSession} (m : LoginMessage) :
    AdmitsBy s (ControlSession.handleLogin s c cs m) c (.login m) := by
  rcases ControlSession.handleLogin_cases s c cs m with ⟨haccepted, n, resp, -, heq⟩ |
    ⟨-, resp, heq⟩
  · rw [heq]
    refine ⟨⟨rfl, rfl, rfl⟩, fun {d} h => ?_, Or.inl⟩
    obtain ⟨ds, hds, ha⟩ := h
    rcases controls_update_cases rfl hds with ⟨rfl, -⟩ | ⟨-, hds⟩
    · exact Or.inr ⟨rfl, m, rfl, haccepted⟩
    · exact Or.inl ⟨ds, hds, ha⟩
  · rw [heq]
    exact ⟨⟨rfl, rfl, rfl⟩, Or.inl, Or.inl⟩

theorem admitsBy_registerProxy {s : Server} {c : CtrlId} {cs : ControlSession}
    (hc : s.controls c = some cs) (m : RegisterProxyMessage) (thrown : Option Thrown) :
    AdmitsBy s (ControlSession.handleRegisterProxy s c cs m thrown) c (.registerProxy m) := by
  rw [ControlSession.handleRegisterProxy_eq]
  by_cases hrefused : (!ControlSession.isVhostType (ControlSession.typeOf m) &&
      !s.isPortAllowed m.remotePort) = true
  · simp only [if_pos hrefused]
    exact ⟨⟨rfl, rfl, rfl⟩, Or.inl, Or.inl⟩
  · simp only [if_neg hrefused]
    by_cases hvhost : ControlSession.isVhostType (ControlSession.typeOf m) = true
    · simp only [if_pos hvhost]
      refine ⟨⟨rfl, rfl, rfl⟩, fun h => Or.inl (authenticated_of_update hc rfl ?_ h), Or.inl⟩
      exact fun ha => ha
    · simp only [if_neg hvhost]
      have hport : s.isPortAllowed m.remotePort = true := by simpa [hvhost] using hrefused
      cases thrown with
      | some what => exact ⟨⟨rfl, rfl, rfl⟩, Or.inl, Or.inl⟩
      | none =>
          refine ⟨⟨rfl, rfl, rfl⟩, fun h => Or.inl (authenticated_of_update hc rfl ?_ h),
            fun {l} hl => ?_⟩
          · exact fun ha => (addListener_fields cs _).2.1 ▸ ha
          · rcases List.mem_append.mp hl with hl | hl
            · exact Or.inl hl
            · rw [List.mem_singleton.mp hl]
              exact Or.inr hport

theorem admitsBy_unregisterProxy {s : Server} {c : CtrlId} {cs : ControlSession}
    (hc : s.controls c = some cs) (m : UnregisterProxyMessage) :
    AdmitsBy s (ControlSession.handleUnregisterProxy s c cs m.name) c (.unregisterProxy m) := by
  rcases ControlSession.handleUnregisterProxy_cases s c cs m.name with
    heq | ⟨p, ps, us, -, -, heq⟩
  · rw [heq]
    exact ⟨⟨rfl, rfl, rfl⟩, Or.inl, Or.inl⟩
  · rw [heq]
    refine ⟨⟨rfl, rfl, rfl⟩, fun h => Or.inl (authenticated_of_update hc rfl ?_ h), Or.inl⟩
    exact fun ha => ha

theorem admitsBy_message {s : Server} {c : CtrlId} {cs : ControlSession}
    (hc : s.controls c = some cs) (msg : Message) (thrown : Option Thrown) :
    AdmitsBy s (ControlSession.handleMessage s c cs msg thrown) c msg := by
  rcases ControlSession.handleMessage_cases s c cs msg thrown with
    ⟨m, rfl, heq⟩ | ⟨m, rfl, -, heq⟩ | ⟨m, rfl, -, heq⟩ | heq
  · exact heq ▸ admitsBy_login m
  · exact heq ▸ admitsBy_registerProxy hc m thrown
  · exact heq ▸ admitsBy_unregisterProxy hc m
  · rw [heq]
    exact ⟨⟨rfl, rfl, rfl⟩, Or.inl, Or.inl⟩

theorem authenticated_controlStream {s : Server} (hs : Owned s) {mux : MuxId} {d : CtrlId} :
    (s.handleControlStream mux).Authenticated d ↔ s.Authenticated d := by
  have hfresh : s.controls s.nextControl = none := hs.fresh (Nat.le_refl _)
  constructor
  · rintro ⟨ds, hds, ha⟩
    rcases controls_update_cases (s := s) rfl hds with ⟨rfl, rfl⟩ | ⟨-, hds⟩
    · cases ha
    · exact ⟨ds, hds, ha⟩
  · rintro ⟨ds, hds, ha⟩
    have hne : d ≠ s.nextControl := fun h => by
      rw [h, hfresh] at hds
      cases hds
    exact ⟨ds, (Function.update_of_ne hne _ _).trans hds, ha⟩

/-- What a step does to the configuration, to who is logged in and to the listeners. -/
structure Admits (s s' : Server) (e : Event) : Prop where
  config : SameConfig s s'
  stays : ∀ {d}, s.Authenticated d → s'.Authenticated d
  login : ∀ {d}, s'.Authenticated d → s.Authenticated d ∨
    ∃ m thrown, e = .message d (.login m) thrown ∧ ControlSession.loginAccepted s m = true
  ports : ∀ {l}, l ∈ s'.listeners → l ∈ s.listeners ∨ s.isPortAllowed l.port = true

theorem admits_onlyTickets {s s' : Server} {e : Event} (h : OnlyTickets s s') :
    Admits s s' e := by
  obtain ⟨hconfig, hlisteners, hcontrols⟩ := h.sameConfig
  refine ⟨hconfig, fun {d} hd => ?_, fun {d} hd => Or.inl ?_, fun {l} hl => Or.inl ?_⟩
  · rwa [Authenticated, hcontrols]
  · rwa [Authenticated, hcontrols] at hd
  · rwa [hlisteners] at hl

/-- **One step** keeps the configuration, lets a session in only by a login, and opens a
listener only at an allowed port. -/
theorem admits_step {s s' : Server} (hs : Owned s) {e : Event} (h : s.step e = some s') :
    Admits s s' e := by
  rcases step_cases hs h with ⟨mux, -, rfl⟩ | ⟨c, cs, cs', hevent, hc, hacts⟩ |
    ⟨-, ⟨c, ticket, -, -, hfiles⟩ | rfl⟩ | ⟨_, _, -, rfl | ⟨_, -, -, -, -, honly, -⟩⟩
  · exact ⟨⟨rfl, rfl, rfl⟩, (authenticated_controlStream hs).mpr,
      fun hd => Or.inl ((authenticated_controlStream hs).mp hd), Or.inl⟩
  · have hmono : ∀ {d}, s.Authenticated d → s'.Authenticated d :=
      fun hd => hd.update hc hacts.controls hacts.auth
    rcases hevent with ⟨msg, thrown, rfl⟩ | rfl
    · rw [step_message hc] at h
      obtain rfl := Option.some.inj h
      obtain ⟨hconfig, hlogin, hports⟩ := admitsBy_message hc msg thrown
      refine ⟨hconfig, hmono, fun {d} hd => (hlogin hd).imp id ?_, hports⟩
      rintro ⟨rfl, m, rfl, haccepted⟩
      exact ⟨m, thrown, rfl, haccepted⟩
    · simp only [step, hc, Option.map_some, Option.some.injEq] at h
      rw [ControlSession.stop_eq] at h
      subst h
      refine ⟨⟨rfl, rfl, rfl⟩, hmono, fun hd => Or.inl (authenticated_of_update hc rfl ?_ hd),
        Or.inl⟩
      exact fun ha => ha
  · exact admits_onlyTickets hfiles.only
  · exact ⟨⟨rfl, rfl, rfl⟩, id, Or.inl, Or.inl⟩
  · exact ⟨⟨rfl, rfl, rfl⟩, id, Or.inl, Or.inl⟩
  · exact admits_onlyTickets honly

/-! ## Every run -/

variable {token : String} {ports : List PortRange} {clients : List String}

/-- What holds of the server after a list of events. -/
structure Admitted (token : String) (ports : List PortRange) (clients : List String)
    (es : List Event) (s : Server) : Prop where
  config : SameConfig (init token ports clients) s
  login : ∀ {c}, s.Authenticated c → LoggedIn token clients es c
  ports : ∀ {l}, l ∈ s.listeners → (init token ports clients).isPortAllowed l.port = true
  announced : ∀ {c m}, (c, Message.newUserConn m) ∈ s.sent → s.Authenticated c
  handed : ∀ {hand}, hand ∈ s.handed → s.Authenticated hand.owner

theorem LoggedIn.concat {es : List Event} {c : CtrlId} (h : LoggedIn token clients es c)
    (e : Event) : LoggedIn token clients (es ++ [e]) c := by
  obtain ⟨m, thrown, hmem, hrest⟩ := h
  exact ⟨m, thrown, List.mem_append_left _ hmem, hrest⟩

theorem admitted_init : Admitted token ports clients [] (init token ports clients) where
  config := ⟨rfl, rfl, rfl⟩
  login := by
    rintro c ⟨cs, hc, -⟩
    cases hc
  ports h := absurd h List.not_mem_nil
  announced h := absurd h List.not_mem_nil
  handed h := absurd h List.not_mem_nil

/-- The tests of a login are those of the configuration. -/
theorem loggedIn_of_accepted {s : Server} (hconfig : SameConfig (init token ports clients) s)
    {m : LoginMessage} (h : ControlSession.loginAccepted s m = true) :
    m.token = token ∧ (clients = [] ∨ m.name ∈ clients) := by
  obtain ⟨htoken, -, hclients⟩ := hconfig
  rw [ControlSession.loginAccepted, Bool.and_eq_true, beq_iff_eq, isClientAllowed, hclients,
    Bool.or_eq_true, List.isEmpty_iff, List.contains_iff_mem] at h
  exact ⟨h.1.trans htoken, h.2⟩

theorem Admitted.step {es : List Event} {s s' : Server} (ho : Owned s)
    (hs : Admitted token ports clients es s) {e : Event} (h : s.step e = some s') :
    Admitted token ports clients (es ++ [e]) s' := by
  obtain ⟨⟨htoken, hports, hclients⟩, hstays, hlogin, hopened⟩ := admits_step ho h
  refine ⟨?_, fun {c} hc => ?_, fun {l} hl => ?_, fun {c m} hmem => ?_, fun {hand} hmem => ?_⟩
  · exact ⟨htoken.trans hs.config.1, hports.trans hs.config.2.1, hclients.trans hs.config.2.2⟩
  · rcases hlogin hc with hc | ⟨m, thrown, rfl, haccepted⟩
    · exact (hs.login hc).concat e
    · exact ⟨m, thrown, List.mem_append_right _ (List.mem_singleton_self _),
        loggedIn_of_accepted hs.config haccepted⟩
  · rcases hopened hl with hl | hl
    · exact hs.ports hl
    · rwa [isPortAllowed, hs.config.2.1] at hl
  · refine hstays ?_
    rcases step_cases ho h with ⟨mux, -, rfl⟩ | ⟨_, _, _, -, -, hacts⟩ |
      ⟨-, ⟨d, ticket, -, hreached, hfiles⟩ | rfl⟩ | ⟨_, _, -, rfl | ⟨_, -, -, -, hsent, -, -⟩⟩
    · exact hs.announced hmem
    · exact hs.announced (hacts.announced hmem)
    · rcases hfiles.sent with heq | ⟨name, heq⟩
      · exact hs.announced (heq ▸ hmem)
      · rw [heq] at hmem
        rcases List.mem_append.mp hmem with hmem | hmem
        · exact hs.announced hmem
        · rw [(Prod.mk.inj (List.mem_singleton.mp hmem)).1]
          exact hreached.authenticated ho
    · exact hs.announced hmem
    · exact hs.announced hmem
    · exact hs.announced (hsent ▸ hmem)
  · refine hstays ?_
    rcases step_cases ho h with ⟨mux, -, rfl⟩ | ⟨_, _, _, -, -, hacts⟩ |
      ⟨-, ⟨_, _, -, -, hfiles⟩ | rfl⟩ | ⟨_, _, -, rfl | ⟨k, -, hpending, hhanded, -, -, -⟩⟩
    · exact hs.handed hmem
    · exact hs.handed (hacts.handed ▸ hmem)
    · exact hs.handed (hfiles.handed ▸ hmem)
    · exact hs.handed hmem
    · exact hs.handed hmem
    · rw [hhanded] at hmem
      rcases List.mem_append.mp hmem with hmem | hmem
      · exact hs.handed hmem
      · rw [List.mem_singleton.mp hmem]
        exact ho.pending hpending

theorem admitted_of_run {es : List Event} : ∀ {s : Server},
    runAll step (init token ports clients) es = some s → Admitted token ports clients es s := by
  induction es using List.reverseRecOn with
  | nil =>
      intro s h
      obtain rfl := Option.some.inj h
      exact admitted_init
  | append_singleton es e ih =>
      intro s h
      rw [runAll_concat, Option.bind_eq_some_iff] at h
      obtain ⟨s₁, hrun, hstep⟩ := h
      exact (ih hrun).step (owned_reachable (reach_of_runAll hrun)) hstep

/-- **Nothing happens for a stranger.** Whatever the sessions and the users do: a session for
which there is a name, a route, a limiter, a listener or a user waiting, or that has been told
of a user, or whose user was taken over, has sent the token and an allowed name; and no
listener has a port that is not allowed. -/
theorem admission {es : List Event} {s : Server}
    (h : runAll step (init token ports clients) es = some s) :
    (∀ c, ActsOnBehalf s c → LoggedIn token clients es c) ∧
      ∀ l ∈ s.listeners, (init token ports clients).isPortAllowed l.port = true := by
  have hadmitted := admitted_of_run h
  have howned : Owned s := owned_reachable (reach_of_runAll h)
  refine ⟨fun c hc => hadmitted.login ?_, fun l hl => hadmitted.ports hl⟩
  cases hc with
  | name hn => exact howned.session hn
  | route hr hc =>
      obtain ⟨cs, hcs, ha, -⟩ := howned.route hr
      exact hc ▸ ⟨cs, hcs, ha⟩
  | limiter hrl hc => exact howned.limiter hrl hc
  | listener hl hc => exact hc ▸ (howned.listener hl).1
  | pending hp => exact howned.pending hp
  | announced hm => exact hadmitted.announced hm
  | handed hh hc => exact hc ▸ hadmitted.handed hh

/-- A user of the one session there is: the session has logged in, and its user is taken over. -/
theorem admission_oneUser :
    ∃ s : Server, ActsOnBehalf s 0 ∧ LoggedIn "tok" ["a"]
      [.controlStream 1, .message 0 (.login ⟨"tok", "a"⟩) none,
        .message 0 (.registerProxy ⟨"ssh", "tcp", 6000, [], 0⟩) none,
        .acceptUser ⟨0, .tcp, 6000, "ssh", 0⟩ "12" 7 5 true,
        .workStream 1 (0 :: 49 :: 50 :: List.replicate 62 32)] 0 := by
  obtain ⟨s, hrun, hobs⟩ := Option.map_eq_some_iff.mp (show
    (runAll step (init "tok" [⟨6000, 6010⟩] ["a"])
      [.controlStream 1, .message 0 (.login ⟨"tok", "a"⟩) none,
        .message 0 (.registerProxy ⟨"ssh", "tcp", 6000, [], 0⟩) none,
        .acceptUser ⟨0, .tcp, 6000, "ssh", 0⟩ "12" 7 5 true,
        .workStream 1 (0 :: 49 :: 50 :: List.replicate 62 32)]).map
      (fun s => s.handed.map HandOver.owner) = some [0] by decide)
  obtain ⟨hand, hhand, howner⟩ := List.mem_map.mp (show 0 ∈ s.handed.map HandOver.owner by
    rw [hobs]
    exact List.mem_singleton_self 0)
  have hacts : ActsOnBehalf s 0 := ActsOnBehalf.handed hhand howner
  exact ⟨s, hacts, (admission hrun).1 0 hacts⟩

end Server

end Cfrp
