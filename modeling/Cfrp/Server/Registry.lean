import Cfrp.Server.Ownership

/-!
# The registry of client names

`AllocateClientName` and `ReleaseClientName` keep `active_client_names_` and
`sessions_` together. Who holds a name is another matter: it is remembered a second
time in `client_name_` and `authenticated_` of the session, and these two are written by
`HandleLogin` alone. A session that logs in again forgets the name it had, and a
session that is stopped again releases its name once more, although somebody else may
hold it by then. Without these two the registry is exact.
-/

namespace Cfrp

open Lib Protocol

namespace Server

/-- Session `c` is live, has logged in, and goes by the name `n`. -/
def Live (s : Server) (c : CtrlId) (n : String) : Prop :=
  ∃ cs, s.controls c = some cs ∧ cs.authenticated = true ∧ cs.stopped = false ∧
    cs.clientName = n

structure RegistryInv (s : Server) : Prop where
  /-- No two live sessions hold the same name. -/
  distinct : ∀ {c d n}, s.Live c n → s.Live d n → c = d
  keys : ∀ {n}, n ∈ s.activeClientNames ↔ n ∈ s.sessions
  /-- `sessions_` maps exactly the names that are held, to their holders. -/
  holders : ∀ {n c}, s.sessions.lookup n = some c ↔ s.Live c n

/-- The steps that keep the registry exact: a session logs in at most once, and not after
it was stopped; and a session is not stopped again while the name it had is in use. -/
def registryOk (s : Server) : Event → Bool
  | .message c (.login m) _ =>
      !ControlSession.loginAccepted s m ||
        (s.controls c).all fun cs => !cs.authenticated && !cs.stopped
  | .stop c =>
      (s.controls c).all fun cs =>
        !(cs.authenticated && cs.stopped) || cs.clientName ∉ s.activeClientNames
  | _ => true

/-! ## Steps that do not touch the registry -/

/-- Nobody got, lost or changed a name. -/
structure KeepsNames (s s' : Server) : Prop where
  active : s'.activeClientNames = s.activeClientNames
  sessions : s'.sessions = s.sessions
  live : ∀ c n, s'.Live c n ↔ s.Live c n

theorem KeepsNames.refl (s : Server) : KeepsNames s s := ⟨rfl, rfl, fun _ _ => Iff.rfl⟩

theorem KeepsNames.registryInv {s s' : Server} (h : KeepsNames s s') (hs : RegistryInv s) :
    RegistryInv s' where
  distinct hc hd := hs.distinct ((h.live _ _).mp hc) ((h.live _ _).mp hd)
  keys := by rw [h.active, h.sessions]; exact hs.keys
  holders := by
    intro n c
    rw [h.sessions, h.live]
    exact hs.holders

theorem live_update {s s' : Server} {c : CtrlId} (cs' : ControlSession)
    (hctl : s'.controls = Function.update s.controls c (some cs')) (d : CtrlId) (n : String) :
    s'.Live d n ↔
      d = c ∧ cs'.authenticated = true ∧ cs'.stopped = false ∧ cs'.clientName = n ∨
      d ≠ c ∧ s.Live d n := by
  unfold Live
  rw [hctl]
  by_cases hd : d = c
  · subst hd
    simp
  · simp [hd]

theorem keepsNames_update {s s' : Server} {c : CtrlId} {cs cs' : ControlSession}
    (hc : s.controls c = some cs)
    (hctl : s'.controls = Function.update s.controls c (some cs'))
    (hactive : s'.activeClientNames = s.activeClientNames) (hsessions : s'.sessions = s.sessions)
    (hname : cs'.clientName = cs.clientName) (hauth : cs'.authenticated = cs.authenticated)
    (hstopped : cs'.stopped = cs.stopped) : KeepsNames s s' := by
  refine ⟨hactive, hsessions, fun d n => ?_⟩
  rw [live_update cs' hctl, hname, hauth, hstopped]
  by_cases hd : d = c
  · subst hd
    simp [Live, hc]
  · simp [hd]

theorem keepsNames_onlyTickets {s s' : Server} (h : OnlyTickets s s') : KeepsNames s s' := by
  obtain ⟨_, _, _, _, _, _, rfl⟩ := h
  exact ⟨rfl, rfl, fun _ _ => Iff.rfl⟩

theorem keepsNames_controlStream {s : Server} (hs : Owned s) (mux : MuxId) :
    KeepsNames s (s.handleControlStream mux) := by
  refine ⟨rfl, rfl, fun d n => ?_⟩
  rw [live_update (s := s) (c := s.nextControl) { muxSession := mux } rfl]
  have hfresh : s.controls s.nextControl = none := hs.fresh (Nat.le_refl _)
  by_cases hd : d = s.nextControl
  · subst hd
    simp [Live, hfresh]
  · simp [hd]

theorem keepsNames_registerProxy {s : Server} {c : CtrlId} {cs : ControlSession}
    (hc : s.controls c = some cs) (m : RegisterProxyMessage) (thrown : Option Thrown) :
    KeepsNames s (ControlSession.handleRegisterProxy s c cs m thrown) := by
  rcases ControlSession.handleRegisterProxy_cases s c cs m thrown with
    ⟨_, resp, heq⟩ | ⟨_, resp, heq⟩ | ⟨_, resp, heq⟩
  · rw [heq]
    exact ⟨rfl, rfl, fun _ _ => Iff.rfl⟩
  · rw [heq]
    exact keepsNames_update hc rfl rfl rfl rfl rfl rfl
  · rw [heq]
    have hsame : ∀ l : Listener, (cs.addListener l).clientName = cs.clientName ∧
        (cs.addListener l).authenticated = cs.authenticated ∧
        (cs.addListener l).stopped = cs.stopped := by
      intro l
      unfold ControlSession.addListener
      cases l.kind <;> exact ⟨rfl, rfl, rfl⟩
    obtain ⟨hname, hauth, hstopped⟩ := hsame (ControlSession.newListener s c m)
    exact keepsNames_update hc rfl rfl rfl hname hauth hstopped

theorem keepsNames_unregisterProxy {s : Server} {c : CtrlId} {cs : ControlSession}
    (hc : s.controls c = some cs) (name : String) :
    KeepsNames s (ControlSession.handleUnregisterProxy s c cs name) := by
  rcases ControlSession.handleUnregisterProxy_cases s c cs name with
    heq | ⟨p, ps, us, _, _, heq⟩
  · rw [heq]
    exact KeepsNames.refl s
  · rw [heq]
    exact keepsNames_update hc rfl rfl rfl rfl rfl rfl

/-! ## Login and Stop -/

theorem RegistryInv.of_holders {s : Server}
    (hkeys : ∀ {n}, n ∈ s.activeClientNames ↔ n ∈ s.sessions)
    (hholders : ∀ {n c}, s.sessions.lookup n = some c ↔ s.Live c n) : RegistryInv s where
  distinct hc hd := Option.some.inj ((hholders.mpr hc).symm.trans (hholders.mpr hd))
  keys := hkeys
  holders := hholders

theorem RegistryInv.name_mem {s : Server} (hs : RegistryInv s) {c : CtrlId} {n : String}
    (h : s.Live c n) : n ∈ s.activeClientNames :=
  hs.keys.mpr (AList.lookup_isSome.mp (by rw [hs.holders.mpr h]; rfl))

/-- **A login** keeps the registry exact if and only if it is refused, or it is the
session's first and the session is still live. -/
theorem registryInv_login {s : Server} (hs : RegistryInv s) {c : CtrlId} {cs : ControlSession}
    (hc : s.controls c = some cs) (m : LoginMessage) :
    RegistryInv (ControlSession.handleLogin s c cs m) ↔
      (ControlSession.loginAccepted s m = true →
        cs.authenticated = false ∧ cs.stopped = false) := by
  rcases ControlSession.handleLogin_cases s c cs m with
    ⟨haccepted, n, resp, hfree, heq⟩ | ⟨hrejected, resp, heq⟩
  · generalize ControlSession.handleLogin s c cs m = s' at heq
    have hlive : ∀ d k, s'.Live d k ↔
        d = c ∧ cs.stopped = false ∧ n = k ∨ d ≠ c ∧ s.Live d k := by
      intro d k
      rw [live_update { cs with clientName := n, authenticated := true } (by rw [heq])]
      simp
    have hsessions : ∀ k, s'.sessions.lookup k =
        if k = n then some c else s.sessions.lookup k := by
      intro k
      rw [heq]
      exact Table.lookup_insert_if _ _ _ _
    constructor
    · intro hs' _
      constructor
      · -- the name it had would stay in `sessions_`, but it goes by another one now
        by_contra hauth
        have hauth : cs.authenticated = true := by simpa using hauth
        have hstopped : cs.stopped = false := by
          have := hs'.holders.mp (by rw [hsessions, if_pos rfl] : s'.sessions.lookup n = some c)
          rcases (hlive c n).mp this with ⟨_, h, _⟩ | ⟨h, _⟩
          · exact h
          · exact absurd rfl h
        have hold : s.Live c cs.clientName := ⟨cs, hc, hauth, hstopped, rfl⟩
        have hne : cs.clientName ≠ n := fun h => hfree (h ▸ hs.name_mem hold)
        have hstale : s'.sessions.lookup cs.clientName = some c := by
          rw [hsessions, if_neg hne]
          exact hs.holders.mpr hold
        rcases (hlive _ _).mp (hs'.holders.mp hstale) with ⟨_, _, h⟩ | ⟨h, _⟩
        · exact hne h.symm
        · exact h rfl
      · have := hs'.holders.mp (by rw [hsessions, if_pos rfl] : s'.sessions.lookup n = some c)
        rcases (hlive c n).mp this with ⟨_, h, _⟩ | ⟨h, _⟩
        · exact h
        · exact absurd rfl h
    · intro hfirst
      obtain ⟨hauth, hstopped⟩ := hfirst haccepted
      have hnew : ∀ k, ¬ s.Live c k := by
        rintro k ⟨ds, hds, ha, _⟩
        rw [hc] at hds
        obtain rfl := Option.some.inj hds
        exact absurd ha (by simp [hauth])
      refine RegistryInv.of_holders ?_ ?_
      · intro k
        rw [heq]
        simp only [Finset.mem_insert, AList.mem_insert, hs.keys]
      · intro k d
        rw [hsessions, hlive]
        split
        · rename_i hk
          subst hk
          constructor
          · intro h
            exact Or.inl ⟨(Option.some.inj h).symm, hstopped, rfl⟩
          · rintro (⟨rfl, _⟩ | ⟨_, h⟩)
            · rfl
            · exact absurd (hs.name_mem h) hfree
        · rename_i hk
          rw [hs.holders]
          constructor
          · exact fun h => Or.inr ⟨fun hd => hnew k (hd ▸ h), h⟩
          · rintro (⟨_, _, h⟩ | ⟨_, h⟩)
            · exact absurd h.symm hk
            · exact h
  · rw [heq, hrejected]
    refine ⟨fun _ h => absurd h (by simp), fun _ => ?_⟩
    exact KeepsNames.registryInv (s := s) ⟨rfl, rfl, fun _ _ => Iff.rfl⟩ hs

/-- **`Stop`** keeps the registry exact if and only if it is the session's first, or the
name it gives back is nobody's. -/
theorem registryInv_stop {s : Server} (hs : RegistryInv s) {c : CtrlId} {cs : ControlSession}
    (hc : s.controls c = some cs) :
    RegistryInv (ControlSession.stop s c cs) ↔
      (cs.authenticated = true → cs.stopped = true → cs.clientName ∉ s.activeClientNames) := by
  have heq := ControlSession.stop_eq s c cs
  generalize ControlSession.stop s c cs = s' at heq
  have hlive : ∀ d k, s'.Live d k ↔ d ≠ c ∧ s.Live d k := by
    intro d k
    rw [live_update { cs with
      proxies := [], udpProxies := [], registeredDomains := [], stopped := true }
      (by rw [heq])]
    simp
  have hself : ∀ k, s.Live c k → cs.authenticated = true ∧ cs.stopped = false ∧
      cs.clientName = k := by
    rintro k ⟨ds, hds, h⟩
    rw [hc] at hds
    obtain rfl := Option.some.inj hds
    exact h
  cases hauth : cs.authenticated with
  | false =>
      refine ⟨fun _ h => absurd h (by simp), fun _ => ?_⟩
      refine KeepsNames.registryInv (s := s) ⟨by rw [heq, hauth]; rfl,
        by rw [heq, hauth]; rfl, ?_⟩ hs
      intro d k
      rw [hlive]
      exact ⟨And.right, fun h => ⟨fun hd => absurd (hself k (hd ▸ h)).1 (by simp [hauth]), h⟩⟩
  | true =>
      have hactive : s'.activeClientNames = s.activeClientNames.erase cs.clientName := by
        rw [heq, hauth]
        rfl
      have hsessions : ∀ k, s'.sessions.lookup k =
          if k = cs.clientName then none else s.sessions.lookup k := by
        intro k
        rw [heq, hauth]
        exact Table.lookup_erase_if _ _ _
      have hkeys : ∀ {k}, k ∈ s'.activeClientNames ↔ k ∈ s'.sessions := by
        intro k
        rw [heq, hauth]
        simp only [if_true, Finset.mem_erase, AList.mem_erase, hs.keys]
      constructor
      · intro hs' _ hstopped hmem
        -- another live session holds the name, and loses its entry
        obtain ⟨d, hd⟩ := Option.isSome_iff_exists.mp (AList.lookup_isSome.mpr (hs.keys.mp hmem))
        have hdc : d ≠ c := by
          rintro rfl
          exact absurd (hself _ (hs.holders.mp hd)).2.1 (by simp [hstopped])
        have := hs'.holders.mpr ((hlive d _).mpr ⟨hdc, hs.holders.mp hd⟩)
        rw [hsessions, if_pos rfl] at this
        exact absurd this (by simp)
      · intro hfree
        refine RegistryInv.of_holders hkeys ?_
        intro k d
        rw [hsessions, hlive]
        split
        · rename_i hk
          subst hk
          refine ⟨fun h => absurd h (by simp), fun ⟨hdc, hd⟩ => ?_⟩
          cases hstopped : cs.stopped with
          | false => exact absurd (hs.distinct hd ⟨cs, hc, hauth, hstopped, rfl⟩) hdc
          | true => exact absurd (hs.name_mem hd) (hfree rfl hstopped)
        · rename_i hk
          rw [hs.holders]
          exact ⟨fun h => ⟨fun hd => hk (hself k (hd ▸ h)).2.2.symm, h⟩, And.right⟩

/-! ## Every run -/

theorem registryInv_init (token : String) (ports : List PortRange) (clients : List String) :
    RegistryInv (init token ports clients) := by
  refine RegistryInv.of_holders (by simp [init]) ?_
  intro n c
  simp [init, Live]

/-- **The registry stays exact over a step if and only if the step is `registryOk`.** -/
theorem registryInv_step {s s' : Server} (ho : Owned s) (hs : RegistryInv s) {e : Event}
    (h : s.step e = some s') : RegistryInv s' ↔ s.registryOk e = true := by
  have hkeep : KeepsNames s s' → (RegistryInv s' ↔ true = true) :=
    fun hk => ⟨fun _ => rfl, fun _ => hk.registryInv hs⟩
  cases e with
  | controlStream mux =>
      obtain rfl := Option.some.inj h
      exact hkeep (keepsNames_controlStream ho mux)
  | message c msg be =>
      simp only [step, Option.map_eq_some_iff] at h
      obtain ⟨cs, hc, rfl⟩ := h
      cases msg with
      | login m =>
          -- a login is the one message that takes a name
          have := registryInv_login hs hc m
          simp only [ControlSession.handleMessage, registryOk, hc, Option.all_some, this]
          cases ControlSession.loginAccepted s m <;> simp
      | registerProxy m =>
          refine hkeep ?_
          unfold ControlSession.handleMessage
          simp only
          split
          · exact keepsNames_registerProxy hc m be
          · exact KeepsNames.refl s
      | unregisterProxy m =>
          refine hkeep ?_
          unfold ControlSession.handleMessage
          simp only
          split
          · exact keepsNames_unregisterProxy hc m.name
          · exact KeepsNames.refl s
      | _ => exact hkeep (KeepsNames.refl s)
  | stop c =>
      simp only [step, Option.map_eq_some_iff] at h
      obtain ⟨cs, hc, rfl⟩ := h
      rw [registryInv_stop hs hc]
      simp only [registryOk, hc, Option.all_some]
      cases cs.authenticated <;> cases cs.stopped <;> simp
  | workStream mux bytes =>
      simp only [step, Option.ite_none_right_eq_some, Option.some.injEq] at h
      rcases handleWorkStream_cases h.2 with rfl | ⟨_, _, _, _, _, honly, _⟩
      · exact hkeep (KeepsNames.refl _)
      · exact hkeep (keepsNames_onlyTickets honly)
  | _ =>
      rcases step_userTraffic rfl h with ⟨_, _, _, _, hfiles⟩ | rfl
      · exact hkeep (keepsNames_onlyTickets hfiles.only)
      · exact hkeep (KeepsNames.refl _)

/-- **The registry of client names** is exact in every state of a run in which no session
logs in twice or after it was stopped, and none is stopped again while its old name is
in use. -/
theorem clientNames_registry {token : String} {ports : List PortRange} {clients : List String}
    {s : Server} (h : Reach step (fun s e => s.registryOk e = true) (init token ports clients) s) :
    RegistryInv s := by
  have hboth : Owned s ∧ RegistryInv s := by
    refine h.invariant (P := fun s => Owned s ∧ RegistryInv s)
      ⟨owned_init token ports clients, registryInv_init token ports clients⟩ ?_
    rintro s e s' ⟨ho, hs⟩ hok hstep
    exact ⟨owned_step ho hstep, (registryInv_step ho hs hstep).mpr hok⟩
  exact hboth.2

/-- A client comes back under the name it had. -/
theorem clientNames_registry_reconnect :
    ∃ s, Reach step (fun s e => s.registryOk e = true) (init "tok" [] []) s ∧
      s.sessions.lookup "a" = some 1 ∧ RegistryInv s := by
  obtain ⟨s, hreach, hobs⟩ := exists_of_runGuarded step registryOk
    [.controlStream 1, .message 0 (.login ⟨"tok", "a"⟩) none, .stop 0,
      .controlStream 2, .message 1 (.login ⟨"tok", "a"⟩) none]
    (fun s => s.sessions.lookup "a") (s := init "tok" [] []) (a := some 1) (by decide)
  exact ⟨s, hreach, hobs, clientNames_registry hreach⟩

/-- After a second login `sessions_` still maps the first name to the session, which
goes by the second one. -/
theorem clientNames_registry_secondLogin :
    ¬ ∀ (token : String) (ports : List PortRange) (clients : List String) (s : Server),
      Reach step anyStep (init token ports clients) s → RegistryInv s := by
  intro h
  obtain ⟨s, hreach, hobs⟩ := exists_of_runAll step
    [.controlStream 1, .message 0 (.login ⟨"tok", "a"⟩) none,
      .message 0 (.login ⟨"tok", "a"⟩) none]
    (fun s => (s.sessions.lookup "a", (s.controls 0).map ControlSession.clientName))
    (s := init "tok" [] []) (a := (some 0, some "a_1")) (by decide)
  obtain ⟨hlookup, hname⟩ := Prod.mk.inj hobs
  obtain ⟨cs, hc, _, _, hn⟩ := (h _ _ _ s hreach).holders.mp hlookup
  rw [hc, Option.map_some, hn] at hname
  exact absurd hname (by decide)

end Server

end Cfrp
