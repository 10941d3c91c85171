import Cfrp.Lib.Transition
import Cfrp.Server.Effects
import Cfrp.Server.Traffic

/-!
# Who owns what

What holds of the tables in every reachable state, whatever the clients send: an
entry belongs to a control session that exists and has logged in, a route's domain is
on its session's list, and an open listener is on its session's list.

The converse directions fail in places, and the results about names, isolation and
cleanup are about exactly these places.
-/

namespace Cfrp

open Lib Protocol

namespace Server

/-- The session object exists and has logged in. -/
def Authenticated (s : Server) (c : CtrlId) : Prop :=
  ∃ cs, s.controls c = some cs ∧ cs.authenticated = true

structure Owned (s : Server) : Prop where
  fresh : ∀ {c}, s.nextControl ≤ c → s.controls c = none
  names : ∀ {n}, n ∈ s.activeClientNames ↔ n ∈ s.sessions
  session : ∀ {n c}, s.sessions.lookup n = some c → s.Authenticated c
  mux : ∀ {m c}, s.muxToControl.lookup m = some c →
    ∃ cs, s.controls c = some cs ∧ cs.muxSession = m
  route : ∀ {d r}, s.vhostRoutes.lookup d = some r →
    ∃ cs, s.controls r.session = some cs ∧ cs.authenticated = true ∧ d ∈ cs.registeredDomains
  limiter : ∀ {n rl c}, s.proxyRateLimiters.lookup n = some rl → c ∈ rl.owners →
    s.Authenticated c
  listener : ∀ {l}, l ∈ s.listeners → s.Authenticated l.session ∧ l.id < s.listeners.length
  listening : ∀ {l}, l ∈ s.listeners → l.id ∈ s.listening →
    ∃ cs, s.controls l.session = some cs ∧ l ∈ cs.allProxies
  pending : ∀ {t c}, s.PendingFor t c → s.Authenticated c

/-! ## Replacing one session object -/

theorem controls_update_cases {s s' : Server} {c d : CtrlId} {cs' ds : ControlSession}
    (hs' : s'.controls = Function.update s.controls c (some cs'))
    (hd : s'.controls d = some ds) : d = c ∧ ds = cs' ∨ d ≠ c ∧ s.controls d = some ds := by
  rw [hs', Function.update_apply] at hd
  split at hd
  · rename_i h
    exact Or.inl ⟨h, (Option.some.inj hd).symm⟩
  · rename_i h
    exact Or.inr ⟨h, hd⟩

/-- What is true of every session object stays true of the objects that replace them. -/
theorem exists_control_update {s s' : Server} {c d : CtrlId} {cs cs' : ControlSession}
    {P Q : ControlSession → Prop} (hc : s.controls c = some cs)
    (hs' : s'.controls = Function.update s.controls c (some cs')) (hself : P cs → Q cs')
    (hother : ∀ ds, P ds → d ≠ c → Q ds)
    (h : ∃ ds, s.controls d = some ds ∧ P ds) : ∃ ds, s'.controls d = some ds ∧ Q ds := by
  obtain ⟨ds, hds, hP⟩ := h
  by_cases hdc : d = c
  · subst hdc
    rw [hc] at hds
    refine ⟨cs', by rw [hs', Function.update_self], hself ?_⟩
    rwa [← Option.some.inj hds] at hP
  · exact ⟨ds, by rw [hs', Function.update_of_ne hdc]; exact hds, hother ds hP hdc⟩

theorem Authenticated.update {s s' : Server} {c d : CtrlId} {cs cs' : ControlSession}
    (h : s.Authenticated d) (hc : s.controls c = some cs)
    (hs' : s'.controls = Function.update s.controls c (some cs'))
    (hauth : cs.authenticated = true → cs'.authenticated = true) : s'.Authenticated d :=
  exists_control_update (P := fun ds => ds.authenticated = true) hc hs' hauth
    (fun _ h _ => h) h

/-! ## One step -/

theorem owned_init (token : String) (ports : List PortRange) (clients : List String) :
    Owned (init token ports clients) where
  fresh _ := rfl
  names := by simp [init]
  session h := absurd h (by simp [init])
  mux h := absurd h (by simp [init])
  route h := absurd h (by simp [init])
  limiter h := absurd h (by simp [init])
  listener h := absurd h (by simp [init])
  listening h := absurd h (by simp [init])
  pending h := by
    rcases h with ⟨i, h, _⟩ | ⟨i, h, _⟩
    · exact absurd h (by simp [init])
    · exact absurd h (by simp [init])

theorem owned_onlyTickets {s s' : Server} (hs : Owned s) (h : OnlyTickets s s')
    (hpending : ∀ t c, s'.PendingFor t c → s.PendingFor t c ∨ s.Authenticated c) :
    Owned s' := by
  have hauth : ∀ t c, s'.PendingFor t c → s.Authenticated c := fun t c hp =>
    (hpending t c hp).elim hs.pending id
  obtain ⟨p, u, q, m, sent, handed, rfl⟩ := h
  exact ⟨hs.fresh, hs.names, hs.session, hs.mux, hs.route, hs.limiter, hs.listener,
    hs.listening, fun h => hauth _ _ h⟩

theorem owned_controlStream {s : Server} (hs : Owned s) (mux : MuxId) :
    Owned (s.handleControlStream mux) := by
  have hfresh : s.controls s.nextControl = none := hs.fresh (Nat.le_refl _)
  -- the new session takes a number no object had, so every other object is untouched
  have hkeep : ∀ {c cs}, s.controls c = some cs →
      (s.handleControlStream mux).controls c = some cs := by
    intro c cs hc
    have hne : c ≠ s.nextControl := fun h => absurd (h ▸ hc) (by simp [hfresh])
    exact (Function.update_of_ne hne _ _).trans hc
  have hauth : ∀ {c}, s.Authenticated c → (s.handleControlStream mux).Authenticated c :=
    fun ⟨cs, hc, ha⟩ => ⟨cs, hkeep hc, ha⟩
  constructor
  case fresh =>
    intro c hc
    have hlt : s.nextControl < c := hc
    exact (Function.update_of_ne (Nat.ne_of_gt hlt) _ _).trans (hs.fresh (Nat.le_of_lt hlt))
  case names => exact hs.names
  case session => exact fun h => hauth (hs.session h)
  case mux =>
    intro m c h
    have h : (s.muxToControl.insert mux s.nextControl).lookup m = some c := h
    rw [Table.lookup_insert_if] at h
    split at h
    · rename_i hm
      obtain rfl := Option.some.inj h
      exact ⟨{ muxSession := mux }, Function.update_self _ _ _, hm.symm⟩
    · obtain ⟨cs, hc, hm⟩ := hs.mux h
      exact ⟨cs, hkeep hc, hm⟩
  case route =>
    intro d r h
    obtain ⟨cs, hc, hrest⟩ := hs.route h
    exact ⟨cs, hkeep hc, hrest⟩
  case limiter => exact fun h hd => hauth (hs.limiter h hd)
  case listener => exact fun h => ⟨hauth (hs.listener h).1, (hs.listener h).2⟩
  case listening =>
    intro l hl hopen
    obtain ⟨cs, hc, hmem⟩ := hs.listening hl hopen
    exact ⟨cs, hkeep hc, hmem⟩
  case pending => exact fun h => hauth (hs.pending h)

/-! ## What a session's handlers may do -/

/-- A handler of session `c` turned its object `cs` into `cs'`: whatever the tables hold
now they held before, unless it was filed for `c` itself. -/
structure ActsFor (s s' : Server) (c : CtrlId) (cs cs' : ControlSession) : Prop where
  next : s'.nextControl = s.nextControl
  controls : s'.controls = Function.update s.controls c (some cs')
  sameMux : cs'.muxSession = cs.muxSession
  auth : cs.authenticated = true → cs'.authenticated = true
  names : (∀ n, n ∈ s.activeClientNames ↔ n ∈ s.sessions) →
    ∀ n, n ∈ s'.activeClientNames ↔ n ∈ s'.sessions
  session : ∀ {n d}, s'.sessions.lookup n = some d →
    s.sessions.lookup n = some d ∨ d = c ∧ cs'.authenticated = true
  mux : ∀ {m d}, s'.muxToControl.lookup m = some d → s.muxToControl.lookup m = some d
  route : ∀ {d r}, s'.vhostRoutes.lookup d = some r →
    s.vhostRoutes.lookup d = some r ∧ (d ∈ cs.registeredDomains → d ∈ cs'.registeredDomains) ∨
    r.session = c ∧ cs'.authenticated = true ∧ d ∈ cs'.registeredDomains
  limiter : ∀ {n rl d}, s'.proxyRateLimiters.lookup n = some rl → d ∈ rl.owners →
    (∃ old, s.proxyRateLimiters.lookup n = some old ∧ d ∈ old.owners) ∨
    d = c ∧ cs'.authenticated = true
  listener : ∀ {l}, l ∈ s'.listeners → l ∈ s.listeners ∨
    l.session = c ∧ cs'.authenticated = true ∧ l.id < s'.listeners.length
  grows : s.listeners.length ≤ s'.listeners.length
  listening : ∀ {l}, l ∈ s'.listeners → l.id ∈ s'.listening →
    l ∈ s.listeners ∧ l.id ∈ s.listening ∧ (l ∈ cs.allProxies → l ∈ cs'.allProxies) ∨
    l.session = c ∧ l ∈ cs'.allProxies
  pending : ∀ {t d}, s'.PendingFor t d → s.PendingFor t d
  handed : s'.handed = s.handed
  announced : ∀ {d m}, (d, Message.newUserConn m) ∈ s'.sent →
    (d, Message.newUserConn m) ∈ s.sent

/-- A handler that acts for one session keeps all ownership facts. -/
theorem owned_actsFor {s s' : Server} {c : CtrlId} {cs cs' : ControlSession} (hs : Owned s)
    (hc : s.controls c = some cs) (h : ActsFor s s' c cs cs') : Owned s' := by
  have hauth : ∀ {d}, s.Authenticated d → s'.Authenticated d :=
    fun hd => hd.update hc h.controls h.auth
  have hself : cs'.authenticated = true → s'.Authenticated c :=
    fun ha => ⟨cs', by rw [h.controls, Function.update_self], ha⟩
  constructor
  case fresh =>
    intro d hd
    rw [h.next] at hd
    have hne : d ≠ c := fun heq => absurd (hs.fresh (heq ▸ hd)) (by simp [hc])
    rw [h.controls, Function.update_of_ne hne]
    exact hs.fresh hd
  case names => exact fun {n} => h.names (fun n => hs.names) n
  case session =>
    intro n d hn
    rcases h.session hn with hn | ⟨rfl, ha⟩
    · exact hauth (hs.session hn)
    · exact hself ha
  case mux =>
    intro m d hm
    exact exists_control_update hc h.controls (fun hmux => h.sameMux.trans hmux)
      (fun _ hmux _ => hmux) (hs.mux (h.mux hm))
  case route =>
    intro d r hr
    -- a route is old, and its session kept the domain; or it is one of `c`
    rcases h.route hr with ⟨hr, hkeep⟩ | ⟨rfl, ha, hd⟩
    · exact exists_control_update hc h.controls (fun hd => ⟨h.auth hd.1, hkeep hd.2⟩)
        (fun _ hd _ => hd) (hs.route hr)
    · exact ⟨cs', by rw [h.controls, Function.update_self], ha, hd⟩
  case limiter =>
    intro n rl d hn hd
    rcases h.limiter hn hd with ⟨old, hold, hd⟩ | ⟨rfl, ha⟩
    · exact hauth (hs.limiter hold hd)
    · exact hself ha
  case listener =>
    intro l hl
    rcases h.listener hl with hl | ⟨hcl, ha, hlt⟩
    · obtain ⟨hla, hlt⟩ := hs.listener hl
      exact ⟨hauth hla, Nat.lt_of_lt_of_le hlt h.grows⟩
    · exact ⟨hcl ▸ hself ha, hlt⟩
  case listening =>
    intro l hl hopen
    rcases h.listening hl hopen with ⟨hl, hopen, hkeep⟩ | ⟨hcl, hmem⟩
    · exact exists_control_update hc h.controls hkeep (fun _ hmem _ => hmem)
        (hs.listening hl hopen)
    · exact ⟨cs', by rw [hcl, h.controls, Function.update_self], hmem⟩
  case pending => exact fun hp => hauth (hs.pending (h.pending hp))

theorem announced_append {sent : List (CtrlId × Message)} {c : CtrlId} {msg : Message}
    (hmsg : ∀ m, msg ≠ .newUserConn m) {d : CtrlId} {m : NewUserConnMessage}
    (h : (d, Message.newUserConn m) ∈ sent ++ [(c, msg)]) :
    (d, Message.newUserConn m) ∈ sent := by
  rcases List.mem_append.mp h with h | h
  · exact h
  · exact absurd (congrArg Prod.snd (List.mem_singleton.mp h)).symm (hmsg m)

theorem actsFor_refl {s : Server} {c : CtrlId} {cs : ControlSession}
    (hc : s.controls c = some cs) : ActsFor s s c cs cs where
  next := rfl
  controls := by rw [← hc, Function.update_eq_self]
  sameMux := rfl
  auth := id
  names := id
  session := Or.inl
  mux := id
  route h := Or.inl ⟨h, id⟩
  limiter h hd := Or.inl ⟨_, h, hd⟩
  listener := Or.inl
  grows := Nat.le_refl _
  listening hl hopen := Or.inl ⟨hl, hopen, id⟩
  pending := id
  handed := rfl
  announced := id

/-- An answer changes no table. -/
theorem actsFor_answer {s : Server} {c : CtrlId} {cs : ControlSession}
    (hc : s.controls c = some cs) {msg : Message} (hmsg : ∀ m, msg ≠ .newUserConn m) :
    ActsFor s { s with sent := s.sent ++ [(c, msg)] } c cs cs :=
  { actsFor_refl hc with announced := announced_append hmsg }

theorem actsFor_login {s : Server} {c : CtrlId} {cs : ControlSession}
    (hc : s.controls c = some cs) (m : LoginMessage) :
    ∃ cs', ActsFor s (ControlSession.handleLogin s c cs m) c cs cs' := by
  rcases ControlSession.handleLogin_cases s c cs m with ⟨_, n, resp, _, heq⟩ | ⟨_, resp, heq⟩
  · rw [heq]
    refine ⟨{ cs with clientName := n, authenticated := true }, { actsFor_refl hc with
      controls := rfl
      auth := fun _ => rfl
      names := fun hnames k => ?_
      session := fun {k d} hk => ?_
      route := fun h => Or.inl ⟨h, id⟩
      limiter := fun h hd => Or.inl ⟨_, h, hd⟩
      listener := Or.inl
      announced := announced_append (by simp) }⟩
    · simp only [Finset.mem_insert, AList.mem_insert, hnames]
    · simp only [Table.lookup_insert_if] at hk
      split at hk
      · exact Or.inr ⟨(Option.some.inj hk).symm, rfl⟩
      · exact Or.inl hk
  · rw [heq]
    exact ⟨cs, actsFor_answer hc (by simp)⟩

/-- A limiter a registration leaves belongs to who had it before, or to the session that
registers. -/
theorem limitersAfter_owners {s : Server} {c d : CtrlId} {m : RegisterProxyMessage} {n : String}
    {rl : RateLimiter}
    (h : (ControlSession.limitersAfter s c m).lookup n = some rl) (hd : d ∈ rl.owners) :
    (∃ old, s.proxyRateLimiters.lookup n = some old ∧ d ∈ old.owners) ∨ d = c := by
  unfold ControlSession.limitersAfter at h
  split at h
  · rw [Table.lookup_insert_if] at h
    split at h
    · rename_i hn
      obtain rfl := Option.some.inj h
      exact hn ▸ mem_registeredLimiter_owners.mp hd
    · exact Or.inl ⟨_, h, hd⟩
  · exact Or.inl ⟨_, h, hd⟩

theorem mem_allProxies_addListener {cs : ControlSession} {l k : Listener} :
    k ∈ (cs.addListener l).allProxies ↔ k ∈ cs.allProxies ∨ k = l := by
  unfold ControlSession.addListener ControlSession.allProxies
  cases l.kind with
  | tcp => simp only [List.mem_append, List.mem_singleton]; tauto
  | udp => simp only [List.mem_append, List.mem_singleton]; tauto

theorem addListener_fields (cs : ControlSession) (l : Listener) :
    (cs.addListener l).muxSession = cs.muxSession ∧
      (cs.addListener l).authenticated = cs.authenticated ∧
      (cs.addListener l).registeredDomains = cs.registeredDomains := by
  unfold ControlSession.addListener
  cases l.kind with
  | tcp => exact ⟨rfl, rfl, rfl⟩
  | udp => exact ⟨rfl, rfl, rfl⟩

theorem actsFor_registerProxy {s : Server} (hs : Owned s) {c : CtrlId} {cs : ControlSession}
    (hc : s.controls c = some cs) (ha : cs.authenticated = true) (m : RegisterProxyMessage)
    (thrown : Option Thrown) :
    ∃ cs', ActsFor s (ControlSession.handleRegisterProxy s c cs m thrown) c cs cs' := by
  have hlimiter : ∀ {n rl d}, (ControlSession.limitersAfter s c m).lookup n = some rl →
      d ∈ rl.owners → (∃ old, s.proxyRateLimiters.lookup n = some old ∧ d ∈ old.owners) ∨
      d = c ∧ cs.authenticated = true :=
    fun h hd => (limitersAfter_owners h hd).imp id fun h => ⟨h, ha⟩
  rcases ControlSession.handleRegisterProxy_cases s c cs m thrown with
    ⟨_, resp, heq⟩ | ⟨_, resp, heq⟩ | ⟨_, resp, heq⟩
  · rw [heq]
    exact ⟨cs, { actsFor_refl hc with
      limiter := hlimiter
      announced := announced_append (by simp) }⟩
  · rw [heq]
    refine ⟨_, { actsFor_refl hc with
      controls := rfl
      limiter := hlimiter
      route := fun {d r} h => ?_
      announced := announced_append (by simp) }⟩
    simp only [Table.lookup_insertAll] at h
    split at h
    · rename_i hd
      obtain rfl := Option.some.inj h
      exact Or.inr ⟨rfl, ha, ControlSession.mem_foldl_insert.mpr (Or.inl hd)⟩
    · exact Or.inl ⟨h, fun hd => ControlSession.mem_foldl_insert.mpr (Or.inr hd)⟩
  · rw [heq]
    obtain ⟨hmux, hauth, hdomains⟩ := addListener_fields cs (ControlSession.newListener s c m)
    refine ⟨cs.addListener (ControlSession.newListener s c m), { actsFor_refl hc with
      controls := rfl
      sameMux := hmux
      auth := fun h => hauth.trans h
      session := Or.inl
      route := fun h => Or.inl ⟨h, fun hd => by rw [hdomains]; exact hd⟩
      limiter := fun h hd => (hlimiter h hd).imp id fun h => ⟨h.1, hauth.trans h.2⟩
      listener := fun {l} hl => ?_
      grows := by simp
      listening := fun {l} hl hopen => ?_
      announced := announced_append (by simp) }⟩
    · rcases List.mem_append.mp hl with hl | hl
      · exact Or.inl hl
      · rw [List.mem_singleton.mp hl]
        exact Or.inr ⟨rfl, hauth.trans ha, by simp [ControlSession.newListener]⟩
    · rcases List.mem_append.mp hl with hl | hl
      · -- an old listener has a smaller number than the new one
        have hne : l.id ≠ s.listeners.length := Nat.ne_of_lt (hs.listener hl).2
        refine Or.inl ⟨hl, (List.mem_cons.mp hopen).resolve_left hne, fun hmem => ?_⟩
        exact mem_allProxies_addListener.mpr (Or.inl hmem)
      · rw [List.mem_singleton.mp hl]
        exact Or.inr ⟨rfl, mem_allProxies_addListener.mpr (Or.inr rfl)⟩

theorem actsFor_unregisterProxy {s : Server} {c : CtrlId} {cs : ControlSession}
    (hc : s.controls c = some cs) (name : String) :
    ∃ cs', ActsFor s (ControlSession.handleUnregisterProxy s c cs name) c cs cs' := by
  rcases ControlSession.handleUnregisterProxy_cases s c cs name with
    heq | ⟨p, ps, us, hkeep, _, heq⟩
  · rw [heq]
    exact ⟨cs, actsFor_refl hc⟩
  · rw [heq]
    refine ⟨{ cs with proxies := ps, udpProxies := us }, { actsFor_refl hc with
      controls := rfl
      listening := fun {l} hl hopen => ?_ }⟩
    obtain ⟨hopen, hne⟩ := List.mem_filter.mp hopen
    have hne : l ≠ p := fun h => absurd hne (by simp [h])
    exact Or.inl ⟨hl, hopen, fun hmem => hkeep l hmem hne⟩

theorem actsFor_stop {s : Server} {c : CtrlId} {cs : ControlSession}
    (hc : s.controls c = some cs) :
    ActsFor s (ControlSession.stop s c cs) c cs
      { cs with proxies := [], udpProxies := [], registeredDomains := [], stopped := true } := by
  rw [ControlSession.stop_eq]
  refine { actsFor_refl hc with
    controls := rfl
    names := fun hnames n => ?_
    session := fun {n d} h => ?_
    mux := Table.lookup_of_lookup_erase
    route := fun {d r} h => ?_
    limiter := fun {n rl d} h hd => ?_
    listening := fun {l} hl hopen => ?_
    pending := fun {t d} h => ?_ }
  · cases cs.authenticated with
    | true => simp only [if_true, Finset.mem_erase, AList.mem_erase, hnames]
    | false => exact hnames n
  · cases hauth : cs.authenticated with
    | true =>
        simp only [hauth, if_true] at h
        exact Or.inl (Table.lookup_of_lookup_erase h)
    | false =>
        simp only [hauth] at h
        exact Or.inl h
  · simp only [Table.lookup_eraseAll] at h
    split at h
    · exact absurd h (by simp)
    · rename_i hd
      exact Or.inl ⟨h, fun hmem => absurd hmem hd⟩
  · simp only [Table.lookup_eraseAll] at h
    split at h
    · exact absurd h (by simp)
    · exact Or.inl ⟨_, h, hd⟩
  · obtain ⟨hopen, hall⟩ := List.mem_filter.mp hopen
    refine Or.inl ⟨hl, hopen, fun hmem => ?_⟩
    have := List.all_eq_true.mp hall l hmem
    exact absurd this (by simp)
  · rcases h with ⟨i, hi, howner⟩ | ⟨i, hi, howner⟩
    · simp only [Table.lookup_eraseIf, Option.filter_eq_some_iff] at hi
      exact Or.inl ⟨i, hi.1, howner⟩
    · simp only [Table.lookup_eraseIf, Option.filter_eq_some_iff] at hi
      exact Or.inr ⟨i, hi.1, howner⟩

/-! ## Every reachable state -/

theorem step_message {s : Server} {c : CtrlId} {cs : ControlSession}
    (hc : s.controls c = some cs) (msg : Message) (thrown : Option Thrown) :
    s.step (.message c msg thrown) =
      some (ControlSession.handleMessage s c cs msg thrown) := by
  simp only [step, hc, Option.map_some]

/-- **The step relation, sorted.** A step opens a control stream, or a handler acts for
the one session it belongs to, or nothing but tickets change. -/
theorem step_cases {s s' : Server} (hs : Owned s) {e : Event} (h : s.step e = some s') :
    (∃ mux, e = .controlStream mux ∧ s' = s.handleControlStream mux) ∨
    (∃ c cs cs', ((∃ msg be, e = .message c msg be) ∨ e = .stop c) ∧
      s.controls c = some cs ∧ ActsFor s s' c cs cs') ∨
    (e.isUserTraffic = true ∧ ((∃ c ticket, s.drawnTicket e = some (c, ticket) ∧
      s.ReachedByUsers c ∧ Files s s' c ticket) ∨ s' = s)) ∨
    (∃ mux bytes, e = .workStream mux bytes ∧ (s' = s ∨ ∃ hand : HandOver,
      hand.mux = mux ∧ s.PendingFor (ticketOf bytes) hand.owner ∧
      s'.handed = s.handed ++ [hand] ∧ s'.sent = s.sent ∧ OnlyTickets s s' ∧
      PendingShrinks s s')) := by
  cases e with
  | controlStream mux =>
      exact Or.inl ⟨mux, rfl, (Option.some.inj h).symm⟩
  | message c msg be =>
      simp only [step, Option.map_eq_some_iff] at h
      obtain ⟨cs, hc, rfl⟩ := h
      have hacts : ∃ cs', ActsFor s (ControlSession.handleMessage s c cs msg be) c cs cs' := by
        rcases ControlSession.handleMessage_cases s c cs msg be with
          ⟨m, _, heq⟩ | ⟨m, _, ha, heq⟩ | ⟨m, _, _, heq⟩ | heq
        · exact heq ▸ actsFor_login hc m
        · exact heq ▸ actsFor_registerProxy hs hc ha m be
        · exact heq ▸ actsFor_unregisterProxy hc m.name
        · exact heq.symm ▸ ⟨cs, actsFor_refl hc⟩
      obtain ⟨cs', hacts⟩ := hacts
      exact Or.inr (Or.inl ⟨c, cs, cs', Or.inl ⟨msg, be, rfl⟩, hc, hacts⟩)
  | stop c =>
      simp only [step, Option.map_eq_some_iff] at h
      obtain ⟨cs, hc, rfl⟩ := h
      exact Or.inr (Or.inl ⟨c, cs, _, Or.inr rfl, hc, actsFor_stop hc⟩)
  | workStream mux bytes =>
      simp only [step, Option.ite_none_right_eq_some, Option.some.injEq] at h
      exact Or.inr (Or.inr (Or.inr ⟨mux, bytes, rfl, handleWorkStream_cases h.2⟩))
  | acceptUser => exact Or.inr (Or.inr (Or.inl ⟨rfl, step_userTraffic rfl h⟩))
  | receiveUdp => exact Or.inr (Or.inr (Or.inl ⟨rfl, step_userTraffic rfl h⟩))
  | vhostRequest => exact Or.inr (Or.inr (Or.inl ⟨rfl, step_userTraffic rfl h⟩))

theorem PendingShrinks.pendingFor {s s' : Server} (h : PendingShrinks s s') {t : String}
    {c : CtrlId} : s'.PendingFor t c → s.PendingFor t c := by
  rintro (⟨i, hi, howner⟩ | ⟨i, hi, howner⟩)
  · exact Or.inl ⟨i, h.tcp hi, howner⟩
  · exact Or.inr ⟨i, h.udp hi, howner⟩

theorem Files.pendingFor {s s' : Server} {c : CtrlId} {ticket : String}
    (h : Files s s' c ticket) {t : String} {d : CtrlId} :
    s'.PendingFor t d → s.PendingFor t d ∨ t = ticket ∧ d = c := by
  rintro (⟨i, hi, rfl⟩ | ⟨i, hi, rfl⟩)
  · exact (h.tcp hi).imp (fun hi => Or.inl ⟨i, hi, rfl⟩) id
  · exact (h.udp hi).imp (fun hi => Or.inr ⟨i, hi, rfl⟩) id

theorem ReachedByUsers.authenticated {s : Server} (hs : Owned s) {c : CtrlId}
    (h : s.ReachedByUsers c) : s.Authenticated c := by
  rcases h with ⟨l, hl, rfl⟩ | ⟨d, r, hr, rfl⟩
  · exact (hs.listener hl).1
  · obtain ⟨cs, hc, ha, _⟩ := hs.route hr
    exact ⟨cs, hc, ha⟩

theorem owned_step {s s' : Server} (hs : Owned s) {e : Event} (h : s.step e = some s') :
    Owned s' := by
  rcases step_cases hs h with ⟨mux, _, rfl⟩ | ⟨c, cs, cs', _, hc, hacts⟩ |
    ⟨_, ⟨c, ticket, _, hreach, hfiles⟩ | rfl⟩ | ⟨_, _, _, rfl | ⟨_, _, _, _, _, honly, hshrinks⟩⟩
  · exact owned_controlStream hs mux
  · exact owned_actsFor hs hc hacts
  · refine owned_onlyTickets hs hfiles.only fun t d hp => ?_
    rcases hfiles.pendingFor hp with hp | ⟨_, rfl⟩
    · exact Or.inl hp
    · exact Or.inr (hreach.authenticated hs)
  · exact hs
  · exact hs
  · exact owned_onlyTickets hs honly fun t d hp => Or.inl (hshrinks.pendingFor hp)

/-- **Ownership holds in every reachable state.** -/
theorem owned_reachable {token : String} {ports : List PortRange} {clients : List String}
    {ok : Server → Event → Prop} {s : Server}
    (h : Reach step ok (init token ports clients) s) : Owned s :=
  h.invariant (owned_init token ports clients) fun _ _ _ hs _ hstep => owned_step hs hstep

end Server

end Cfrp
