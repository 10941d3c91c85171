import Cfrp.Server.Registry

/-!
# What one client can do to another

Routes, rate limiters, pending tickets and names are filed under strings the clients
choose, and nothing in the handlers of a session asks whose entry it is about to
overwrite or erase. So the exact condition under which a handler of one session spares
another session is that their strings do not meet. `NoClash` spells it out, one
conjunct for each table the handler writes to.
-/

namespace Cfrp

open Lib Protocol

namespace Server

/-- Rate and tokens of the limiter under a name, if a registration of `a` made it or set its
rate. -/
def limiterOf (s : Server) (a : CtrlId) (name : String) : Option (Int × Rat) :=
  ((s.proxyRateLimiters.lookup name).filter fun rl => decide (a ∈ rl.owners)).map
    RateLimiter.bucket

theorem limiterOf_eq_some {s : Server} {a : CtrlId} {name : String} {bucket : Int × Rat} :
    s.limiterOf a name = some bucket ↔ ∃ rl, s.proxyRateLimiters.lookup name = some rl ∧
      a ∈ rl.owners ∧ rl.bucket = bucket := by
  simp only [limiterOf, Option.map_eq_some_iff, Option.filter_eq_some_iff, decide_eq_true_eq,
    and_assoc]

/-- The entries that exist on behalf of `a` are the same in both states. -/
structure Untouched (a : CtrlId) (s s' : Server) : Prop where
  routes : ∀ d r, r.session = a →
    (s'.vhostRoutes.lookup d = some r ↔ s.vhostRoutes.lookup d = some r)
  limiters : ∀ n, s'.limiterOf a n = s.limiterOf a n
  userConns : ∀ t i, i.owner = a →
    (s'.pendingUserConns.lookup t = some i ↔ s.pendingUserConns.lookup t = some i)
  udpSessions : ∀ t i, i.owner = a →
    (s'.pendingUdpSessions.lookup t = some i ↔ s.pendingUdpSessions.lookup t = some i)
  names : ∀ n, s'.sessions.lookup n = some a ↔ s.sessions.lookup n = some a

theorem Untouched.refl (a : CtrlId) (s : Server) : Untouched a s s :=
  ⟨fun _ _ _ => Iff.rfl, fun _ => rfl, fun _ _ _ => Iff.rfl, fun _ _ _ => Iff.rfl,
    fun _ => Iff.rfl⟩

theorem Untouched.trans {a : CtrlId} {s₁ s₂ s₃ : Server} (h₁ : Untouched a s₁ s₂)
    (h₂ : Untouched a s₂ s₃) : Untouched a s₁ s₃ where
  routes d r h := (h₂.routes d r h).trans (h₁.routes d r h)
  limiters n := (h₂.limiters n).trans (h₁.limiters n)
  userConns t i h := (h₂.userConns t i h).trans (h₁.userConns t i h)
  udpSessions t i h := (h₂.udpSessions t i h).trans (h₁.udpSessions t i h)
  names n := (h₂.names n).trans (h₁.names n)

/-- The session whose handler an event runs. -/
def Event.actor : Event → Option CtrlId
  | .message c _ _ => some c
  | .stop c => some c
  | _ => none

/-- A registration meets no entry of `a`: the limiter it would retune is not `a`'s or has
that rate already, and the domains it would route are not `a`'s. -/
def RegisterSpares (s : Server) (a : CtrlId) (m : RegisterProxyMessage)
    (thrown : Option Thrown) : Prop :=
  (m.bandwidthLimit > 0 → ∀ rl, s.proxyRateLimiters.lookup m.name = some rl → a ∈ rl.owners →
    rl.setRate m.bandwidthLimit = rl) ∧
  (ControlSession.isVhostType (ControlSession.typeOf m) = true →
    ∀ d ∈ ControlSession.routedDomains m thrown, ∀ r,
      s.vhostRoutes.lookup d = some r → r.session ≠ a)

/-- `Stop` of the session `cs` meets no entry of `a`: no entry of `a` has a domain, a proxy
name or a client name that `cs` still lists. -/
def StopSpares (s : Server) (a : CtrlId) (cs : ControlSession) : Prop :=
  (∀ d r, s.vhostRoutes.lookup d = some r → r.session = a → ¬ d ∈ cs.registeredDomains) ∧
  (∀ n rl, s.proxyRateLimiters.lookup n = some rl → a ∈ rl.owners → ¬ cs.serves n = true) ∧
  (∀ t i, s.pendingUserConns.lookup t = some i → i.owner = a → ¬ cs.serves i.proxyName = true) ∧
  (∀ t i, s.pendingUdpSessions.lookup t = some i → i.owner = a →
    ¬ cs.serves i.proxyName = true) ∧
  (∀ n c, s.sessions.lookup n = some c → c = a →
    ¬ (cs.authenticated = true ∧ n = cs.clientName))

/-- The strings of the step do not meet those of `a`. -/
def NoClash (s : Server) (a : CtrlId) : Event → Prop
  | .message c (.registerProxy m) thrown => ∀ cs, s.controls c = some cs →
      cs.authenticated = true → s.RegisterSpares a m thrown
  | .stop c => ∀ cs, s.controls c = some cs → s.StopSpares a cs
  | _ => True

/-! ## Tables that lose entries -/

/-- Where entries are only dropped, those of one owner are untouched if and only if none
of them is dropped. -/
theorem untouched_of_dropped {κ ν : Type*} {f f' : κ → Option ν} (own : ν → Prop)
    (gone : κ → ν → Prop) (hf : ∀ k v, f' k = some v ↔ f k = some v ∧ ¬ gone k v) :
    (∀ k v, own v → (f' k = some v ↔ f k = some v)) ↔
      ∀ k v, f k = some v → own v → ¬ gone k v := by
  constructor
  · intro h k v hv hown
    exact ((hf k v).mp ((h k v hown).mpr hv)).2
  · intro h k v hown
    rw [hf]
    exact ⟨And.left, fun hv => ⟨hv, h k v hv hown⟩⟩

theorem lookup_eraseAll_iff {ν : Type} {t : Table String ν} {ks : List String} {k : String}
    {v : ν} : (t.eraseAll ks).lookup k = some v ↔ t.lookup k = some v ∧ ¬ k ∈ ks := by
  rw [Table.lookup_eraseAll]
  by_cases hk : k ∈ ks <;> simp [hk]

theorem lookup_eraseIf_iff {ν : Type} {t : Table String ν} {p : ν → Bool} {k : String} {v : ν} :
    (t.eraseIf p).lookup k = some v ↔ t.lookup k = some v ∧ ¬ p v = true := by
  rw [Table.lookup_eraseIf, Option.filter_eq_some_iff]
  simp

/-! ## What `Stop` leaves in a table -/

theorem lookup_stop_vhostRoutes {s : Server} {c : CtrlId} {cs : ControlSession} {d : String}
    {route : VhostRoute} :
    (ControlSession.stop s c cs).vhostRoutes.lookup d = some route ↔
      s.vhostRoutes.lookup d = some route ∧ ¬ d ∈ cs.registeredDomains := by
  rw [ControlSession.stop_eq]
  exact lookup_eraseAll_iff

theorem lookup_stop_proxyRateLimiters {s : Server} {c : CtrlId} {cs : ControlSession} {n : String}
    {rl : RateLimiter} :
    (ControlSession.stop s c cs).proxyRateLimiters.lookup n = some rl ↔
      s.proxyRateLimiters.lookup n = some rl ∧ ¬ cs.serves n = true := by
  rw [ControlSession.stop_eq, ControlSession.serves_iff, ← List.mem_map]
  exact lookup_eraseAll_iff

theorem lookup_stop_pendingUserConns {s : Server} {c : CtrlId} {cs : ControlSession} {t : String}
    {i : TcpSessionInfo} :
    (ControlSession.stop s c cs).pendingUserConns.lookup t = some i ↔
      s.pendingUserConns.lookup t = some i ∧ ¬ cs.serves i.proxyName = true := by
  rw [ControlSession.stop_eq]
  exact lookup_eraseIf_iff

theorem lookup_stop_pendingUdpSessions {s : Server} {c : CtrlId} {cs : ControlSession} {t : String}
    {i : UdpSessionInfo} :
    (ControlSession.stop s c cs).pendingUdpSessions.lookup t = some i ↔
      s.pendingUdpSessions.lookup t = some i ∧ ¬ cs.serves i.proxyName = true := by
  rw [ControlSession.stop_eq]
  exact lookup_eraseIf_iff

/-- Only a session with a name releases one, the one it goes by. -/
theorem lookup_stop_sessions {s : Server} {c d : CtrlId} {cs : ControlSession} {n : String} :
    (ControlSession.stop s c cs).sessions.lookup n = some d ↔
      s.sessions.lookup n = some d ∧ ¬ (cs.authenticated = true ∧ n = cs.clientName) := by
  rw [ControlSession.stop_eq]
  cases cs.authenticated with
  | true =>
      simp only [if_true, Table.lookup_erase_if]
      by_cases hn : n = cs.clientName <;> simp [hn]
  | false => simp

/-! ## One step -/

/-- Where limiters are only dropped, those of `a` are untouched if and only if none of them is
dropped. -/
theorem untouched_limiters_of_dropped {s s' : Server} {a : CtrlId} (gone : String → Prop)
    (hs' : ∀ n rl, s'.proxyRateLimiters.lookup n = some rl ↔
      s.proxyRateLimiters.lookup n = some rl ∧ ¬ gone n) :
    (∀ n, s'.limiterOf a n = s.limiterOf a n) ↔
      ∀ n rl, s.proxyRateLimiters.lookup n = some rl → a ∈ rl.owners → ¬ gone n := by
  constructor
  · intro h n rl hrl ha
    have hsame : s'.limiterOf a n = some rl.bucket :=
      (h n).trans (limiterOf_eq_some.mpr ⟨rl, hrl, ha, rfl⟩)
    obtain ⟨rl', hrl', -, -⟩ := limiterOf_eq_some.mp hsame
    exact ((hs' n rl').mp hrl').2
  · intro h n
    refine Option.ext fun bucket => ?_
    rw [limiterOf_eq_some, limiterOf_eq_some]
    constructor
    · rintro ⟨rl, hrl, hrest⟩
      exact ⟨rl, ((hs' n rl).mp hrl).1, hrest⟩
    · rintro ⟨rl, hrl, ha, hbucket⟩
      exact ⟨rl, (hs' n rl).mpr ⟨hrl, h n rl hrl ha⟩, ha, hbucket⟩

/-- **`Stop`** spares the entries of `a` if and only if its strings do not meet them. -/
theorem untouched_stop {s : Server} {a c : CtrlId} {cs : ControlSession} :
    Untouched a s (ControlSession.stop s c cs) ↔ s.StopSpares a cs := by
  have hroutes := untouched_of_dropped (fun r : VhostRoute => r.session = a)
    (fun d _ => d ∈ cs.registeredDomains) fun _ _ => lookup_stop_vhostRoutes (s := s) (c := c)
  have hlimiters := untouched_limiters_of_dropped (a := a) (fun n => cs.serves n = true)
    fun _ _ => lookup_stop_proxyRateLimiters (s := s) (c := c)
  have huser := untouched_of_dropped (fun i : TcpSessionInfo => i.owner = a)
    (fun _ i => cs.serves i.proxyName = true)
    fun t _ => lookup_stop_pendingUserConns (s := s) (c := c) (t := t)
  have hudp := untouched_of_dropped (fun i : UdpSessionInfo => i.owner = a)
    (fun _ i => cs.serves i.proxyName = true)
    fun t _ => lookup_stop_pendingUdpSessions (s := s) (c := c) (t := t)
  have hnames := untouched_of_dropped (fun d : CtrlId => d = a)
    (fun n _ => cs.authenticated = true ∧ n = cs.clientName)
    fun _ _ => lookup_stop_sessions (s := s) (c := c)
  constructor
  · intro h
    exact ⟨hroutes.mp h.routes, hlimiters.mp h.limiters, huser.mp h.userConns,
      hudp.mp h.udpSessions, hnames.mp fun n d hd => hd ▸ h.names n⟩
  · rintro ⟨h₁, h₂, h₃, h₄, h₅⟩
    exact ⟨hroutes.mpr h₁, hlimiters.mpr h₂, huser.mpr h₃, hudp.mpr h₄,
      fun n => hnames.mpr h₅ n a rfl⟩

/-- A limiter whose bucket a new rate does not change is the limiter it was. -/
theorem setRate_eq_of_bucket {rl : RateLimiter} {bytesPerSec : Int}
    (h : (rl.setRate bytesPerSec).bucket = rl.bucket) : rl.setRate bytesPerSec = rl := by
  obtain ⟨hrate, htokens⟩ := Prod.mk.inj h
  cases rl
  simp only [RateLimiter.setRate, RateLimiter.mk.injEq] at hrate htokens ⊢
  exact ⟨hrate, htokens, trivial⟩

/-- A registration leaves the limiters of `a` alone if and only if it does not retune one
of them. -/
theorem untouched_limitersAfter {s s' : Server} {a c : CtrlId} (hne : a ≠ c)
    (m : RegisterProxyMessage)
    (hs' : s'.proxyRateLimiters = ControlSession.limitersAfter s c m) :
    (∀ n, s'.limiterOf a n = s.limiterOf a n) ↔
    (m.bandwidthLimit > 0 → ∀ rl, s.proxyRateLimiters.lookup m.name = some rl → a ∈ rl.owners →
      rl.setRate m.bandwidthLimit = rl) := by
  unfold ControlSession.limitersAfter at hs'
  by_cases hbw : m.bandwidthLimit > 0
  · rw [if_pos hbw] at hs'
    have hother : ∀ n, n ≠ m.name → s'.limiterOf a n = s.limiterOf a n := by
      intro n hn
      rw [limiterOf, hs', Table.lookup_insert_if, if_neg hn, limiterOf]
    cases hold : s.proxyRateLimiters.lookup m.name with
    | none =>
        -- a new limiter is not one of `a`
        have hname : s'.limiterOf a m.name = s.limiterOf a m.name := by
          rw [limiterOf, hs', Table.lookup_insert_if, if_pos rfl, limiterOf, hold]
          simp [registeredLimiter, RateLimiter.make, hne]
        refine iff_of_true (fun n => ?_) fun _ rl hrl => by cases hrl
        by_cases hn : n = m.name
        · exact hn ▸ hname
        · exact hother n hn
    | some old =>
        have hname : s'.limiterOf a m.name = if a ∈ old.owners then
            some (old.setRate m.bandwidthLimit).bucket else none := by
          rw [limiterOf, hs', Table.lookup_insert_if, if_pos rfl, hold]
          by_cases ha : a ∈ old.owners
          · simp [registeredLimiter, RateLimiter.bucket, ha]
          · simp [registeredLimiter, ha, hne]
        have hbefore : s.limiterOf a m.name =
            if a ∈ old.owners then some old.bucket else none := by
          rw [limiterOf, hold]
          by_cases ha : a ∈ old.owners <;> simp [ha]
        constructor
        · intro h _ rl hrl ha
          obtain rfl := Option.some.inj hrl
          have hsame := h m.name
          rw [hname, hbefore, if_pos ha, if_pos ha] at hsame
          exact setRate_eq_of_bucket (Option.some.inj hsame)
        · intro h n
          by_cases hn : n = m.name
          · rw [hn, hname, hbefore]
            by_cases ha : a ∈ old.owners
            · rw [if_pos ha, if_pos ha, h hbw old rfl ha]
            · rw [if_neg ha, if_neg ha]
          · exact hother n hn
  · rw [if_neg hbw] at hs'
    refine iff_of_true (fun n => ?_) fun h => absurd h hbw
    rw [limiterOf, hs', limiterOf]

theorem untouched_insertAll {s : Server} {a c : CtrlId} (hne : a ≠ c) (ds : List String)
    (proxyName type : String) :
    (∀ d r, r.session = a → ((Table.insertAll s.vhostRoutes ds ⟨c, proxyName, type⟩).lookup d =
      some r ↔ s.vhostRoutes.lookup d = some r)) ↔
    ∀ d ∈ ds, ∀ r, s.vhostRoutes.lookup d = some r → r.session ≠ a := by
  constructor
  · intro h d hd r hr howner
    have := (h d r howner).mpr hr
    rw [Table.lookup_insertAll, if_pos hd] at this
    rw [← Option.some.inj this] at howner
    exact hne howner.symm
  · intro h d r howner
    rw [Table.lookup_insertAll]
    split
    · rename_i hd
      refine ⟨fun heq => ?_, fun heq => absurd howner (h d hd r heq)⟩
      rw [← Option.some.inj heq] at howner
      exact absurd howner.symm hne
    · exact Iff.rfl

/-- **`RegisterProxy`** spares the entries of `a` if and only if its strings do not meet
them. -/
theorem untouched_registerProxy {s : Server} {a c : CtrlId} (hne : a ≠ c)
    {cs : ControlSession} (m : RegisterProxyMessage) (thrown : Option Thrown) :
    Untouched a s (ControlSession.handleRegisterProxy s c cs m thrown) ↔
      s.RegisterSpares a m thrown := by
  have hlimiters := untouched_limitersAfter hne m
    (ControlSession.handleRegisterProxy_limiters s c cs m thrown)
  rcases ControlSession.handleRegisterProxy_cases s c cs m thrown with
    ⟨htype, resp, heq⟩ | ⟨htype, resp, heq⟩ | ⟨htype, resp, heq⟩
  all_goals rw [RegisterSpares, htype, ← hlimiters, heq]
  · refine ⟨fun h => ⟨h.limiters, fun h => absurd h (by simp)⟩, fun h => ?_⟩
    exact { Untouched.refl a s with limiters := h.1 }
  · rw [← untouched_insertAll hne (ControlSession.routedDomains m thrown) m.name
      (ControlSession.typeOf m)]
    refine ⟨fun h => ⟨h.limiters, fun _ => h.routes⟩, fun h => ?_⟩
    exact { Untouched.refl a s with limiters := h.1, routes := h.2 rfl }
  · refine ⟨fun h => ⟨h.limiters, fun h => absurd h (by simp)⟩, fun h => ?_⟩
    exact { Untouched.refl a s with limiters := h.1 }

/-- A login takes a name nobody has. -/
theorem untouched_login {s : Server} (hs : Owned s) {a c : CtrlId} (hne : a ≠ c)
    {cs : ControlSession} (m : LoginMessage) :
    Untouched a s (ControlSession.handleLogin s c cs m) := by
  rcases ControlSession.handleLogin_cases s c cs m with
    ⟨_, n, resp, hfree, heq⟩ | ⟨_, resp, heq⟩
  · rw [heq]
    refine { Untouched.refl a s with names := fun k => ?_ }
    simp only [Table.lookup_insert_if]
    split
    · rename_i hk
      subst hk
      have hnone : s.sessions.lookup k = none :=
        AList.lookup_eq_none.mpr fun hmem => hfree (hs.names.mpr hmem)
      rw [hnone]
      refine ⟨fun h => absurd (Option.some.inj h).symm hne, fun h => absurd h (by simp)⟩
    · exact Iff.rfl
  · rw [heq]
    exact { Untouched.refl a s with }

theorem untouched_unregisterProxy {s : Server} {a c : CtrlId} {cs : ControlSession}
    (name : String) : Untouched a s (ControlSession.handleUnregisterProxy s c cs name) := by
  rcases ControlSession.handleUnregisterProxy_cases s c cs name with heq | ⟨_, _, _, _, _, heq⟩
  · rw [heq]
    exact Untouched.refl a s
  · rw [heq]
    exact { Untouched.refl a s with }

/-- **A handler of another session leaves the entries of `a` unchanged if and only if its
strings do not clash with theirs.** -/
theorem untouched_step {s s' : Server} (hs : Owned s) {a b : CtrlId} (hne : a ≠ b) {e : Event}
    (he : e.actor = some b) (h : s.step e = some s') : Untouched a s s' ↔ s.NoClash a e := by
  cases e with
  | message c msg be =>
      obtain rfl := Option.some.inj he
      simp only [step, Option.map_eq_some_iff] at h
      obtain ⟨cs, hc, rfl⟩ := h
      cases msg with
      | login m => exact ⟨fun _ => trivial, fun _ => untouched_login hs hne m⟩
      | registerProxy m =>
          simp only [ControlSession.handleMessage, NoClash, hc, Option.some.injEq]
          cases hauth : cs.authenticated with
          | true =>
              rw [if_pos rfl, untouched_registerProxy hne m be]
              exact ⟨fun h _ _ _ => h, fun h => h cs rfl hauth⟩
          | false =>
              rw [if_neg (by simp)]
              refine ⟨fun _ ds hds ha => ?_, fun _ => Untouched.refl a s⟩
              exact absurd ha (by simp [← hds, hauth])
      | unregisterProxy m =>
          refine ⟨fun _ => trivial, fun _ => ?_⟩
          unfold ControlSession.handleMessage
          simp only
          split
          · exact untouched_unregisterProxy m.name
          · exact Untouched.refl a s
      | _ => exact ⟨fun _ => trivial, fun _ => Untouched.refl a s⟩
  | stop c =>
      simp only [step, Option.map_eq_some_iff] at h
      obtain ⟨cs, hc, rfl⟩ := h
      simp only [untouched_stop, NoClash, hc, Option.some.injEq]
      exact ⟨fun h _ hds => hds ▸ h, fun h => h cs rfl⟩
  | _ => exact absurd he (by simp [Event.actor])

/-! ## Every run -/

/-- The steps of a run in which only others act, and their strings never clash. -/
def OthersSpare (a : CtrlId) (s : Server) (e : Event) : Prop :=
  (∃ b, a ≠ b ∧ e.actor = some b) ∧ s.NoClash a e

/-- **Tenant isolation, exactly.** In every reachable state, a message handled by another
session and a `Stop` of another session leave the entries of `a` unchanged if and only
if they do not clash with them; and so does every run made of such steps. -/
theorem tenant_isolation {token : String} {ports : List PortRange} {clients : List String}
    {s : Server} (h : Reach step anyStep (init token ports clients) s) (a : CtrlId) :
    (∀ b e s', a ≠ b → e.actor = some b → s.step e = some s' →
      (Untouched a s s' ↔ s.NoClash a e)) ∧
    (∀ s', Reach step (OthersSpare a) s s' → Untouched a s s') := by
  refine ⟨fun b e s' hne he hstep => untouched_step (owned_reachable h) hne he hstep, ?_⟩
  intro s' hrun
  have hboth : Owned s' ∧ Untouched a s s' := by
    refine hrun.invariant (P := fun s' => Owned s' ∧ Untouched a s s')
      ⟨owned_reachable h, Untouched.refl a s⟩ ?_
    rintro s₁ e s₂ ⟨ho, hsame⟩ ⟨⟨b, hne, he⟩, hclash⟩ hstep
    exact ⟨owned_step ho hstep, hsame.trans ((untouched_step ho hne he hstep).mpr hclash)⟩
  exact hboth.2

/-- Two clients with a proxy of the same name on different ports, and a user connection
waiting for the first one. -/
def sameProxyName : List Event :=
  [.controlStream 1, .message 0 (.login ⟨"tok", "a"⟩) none,
    .message 0 (.registerProxy ⟨"web", "tcp", 6000, [], 0⟩) none,
    .controlStream 2, .message 1 (.login ⟨"tok", "b"⟩) none,
    .message 1 (.registerProxy ⟨"web", "tcp", 6001, [], 0⟩) none,
    .acceptUser ⟨0, .tcp, 6000, "web", 0⟩ "12" 7 5 true]

/-- The second client may register another name, and the first one is not affected. -/
theorem tenant_isolation_otherName :
    ∃ s s', s.step (.message 1 (.registerProxy ⟨"db", "tcp", 6002, [], 0⟩) none) = some s' ∧
      s.pendingUserConns.lookup "12" = some ⟨7, [], "web", 5, 0⟩ ∧ Untouched 0 s s' := by
  obtain ⟨s, hreach, hobs⟩ := exists_of_runAll step sameProxyName
    (fun s => (s.pendingUserConns.lookup "12", (s.controls 1).isSome))
    (s := init "tok" [] []) (a := (some ⟨7, [], "web", 5, 0⟩, true)) (by decide)
  obtain ⟨hpending, hcontrol⟩ := Prod.mk.inj hobs
  obtain ⟨cs, hc⟩ := Option.isSome_iff_exists.mp hcontrol
  have hstep := step_message hc (.registerProxy ⟨"db", "tcp", 6002, [], 0⟩) none
  have hspares : s.RegisterSpares 0 ⟨"db", "tcp", 6002, [], 0⟩ none :=
    ⟨fun h => absurd h (by decide), fun h => absurd h (by decide)⟩
  exact ⟨s, _, hstep, hpending,
    ((tenant_isolation hreach 0).1 1 _ _ (by decide) rfl hstep).mpr fun _ _ _ => hspares⟩

/-- When the second client leaves, the user connection waiting for the first one is
dropped. -/
theorem tenant_isolation_sameProxyName :
    ¬ ∀ (token : String) (ports : List PortRange) (clients : List String) (s s' : Server)
      (a b : CtrlId) (e : Event), Reach step anyStep (init token ports clients) s →
      (∃ n, s.Live a n) → (∃ n, s.Live b n) → a ≠ b → e.actor = some b →
      s.step e = some s' → Untouched a s s' := by
  intro hall
  obtain ⟨s, hreach, hobs⟩ := exists_of_runAll step sameProxyName
    (fun s => ((s.controls 0).map fun cs => (cs.authenticated, cs.stopped),
      (s.controls 1).map fun cs => (cs.authenticated, cs.stopped),
      s.pendingUserConns.lookup "12",
      (s.step (.stop 1)).map fun s' => s'.pendingUserConns.lookup "12"))
    (s := init "tok" [] [])
    (a := (some (true, false), some (true, false), some ⟨7, [], "web", 5, 0⟩, some none))
    (by decide)
  simp only [Prod.mk.injEq] at hobs
  obtain ⟨h0, h1, hpending, hstep⟩ := hobs
  have hlive : ∀ c, (s.controls c).map (fun cs => (cs.authenticated, cs.stopped)) =
      some (true, false) → ∃ n, s.Live c n := by
    intro c h
    obtain ⟨cs, hc, heq⟩ := Option.map_eq_some_iff.mp h
    obtain ⟨hauth, hstopped⟩ := Prod.mk.inj heq
    exact ⟨cs.clientName, cs, hc, hauth, hstopped, rfl⟩
  obtain ⟨s', hs', hgone⟩ := Option.map_eq_some_iff.mp hstep
  have huntouched := hall _ _ _ s s' 0 1 _ hreach (hlive 0 h0) (hlive 1 h1) (by decide) rfl hs'
  rw [(huntouched.userConns "12" ⟨7, [], "web", 5, 0⟩ rfl).mpr hpending] at hgone
  exact absurd hgone (by simp)

end Server

end Cfrp
