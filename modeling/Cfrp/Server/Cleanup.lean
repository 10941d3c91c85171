import Cfrp.Server.Isolation

/-!
# What is left of a session that has stopped

`Stop` walks over the listeners the session still lists, and over its domains. An open
listener is always on the first list and a route always on the second, so these are
never left behind. A rate limiter and a pending ticket are found through the name of a
listener only, and a client name through `client_name_` only; `Released` says that
whatever the session has of these can be found that way.
-/

namespace Cfrp

open Lib Protocol

namespace Server

/-- No table holds anything on behalf of `a`. -/
structure Clean (s : Server) (a : CtrlId) : Prop where
  active : ∀ n ∈ s.activeClientNames, ∃ c, c ≠ a ∧ s.sessions.lookup n = some c
  names : ∀ n, s.sessions.lookup n ≠ some a
  mux : ∀ m, s.muxToControl.lookup m ≠ some a
  routes : ∀ d r, s.vhostRoutes.lookup d = some r → r.session ≠ a
  limiters : ∀ n rl, s.proxyRateLimiters.lookup n = some rl → a ∉ rl.owners
  userConns : ∀ t i, s.pendingUserConns.lookup t = some i → i.owner ≠ a
  udpSessions : ∀ t i, s.pendingUdpSessions.lookup t = some i → i.owner ≠ a
  listeners : ∀ l ∈ s.listeners, l.session = a → l.id ∉ s.listening

/-- Every name that maps to `a` is the one it goes by, and every limiter and pending
ticket of `a` is filed under the name of a listener `a` still lists. -/
def Released (s : Server) (a : CtrlId) (cs : ControlSession) : Prop :=
  (∀ n, s.sessions.lookup n = some a → n = cs.clientName) ∧
  (∀ n rl, s.proxyRateLimiters.lookup n = some rl → a ∈ rl.owners → cs.serves n = true) ∧
  (∀ t i, s.pendingUserConns.lookup t = some i → i.owner = a → cs.serves i.proxyName = true) ∧
  (∀ t i, s.pendingUdpSessions.lookup t = some i → i.owner = a → cs.serves i.proxyName = true)

/-- Where entries are only dropped, none of one owner is left if and only if all of them
are dropped. -/
theorem none_left_of_dropped {κ ν : Type*} {f f' : κ → Option ν} (own : ν → Prop)
    (gone : κ → ν → Prop) (hf : ∀ k v, f' k = some v ↔ f k = some v ∧ ¬ gone k v) :
    (∀ k v, f' k = some v → ¬ own v) ↔ ∀ k v, f k = some v → own v → gone k v := by
  constructor
  · intro h k v hv hown
    by_contra hgone
    exact h k v ((hf k v).mpr ⟨hv, hgone⟩) hown
  · intro h k v hv hown
    obtain ⟨hv, hgone⟩ := (hf k v).mp hv
    exact hgone (h k v hv hown)

/-! ## The last Stop -/

theorem clean_stop {s : Server} (hs : Owned s) {a : CtrlId} {cs : ControlSession}
    (hc : s.controls a = some cs) :
    Clean (ControlSession.stop s a cs) a ↔ s.Released a cs := by
  have ho : Owned (ControlSession.stop s a cs) := owned_actsFor hs hc (actsFor_stop hc)
  -- each table loses what goes by the name of a proxy that is still listed
  have hlimiters := none_left_of_dropped (fun rl : RateLimiter => a ∈ rl.owners)
    (fun n _ => cs.serves n = true) fun _ _ => lookup_stop_proxyRateLimiters (s := s) (c := a)
  have huser := none_left_of_dropped (fun i : TcpSessionInfo => i.owner = a)
    (fun _ i => cs.serves i.proxyName = true)
    fun t _ => lookup_stop_pendingUserConns (s := s) (c := a) (t := t)
  have hudp := none_left_of_dropped (fun i : UdpSessionInfo => i.owner = a)
    (fun _ i => cs.serves i.proxyName = true)
    fun t _ => lookup_stop_pendingUdpSessions (s := s) (c := a) (t := t)
  -- of the names only the last one is released
  have hnames : (∀ n, (ControlSession.stop s a cs).sessions.lookup n ≠ some a) ↔
      ∀ n, s.sessions.lookup n = some a → n = cs.clientName := by
    refine forall_congr' fun n => ?_
    rw [ne_eq, lookup_stop_sessions, not_and, not_not]
    refine forall_congr' fun hn => and_iff_right ?_
    obtain ⟨ds, hds, hauth⟩ := hs.session hn
    rw [hc] at hds
    rwa [Option.some.inj hds]
  constructor
  · intro h
    exact ⟨hnames.mp h.names, hlimiters.mp h.limiters, huser.mp h.userConns,
      hudp.mp h.udpSessions⟩
  · rintro ⟨h₁, h₂, h₃, h₄⟩
    refine ⟨?_, hnames.mpr h₁, ?_, ?_, hlimiters.mpr h₂, huser.mpr h₃, hudp.mpr h₄, ?_⟩
    · intro n hn
      obtain ⟨c, hcn⟩ := Option.isSome_iff_exists.mp (AList.lookup_isSome.mpr (ho.names.mp hn))
      exact ⟨c, fun hca => hnames.mpr h₁ n (hca ▸ hcn), hcn⟩
    · intro m hm
      rw [ControlSession.stop_eq, Table.lookup_erase_if] at hm
      split at hm
      · exact absurd hm (by simp)
      · rename_i hne
        obtain ⟨ds, hds, hmux⟩ := hs.mux hm
        rw [hc] at hds
        exact hne (by rw [Option.some.inj hds]; exact hmux.symm)
    · intro d r hr hra
      obtain ⟨hold, hdomain⟩ := lookup_stop_vhostRoutes.mp hr
      obtain ⟨ds, hds, _, hd⟩ := hs.route hold
      rw [hra, hc] at hds
      exact hdomain (by rw [Option.some.inj hds]; exact hd)
    · -- every open listener is in the lists of its session
      intro l hl hla hopen
      rw [ControlSession.stop_eq] at hl hopen
      obtain ⟨hopen, hall⟩ := List.mem_filter.mp hopen
      obtain ⟨ds, hds, hmem⟩ := hs.listening hl hopen
      rw [hla, hc] at hds
      rw [← Option.some.inj hds] at hmem
      exact absurd (List.all_eq_true.mp hall l hmem) (by simp)

/-! ## Afterwards -/

/-- Nothing is done for `a`: no handler of its own runs, and no user of its listeners is
given a ticket. -/
def NotFor (a : CtrlId) (s : Server) (e : Event) : Prop :=
  e.actor ≠ some a ∧ ∀ ticket, s.drawnTicket e ≠ some (a, ticket)

theorem Clean.onlyTickets {s s' : Server} {a : CtrlId} (h : Clean s a) (honly : OnlyTickets s s')
    (huser : ∀ t i, s'.pendingUserConns.lookup t = some i → i.owner ≠ a)
    (hudp : ∀ t i, s'.pendingUdpSessions.lookup t = some i → i.owner ≠ a) : Clean s' a := by
  obtain ⟨_, _, _, _, _, _, rfl⟩ := honly
  exact { h with userConns := huser, udpSessions := hudp }

theorem Clean.actsFor {s s' : Server} {a c : CtrlId} {cs cs' : ControlSession} (h : Clean s a)
    (hne : c ≠ a) (ho : Owned s') (hacts : ActsFor s s' c cs cs') : Clean s' a := by
  have hnames : ∀ n, s'.sessions.lookup n ≠ some a := by
    intro n hn
    rcases hacts.session hn with hn | ⟨heq, _⟩
    · exact h.names n hn
    · exact hne heq.symm
  constructor
  case active =>
    intro n hn
    obtain ⟨d, hd⟩ := Option.isSome_iff_exists.mp (AList.lookup_isSome.mpr (ho.names.mp hn))
    exact ⟨d, fun hda => hnames n (hda ▸ hd), hd⟩
  case names => exact hnames
  case mux => exact fun m hm => h.mux m (hacts.mux hm)
  case routes =>
    intro d r hr hra
    rcases hacts.route hr with ⟨hr, _⟩ | ⟨hrc, _⟩
    · exact h.routes d r hr hra
    · exact hne (hrc.symm.trans hra)
  case limiters =>
    intro n rl hrl hra
    rcases hacts.limiter hrl hra with ⟨old, hold, ha⟩ | ⟨hac, _⟩
    · exact h.limiters n old hold ha
    · exact hne hac.symm
  case userConns =>
    intro t i hi hia
    rcases hacts.pending (Or.inl ⟨i, hi, hia⟩) with ⟨j, hj, hja⟩ | ⟨j, hj, hja⟩
    · exact h.userConns t j hj hja
    · exact h.udpSessions t j hj hja
  case udpSessions =>
    intro t i hi hia
    rcases hacts.pending (Or.inr ⟨i, hi, hia⟩) with ⟨j, hj, hja⟩ | ⟨j, hj, hja⟩
    · exact h.userConns t j hj hja
    · exact h.udpSessions t j hj hja
  case listeners =>
    intro l hl hla hopen
    rcases hacts.listening hl hopen with ⟨hl, hopen, _⟩ | ⟨hlc, _⟩
    · exact h.listeners l hl hla hopen
    · exact hne (hlc.symm.trans hla)

/-- Sessions are numbered in the order they come, and `a` has come. -/
theorem Clean.controlStream {s : Server} {a : CtrlId} (h : Clean s a)
    (hne : s.nextControl ≠ a) (mux : MuxId) : Clean (s.handleControlStream mux) a := by
  refine { h with mux := fun m hm => ?_ }
  have hm : (s.muxToControl.insert mux s.nextControl).lookup m = some a := hm
  rw [Table.lookup_insert_if] at hm
  split at hm
  · exact hne (Option.some.inj hm)
  · exact h.mux m hm

theorem Clean.step {s s' : Server} {a : CtrlId} (h : Clean s a) (hs : Owned s)
    (ha : (s.controls a).isSome) {e : Event} (he : NotFor a s e) (hstep : s.step e = some s') :
    Clean s' a := by
  have ho := owned_step hs hstep
  rcases step_cases hs hstep with ⟨mux, _, rfl⟩ | ⟨c, cs, cs', hec, hc, hacts⟩ |
    ⟨_, ⟨c, ticket, hdrawn, _, hfiles⟩ | rfl⟩ |
    ⟨_, _, _, rfl | ⟨_, _, _, _, _, honly, hshrinks⟩⟩
  · refine h.controlStream (fun heq => ?_) mux
    rw [← heq, hs.fresh (Nat.le_refl _)] at ha
    exact absurd ha (by simp)
  · refine h.actsFor (fun heq => he.1 ?_) ho hacts
    rcases hec with ⟨msg, be, rfl⟩ | rfl
    · exact congrArg some heq
    · exact congrArg some heq
  · have hne : c ≠ a := fun heq => he.2 ticket (heq ▸ hdrawn)
    refine h.onlyTickets hfiles.only ?_ ?_
    · intro t i hi hia
      rcases hfiles.tcp hi with hi | ⟨_, hic⟩
      · exact h.userConns t i hi hia
      · exact hne (hic.symm.trans hia)
    · intro t i hi hia
      rcases hfiles.udp hi with hi | ⟨_, hic⟩
      · exact h.udpSessions t i hi hia
      · exact hne (hic.symm.trans hia)
  · exact h
  · exact h
  · exact h.onlyTickets honly (fun t i hi => h.userConns t i (hshrinks.tcp hi))
      fun t i hi => h.udpSessions t i (hshrinks.udp hi)

/-- A session object that exists stays. -/
theorem control_isSome_step {s s' : Server} (hs : Owned s) {a : CtrlId}
    (ha : (s.controls a).isSome) {e : Event} (hstep : s.step e = some s') :
    (s'.controls a).isSome := by
  rcases step_cases hs hstep with ⟨mux, _, rfl⟩ | ⟨c, cs, cs', _, _, hacts⟩ |
    ⟨_, ⟨c, ticket, _, _, hfiles⟩ | rfl⟩ | ⟨_, _, _, rfl | ⟨_, _, _, _, _, honly, _⟩⟩
  · have hne : a ≠ s.nextControl := by
      rintro rfl
      rw [hs.fresh (Nat.le_refl _)] at ha
      exact absurd ha (by simp)
    have hkeep : (s.handleControlStream mux).controls a = s.controls a :=
      Function.update_of_ne hne _ _
    rwa [hkeep]
  · rw [hacts.controls, Function.update_apply]
    split
    · rfl
    · exact ha
  · obtain ⟨_, _, _, _, _, _, rfl⟩ := hfiles.only
    exact ha
  · exact ha
  · exact ha
  · obtain ⟨_, _, _, _, _, _, rfl⟩ := honly
    exact ha

/-- **Cleanup, exactly.** `Stop` leaves no table with anything on behalf of `a` if and
only if everything `a` had was `Released`, and then it stays so for as long as nothing
more is done for `a`. -/
theorem cleanup_complete {token : String} {ports : List PortRange} {clients : List String}
    {s : Server} (h : Reach step anyStep (init token ports clients) s) {a : CtrlId}
    {cs : ControlSession} (hc : s.controls a = some cs) :
    (Clean (ControlSession.stop s a cs) a ↔ s.Released a cs) ∧
    (s.Released a cs → ∀ s', Reach step (NotFor a) (ControlSession.stop s a cs) s' →
      Clean s' a) := by
  have hs := owned_reachable h
  have ho : Owned (ControlSession.stop s a cs) := owned_actsFor hs hc (actsFor_stop hc)
  refine ⟨clean_stop hs hc, fun hreleased s' hrun => ?_⟩
  have hall : Owned s' ∧ (s'.controls a).isSome ∧ Clean s' a := by
    refine hrun.invariant (P := fun s' => Owned s' ∧ (s'.controls a).isSome ∧ Clean s' a)
      ⟨ho, ?_, (clean_stop hs hc).mpr hreleased⟩ ?_
    · rw [(actsFor_stop hc).controls, Function.update_self]
      rfl
    · rintro s₁ e s₂ ⟨ho, ha, hclean⟩ hnot hstep
      exact ⟨owned_step ho hstep, control_isSome_step ho ha hstep,
        hclean.step ho ha hnot hstep⟩
  exact hall.2.2

/-- One session with a limited TCP proxy and a user waiting for it. -/
def oneTcpProxy : List Event :=
  [.controlStream 1, .message 0 (.login ⟨"tok", "a"⟩) none,
    .message 0 (.registerProxy ⟨"web", "tcp", 6000, [], 1000⟩) none,
    .acceptUser ⟨0, .tcp, 6000, "web", 0⟩ "12" 7 5 true]

theorem cleanup_complete_oneTcpProxy :
    ∃ s cs, s.controls 0 = some cs ∧ s.pendingUserConns.lookup "12" = some ⟨7, [], "web", 5, 0⟩ ∧
      Clean (ControlSession.stop s 0 cs) 0 := by
  obtain ⟨s, hreach, hobs⟩ := exists_of_runAll step oneTcpProxy
    (fun s => decide (s.sessions.entries = [⟨"a", 0⟩] ∧
      s.proxyRateLimiters.entries = [⟨"web", 1000, 1000, [0]⟩] ∧
      s.pendingUserConns.entries = [⟨"12", 7, [], "web", 5, 0⟩] ∧
      s.pendingUdpSessions.entries = [] ∧
      (s.controls 0).map (fun cs => (cs.clientName, cs.serves "web")) = some ("a", true)))
    (s := init "tok" [] []) (a := true) (by decide)
  rw [decide_eq_true_eq] at hobs
  obtain ⟨hsessions, hlimiters, huser, hudp, hcontrol⟩ := hobs
  obtain ⟨cs, hc, heq⟩ := Option.map_eq_some_iff.mp hcontrol
  obtain ⟨hname, hserves⟩ := Prod.mk.inj heq
  refine ⟨s, cs, hc, Table.lookup_eq_some_iff.mpr (by simp [huser]),
    (cleanup_complete hreach hc).1.mpr ⟨?_, ?_, ?_, ?_⟩⟩
  · intro n hn
    rw [Table.lookup_eq_some_iff, hsessions] at hn
    simp only [List.mem_singleton, Sigma.mk.injEq] at hn
    rw [hn.1, hname]
  · intro n rl hn _
    rw [Table.lookup_eq_some_iff, hlimiters] at hn
    simp only [List.mem_singleton, Sigma.mk.injEq] at hn
    rw [hn.1, hserves]
  · intro t i hi _
    rw [Table.lookup_eq_some_iff, huser] at hi
    simp only [List.mem_singleton, Sigma.mk.injEq, heq_eq_eq] at hi
    rw [hi.2, hserves]
  · intro t i hi _
    rw [Table.lookup_eq_some_iff, hudp] at hi
    exact absurd hi (by simp)

/-- The rate limiter of an HTTP proxy stays behind. -/
theorem cleanup_complete_httpProxy :
    ¬ ∀ (token : String) (ports : List PortRange) (clients : List String) (s : Server)
      (a : CtrlId) (cs : ControlSession), Reach step anyStep (init token ports clients) s →
      s.controls a = some cs → Clean (ControlSession.stop s a cs) a := by
  intro hall
  obtain ⟨s, hreach, hobs⟩ := exists_of_runAll step
    [.controlStream 1, .message 0 (.login ⟨"tok", "a"⟩) none,
      .message 0 (.registerProxy ⟨"web", "http", 0, ["example.org"], 1000⟩) none]
    (fun s => (s.controls 0).map fun cs =>
      (ControlSession.stop s 0 cs).proxyRateLimiters.lookup "web")
    (s := init "tok" [] []) (a := some (some ⟨1000, 1000, [0]⟩)) (by decide)
  obtain ⟨cs, hc, hleft⟩ := Option.map_eq_some_iff.mp hobs
  exact (hall _ _ _ s 0 cs hreach hc).limiters "web" _ hleft
    (List.mem_singleton_self 0)

end Server

end Cfrp
