import Cfrp.Lib.Transition
import Cfrp.Server.Effects

/-!
# Registering and unregistering the proxies of one session

What a session has registered is the list of its accepted registrations, where a later
one of the same name takes the earlier one's place and an unregistration removes it. This
is what `current` keeps, and `Exact` says that the server's listeners, routes and rate
limiters are those of `current` and no others.

The handlers do not keep it so. `UnregisterProxy` looks for a listener and nothing else, and
`RegisterProxy` adds to what the name already has. `Clean` is exactly when this makes no
difference.
-/

namespace Cfrp

open Lib Protocol ControlSession

/-! ## What is currently registered -/

/-- The registrations that are left when a name is unregistered. -/
def withdraw (current : List RegisterProxyMessage) (name : String) : List RegisterProxyMessage :=
  current.filter fun m => m.name != name

/-- The registration a domain should be routed to: the last one that names it. -/
def claimant (current : List RegisterProxyMessage) (domain : String) :
    Option RegisterProxyMessage :=
  current.reverse.find? fun m => isVhostType (typeOf m) && m.customDomains.contains domain

/-- The registration under a name. -/
def registered (current : List RegisterProxyMessage) (name : String) :
    Option RegisterProxyMessage :=
  current.find? fun m => m.name == name

theorem withdraw_names {current : List RegisterProxyMessage} (name : String)
    (h : (current.map RegisterProxyMessage.name).Nodup) :
    ((withdraw current name).map RegisterProxyMessage.name).Nodup ∧
      name ∉ (withdraw current name).map RegisterProxyMessage.name := by
  refine ⟨h.sublist (List.filter_sublist.map _), fun hmem => ?_⟩
  obtain ⟨m, hm, hname⟩ := List.mem_map.mp hmem
  have hne := (List.mem_filter.mp hm).2
  rw [hname] at hne
  exact absurd hne (by simp)

/-- A search finds the same element in fewer, as long as that one is among them. -/
theorem find?_and_eq {α : Type*} {p f : α → Bool} {l : List α} {a : α} (h : l.find? f = some a)
    (hp : p a = true) : l.find? (fun a => p a && f a) = some a := by
  induction l with
  | nil => exact absurd h (by simp)
  | cons b l ih =>
      rw [List.find?_cons] at h ⊢
      cases hf : f b with
      | true =>
          rw [hf] at h
          obtain rfl := Option.some.inj h
          rw [hp]
          rfl
      | false =>
          rw [hf] at h
          rw [Bool.and_false]
          exact ih h

theorem claimant_withdraw (current : List RegisterProxyMessage) (name domain : String) :
    claimant (withdraw current name) domain = claimant current domain ↔
      ∀ m, claimant current domain = some m → m.name ≠ name := by
  have hsearch : claimant (withdraw current name) domain = current.reverse.find? fun m =>
      m.name != name && (isVhostType (typeOf m) && m.customDomains.contains domain) := by
    rw [claimant, withdraw, ← List.filter_reverse, List.find?_filter]
    simp only [Bool.decide_and, Bool.decide_eq_true]
  constructor
  · intro heq m hm hname
    rw [hm, hsearch] at heq
    have hfound := List.find?_some heq
    rw [hname, bne_self_eq_false, Bool.false_and] at hfound
    exact Bool.false_ne_true hfound
  · intro hne
    rw [hsearch]
    cases hm : claimant current domain with
    | some m => exact find?_and_eq hm (bne_iff_ne.mpr (hne m hm))
    | none =>
        rw [List.find?_eq_none]
        intro m hmem hand
        rw [claimant, List.find?_eq_none] at hm
        rw [Bool.and_eq_true] at hand
        exact hm m hmem hand.2

theorem claimant_append (current : List RegisterProxyMessage) (m : RegisterProxyMessage)
    (domain : String) :
    claimant (current ++ [m]) domain =
      if isVhostType (typeOf m) = true ∧ domain ∈ m.customDomains then some m
      else claimant current domain := by
  rw [claimant, List.reverse_append, List.reverse_singleton, List.singleton_append,
    List.find?_cons]
  by_cases hm : isVhostType (typeOf m) = true ∧ domain ∈ m.customDomains
  · rw [if_pos hm, hm.1, Bool.true_and, List.contains_iff_mem.mpr hm.2]
  · rw [if_neg hm]
    have hfalse : (isVhostType (typeOf m) && m.customDomains.contains domain) = false := by
      rw [Bool.eq_false_iff]
      intro hand
      rw [Bool.and_eq_true, List.contains_iff_mem] at hand
      exact hm hand
    rw [hfalse]
    rfl

theorem registered_withdraw (current : List RegisterProxyMessage) (name other : String) :
    registered (withdraw current name) other =
      if other = name then none else registered current other := by
  rw [registered, withdraw, List.find?_filter]
  simp only [Bool.decide_and, Bool.decide_eq_true]
  by_cases hname : other = name
  · rw [if_pos hname, List.find?_eq_none]
    intro m _ hand
    rw [Bool.and_eq_true, bne_iff_ne, beq_iff_eq] at hand
    exact hand.1 (hand.2.trans hname)
  · rw [if_neg hname, registered]
    congr 1
    funext m
    by_cases hm : m.name = other
    · have hne : m.name ≠ name := fun hh => hname (hm.symm.trans hh)
      rw [bne_iff_ne.mpr hne, Bool.true_and]
    · rw [beq_eq_false_iff_ne.mpr hm, Bool.and_false]

theorem registered_append (current : List RegisterProxyMessage) (m : RegisterProxyMessage)
    (name : String) :
    registered (withdraw current m.name ++ [m]) name =
      if name = m.name then some m else registered current name := by
  have hold := registered_withdraw current m.name name
  rw [registered] at hold
  rw [registered, List.find?_append, hold]
  by_cases hname : name = m.name
  · rw [if_pos hname, if_pos hname, Option.none_or, List.find?_singleton, hname, beq_self_eq_true]
    rfl
  · rw [if_neg hname, if_neg hname, List.find?_singleton, beq_eq_false_iff_ne.mpr (Ne.symm hname)]
    simp

/-! ## Runs of one session's messages -/

/-- The server, and the registrations of the session in force. -/
structure RegRun where
  server : Server
  current : List RegisterProxyMessage := []

inductive RegEvent where
  /-- A `RegisterProxy` that is answered with `ok`. -/
  | register (m : RegisterProxyMessage)
  | unregister (name : String)

/-- What a listener serves. -/
def Listener.serving (l : Listener) : ListenerKind × UInt16 × String :=
  (l.kind, l.port, l.proxyName)

/-- What a registration of a TCP or UDP proxy asks a listener to serve. -/
def requested (m : RegisterProxyMessage) : ListenerKind × UInt16 × String :=
  (if typeOf m = "udp" then .udp else .tcp, m.remotePort, m.name)

namespace Server

/-- The open listeners of a session. -/
def liveListeners (s : Server) (c : CtrlId) : List Listener :=
  s.listeners.filter fun l => l.session == c && s.listening.contains l.id

/-- A session that has logged in and registered nothing, on a server that has nothing else. -/
structure JustLoggedIn (s : Server) (c : CtrlId) : Prop where
  control : ∃ cs, s.controls c = some cs ∧ cs.authenticated = true ∧ cs.proxies = [] ∧
    cs.udpProxies = []
  listeners : s.listeners = []
  routes : s.vhostRoutes = ∅
  limiters : s.proxyRateLimiters = ∅

end Server

namespace RegRun

def step (c : CtrlId) (r : RegRun) : RegEvent → Option RegRun
  | .register m =>
      if isVhostType (typeOf m) || r.server.isPortAllowed m.remotePort then
        (r.server.step (.message c (.registerProxy m) none)).map fun server =>
          { server := server, current := withdraw r.current m.name ++ [m] }
      else none
  | .unregister name =>
      (r.server.step (.message c (.unregisterProxy ⟨name⟩) none)).map fun server =>
        { server := server, current := withdraw r.current name }

/-- The server has exactly what the registrations in force ask for. -/
structure Exact (c : CtrlId) (r : RegRun) : Prop where
  listeners : (r.server.liveListeners c).map Listener.serving =
    (r.current.filter fun m => !isVhostType (typeOf m)).map requested
  routes : ∀ domain, r.server.vhostRoutes.lookup domain =
    (claimant r.current domain).map fun m => ⟨c, m.name, typeOf m⟩
  limiters : ∀ name, (r.server.proxyRateLimiters.lookup name).map RateLimiter.bytesPerSec =
    ((registered r.current name).map RegisterProxyMessage.bandwidthLimit).filter (0 < ·)

/-- A message that does not meet what the handlers forget. A registered name has no open
listener, every domain routed to it is routed anew, and so is its limiter set anew; an
unregistered name has no route and no limiter. -/
def Clean (c : CtrlId) (r : RegRun) : RegEvent → Prop
  | .register m =>
      (∀ l ∈ r.server.liveListeners c, l.proxyName ≠ m.name) ∧
      (∀ d route, r.server.vhostRoutes.lookup d = some route → route.proxyName = m.name →
        isVhostType (typeOf m) = true ∧ d ∈ m.customDomains) ∧
      (r.server.proxyRateLimiters.lookup m.name = none ∨ 0 < m.bandwidthLimit)
  | .unregister name =>
      (∀ d route, r.server.vhostRoutes.lookup d = some route → route.proxyName ≠ name) ∧
      r.server.proxyRateLimiters.lookup name = none

/-- What holds in every run, clean or not. -/
structure RegInv (c : CtrlId) (r : RegRun) : Prop where
  control : ∃ cs, r.server.controls c = some cs ∧ cs.authenticated = true ∧
    cs.proxies = (r.server.liveListeners c).filter (fun l => l.kind == .tcp) ∧
    cs.udpProxies = (r.server.liveListeners c).filter (fun l => l.kind == .udp)
  ids : (r.server.listeners.map Listener.id).Nodup
  below : ∀ l ∈ r.server.listeners, l.id < r.server.listeners.length
  names : (r.current.map RegisterProxyMessage.name).Nodup

end RegRun

/-! ## One message -/

namespace Server

/-- What an accepted registration does to the listeners, the routes and the limiters. -/
structure Registers (s s' : Server) (c : CtrlId) (m : RegisterProxyMessage) : Prop where
  listeners : s'.liveListeners c = s.liveListeners c ++
    if isVhostType (typeOf m) then [] else [newListener s c m]
  routes : s'.vhostRoutes = if isVhostType (typeOf m) then
    Table.insertAll s.vhostRoutes m.customDomains ⟨c, m.name, typeOf m⟩ else s.vhostRoutes
  limiters : s'.proxyRateLimiters = limitersAfter s c m

/-- A listener that is opened is live from then on, and those before it stay so. -/
theorem liveListeners_open {s s' : Server} {c : CtrlId} {l : Listener}
    (hbelow : ∀ k ∈ s.listeners, k.id < s.listeners.length)
    (hlisteners : s'.listeners = s.listeners ++ [l])
    (hlistening : s'.listening = s.listeners.length :: s.listening)
    (hid : l.id = s.listeners.length) (hsession : l.session = c) :
    s'.liveListeners c = s.liveListeners c ++ [l] := by
  have hnew : (l.session == c && s'.listening.contains l.id) = true := by
    rw [hsession, beq_self_eq_true, Bool.true_and, List.contains_iff_mem, hlistening, hid]
    exact List.mem_cons_self
  rw [liveListeners, hlisteners, List.filter_append, List.filter_cons, if_pos hnew,
    List.filter_nil, liveListeners]
  congr 1
  refine List.filter_congr fun k hk => ?_
  have hne : k.id ≠ s.listeners.length := Nat.ne_of_lt (hbelow k hk)
  rw [hlistening, List.contains_cons, beq_eq_false_iff_ne.mpr hne, Bool.false_or]

/-- A listener that is closed is live no more, and nothing else changes. -/
theorem liveListeners_close {s t : Server} {c : CtrlId} {i : ListenerId}
    (hlisteners : t.listeners = s.listeners)
    (hlistening : t.listening = s.listening.filter (· ≠ i)) :
    t.liveListeners c = (s.liveListeners c).filter fun l => l.id != i := by
  rw [liveListeners, liveListeners, hlisteners, List.filter_filter]
  refine List.filter_congr fun k _ => ?_
  rw [hlistening]
  by_cases hi : k.id = i
  · have hout : (s.listening.filter (· ≠ i)).contains k.id = false := by
      rw [Bool.eq_false_iff]
      intro hmem
      rw [List.contains_iff_mem, List.mem_filter] at hmem
      exact absurd hi (by simpa using hmem.2)
    rw [hout, hi, bne_self_eq_false, Bool.and_false, Bool.false_and]
  · have hsame : (s.listening.filter (· ≠ i)).contains k.id = s.listening.contains k.id := by
      rw [Bool.eq_iff_iff, List.contains_iff_mem, List.contains_iff_mem, List.mem_filter]
      simp [hi]
    rw [hsame, bne_iff_ne.mpr hi, Bool.true_and]

end Server

namespace RegRun

open Server

theorem regInv_register {c : CtrlId} {r r' : RegRun} {m : RegisterProxyMessage}
    (hr : RegInv c r) (h : r.step c (.register m) = some r') :
    RegInv c r' ∧ Registers r.server r'.server c m ∧
      r'.current = withdraw r.current m.name ++ [m] := by
  obtain ⟨cs, hc, hauth, hproxies, hudp⟩ := hr.control
  simp only [step, Option.ite_none_right_eq_some, Server.step, hc, Option.map_some,
    Option.some.injEq, Bool.or_eq_true] at h
  obtain ⟨hok, rfl⟩ := h
  have hnames : ((withdraw r.current m.name ++ [m]).map RegisterProxyMessage.name).Nodup := by
    obtain ⟨hnodup, hnew⟩ := withdraw_names m.name hr.names
    rw [List.map_append, List.map_singleton]
    exact List.nodup_append_comm.mp (List.nodup_cons.mpr ⟨hnew, hnodup⟩)
  simp only [handleMessage, hauth, if_true]
  rw [handleRegisterProxy_eq]
  cases hv : isVhostType (typeOf m) with
  | true =>
      -- a vhost proxy opens no listener
      simp only [Bool.not_true, Bool.false_and, Bool.false_eq_true, if_false, if_true]
      refine ⟨⟨⟨_, Function.update_self .., hauth, hproxies, hudp⟩, hr.ids, hr.below, hnames⟩,
        ⟨?_, ?_, rfl⟩, trivial⟩
      · rw [hv, if_pos rfl, List.append_nil]
        rfl
      · rw [hv, if_pos rfl]
        rfl
  | false =>
      -- another one does: its port was tested, and its identity is new
      have hport : r.server.isPortAllowed m.remotePort = true := by
        rcases hok with hh | hh
        · rw [hv] at hh
          exact absurd hh Bool.false_ne_true
        · exact hh
      simp only [hport, Bool.not_true, Bool.and_false, Bool.false_eq_true, if_false]
      generalize hs' : Server.sendMessage _ c _ = s'
      have hfields : s'.listeners = r.server.listeners ++ [newListener r.server c m] ∧
          s'.listening = r.server.listeners.length :: r.server.listening ∧
          s'.vhostRoutes = r.server.vhostRoutes ∧
          s'.proxyRateLimiters = limitersAfter r.server c m ∧
          s'.controls c = some (cs.addListener (newListener r.server c m)) := by
        subst hs'
        exact ⟨rfl, rfl, rfl, rfl, Function.update_self ..⟩
      obtain ⟨hlisteners, hlistening, hroutes, hlimiters, hcontrol⟩ := hfields
      have hlive : s'.liveListeners c = r.server.liveListeners c ++ [newListener r.server c m] :=
        liveListeners_open hr.below hlisteners hlistening rfl rfl
      refine ⟨⟨⟨_, hcontrol, ?_⟩, ?_, ?_, hnames⟩, ⟨?_, ?_, hlimiters⟩, trivial⟩
      · rw [hlive, List.filter_append, List.filter_append, ← hproxies, ← hudp]
        generalize newListener r.server c m = l
        cases hkind : l.kind with
        | tcp => simp [addListener, hkind, hauth]
        | udp => simp [addListener, hkind, hauth]
      · show (s'.listeners.map Listener.id).Nodup
        rw [hlisteners, List.map_append, List.map_singleton]
        refine List.nodup_append_comm.mp (List.nodup_cons.mpr ⟨fun hmem => ?_, hr.ids⟩)
        obtain ⟨l, hl, hid⟩ := List.mem_map.mp hmem
        exact absurd hid (Nat.ne_of_lt (hr.below l hl))
      · intro l hl
        have hl : l ∈ r.server.listeners ++ [newListener r.server c m] := hlisteners ▸ hl
        show l.id < s'.listeners.length
        rw [hlisteners, List.length_append, List.length_singleton]
        rcases List.mem_append.mp hl with hl | hl
        · exact Nat.lt_succ_of_lt (hr.below l hl)
        · rw [List.mem_singleton.mp hl]
          exact Nat.lt_succ_self _
      · rw [hv, if_neg Bool.false_ne_true]
        exact hlive
      · rw [hv, if_neg Bool.false_ne_true]
        exact hroutes

/-- A listener found by its name. -/
theorem find?_name {ls : List Listener} {name : String} {l : Listener}
    (h : ls.find? (fun p => p.proxyName == name) = some l) : l ∈ ls ∧ l.proxyName = name :=
  ⟨List.mem_of_find?_eq_some h, by simpa using List.find?_some h⟩

/-- Erasing a listener from those of one kind, by its identity. -/
theorem erase_filter {ls : List Listener} {p : Listener} (h : (ls.map Listener.id).Nodup)
    (hp : p ∈ ls) (q : Listener → Bool) :
    (ls.filter q).erase p = (ls.filter fun l => l.id != p.id).filter q := by
  have hnodup : (ls.filter q).Nodup := (List.Nodup.of_map _ h).filter _
  rw [hnodup.erase_eq_filter, List.filter_filter, List.filter_filter]
  refine List.filter_congr fun l hl => ?_
  have hiff : l = p ↔ l.id = p.id :=
    ⟨congrArg Listener.id, fun hid => List.inj_on_of_nodup_map h hl hp hid⟩
  rw [Bool.and_comm]
  congr 1
  rw [Bool.eq_iff_iff, bne_iff_ne, bne_iff_ne]
  exact not_congr hiff

theorem not_mem_kind {ls : List Listener} {p : Listener} {k k' : ListenerKind}
    (hk : (p.kind == k) = true) (hne : (k == k') = false) :
    p ∉ ls.filter fun l => l.kind == k' := by
  intro hmem
  have hk' := (List.mem_filter.mp hmem).2
  rw [beq_iff_eq.mp hk, hne] at hk'
  exact Bool.false_ne_true hk'

theorem regInv_unregister {c : CtrlId} {r r' : RegRun} {name : String}
    (hr : RegInv c r) (h : r.step c (.unregister name) = some r') :
    RegInv c r' ∧ r'.server.vhostRoutes = r.server.vhostRoutes ∧
      r'.server.proxyRateLimiters = r.server.proxyRateLimiters ∧
      r'.current = withdraw r.current name ∧
      ((∀ l ∈ r.server.liveListeners c, l.proxyName ≠ name) ∧
          r'.server.liveListeners c = r.server.liveListeners c ∨
        ∃ p ∈ r.server.liveListeners c, p.proxyName = name ∧
          r'.server.liveListeners c = (r.server.liveListeners c).filter fun l => l.id != p.id) := by
  obtain ⟨cs, hc, hauth, hproxies, hudp⟩ := hr.control
  simp only [step, Server.step, hc, Option.map_some, Option.some.injEq] at h
  subst h
  have hnames := (withdraw_names name hr.names).1
  have hids : ((r.server.liveListeners c).map Listener.id).Nodup :=
    hr.ids.sublist (List.filter_sublist.map _)
  simp only [handleMessage, hauth, if_true]
  rw [handleUnregisterProxy]
  cases hfound : cs.findProxy name with
  | some p =>
      -- the first list that has the name loses its first listener of that name
      obtain ⟨hmem, hname⟩ := find?_name hfound
      rw [hproxies] at hmem
      obtain ⟨hlive, hkind⟩ := List.mem_filter.mp hmem
      have hafter := liveListeners_close (s := r.server)
        (t := (r.server.closeListener p).setControl c { cs with proxies := cs.proxies.erase p })
        (c := c) rfl rfl
      refine ⟨⟨⟨_, Function.update_self .., hauth, ?_, ?_⟩, hr.ids, hr.below, hnames⟩, rfl, rfl,
        trivial, Or.inr ⟨p, hlive, hname, hafter⟩⟩
      · rw [hafter, ← erase_filter hids hlive]
        exact congrArg (·.erase p) hproxies
      · rw [hafter, ← erase_filter hids hlive, List.erase_of_not_mem (not_mem_kind hkind rfl)]
        exact hudp
  | none =>
      cases hfoundUdp : cs.findUdpProxy name with
      | some p =>
          obtain ⟨hmem, hname⟩ := find?_name hfoundUdp
          rw [hudp] at hmem
          obtain ⟨hlive, hkind⟩ := List.mem_filter.mp hmem
          have hafter := liveListeners_close (s := r.server)
            (t := (r.server.closeListener p).setControl c
              { cs with udpProxies := cs.udpProxies.erase p }) (c := c) rfl rfl
          refine ⟨⟨⟨_, Function.update_self .., hauth, ?_, ?_⟩, hr.ids, hr.below, hnames⟩, rfl,
            rfl, trivial, Or.inr ⟨p, hlive, hname, hafter⟩⟩
          · rw [hafter, ← erase_filter hids hlive, List.erase_of_not_mem (not_mem_kind hkind rfl)]
            exact hproxies
          · rw [hafter, ← erase_filter hids hlive]
            exact congrArg (·.erase p) hudp
      | none =>
          refine ⟨⟨⟨cs, hc, hauth, hproxies, hudp⟩, hr.ids, hr.below, hnames⟩, rfl, rfl, trivial,
            Or.inl ⟨fun l hl hname => ?_, rfl⟩⟩
          -- neither list knows the name, so no live listener has it
          rw [findProxy, hproxies, List.find?_eq_none] at hfound
          rw [findUdpProxy, hudp, List.find?_eq_none] at hfoundUdp
          cases hkind : l.kind with
          | tcp =>
              exact hfound l (List.mem_filter.mpr ⟨hl, beq_iff_eq.mpr hkind⟩) (beq_iff_eq.mpr hname)
          | udp =>
              exact hfoundUdp l (List.mem_filter.mpr ⟨hl, beq_iff_eq.mpr hkind⟩)
                (beq_iff_eq.mpr hname)

/-! ## When the containers stay exact -/

/-- The route a registration asks for. -/
def routeTo (c : CtrlId) (m : RegisterProxyMessage) : VhostRoute := ⟨c, m.name, typeOf m⟩

theorem requested_withdraw (current : List RegisterProxyMessage) (name : String)
    (q : RegisterProxyMessage → Bool) :
    ((withdraw current name).filter q).map requested =
      ((current.filter q).map requested).filter fun x => x.2.2 != name := by
  rw [List.filter_map, List.filter_filter, withdraw, List.filter_filter]
  congr 1
  refine List.filter_congr fun m _ => ?_
  rw [Bool.and_comm]
  rfl

/-- The open listeners are those of what is left exactly if none has the withdrawn name. -/
theorem listeners_withdraw {c : CtrlId} {r : RegRun} (h : Exact c r) (name : String) :
    (r.server.liveListeners c).map Listener.serving =
        ((withdraw r.current name).filter fun m => !isVhostType (typeOf m)).map requested ↔
      ∀ l ∈ r.server.liveListeners c, l.proxyName ≠ name := by
  rw [requested_withdraw, ← h.listeners, eq_comm, List.filter_eq_self]
  constructor
  · intro hall l hl
    exact bne_iff_ne.mp (hall l.serving (List.mem_map_of_mem hl))
  · intro hall x hx
    obtain ⟨l, hl, rfl⟩ := List.mem_map.mp hx
    exact bne_iff_ne.mpr (hall l hl)

/-- Withdrawing a name changes what a domain should be routed to exactly if the route is
under that name. -/
theorem route_withdraw {c : CtrlId} {r : RegRun} (h : Exact c r) (name domain : String) :
    r.server.vhostRoutes.lookup domain =
        (claimant (withdraw r.current name) domain).map (routeTo c) ↔
      ∀ route, r.server.vhostRoutes.lookup domain = some route → route.proxyName ≠ name := by
  have hroute : r.server.vhostRoutes.lookup domain =
      (claimant r.current domain).map (routeTo c) := h.routes domain
  constructor
  · intro heq route hl hname
    rw [hl, eq_comm, Option.map_eq_some_iff] at heq
    obtain ⟨m, hm, hrm⟩ := heq
    have hmem := List.mem_of_find?_eq_some hm
    rw [List.mem_reverse, withdraw, List.mem_filter, bne_iff_ne] at hmem
    exact hmem.2 ((congrArg VhostRoute.proxyName hrm).trans hname)
  · intro hall
    rw [hroute, (claimant_withdraw r.current name domain).mpr]
    intro m hm hname
    rw [hm] at hroute
    exact hall _ hroute hname

theorem limitersAfter_rate (s : Server) (c : CtrlId) (m : RegisterProxyMessage) (name : String) :
    ((limitersAfter s c m).lookup name).map RateLimiter.bytesPerSec =
      if name = m.name ∧ 0 < m.bandwidthLimit then some m.bandwidthLimit
      else (s.proxyRateLimiters.lookup name).map RateLimiter.bytesPerSec := by
  rw [limitersAfter]
  by_cases hlimit : 0 < m.bandwidthLimit
  · rw [if_pos hlimit, Table.lookup_insert_if]
    by_cases hname : name = m.name
    · rw [if_pos hname, if_pos ⟨hname, hlimit⟩]
      cases s.proxyRateLimiters.lookup m.name <;> rfl
    · rw [if_neg hname, if_neg fun hh => hname hh.1]
  · rw [if_neg hlimit, if_neg fun hh => hlimit hh.2]

theorem exact_register {c : CtrlId} {r r' : RegRun} {m : RegisterProxyMessage}
    (hr : RegInv c r) (hx : Exact c r) (h : r.step c (.register m) = some r') :
    Exact c r' ↔ Clean c r (.register m) := by
  obtain ⟨-, hregs, hcurrent⟩ := regInv_register hr h
  -- each container stays exact under a condition of its own
  have hlisteners : (r'.server.liveListeners c).map Listener.serving =
        (r'.current.filter fun m => !isVhostType (typeOf m)).map requested ↔
      ∀ l ∈ r.server.liveListeners c, l.proxyName ≠ m.name := by
    rw [← listeners_withdraw hx, hregs.listeners, hcurrent, List.filter_append, List.map_append,
      List.map_append]
    cases hv : isVhostType (typeOf m) with
    | true => simp [hv]
    | false =>
        have hnew : ([newListener r.server c m].map Listener.serving) = [requested m] := rfl
        simp only [hv, Bool.false_eq_true, if_false, List.filter_cons, Bool.not_false, if_true,
          List.filter_nil, List.map_cons, List.map_nil]
        exact ⟨List.append_cancel_right, fun heq => by rw [heq]; rfl⟩
  have hroutes : (∀ d, r'.server.vhostRoutes.lookup d = (claimant r'.current d).map (routeTo c)) ↔
      ∀ d route, r.server.vhostRoutes.lookup d = some route → route.proxyName = m.name →
        isVhostType (typeOf m) = true ∧ d ∈ m.customDomains := by
    refine forall_congr' fun d => ?_
    rw [hcurrent, claimant_append, hregs.routes]
    by_cases hd : isVhostType (typeOf m) = true ∧ d ∈ m.customDomains
    · rw [if_pos hd, if_pos hd.1, Table.lookup_insertAll, if_pos hd.2]
      exact iff_of_true rfl fun _ _ _ => hd
    · have hsame : AList.lookup d (if isVhostType (typeOf m) = true then
          Table.insertAll r.server.vhostRoutes m.customDomains ⟨c, m.name, typeOf m⟩
          else r.server.vhostRoutes) = r.server.vhostRoutes.lookup d := by
        split
        · rename_i hv
          rw [Table.lookup_insertAll, if_neg fun hh => hd ⟨hv, hh⟩]
        · rfl
      rw [if_neg hd, hsame, route_withdraw hx]
      exact forall_congr' fun route => forall_congr' fun _ =>
        ⟨fun hne heq => absurd heq hne, fun himp heq => hd (himp heq)⟩
  have hlimiters : (∀ n, (r'.server.proxyRateLimiters.lookup n).map RateLimiter.bytesPerSec =
        ((registered r'.current n).map RegisterProxyMessage.bandwidthLimit).filter (0 < ·)) ↔
      r.server.proxyRateLimiters.lookup m.name = none ∨ 0 < m.bandwidthLimit := by
    have hold : ∀ n, (r'.server.proxyRateLimiters.lookup n).map RateLimiter.bytesPerSec =
          ((registered r'.current n).map RegisterProxyMessage.bandwidthLimit).filter (0 < ·) ↔
        n = m.name → r.server.proxyRateLimiters.lookup n = none ∨ 0 < m.bandwidthLimit := by
      intro n
      rw [hregs.limiters, limitersAfter_rate, hcurrent, registered_append]
      by_cases hn : n = m.name
      · by_cases hlimit : 0 < m.bandwidthLimit
        · rw [if_pos ⟨hn, hlimit⟩, if_pos hn]
          exact iff_of_true (by simp [Option.filter, hlimit]) fun _ => Or.inr hlimit
        · rw [if_neg fun hh => hlimit hh.2, if_pos hn]
          simp [Option.filter, hlimit, hn]
      · rw [if_neg fun hh => hn hh.1, if_neg hn, hx.limiters n]
        exact iff_of_true rfl fun hh => absurd hh hn
    rw [forall_congr' hold]
    exact ⟨fun hall => hall m.name rfl, fun hh n hn => hn ▸ hh⟩
  rw [Clean, ← hlisteners, ← hroutes, ← hlimiters]
  exact ⟨fun hh => ⟨hh.listeners, hh.routes, hh.limiters⟩, fun hh => ⟨hh.1, hh.2.1, hh.2.2⟩⟩

theorem exact_unregister {c : CtrlId} {r r' : RegRun} {name : String}
    (hr : RegInv c r) (hx : Exact c r) (h : r.step c (.unregister name) = some r') :
    Exact c r' ↔ Clean c r (.unregister name) := by
  obtain ⟨-, hroutes, hlimiters, hcurrent, hlisteners⟩ := regInv_unregister hr h
  have hids : ((r.server.liveListeners c).map Listener.id).Nodup :=
    hr.ids.sublist (List.filter_sublist.map _)
  have hnames : ((r.server.liveListeners c).map Listener.proxyName).Nodup := by
    have heq := congrArg (List.map fun x : ListenerKind × UInt16 × String => x.2.2) hx.listeners
    rw [List.map_map, List.map_map] at heq
    exact heq ▸ hr.names.sublist (List.filter_sublist.map _)
  -- the listener of a TCP or UDP proxy is closed
  have hclosed : (r'.server.liveListeners c).map Listener.serving =
      (r'.current.filter fun m => !isVhostType (typeOf m)).map requested := by
    rw [hcurrent, requested_withdraw, ← hx.listeners, List.filter_map]
    rcases hlisteners with ⟨hnone, hsame⟩ | ⟨p, hp, hname, hrest⟩
    · rw [hsame, List.filter_eq_self.mpr]
      intro l hl
      exact bne_iff_ne.mpr (hnone l hl)
    · rw [hrest]
      congr 1
      refine List.filter_congr fun l hl => ?_
      rw [Bool.eq_iff_iff, bne_iff_ne]
      show l.id ≠ p.id ↔ (l.proxyName != name) = true
      rw [bne_iff_ne, ← hname]
      exact not_congr ⟨fun hid => by rw [List.inj_on_of_nodup_map hids hl hp hid],
        fun hn => by rw [List.inj_on_of_nodup_map hnames hl hp hn]⟩
  have hroutesIff : (∀ d, r'.server.vhostRoutes.lookup d =
        (claimant r'.current d).map (routeTo c)) ↔
      ∀ d route, r.server.vhostRoutes.lookup d = some route → route.proxyName ≠ name := by
    rw [hroutes, hcurrent]
    exact forall_congr' fun d => route_withdraw hx name d
  have hlimitersIff : (∀ n, (r'.server.proxyRateLimiters.lookup n).map RateLimiter.bytesPerSec =
        ((registered r'.current n).map RegisterProxyMessage.bandwidthLimit).filter (0 < ·)) ↔
      r.server.proxyRateLimiters.lookup name = none := by
    have hold : ∀ n, (r'.server.proxyRateLimiters.lookup n).map RateLimiter.bytesPerSec =
          ((registered r'.current n).map RegisterProxyMessage.bandwidthLimit).filter (0 < ·) ↔
        n = name → r.server.proxyRateLimiters.lookup n = none := by
      intro n
      rw [hlimiters, hcurrent, registered_withdraw]
      by_cases hn : n = name
      · rw [if_pos hn]
        simp [hn]
      · rw [if_neg hn, hx.limiters n]
        exact iff_of_true rfl fun hh => absurd hh hn
    rw [forall_congr' hold]
    exact ⟨fun hall => hall name rfl, fun hh n hn => hn ▸ hh⟩
  rw [Clean, ← hroutesIff, ← hlimitersIff]
  exact ⟨fun hh => ⟨hh.routes, hh.limiters⟩, fun hh => ⟨hclosed, hh.1, hh.2⟩⟩

/-! ## Every run -/

theorem exact_init {s : Server} {c : CtrlId} (hs : s.JustLoggedIn c) :
    RegInv c { server := s } ∧ Exact c { server := s } := by
  have hlive : s.liveListeners c = [] := by
    rw [liveListeners, hs.listeners]
    rfl
  obtain ⟨cs, hc, hauth, hproxies, hudp⟩ := hs.control
  refine ⟨⟨⟨cs, hc, hauth, ?_, ?_⟩, ?_, ?_, List.nodup_nil⟩, ⟨?_, fun d => ?_, fun n => ?_⟩⟩
  · rw [hproxies, hlive]
    rfl
  · rw [hudp, hlive]
    rfl
  · show (s.listeners.map Listener.id).Nodup
    rw [hs.listeners]
    exact List.nodup_nil
  · intro l hl
    have hl : l ∈ s.listeners := hl
    rw [hs.listeners] at hl
    exact absurd hl List.not_mem_nil
  · show (s.liveListeners c).map Listener.serving = _
    rw [hlive]
    rfl
  · show s.vhostRoutes.lookup d = _
    rw [hs.routes]
    rfl
  · show (s.proxyRateLimiters.lookup n).map RateLimiter.bytesPerSec = _
    rw [hs.limiters]
    rfl

/-- **Registering and unregistering** keep the listeners, routes and rate limiters exactly
those of the registrations in force as long as every message is clean; and a message that
is not clean is the end of it. -/
theorem registrations_exact {s : Server} {c : CtrlId} (hs : s.JustLoggedIn c) {r : RegRun}
    (h : Reach (step c) (Clean c) { server := s } r) :
    Exact c r ∧ ∀ e r', r.step c e = some r' → (Exact c r' ↔ Clean c r e) := by
  have hiff : ∀ {r : RegRun} {e : RegEvent} {r' : RegRun}, RegInv c r → Exact c r →
      r.step c e = some r' → RegInv c r' ∧ (Exact c r' ↔ Clean c r e) := by
    intro r e r' hr hx hstep
    cases e with
    | register m => exact ⟨(regInv_register hr hstep).1, exact_register hr hx hstep⟩
    | unregister name => exact ⟨(regInv_unregister hr hstep).1, exact_unregister hr hx hstep⟩
  have hboth : RegInv c r ∧ Exact c r := by
    refine h.invariant (P := fun r => RegInv c r ∧ Exact c r) (exact_init hs) ?_
    rintro r e r' ⟨hr, hx⟩ hok hstep
    obtain ⟨hr', hx'⟩ := hiff hr hx hstep
    exact ⟨hr', hx'.mpr hok⟩
  exact ⟨hboth.2, fun e r' hstep => (hiff hboth.1 hboth.2 hstep).2⟩

/-- Session 0 has logged in on a server that has just started. -/
def loggedIn : Server :=
  handleLogin ((Server.init "tok" [] []).handleControlStream 1) 0 { muxSession := 1 } ⟨"tok", "a"⟩

theorem justLoggedIn_loggedIn : loggedIn.JustLoggedIn 0 :=
  ⟨⟨_, rfl, rfl, rfl, rfl⟩, rfl, rfl, rfl⟩

/-- A TCP and an HTTP proxy are registered, and the first is unregistered. -/
theorem registrations_exact_tcpAndHttp :
    ∃ r : RegRun, r.current = [⟨"web", "http", 0, ["a.com"], 1000⟩] ∧ Exact 0 r ∧
      r.server.vhostRoutes.lookup "a.com" = some ⟨0, "web", "http"⟩ := by
  have h₀ : Reach (step 0) (Clean 0) { server := loggedIn } _ := Reach.init
  have h₁ := h₀.next (.register ⟨"ssh", "tcp", 6000, [], 0⟩)
    ⟨fun l hl => absurd hl List.not_mem_nil,
      fun d route hl => absurd hl.symm (Option.some_ne_none route), Or.inl rfl⟩ rfl
  have h₂ := h₁.next (.register ⟨"web", "http", 0, ["a.com"], 1000⟩)
    ⟨fun l hl => by
        obtain rfl := List.mem_singleton.mp hl
        decide,
      fun d route hl => absurd hl.symm (Option.some_ne_none route), Or.inl rfl⟩ rfl
  have h₃ := h₂.next (.unregister "ssh")
    ⟨fun d route hl => by
        -- the one route there is was made for `web`
        have hroute := List.mem_singleton.mp (Table.lookup_eq_some_iff.mp hl)
        simp only [Sigma.mk.injEq, heq_eq_eq] at hroute
        rw [hroute.2]
        decide, rfl⟩ rfl
  exact ⟨_, rfl, (registrations_exact justLoggedIn_loggedIn h₃).1, rfl⟩

/-- An http proxy is unregistered, and its domain is still routed to it. -/
theorem registrations_exact_http :
    ¬ ∀ (s : Server) (c : CtrlId) (r : RegRun), s.JustLoggedIn c →
      Reach (step c) anyStep { server := s } r → Exact c r := by
  intro hall
  obtain ⟨r, hreach, hobs⟩ := exists_of_runAll (step 0)
    [.register ⟨"web", "http", 0, ["a.com"], 0⟩, .unregister "web"]
    (fun r => (r.server.vhostRoutes.lookup "a.com", r.current))
    (s := { server := loggedIn }) (a := (some ⟨0, "web", "http"⟩, [])) rfl
  have hroute := (hall _ _ r justLoggedIn_loggedIn hreach).routes "a.com"
  obtain ⟨hstill, hcurrent⟩ := Prod.mk.inj hobs
  rw [hstill, hcurrent] at hroute
  exact absurd hroute (by decide)

end RegRun

end Cfrp
