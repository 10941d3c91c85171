import Cfrp.Server.Control
import Cfrp.Server.Names

/-!
# What a control session does to each table

One lemma for each handler of a control session, in the form of an inversion: the new
server is the old one with these tables replaced. Everything after this file argues
from these lemmas and does not unfold a handler again.
-/

namespace Cfrp

open Lib Protocol

namespace Server

/-! ## Rate limiters -/

/-- The limiter a registration leaves under a name. -/
def registeredLimiter (old : Option RateLimiter) (bytesPerSec : Int) (owner : CtrlId) :
    RateLimiter :=
  match old with
  | none => RateLimiter.make bytesPerSec owner
  | some rl => { rl.setRate bytesPerSec with owners := rl.owners.insert owner }

theorem createRateLimiter_eq (s : Server) (proxyName : String) (bytesPerSec : Int)
    (owner : CtrlId) :
    s.createRateLimiter proxyName bytesPerSec owner =
      { s with
        proxyRateLimiters := s.proxyRateLimiters.insert proxyName
          (registeredLimiter (s.proxyRateLimiters.lookup proxyName) bytesPerSec owner) } := by
  unfold createRateLimiter
  cases s.proxyRateLimiters.lookup proxyName with
  | none => rfl
  | some rl => rfl

/-- A limiter keeps its owners as long as it exists, and the session that registers joins
them. -/
theorem mem_registeredLimiter_owners {old : Option RateLimiter} {bytesPerSec : Int}
    {owner c : CtrlId} :
    c ∈ (registeredLimiter old bytesPerSec owner).owners ↔
      (∃ rl, old = some rl ∧ c ∈ rl.owners) ∨ c = owner := by
  cases old with
  | none => simp [registeredLimiter, RateLimiter.make]
  | some rl => simp [registeredLimiter, or_comm]

end Server

namespace ControlSession

open Server

/-! ## Messages -/

/-- Every message is handled by one of four bodies, or ignored. -/
theorem handleMessage_cases (s : Server) (c : CtrlId) (cs : ControlSession) (msg : Message)
    (thrown : Option Thrown) :
    (∃ m, msg = .login m ∧ handleMessage s c cs msg thrown = handleLogin s c cs m) ∨
    (∃ m, msg = .registerProxy m ∧ cs.authenticated = true ∧
      handleMessage s c cs msg thrown = handleRegisterProxy s c cs m thrown) ∨
    (∃ m, msg = .unregisterProxy m ∧ cs.authenticated = true ∧
      handleMessage s c cs msg thrown = handleUnregisterProxy s c cs m.name) ∨
    handleMessage s c cs msg thrown = s := by
  unfold handleMessage
  cases msg with
  | login m => exact Or.inl ⟨m, rfl, rfl⟩
  | registerProxy m =>
      cases hauth : cs.authenticated with
      | true => exact Or.inr (Or.inl ⟨m, rfl, rfl, rfl⟩)
      | false => exact Or.inr (Or.inr (Or.inr rfl))
  | unregisterProxy m =>
      cases hauth : cs.authenticated with
      | true => exact Or.inr (Or.inr (Or.inl ⟨m, rfl, rfl, rfl⟩))
      | false => exact Or.inr (Or.inr (Or.inr rfl))
  | _ => exact Or.inr (Or.inr (Or.inr rfl))

/-- The tests a `Login` has to pass. -/
def loginAccepted (s : Server) (m : LoginMessage) : Bool :=
  m.token == s.token && s.isClientAllowed m.name

/-- **A login** is answered, and if it is accepted the session takes a free name. -/
theorem handleLogin_cases (s : Server) (c : CtrlId) (cs : ControlSession) (m : LoginMessage) :
    (loginAccepted s m = true ∧ ∃ n resp, n ∉ s.activeClientNames ∧
      handleLogin s c cs m =
        { s with
          activeClientNames := insert n s.activeClientNames
          sessions := s.sessions.insert n c
          controls := Function.update s.controls c
            (some { cs with clientName := n, authenticated := true })
          sent := s.sent ++ [(c, .loginResp resp)] }) ∨
    (loginAccepted s m = false ∧ ∃ resp,
      handleLogin s c cs m = { s with sent := s.sent ++ [(c, .loginResp resp)] }) := by
  unfold handleLogin loginAccepted
  by_cases htoken : m.token = s.token
  · cases hallowed : s.isClientAllowed m.name with
    | true =>
        rw [if_neg (not_not_intro htoken)]
        exact Or.inl ⟨by simp [htoken], _, _, freeClientName_notMem s.activeClientNames m.name, rfl⟩
    | false =>
        rw [if_neg (not_not_intro htoken)]
        exact Or.inr ⟨by simp, _, rfl⟩
  · rw [if_pos htoken]
    exact Or.inr ⟨by simp [htoken], _, rfl⟩

theorem addDomains_eq (c : CtrlId) (proxyName type : String) :
    ∀ (domains : List String) (s : Server) (cs : ControlSession),
      addDomains s c cs proxyName type domains =
        ({ s with
            vhostRoutes := Table.insertAll s.vhostRoutes domains ⟨c, proxyName, type⟩ },
          { cs with
            registeredDomains :=
              domains.foldl (fun ds d => ds.insert d) cs.registeredDomains })
  | [], _, _ => rfl
  | d :: rest, s, cs => by
      rw [addDomains, addDomains_eq c proxyName type rest]
      rfl

theorem mem_foldl_insert {d : String} :
    ∀ {domains ds : List String},
      d ∈ domains.foldl (fun ds d => ds.insert d) ds ↔ d ∈ domains ∨ d ∈ ds
  | [], ds => by simp
  | a :: rest, ds => by
      rw [List.foldl_cons, mem_foldl_insert, List.mem_insert_iff, List.mem_cons]
      constructor
      · rintro (h | h | h)
        · exact Or.inl (Or.inr h)
        · exact Or.inl (Or.inl h)
        · exact Or.inr h
      · rintro ((h | h) | h)
        · exact Or.inr (Or.inl h)
        · exact Or.inl h
        · exact Or.inr (Or.inr h)

/-- The type a registration is for. -/
def typeOf (m : RegisterProxyMessage) : String := if m.type = "" then "tcp" else m.type

/-- The rate limiters a registration leaves, whatever else becomes of it. -/
def limitersAfter (s : Server) (c : CtrlId) (m : RegisterProxyMessage) :
    Table String RateLimiter :=
  if m.bandwidthLimit > 0 then
    s.proxyRateLimiters.insert m.name
      (registeredLimiter (s.proxyRateLimiters.lookup m.name) m.bandwidthLimit c)
  else s.proxyRateLimiters

/-- The custom domains a registration routes, all of them unless an exception ends the loop. -/
def routedDomains (m : RegisterProxyMessage) : Option Thrown → List String
  | none => m.customDomains
  | some e => m.customDomains.take e.routed

/-- The reply, once the tests before the `try` block have passed. -/
def registrationReply (m : RegisterProxyMessage) : Option Thrown → RegisterProxyRespMessage
  | none => ⟨"ok", m.name, ""⟩
  | some e => ⟨"error", m.name, e.what⟩

/-- The control session a listener is added to. -/
def addListener (cs : ControlSession) (l : Listener) : ControlSession :=
  match l.kind with
  | .udp => { cs with udpProxies := cs.udpProxies ++ [l] }
  | .tcp => { cs with proxies := cs.proxies ++ [l] }

/-- The listener a registration opens. -/
def newListener (s : Server) (c : CtrlId) (m : RegisterProxyMessage) : Listener :=
  ⟨s.listeners.length, if typeOf m = "udp" then .udp else .tcp, m.remotePort, m.name, c⟩

theorem handleRegisterProxy_eq (s : Server) (c : CtrlId) (cs : ControlSession)
    (m : RegisterProxyMessage) (thrown : Option Thrown) :
    handleRegisterProxy s c cs m thrown =
      let s₁ := { s with proxyRateLimiters := limitersAfter s c m }
      if !isVhostType (typeOf m) && !s.isPortAllowed m.remotePort then
        s₁.sendMessage c (.registerProxyResp ⟨"error", m.name, "port not allowed"⟩)
      else if isVhostType (typeOf m) then
        { s₁ with
          vhostRoutes :=
            Table.insertAll s.vhostRoutes (routedDomains m thrown) ⟨c, m.name, typeOf m⟩
          controls := Function.update s.controls c
            (some { cs with
              registeredDomains :=
                (routedDomains m thrown).foldl (fun ds d => ds.insert d) cs.registeredDomains })
        }.sendMessage c (.registerProxyResp (registrationReply m thrown))
      else
        match thrown with
        | some e => s₁.sendMessage c (.registerProxyResp ⟨"error", m.name, e.what⟩)
        | none =>
            { s₁ with
              listeners := s.listeners ++ [newListener s c m]
              listening := s.listeners.length :: s.listening
              controls := Function.update s.controls c (some (cs.addListener (newListener s c m)))
            }.sendMessage c (.registerProxyResp ⟨"ok", m.name, ""⟩) := by
  have hlim : (if m.bandwidthLimit > 0 then s.createRateLimiter m.name m.bandwidthLimit c
      else s) = { s with proxyRateLimiters := limitersAfter s c m } := by
    unfold limitersAfter
    split
    · exact createRateLimiter_eq s m.name m.bandwidthLimit c
    · rfl
  unfold handleRegisterProxy
  rw [hlim, show (if m.type = "" then "tcp" else m.type) = typeOf m from rfl]
  simp only [addDomains_eq]
  unfold newListener
  cases thrown with
  | some e => rfl
  | none =>
      by_cases hudp : typeOf m = "udp"
      · simp only [hudp, if_true]
        rfl
      · simp only [hudp, if_false]
        rfl

/-- **A registration** always sets the rate limiter. Besides that it is refused, or it
routes its domains to the session, or it opens a listener. -/
theorem handleRegisterProxy_cases (s : Server) (c : CtrlId) (cs : ControlSession)
    (m : RegisterProxyMessage) (thrown : Option Thrown) :
    (isVhostType (typeOf m) = false ∧ ∃ resp, handleRegisterProxy s c cs m thrown =
      { s with
        proxyRateLimiters := limitersAfter s c m
        sent := s.sent ++ [(c, .registerProxyResp resp)] }) ∨
    (isVhostType (typeOf m) = true ∧ ∃ resp, handleRegisterProxy s c cs m thrown =
      { s with
        proxyRateLimiters := limitersAfter s c m
        vhostRoutes :=
          Table.insertAll s.vhostRoutes (routedDomains m thrown) ⟨c, m.name, typeOf m⟩
        controls := Function.update s.controls c
          (some { cs with
            registeredDomains :=
              (routedDomains m thrown).foldl (fun ds d => ds.insert d) cs.registeredDomains })
        sent := s.sent ++ [(c, .registerProxyResp resp)] }) ∨
    (isVhostType (typeOf m) = false ∧ ∃ resp, handleRegisterProxy s c cs m thrown =
      { s with
        proxyRateLimiters := limitersAfter s c m
        listeners := s.listeners ++ [newListener s c m]
        listening := s.listeners.length :: s.listening
        controls := Function.update s.controls c (some (cs.addListener (newListener s c m)))
        sent := s.sent ++ [(c, .registerProxyResp resp)] }) := by
  rw [handleRegisterProxy_eq]
  cases hvhost : isVhostType (typeOf m) with
  | true => exact Or.inr (Or.inl ⟨rfl, _, rfl⟩)
  | false =>
      cases hport : s.isPortAllowed m.remotePort with
      | false => exact Or.inl ⟨rfl, _, rfl⟩
      | true =>
          cases thrown with
          | some e => exact Or.inl ⟨rfl, _, rfl⟩
          | none => exact Or.inr (Or.inr ⟨rfl, _, rfl⟩)

theorem handleRegisterProxy_limiters (s : Server) (c : CtrlId) (cs : ControlSession)
    (m : RegisterProxyMessage) (thrown : Option Thrown) :
    (handleRegisterProxy s c cs m thrown).proxyRateLimiters = limitersAfter s c m := by
  rcases handleRegisterProxy_cases s c cs m thrown with ⟨-, _, heq⟩ | ⟨-, _, heq⟩ | ⟨-, _, heq⟩
  · rw [heq]
  · rw [heq]
  · rw [heq]

/-- **Unregistering** closes at most one listener of the session and forgets it. -/
theorem handleUnregisterProxy_cases (s : Server) (c : CtrlId) (cs : ControlSession)
    (name : String) :
    handleUnregisterProxy s c cs name = s ∨
    ∃ p ps us, (∀ l, l ∈ cs.proxies ++ cs.udpProxies → l ≠ p → l ∈ ps ++ us) ∧
      (∀ l, l ∈ ps ++ us → l ∈ cs.proxies ++ cs.udpProxies) ∧
      handleUnregisterProxy s c cs name =
        { s with
          listening := s.listening.filter (· ≠ p.id)
          controls := Function.update s.controls c
            (some { cs with proxies := ps, udpProxies := us }) } := by
  unfold handleUnregisterProxy
  split
  · rename_i p _
    refine Or.inr ⟨p, cs.proxies.erase p, cs.udpProxies, ?_, ?_, rfl⟩
    · intro l hl hne
      rw [List.mem_append, List.mem_erase_of_ne hne, ← List.mem_append]
      exact hl
    · intro l hl
      rcases List.mem_append.mp hl with h | h
      · exact List.mem_append_left _ (List.mem_of_mem_erase h)
      · exact List.mem_append_right _ h
  · split
    · rename_i p _
      refine Or.inr ⟨p, cs.proxies, cs.udpProxies.erase p, ?_, ?_, rfl⟩
      · intro l hl hne
        rw [List.mem_append, List.mem_erase_of_ne hne, ← List.mem_append]
        exact hl
      · intro l hl
        rcases List.mem_append.mp hl with h | h
        · exact List.mem_append_left _ h
        · exact List.mem_append_right _ (List.mem_of_mem_erase h)
    · exact Or.inl rfl

/-- The tables of those who wait for a work stream, and what work streams took over. -/
structure PendingKept (s s' : Server) : Prop where
  userConns : s'.pendingUserConns = s.pendingUserConns
  udpSessions : s'.pendingUdpSessions = s.pendingUdpSessions
  handed : s'.handed = s.handed

/-- No message concerns those who wait. -/
theorem handleMessage_pending (s : Server) (c : CtrlId) (cs : ControlSession) (msg : Message)
    (thrown : Option Thrown) : PendingKept s (handleMessage s c cs msg thrown) := by
  rcases handleMessage_cases s c cs msg thrown with
    ⟨m, -, heq⟩ | ⟨m, -, -, heq⟩ | ⟨m, -, -, heq⟩ | heq
  · rw [heq]
    rcases handleLogin_cases s c cs m with ⟨-, _, _, -, heq⟩ | ⟨-, _, heq⟩
    · rw [heq]
      exact ⟨rfl, rfl, rfl⟩
    · rw [heq]
      exact ⟨rfl, rfl, rfl⟩
  · rw [heq]
    rcases handleRegisterProxy_cases s c cs m thrown with
      ⟨-, _, heq⟩ | ⟨-, _, heq⟩ | ⟨-, _, heq⟩
    · rw [heq]
      exact ⟨rfl, rfl, rfl⟩
    · rw [heq]
      exact ⟨rfl, rfl, rfl⟩
    · rw [heq]
      exact ⟨rfl, rfl, rfl⟩
  · rw [heq]
    rcases handleUnregisterProxy_cases s c cs m.name with heq | ⟨_, _, _, -, -, heq⟩
    · rw [heq]
      exact ⟨rfl, rfl, rfl⟩
    · rw [heq]
      exact ⟨rfl, rfl, rfl⟩
  · rw [heq]
    exact ⟨rfl, rfl, rfl⟩

/-! ## Stop -/

/-- The listeners `Stop` walks over, and with them the proxy names. -/
def allProxies (cs : ControlSession) : List Listener := cs.proxies ++ cs.udpProxies

/-- Some listener of the session serves the proxy name. -/
def serves (cs : ControlSession) (proxyName : String) : Bool :=
  cs.allProxies.any fun p => proxyName == p.proxyName

theorem serves_iff {cs : ControlSession} {proxyName : String} :
    cs.serves proxyName = true ↔ ∃ p ∈ cs.allProxies, p.proxyName = proxyName := by
  unfold serves
  rw [List.any_eq_true]
  constructor
  · rintro ⟨p, hp, heq⟩
    exact ⟨p, hp, (eq_of_beq heq).symm⟩
  · rintro ⟨p, hp, heq⟩
    exact ⟨p, hp, beq_iff_eq.mpr heq.symm⟩

theorem stopProxies_eq :
    ∀ (ps : List Listener) (s : Server),
      ps.foldl stopProxy s =
        { s with
          pendingUserConns := Table.eraseIf s.pendingUserConns fun i =>
            ps.any fun p => i.proxyName == p.proxyName
          pendingUdpSessions := Table.eraseIf s.pendingUdpSessions fun i =>
            ps.any fun p => i.proxyName == p.proxyName
          proxyRateLimiters := Table.eraseAll s.proxyRateLimiters (ps.map Listener.proxyName)
          listening := s.listening.filter fun i => ps.all fun p => i ≠ p.id }
  | [], s => by
      simp only [List.foldl_nil, List.any_nil, List.all_nil, Table.eraseIf_false, List.map_nil,
        List.filter_true]
      rfl
  | p :: ps, s => by
      rw [List.foldl_cons, stopProxies_eq ps]
      simp only [stopProxy, clearPendingForProxy, removeRateLimiter, closeListener,
        Table.eraseIf_eraseIf, List.filter_filter, List.any_cons, List.all_cons, List.map_cons]
      simp only [Bool.and_comm]
      rfl

theorem removeRoutes_eq :
    ∀ (ds : List String) (s : Server),
      ds.foldl Server.removeVhostRoute s =
        { s with vhostRoutes := Table.eraseAll s.vhostRoutes ds }
  | [], _ => rfl
  | d :: ds, s => by
      rw [List.foldl_cons, removeRoutes_eq ds]
      rfl

/-- **`Stop`** releases the name, the mux session's entry, everything filed under the
name of a proxy it still lists, the listeners themselves, and the domains. -/
theorem stop_eq (s : Server) (c : CtrlId) (cs : ControlSession) :
    stop s c cs =
      { s with
        activeClientNames :=
          if cs.authenticated then s.activeClientNames.erase cs.clientName
          else s.activeClientNames
        sessions := if cs.authenticated then s.sessions.erase cs.clientName else s.sessions
        muxToControl := s.muxToControl.erase cs.muxSession
        pendingUserConns := Table.eraseIf s.pendingUserConns fun i => cs.serves i.proxyName
        pendingUdpSessions := Table.eraseIf s.pendingUdpSessions fun i => cs.serves i.proxyName
        proxyRateLimiters :=
          Table.eraseAll s.proxyRateLimiters (cs.allProxies.map Listener.proxyName)
        listening := s.listening.filter fun i => cs.allProxies.all fun p => i ≠ p.id
        vhostRoutes := Table.eraseAll s.vhostRoutes cs.registeredDomains
        controls := Function.update s.controls c
          (some { cs with
            proxies := [], udpProxies := [], registeredDomains := [], stopped := true }) } := by
  have hwalk : ∀ s₁ : Server, cs.udpProxies.foldl stopProxy (cs.proxies.foldl stopProxy s₁) =
      cs.allProxies.foldl stopProxy s₁ := fun _ => List.foldl_append.symm
  unfold stop
  simp only [hwalk]
  simp only [stopProxies_eq, removeRoutes_eq]
  cases cs.authenticated <;> rfl

end ControlSession

end Cfrp
