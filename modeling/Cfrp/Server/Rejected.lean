import Cfrp.Server.Effects
import Cfrp.Lib.Transition

/-!
# A registration that is answered with an error

`HandleMessage` sets the rate limiter before it looks at the port and before the listener's
constructor can throw. So a registration that fails has already given the name a limiter, or
has changed the rate of the one it had and cut its tokens, whoever that one belongs to. And
the loop over the custom domains is left as it is when a route cannot be inserted: the routes
before it stay. Everything else is done after the last test that can fail.
-/

namespace Cfrp

open Lib Protocol

namespace Server

/-- What a registration touches is what it was: the listeners and the routes, the rate
limiters with their rates and tokens, and the lists of every session. -/
structure SameTables (s s' : Server) : Prop where
  listeners : s'.listeners = s.listeners
  listening : s'.listening = s.listening
  routes : ∀ domain, s'.vhostRoutes.lookup domain = s.vhostRoutes.lookup domain
  limiters : ∀ name, (s'.proxyRateLimiters.lookup name).map RateLimiter.bucket =
    (s.proxyRateLimiters.lookup name).map RateLimiter.bucket
  controls : s'.controls = s.controls

/-- Setting a limiter to the rate it has changes nothing, unless it holds more than the rate. -/
theorem bucket_setRate_eq {rl : RateLimiter} {bytesPerSec : Int} :
    (rl.setRate bytesPerSec).bucket = rl.bucket ↔
      rl.bytesPerSec = bytesPerSec ∧ rl.tokens ≤ bytesPerSec := by
  simp only [RateLimiter.setRate, RateLimiter.bucket, Prod.mk.injEq, min_eq_left_iff]
  exact and_congr_left' eq_comm

/-- The name has a limiter that a registration for this rate does not change. -/
def LimiterInForce (s : Server) (name : String) (bytesPerSec : Int) : Prop :=
  ∃ rl, s.proxyRateLimiters.lookup name = some rl ∧ rl.bytesPerSec = bytesPerSec ∧
    rl.tokens ≤ bytesPerSec

/-- When a registration leaves the limiters as they were. -/
theorem lookup_limitersAfter_iff (s : Server) (c : CtrlId) (m : RegisterProxyMessage) :
    (∀ name, ((ControlSession.limitersAfter s c m).lookup name).map RateLimiter.bucket =
        (s.proxyRateLimiters.lookup name).map RateLimiter.bucket) ↔
      m.bandwidthLimit ≤ 0 ∨ s.LimiterInForce m.name m.bandwidthLimit := by
  unfold ControlSession.limitersAfter
  split
  · rename_i hlimit
    constructor
    · intro hall
      have hname := hall m.name
      rw [AList.lookup_insert] at hname
      refine Or.inr ?_
      cases hold : s.proxyRateLimiters.lookup m.name with
      | none =>
          rw [hold] at hname
          exact absurd hname (by simp)
      | some rl =>
          rw [hold] at hname
          exact ⟨rl, hold, bucket_setRate_eq.mp (Option.some.inj hname)⟩
    · rintro (hle | ⟨rl, hold, hsame⟩)
      · exact absurd hlimit (not_lt.mpr hle)
      · intro name
        rw [Table.lookup_insert_if]
        split
        · rename_i hname
          rw [hname, hold]
          exact congrArg some (bucket_setRate_eq.mpr hsame)
        · rfl
  · rename_i hlimit
    exact ⟨fun _ => Or.inl (not_lt.mp hlimit), fun _ _ => rfl⟩

/-- Every one of the domains is on the session's list and routed just so already. -/
def RoutesInForce (s : Server) (cs : ControlSession) (domains : List String)
    (route : VhostRoute) : Prop :=
  ∀ d ∈ domains, s.vhostRoutes.lookup d = some route ∧ d ∈ cs.registeredDomains

/-- Listing domains changes a list only by those that are not on it. -/
theorem foldl_insert_eq_self :
    ∀ {domains ds : List String},
      domains.foldl (fun ds d => ds.insert d) ds = ds ↔ ∀ d ∈ domains, d ∈ ds
  | [], ds => by simp
  | a :: rest, ds => by
      constructor
      · intro h d hd
        have hmem : d ∈ (a :: rest).foldl (fun ds d => ds.insert d) ds :=
          ControlSession.mem_foldl_insert.mpr (Or.inl hd)
        rwa [h] at hmem
      · intro h
        rw [List.foldl_cons, List.insert_of_mem (h a List.mem_cons_self)]
        exact foldl_insert_eq_self.mpr fun d hd => h d (List.mem_cons_of_mem a hd)

/-- When routing domains leaves the routes and the session's list as they were. -/
theorem routed_unchanged_iff {s : Server} {c : CtrlId} {cs : ControlSession}
    (hc : s.controls c = some cs) (domains : List String) (route : VhostRoute) :
    ((∀ d, (Table.insertAll s.vhostRoutes domains route).lookup d = s.vhostRoutes.lookup d) ∧
      Function.update s.controls c (some { cs with
        registeredDomains := domains.foldl (fun ds d => ds.insert d) cs.registeredDomains }) =
        s.controls) ↔ s.RoutesInForce cs domains route := by
  constructor
  · rintro ⟨hroutes, hcontrols⟩ d hd
    have hroute := hroutes d
    rw [Table.lookup_insertAll, if_pos hd] at hroute
    have hself := congrFun hcontrols c
    rw [Function.update_self, hc] at hself
    have hlist := congrArg ControlSession.registeredDomains (Option.some.inj hself)
    exact ⟨hroute.symm, foldl_insert_eq_self.mp hlist d hd⟩
  · intro h
    refine ⟨fun d => ?_, ?_⟩
    · rw [Table.lookup_insertAll]
      split
      · rename_i hd
        exact (h d hd).1.symm
      · rfl
    · rw [foldl_insert_eq_self.mpr fun d hd => (h d hd).2, ← hc, Function.update_eq_self]

end Server

namespace ControlSession

open Server

/-- Which reply was appended. -/
theorem reply_inj {sent : List (CtrlId × Message)} {c : CtrlId}
    {resp resp' : RegisterProxyRespMessage}
    (h : sent ++ [(c, .registerProxyResp resp)] = sent ++ [(c, .registerProxyResp resp')]) :
    resp = resp' := by
  have hlast := List.append_cancel_left h
  exact Message.registerProxyResp.inj (Prod.mk.inj (List.cons.inj hlast).1).2

/-- A registration that is answered with an error has set the rate limiter, and one of a vhost
type has routed the domains before the exception, and nothing else. -/
theorem handleRegisterProxy_error {s : Server} {c : CtrlId} {cs : ControlSession}
    {m : RegisterProxyMessage} {thrown : Option Thrown} {resp : RegisterProxyRespMessage}
    (hreply : (handleRegisterProxy s c cs m thrown).sent =
      s.sent ++ [(c, .registerProxyResp resp)]) (herror : resp.status = "error") :
    handleRegisterProxy s c cs m thrown =
      if isVhostType (typeOf m) then
        { s with
          proxyRateLimiters := limitersAfter s c m
          vhostRoutes :=
            Table.insertAll s.vhostRoutes (routedDomains m thrown) ⟨c, m.name, typeOf m⟩
          controls := Function.update s.controls c
            (some { cs with
              registeredDomains :=
                (routedDomains m thrown).foldl (fun ds d => ds.insert d) cs.registeredDomains })
          sent := s.sent ++ [(c, .registerProxyResp resp)] }
      else
        { s with
          proxyRateLimiters := limitersAfter s c m
          sent := s.sent ++ [(c, .registerProxyResp resp)] } := by
  rw [handleRegisterProxy_eq] at hreply ⊢
  cases hvhost : isVhostType (typeOf m) with
  | true =>
      simp only [hvhost, Bool.not_true, Bool.false_and, Bool.false_eq_true, if_false, if_true]
        at hreply ⊢
      rw [reply_inj hreply.symm]
      rfl
  | false =>
      cases hport : s.isPortAllowed m.remotePort with
      | false =>
          simp only [hvhost, hport, Bool.not_false, Bool.and_true, if_true] at hreply ⊢
          rw [reply_inj hreply.symm]
          rfl
      | true =>
          cases thrown with
          | some e =>
              simp only [hvhost, hport, Bool.not_true, Bool.and_false, Bool.false_eq_true,
                if_false] at hreply ⊢
              rw [reply_inj hreply.symm]
              rfl
          | none =>
              -- a listener that opens is answered with `ok`
              simp only [hvhost, hport, Bool.not_true, Bool.and_false, Bool.false_eq_true,
                if_false] at hreply
              rw [← reply_inj hreply] at herror
              exact absurd herror (show ¬ "ok" = "error" by decide)

end ControlSession

namespace Server

/-- **A rejected registration** leaves the tables alone exactly when it asks for no limit, or
for the limit that is in force already, and every domain it had routed before the exception
was routed to it already. -/
theorem rejected_unchanged_iff {s s' : Server} {c : CtrlId} {m : RegisterProxyMessage}
    {thrown : Option Thrown} {resp : RegisterProxyRespMessage}
    (hstep : s.step (.message c (.registerProxy m) thrown) = some s')
    (hreply : s'.sent = s.sent ++ [(c, .registerProxyResp resp)])
    (herror : resp.status = "error") :
    SameTables s s' ↔
      (m.bandwidthLimit ≤ 0 ∨ s.LimiterInForce m.name m.bandwidthLimit) ∧
      (ControlSession.isVhostType (ControlSession.typeOf m) = true →
        ∀ cs, s.controls c = some cs → s.RoutesInForce cs
          (ControlSession.routedDomains m thrown) ⟨c, m.name, ControlSession.typeOf m⟩) := by
  simp only [step, Option.map_eq_some_iff] at hstep
  obtain ⟨cs, hc, hhandled⟩ := hstep
  unfold ControlSession.handleMessage at hhandled
  dsimp only at hhandled
  split at hhandled
  · rw [← hhandled] at hreply
    rw [← hhandled, ControlSession.handleRegisterProxy_error hreply herror,
      ← lookup_limitersAfter_iff s c m]
    cases hvhost : ControlSession.isVhostType (ControlSession.typeOf m) with
    | true =>
        have hrouted := routed_unchanged_iff hc (ControlSession.routedDomains m thrown)
          ⟨c, m.name, ControlSession.typeOf m⟩
        constructor
        · intro h
          refine ⟨h.limiters, fun _ ds hds => ?_⟩
          rw [hc] at hds
          exact Option.some.inj hds ▸ hrouted.mp ⟨h.routes, h.controls⟩
        · rintro ⟨hlimiters, hroutes⟩
          obtain ⟨hsame, hcontrols⟩ := hrouted.mpr (hroutes rfl cs hc)
          exact ⟨rfl, rfl, hsame, hlimiters, hcontrols⟩
    | false =>
        constructor
        · exact fun h => ⟨h.limiters, fun hv => absurd hv Bool.false_ne_true⟩
        · exact fun h => ⟨rfl, rfl, fun _ => rfl, h.1, rfl⟩
  · -- a session that has not logged in gets no answer
    rw [← hhandled] at hreply
    exact absurd (congrArg List.length hreply) (by simp)

/-- A registration without a limit is refused and changes nothing. -/
theorem rejected_unchanged_iff_example :
    ∃ s s', Reach step anyStep (init "tok" [⟨8000, 9000⟩] []) s ∧
      s.step (.message 0 (.registerProxy ⟨"ssh", "tcp", 22, [], 0⟩) none) = some s' ∧
      SameTables s s' := by
  obtain ⟨s, hreach, hobs⟩ := exists_of_runAll step
    [.controlStream 1, .message 0 (.login ⟨"tok", "a"⟩) none]
    (fun s : Server => (s.step (.message 0 (.registerProxy ⟨"ssh", "tcp", 22, [], 0⟩) none)).map
      fun s' : Server => decide (s'.sent = s.sent ++
        [(0, .registerProxyResp ⟨"error", "ssh", "port not allowed"⟩)]))
    (s := init "tok" [⟨8000, 9000⟩] []) (a := some true) (by decide)
  obtain ⟨s', hstep, hreply⟩ := Option.map_eq_some_iff.mp hobs
  exact ⟨s, s', hreach, hstep, (rejected_unchanged_iff hstep (of_decide_eq_true hreply) rfl).mpr
    ⟨Or.inl (le_refl _), fun hv => absurd hv (by decide)⟩⟩

/-- A port that cannot be bound is answered with an error, and the name has a limiter. -/
theorem rejected_changed :
    ¬ ∀ (s s' : Server) (c : CtrlId) (m : RegisterProxyMessage) (thrown : Option Thrown)
      (resp : RegisterProxyRespMessage), Reach step anyStep (init "tok" [] []) s →
      s.step (.message c (.registerProxy m) thrown) = some s' →
      s'.sent = s.sent ++ [(c, .registerProxyResp resp)] → resp.status = "error" →
      SameTables s s' := by
  intro hall
  obtain ⟨s, hreach, hobs⟩ := exists_of_runAll step
    [.controlStream 1, .message 0 (.login ⟨"tok", "a"⟩) none]
    (fun s : Server => (s.step (.message 0 (.registerProxy ⟨"web", "tcp", 80, [], 5000⟩)
      (some { what := "bind: Permission denied" }))).map fun s' : Server =>
        (decide (s'.sent = s.sent ++
          [(0, .registerProxyResp ⟨"error", "web", "bind: Permission denied"⟩)]),
          s.proxyRateLimiters.lookup "web", s'.proxyRateLimiters.lookup "web"))
    (s := init "tok" [] []) (a := some (true, none, some ⟨5000, 5000, [0]⟩)) (by decide)
  obtain ⟨s', hstep, hseen⟩ := Option.map_eq_some_iff.mp hobs
  rw [Prod.mk.injEq, Prod.mk.injEq] at hseen
  obtain ⟨hreply, hbefore, hafter⟩ := hseen
  have hsame := (hall s s' 0 _ _ _ hreach hstep (of_decide_eq_true hreply) rfl).limiters "web"
  rw [hbefore, hafter] at hsame
  exact absurd hsame (by simp)

end Server

end Cfrp
