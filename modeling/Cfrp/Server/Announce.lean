import Cfrp.Server.Ownership
import Cfrp.Server.Tickets

/-!
# What the server tells its sessions

A step answers the session whose message it handles, or tells a session of a user. The proxy
that is named to the session is the one the user is filed under, and a work stream that takes
the user over is given that name again. With fresh tickets a session is told of a ticket once,
and it is the session that the ticket is pending for.
-/

namespace Cfrp

open Lib Protocol

/-! ## The messages to a session -/

/-- The messages to a session. -/
def sentTo (c : CtrlId) (sent : List (CtrlId × Message)) : List Message :=
  (sent.filter fun m => m.1 = c).map Prod.snd

section Sent

variable {sent more : List (CtrlId × Message)} {c d : CtrlId} {k l : Nat} {msg : Message}

theorem sentTo_append (c : CtrlId) (sent more : List (CtrlId × Message)) :
    sentTo c (sent ++ more) = sentTo c sent ++ sentTo c more := by
  simp [sentTo]

theorem mem_of_sentTo (h : (sentTo c sent)[k]? = some msg) : (c, msg) ∈ sent := by
  obtain ⟨⟨d, msg'⟩, hmem, rfl⟩ := List.mem_map.mp (List.mem_of_getElem? h)
  obtain ⟨hmem, hd⟩ := List.mem_filter.mp hmem
  rwa [← of_decide_eq_true hd]

theorem sentTo_mono (h : (sentTo c sent)[k]? = some msg) (more : List (CtrlId × Message)) :
    (sentTo c (sent ++ more))[k]? = some msg := by
  rw [sentTo_append, List.getElem?_append_left (List.getElem?_eq_some_iff.mp h).1]
  exact h

/-- A message was there before, or it is one of those that were added. -/
theorem of_sentTo_append (h : (sentTo c (sent ++ more))[k]? = some msg) :
    (sentTo c sent)[k]? = some msg ∨ (c, msg) ∈ more := by
  rw [sentTo_append] at h
  by_cases hk : k < (sentTo c sent).length
  · rw [List.getElem?_append_left hk] at h
    exact Or.inl h
  · rw [List.getElem?_append_right (by omega)] at h
    exact Or.inr (mem_of_sentTo h)

/-- One more message has a place of its own. -/
theorem of_sentTo_concat {msg' : Message} (h : (sentTo c (sent ++ [(d, msg')]))[k]? = some msg) :
    (sentTo c sent)[k]? = some msg ∨ msg = msg' ∧ c = d ∧ k = (sentTo c sent).length := by
  rw [sentTo_append] at h
  by_cases hk : k < (sentTo c sent).length
  · rw [List.getElem?_append_left hk] at h
    exact Or.inl h
  · rw [List.getElem?_append_right (by omega)] at h
    obtain ⟨rfl, rfl⟩ := Prod.mk.inj (List.mem_singleton.mp (mem_of_sentTo h))
    have hlt := (List.getElem?_eq_some_iff.mp h).1
    have hone : (sentTo c [(c, msg)]).length = 1 := by simp [sentTo]
    exact Or.inr ⟨rfl, rfl, by omega⟩

end Sent

namespace ControlSession

/-- A message is answered once, or not at all, and the answer is about no user. -/
theorem handleMessage_sent (s : Server) (c : CtrlId) (cs : ControlSession) (msg : Message)
    (thrown : Option Thrown) :
    (handleMessage s c cs msg thrown).sent = s.sent ∨
      ∃ answer, (∀ u, answer ≠ .newUserConn u) ∧
        (handleMessage s c cs msg thrown).sent = s.sent ++ [(c, answer)] := by
  rcases handleMessage_cases s c cs msg thrown with
    ⟨m, -, heq⟩ | ⟨m, -, -, heq⟩ | ⟨m, -, -, heq⟩ | heq
  · rw [heq]
    rcases handleLogin_cases s c cs m with ⟨-, _, _, -, heq⟩ | ⟨-, _, heq⟩
    · rw [heq]
      exact Or.inr ⟨_, fun _ h => (by cases h), rfl⟩
    · rw [heq]
      exact Or.inr ⟨_, fun _ h => (by cases h), rfl⟩
  · rw [heq]
    rcases handleRegisterProxy_cases s c cs m thrown with
      ⟨-, _, heq⟩ | ⟨-, _, heq⟩ | ⟨-, _, heq⟩
    · rw [heq]
      exact Or.inr ⟨_, fun _ h => (by cases h), rfl⟩
    · rw [heq]
      exact Or.inr ⟨_, fun _ h => (by cases h), rfl⟩
    · rw [heq]
      exact Or.inr ⟨_, fun _ h => (by cases h), rfl⟩
  · rw [heq]
    rcases handleUnregisterProxy_cases s c cs m.name with heq | ⟨_, _, _, -, -, heq⟩
    · rw [heq]
      exact Or.inl rfl
    · rw [heq]
      exact Or.inl rfl
  · rw [heq]
    exact Or.inl rfl

end ControlSession

namespace Server

/-- **What a step sends** it adds to what was sent, and it goes to the session whose message
it handles or to one that has logged in. -/
theorem sent_step {s s' : Server} {e : Event} (hs : Owned s) (h : s.step e = some s') :
    ∃ more, s'.sent = s.sent ++ more ∧
      ∀ m ∈ more, (∃ msg thrown, e = .message m.1 msg thrown) ∨ s.Authenticated m.1 := by
  have hnone : s'.sent = s.sent → ∃ more, s'.sent = s.sent ++ more ∧
      ∀ m ∈ more, (∃ msg thrown, e = .message m.1 msg thrown) ∨ s.Authenticated m.1 :=
    fun heq => ⟨[], by rw [heq, List.append_nil], fun m hm => absurd hm List.not_mem_nil⟩
  cases e with
  | controlStream mux =>
      obtain rfl := Option.some.inj h
      exact hnone rfl
  | message c msg thrown =>
      simp only [step, Option.map_eq_some_iff] at h
      obtain ⟨cs, -, rfl⟩ := h
      rcases ControlSession.handleMessage_sent s c cs msg thrown with heq | ⟨answer, -, heq⟩
      · exact hnone heq
      · refine ⟨_, heq, fun m hm => Or.inl ⟨msg, thrown, ?_⟩⟩
        rw [List.mem_singleton.mp hm]
  | stop c =>
      simp only [step, Option.map_eq_some_iff] at h
      obtain ⟨cs, -, rfl⟩ := h
      exact hnone (by rw [ControlSession.stop_eq])
  | workStream mux bytes =>
      simp only [step, Option.ite_none_right_eq_some, Option.some.injEq] at h
      rcases handleWorkStream_cases h.2 with rfl | ⟨_, -, -, -, hsent, -, -⟩
      · exact hnone rfl
      · exact hnone hsent
  | acceptUser | receiveUdp | vhostRequest =>
      rcases step_userTraffic rfl h with ⟨c, ticket, -, hreached, hfiles⟩ | rfl
      · rcases hfiles.sent with heq | ⟨name, heq⟩
        · exact hnone heq
        · refine ⟨_, heq, fun m hm => Or.inr ?_⟩
          rw [List.mem_singleton.mp hm]
          exact hreached.authenticated hs
      · exact hnone rfl

/-! ## The mux sessions of control sessions -/

def muxOf (s : Server) (c : CtrlId) : Option MuxId := (s.controls c).map ControlSession.muxSession

/-- A control session keeps its mux session, and a new one is that of the mux session whose
peer has opened stream 1. -/
theorem muxOf_step {s s' : Server} {e : Event} (hs : Owned s) (h : s.step e = some s')
    (c : CtrlId) : s'.muxOf c = s.muxOf c ∨
      s.muxOf c = none ∧ ∃ mux, e = .controlStream mux ∧ s'.muxOf c = some mux := by
  rcases step_cases hs h with ⟨mux, rfl, rfl⟩ | ⟨d, cs, cs', -, hd, hacts⟩ |
    ⟨-, ⟨d, ticket, -, -, hfiles⟩ | rfl⟩ | ⟨mux, bytes, -, rfl | ⟨hand, -, -, -, -, honly, -⟩⟩
  · by_cases hc : c = s.nextControl
    · refine Or.inr ⟨?_, mux, rfl, ?_⟩
      · rw [muxOf, hs.fresh (Nat.le_of_eq hc.symm)]
        rfl
      · show (Function.update s.controls s.nextControl _ c).map _ = _
        rw [hc, Function.update_self]
        rfl
    · refine Or.inl ?_
      show (Function.update s.controls s.nextControl _ c).map _ = _
      rw [Function.update_of_ne hc]
      rfl
  · refine Or.inl ?_
    rw [muxOf, muxOf, hacts.controls]
    by_cases hc : c = d
    · rw [hc, Function.update_self, hd, Option.map_some, Option.map_some, hacts.sameMux]
    · rw [Function.update_of_ne hc]
  · obtain ⟨_, _, _, _, _, _, rfl⟩ := hfiles.only
    exact Or.inl rfl
  · exact Or.inl rfl
  · exact Or.inl rfl
  · obtain ⟨_, _, _, _, _, _, rfl⟩ := honly
    exact Or.inl rfl

/-! ## Users who wait -/

/-- A ticket that is pending, with the session and the proxy it is pending for. -/
def PendingAs (s : Server) (ticket : String) (c : CtrlId) (name : String) : Prop :=
  (∃ i, s.pendingUserConns.lookup ticket = some i ∧ i.owner = c ∧ i.proxyName = name) ∨
    ∃ i, s.pendingUdpSessions.lookup ticket = some i ∧ i.owner = c ∧ i.proxyName = name

theorem PendingAs.isPending {s : Server} {ticket : String} {c : CtrlId} {name : String}
    (h : s.PendingAs ticket c name) : s.PendingFor ticket c :=
  h.imp (fun ⟨i, hi, hc, _⟩ => ⟨i, hi, hc⟩) fun ⟨i, hi, hc, _⟩ => ⟨i, hi, hc⟩

theorem PendingShrinks.pendingAs {s s' : Server} (h : PendingShrinks s s') {ticket : String}
    {c : CtrlId} {name : String} : s'.PendingAs ticket c name → s.PendingAs ticket c name := by
  rintro (⟨i, hi, hrest⟩ | ⟨i, hi, hrest⟩)
  · exact Or.inl ⟨i, h.tcp hi, hrest⟩
  · exact Or.inr ⟨i, h.udp hi, hrest⟩

/-- A user is filed under a ticket for a proxy of a session, and the session may be told of
just that. -/
structure TellsOf (s s' : Server) (c : CtrlId) (name ticket : String) : Prop where
  handed : s'.handed = s.handed
  sent : s'.sent = s.sent ∨ s'.sent = s.sent ++ [(c, .newUserConn ⟨name, ticket⟩)]
  pending : ∀ {t d n}, s'.PendingAs t d n → s.PendingAs t d n ∨ t = ticket ∧ d = c ∧ n = name

theorem TellsOf.announce {s s' : Server} {c : CtrlId} {name ticket : String}
    (h : TellsOf s s' c name ticket) (hsent : s'.sent = s.sent) (locked : Bool) :
    TellsOf s (s'.announce locked c name ticket) c name ticket := by
  cases locked with
  | false => exact h
  | true => exact ⟨h.handed, Or.inr (congrArg (· ++ _) hsent), h.pending⟩

theorem registerUserConn_tellsOf (s : Server) (ticket : String) (socket : Socket)
    (name : String) (initialData : List Byte) (now : Time) (owner : CtrlId) :
    let s' := s.registerUserConn ticket socket name initialData now owner
    TellsOf s s' owner name ticket ∧ s'.sent = s.sent := by
  obtain ⟨hsame, htcp, hudp⟩ :=
    registerUserConn_pending s ticket socket name initialData now owner rfl
  refine ⟨⟨hsame.handed, Or.inl hsame.sent, ?_⟩, hsame.sent⟩
  rintro t d n (⟨i, hi, rfl, rfl⟩ | ⟨i, hi, hrest⟩)
  · rcases htcp hi with hi | ⟨rfl, rfl⟩
    · exact Or.inl (Or.inl ⟨i, hi, rfl, rfl⟩)
    · exact Or.inr ⟨rfl, rfl, rfl⟩
  · exact Or.inl (Or.inr ⟨i, hudp hi, hrest⟩)

theorem registerUdpSession_tellsOf (s : Server) (ticket : String) (listener : ListenerId)
    (endpoint : Endpoint) (name : String) (now : Time) (owner : CtrlId) :
    let s' := s.registerUdpSession ticket listener endpoint name now owner
    TellsOf s s' owner name ticket ∧ s'.sent = s.sent := by
  obtain ⟨hsame, htcp, hudp⟩ :=
    registerUdpSession_pending s ticket listener endpoint name now owner rfl
  refine ⟨⟨hsame.handed, Or.inl hsame.sent, ?_⟩, hsame.sent⟩
  rintro t d n (⟨i, hi, hrest⟩ | ⟨i, hi, rfl, rfl⟩)
  · exact Or.inl (Or.inl ⟨i, htcp hi, hrest⟩)
  · rcases hudp hi with hi | ⟨rfl, rfl⟩
    · exact Or.inl (Or.inr ⟨i, hi, rfl, rfl⟩)
    · exact Or.inr ⟨rfl, rfl, rfl⟩

/-- **What a step says about users.** -/
inductive Tells (s s' : Server) : Event → Prop where
  | user {e c name ticket} (hdrawn : s.drawnTicket e = some (c, ticket))
      (h : TellsOf s s' c name ticket) : Tells s s' e
  /-- A work stream takes over who waits under its ticket. -/
  | hands {mux bytes hand} (hticket : hand.ticket = ticketOf bytes)
      (hflag : hand.useCompression = (bytes.head? == some 1))
      (hpending : s.PendingAs hand.ticket hand.owner hand.proxyName)
      (hhanded : s'.handed = s.handed ++ [hand]) (hsent : s'.sent = s.sent)
      (hshrinks : PendingShrinks s s') : Tells s s' (.workStream mux bytes)
  | none {e more} (hsent : s'.sent = s.sent ++ more)
      (hmore : ∀ m ∈ more, ∀ u, m.2 ≠ .newUserConn u) (hhanded : s'.handed = s.handed)
      (hshrinks : PendingShrinks s s') : Tells s s' e

theorem tells_refl (s : Server) (e : Event) : Tells s s e :=
  .none (List.append_nil _).symm (fun _ h => absurd h List.not_mem_nil) rfl (PendingShrinks.refl s)

theorem tells_userTraffic {s s' : Server} {e : Event} (he : e.isUserTraffic = true)
    (h : s.step e = some s') : Tells s s' e := by
  cases e with
  | acceptUser l ticket socket now locked =>
      simp only [step, Option.ite_none_right_eq_some, Option.some.injEq] at h
      obtain ⟨-, rfl⟩ := h
      obtain ⟨htells, hsent⟩ :=
        registerUserConn_tellsOf s ticket socket l.proxyName [] now l.session
      exact .user rfl (htells.announce hsent locked)
  | receiveUdp l endpoint ticket now locked =>
      simp only [step, Option.ite_none_right_eq_some, Option.some.injEq] at h
      obtain ⟨-, rfl⟩ := h
      unfold receiveUdp
      split
      · exact tells_refl s _
      · rename_i hnone
        obtain ⟨htells, hsent⟩ := registerUdpSession_tellsOf
          { s with endpointToTicket := s.endpointToTicket.insert (l.id, endpoint) ticket }
          ticket l.id endpoint l.proxyName now l.session
        obtain ⟨hhanded, hsent', hpending⟩ := htells.announce hsent locked
        exact .user (by simp [drawnTicket, hnone]) ⟨hhanded, hsent', hpending⟩
  | vhostRequest domain data ticket socket now locked =>
      simp only [step, Option.ite_none_right_eq_some, Option.some.injEq] at h
      obtain ⟨-, rfl⟩ := h
      unfold dispatchVhost
      split
      · exact tells_refl s _
      · rename_i route hroute
        cases locked with
        | false => exact tells_refl s _
        | true =>
            obtain ⟨htells, hsent⟩ :=
              registerUserConn_tellsOf s ticket socket route.proxyName data now route.session
            exact .user (by simp [drawnTicket, hroute]) (htells.announce hsent true)
  | _ => exact absurd he (by simp [Event.isUserTraffic])

theorem tells_workStream (s : Server) (mux : MuxId) (bytes : List Byte) :
    Tells s (s.handleWorkStream mux bytes) (.workStream mux bytes) := by
  generalize heq : s.handleWorkStream mux bytes = s'
  simp only [handleWorkStream] at heq
  split at heq
  · rename_i info hinfo
    subst heq
    exact .hands rfl rfl (Or.inl ⟨info, hinfo, rfl, rfl⟩) rfl rfl
      ⟨Table.lookup_of_lookup_erase, id⟩
  · split at heq
    · rename_i info hinfo
      subst heq
      exact .hands rfl rfl (Or.inr ⟨info, hinfo, rfl, rfl⟩) rfl rfl
        ⟨id, Table.lookup_of_lookup_erase⟩
    · exact heq ▸ tells_refl s _

theorem tells_of_step {s s' : Server} {e : Event} (h : s.step e = some s') : Tells s s' e := by
  cases e with
  | controlStream mux =>
      obtain rfl := Option.some.inj h
      exact .none (List.append_nil _).symm (fun _ h => absurd h List.not_mem_nil) rfl ⟨id, id⟩
  | message c msg thrown =>
      simp only [step, Option.map_eq_some_iff] at h
      obtain ⟨cs, -, rfl⟩ := h
      obtain ⟨htcp, hudp, hhanded⟩ := ControlSession.handleMessage_pending s c cs msg thrown
      have hshrinks : PendingShrinks s (ControlSession.handleMessage s c cs msg thrown) :=
        ⟨fun hi => htcp ▸ hi, fun hi => hudp ▸ hi⟩
      rcases ControlSession.handleMessage_sent s c cs msg thrown with heq | ⟨answer, ha, heq⟩
      · exact .none (heq.trans (List.append_nil _).symm) (fun _ h => absurd h List.not_mem_nil)
          hhanded hshrinks
      · refine .none heq (fun m hm => ?_) hhanded hshrinks
        rw [List.mem_singleton.mp hm]
        exact ha
  | stop c =>
      simp only [step, Option.map_eq_some_iff] at h
      obtain ⟨cs, -, rfl⟩ := h
      rw [ControlSession.stop_eq]
      refine .none (List.append_nil _).symm (fun _ h => absurd h List.not_mem_nil) rfl ⟨?_, ?_⟩
      · intro t i hi
        exact (Option.filter_eq_some_iff.mp ((Table.lookup_eraseIf _ _ _).symm.trans hi)).1
      · intro t i hi
        exact (Option.filter_eq_some_iff.mp ((Table.lookup_eraseIf _ _ _).symm.trans hi)).1
  | workStream mux bytes =>
      simp only [step, Option.ite_none_right_eq_some, Option.some.injEq] at h
      obtain ⟨-, rfl⟩ := h
      exact tells_workStream s mux bytes
  | acceptUser | receiveUdp | vhostRequest => exact tells_userTraffic rfl h

/-! ## What the announcements say -/

/-- The session was told of a user, at that place among its messages. -/
def AnnouncedAt (s : Server) (c : CtrlId) (k : Nat) (name ticket : String) : Prop :=
  (sentTo c s.sent)[k]? = some (.newUserConn ⟨name, ticket⟩)

/-- Nobody waits under the ticket and nobody was told of it. -/
structure Fresh (s : Server) (ticket : String) : Prop where
  isTicket : IsTicket ticket
  notPending : ∀ {c n}, ¬s.PendingAs ticket c n
  unsent : ∀ {c name}, (c, Message.newUserConn ⟨name, ticket⟩) ∉ s.sent

/-- What the announcements say about those who wait. -/
structure Announced (s : Server) : Prop where
  owned : Owned s
  once : ∀ {c d k l n n' t}, s.AnnouncedAt c k n t → s.AnnouncedAt d l n' t → c = d ∧ k = l
  isTicket : ∀ {c n t}, (c, Message.newUserConn ⟨n, t⟩) ∈ s.sent → IsTicket t
  pending : ∀ {t c n}, s.PendingAs t c n → ∀ {d n'}, (d, Message.newUserConn ⟨n', t⟩) ∈ s.sent →
    d = c ∧ n' = n

variable {s s' : Server}

theorem announced_init (token : String) (ports : List PortRange) (clients : List String) :
    Announced (init token ports clients) where
  owned := owned_init token ports clients
  once h := absurd (mem_of_sentTo h) List.not_mem_nil
  isTicket h := absurd h List.not_mem_nil
  pending _ _ _ h := absurd h List.not_mem_nil

/-- Nothing is said about users. -/
theorem Announced.quiet (h : Announced s) (ho : Owned s') {more : List (CtrlId × Message)}
    (hsent : s'.sent = s.sent ++ more) (hmore : ∀ m ∈ more, ∀ u, m.2 ≠ .newUserConn u)
    (hshrinks : PendingShrinks s s') : Announced s' := by
  have hold : ∀ {c k n t}, s'.AnnouncedAt c k n t → s.AnnouncedAt c k n t := by
    intro c k n t ha
    rw [AnnouncedAt, hsent] at ha
    exact (of_sentTo_append ha).resolve_right fun hm => hmore _ hm _ rfl
  have hmem : ∀ {c n t}, (c, Message.newUserConn ⟨n, t⟩) ∈ s'.sent →
      (c, Message.newUserConn ⟨n, t⟩) ∈ s.sent := by
    intro c n t hm
    rw [hsent] at hm
    exact (List.mem_append.mp hm).resolve_right fun hm => hmore _ hm _ rfl
  exact ⟨ho, fun h₁ h₂ => h.once (hold h₁) (hold h₂), fun hm => h.isTicket (hmem hm),
    fun hp _ _ hm => h.pending (hshrinks.pendingAs hp) (hmem hm)⟩

/-- A user comes with a fresh ticket. -/
theorem Announced.user (h : Announced s) (ho : Owned s') {c : CtrlId} {name ticket : String}
    (hfresh : s.Fresh ticket) (htells : TellsOf s s' c name ticket) : Announced s' := by
  have hmem : ∀ {d n t}, (d, Message.newUserConn ⟨n, t⟩) ∈ s'.sent →
      (d, Message.newUserConn ⟨n, t⟩) ∈ s.sent ∨ d = c ∧ n = name ∧ t = ticket := by
    intro d n t hm
    rcases htells.sent with heq | heq
    · exact Or.inl (heq ▸ hm)
    · rw [heq] at hm
      refine (List.mem_append.mp hm).imp id fun hm => ?_
      simp only [List.mem_singleton, Prod.mk.injEq, Message.newUserConn.injEq,
        NewUserConnMessage.mk.injEq] at hm
      exact hm
  have hplace : ∀ {d k n t}, s'.AnnouncedAt d k n t →
      s.AnnouncedAt d k n t ∨ t = ticket ∧ d = c ∧ k = (sentTo c s.sent).length := by
    intro d k n t ha
    rcases htells.sent with heq | heq
    · rw [AnnouncedAt, heq] at ha
      exact Or.inl ha
    · rw [AnnouncedAt, heq] at ha
      refine (of_sentTo_concat ha).imp id fun ⟨hmsg, hd, hk⟩ => ?_
      rw [Message.newUserConn.injEq, NewUserConnMessage.mk.injEq] at hmsg
      exact ⟨hmsg.2, hd, hd ▸ hk⟩
  constructor
  case owned => exact ho
  case once =>
    intro d d' k k' n n' t h₁ h₂
    rcases hplace h₁ with hold₁ | ⟨rfl, rfl, rfl⟩
    · rcases hplace h₂ with hold₂ | ⟨rfl, rfl, rfl⟩
      · exact h.once hold₁ hold₂
      · exact absurd (mem_of_sentTo hold₁) hfresh.unsent
    · rcases hplace h₂ with hold₂ | ⟨-, rfl, rfl⟩
      · exact absurd (mem_of_sentTo hold₂) hfresh.unsent
      · exact ⟨rfl, rfl⟩
  case isTicket =>
    intro d n t hm
    rcases hmem hm with hold | ⟨-, -, rfl⟩
    · exact h.isTicket hold
    · exact hfresh.isTicket
  case pending =>
    intro t d n hp d' n' hm
    rcases htells.pending hp with hold | ⟨rfl, rfl, rfl⟩
    · rcases hmem hm with hm | ⟨-, -, rfl⟩
      · exact h.pending hold hm
      · exact absurd hold hfresh.notPending
    · rcases hmem hm with hm | ⟨rfl, rfl, -⟩
      · exact absurd hm hfresh.unsent
      · exact ⟨rfl, rfl⟩

theorem Announced.step (h : Announced s) {e : Event}
    (hfresh : ∀ c ticket, s.drawnTicket e = some (c, ticket) → s.Fresh ticket)
    (hstep : s.step e = some s') : Announced s' := by
  have ho : Owned s' := owned_step h.owned hstep
  cases tells_of_step hstep with
  | user hdrawn htells => exact h.user ho (hfresh _ _ hdrawn) htells
  | hands _ _ _ _ hsent hshrinks =>
      exact h.quiet ho (hsent.trans (List.append_nil _).symm)
        (fun _ hm => absurd hm List.not_mem_nil) hshrinks
  | none hsent hmore _ hshrinks => exact h.quiet ho hsent hmore hshrinks

/-- What was said stays said. -/
theorem AnnouncedAt.step {e : Event} (ho : Owned s) (hstep : s.step e = some s') {c : CtrlId}
    {k : Nat} {name ticket : String} (h : s.AnnouncedAt c k name ticket) :
    s'.AnnouncedAt c k name ticket := by
  obtain ⟨more, hsent, -⟩ := sent_step ho hstep
  rw [AnnouncedAt, hsent]
  exact sentTo_mono h more

theorem muxOf_of_step {e : Event} (ho : Owned s) (hstep : s.step e = some s') {c : CtrlId}
    {mux : MuxId} (h : s.muxOf c = some mux) : s'.muxOf c = some mux := by
  rcases muxOf_step ho hstep c with heq | ⟨hnone, -⟩
  · rw [heq]
    exact h
  · rw [hnone] at h
    cases h

end Server

end Cfrp
