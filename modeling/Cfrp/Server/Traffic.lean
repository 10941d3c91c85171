import Cfrp.Server.Control

/-!
# What tickets do to the tables

User connections put tickets into the two pending tables, work streams and the lazy
cleanup take them out. Whatever of this happens, nothing but the tables of tickets
and the records of what left the server changes; and a pending entry is an old one, or
the one entry that this very step was asked to file.
-/

namespace Cfrp

open Lib Protocol

namespace Server

/-! ## Pending tickets -/

/-- The tables of pending tickets shrank: what is still there was there before. -/
structure PendingShrinks (s s' : Server) : Prop where
  tcp : ∀ {t i}, s'.pendingUserConns.lookup t = some i → s.pendingUserConns.lookup t = some i
  udp : ∀ {t i},
    s'.pendingUdpSessions.lookup t = some i → s.pendingUdpSessions.lookup t = some i

theorem PendingShrinks.refl (s : Server) : PendingShrinks s s := ⟨id, id⟩

theorem PendingShrinks.trans {s₁ s₂ s₃ : Server} (h₁ : PendingShrinks s₁ s₂)
    (h₂ : PendingShrinks s₂ s₃) : PendingShrinks s₁ s₃ :=
  ⟨fun h => h₁.tcp (h₂.tcp h), fun h => h₁.udp (h₂.udp h)⟩

/-- Only the tables of pending tickets differ. -/
def SamePlusPending (s s' : Server) : Prop :=
  ∃ p u q m, s' = { s with
    pendingUserConns := p, pendingUdpSessions := u, ticketExpirationQueue := q,
    endpointToTicket := m }

theorem SamePlusPending.trans {s₁ s₂ s₃ : Server} (h₁ : SamePlusPending s₁ s₂)
    (h₂ : SamePlusPending s₂ s₃) : SamePlusPending s₁ s₃ := by
  obtain ⟨p, u, q, m, rfl⟩ := h₁
  obtain ⟨p', u', q', m', rfl⟩ := h₂
  exact ⟨p', u', q', m', rfl⟩

theorem expireTicket_pending (s : Server) (t : TicketExpiration) :
    SamePlusPending s (s.expireTicket t) ∧ PendingShrinks s (s.expireTicket t) := by
  unfold expireTicket
  split
  · split
    · exact ⟨⟨_, _, _, _, rfl⟩, id, Table.lookup_of_lookup_erase⟩
    · exact ⟨⟨_, _, _, _, rfl⟩, PendingShrinks.refl s⟩
  · exact ⟨⟨_, _, _, _, rfl⟩, Table.lookup_of_lookup_erase, id⟩

theorem cleanupLoop_pending (now : Time) (q : List TicketExpiration) (s : Server) :
    SamePlusPending s (cleanupLoop now s q) ∧ PendingShrinks s (cleanupLoop now s q) := by
  induction q generalizing s with
  | nil => exact ⟨⟨_, _, _, _, rfl⟩, id, id⟩
  | cons oldest rest ih =>
      unfold cleanupLoop
      split
      · obtain ⟨hsame, hshrink⟩ := expireTicket_pending s oldest
        obtain ⟨hsame', hshrink'⟩ := ih (s.expireTicket oldest)
        exact ⟨hsame.trans hsame', hshrink.trans hshrink'⟩
      · exact ⟨⟨_, _, _, _, rfl⟩, id, id⟩

/-- **`RegisterUserConn`** changes nothing but pending tickets, and the only ticket it
may add is the one it was given. -/
theorem registerUserConn_pending (s : Server) (ticket : String) (socket : Socket)
    (proxyName : String) (initialData : List Byte) (now : Time) (owner : CtrlId) {s' : Server}
    (h : s.registerUserConn ticket socket proxyName initialData now owner = s') :
    SamePlusPending s s' ∧
      (∀ {t i}, s'.pendingUserConns.lookup t = some i →
        s.pendingUserConns.lookup t = some i ∨
          t = ticket ∧ i = ⟨socket, initialData, proxyName, now, owner⟩) ∧
      (∀ {t i}, s'.pendingUdpSessions.lookup t = some i →
        s.pendingUdpSessions.lookup t = some i) := by
  obtain ⟨hsame, hshrink⟩ := cleanupLoop_pending now s.ticketExpirationQueue s
  unfold registerUserConn doLazyCleanup at h
  generalize cleanupLoop now s s.ticketExpirationQueue = s₁ at h hsame hshrink
  by_cases hfull : s₁.pendingTickets ≥ maxPendingTickets
  · rw [if_pos hfull] at h
    subst h
    exact ⟨hsame, fun h => Or.inl (hshrink.tcp h), hshrink.udp⟩
  · rw [if_neg hfull] at h
    subst h
    refine ⟨hsame.trans ⟨_, _, _, _, rfl⟩, ?_, fun h => hshrink.udp h⟩
    intro t i ht
    simp only [Table.lookup_emplace] at ht
    split at ht
    · rename_i hk
      exact Or.inr ⟨hk.1, (Option.some.inj ht).symm⟩
    · exact Or.inl (hshrink.tcp ht)

/-- **`RegisterUdpSession`**, likewise. -/
theorem registerUdpSession_pending (s : Server) (ticket : String) (listener : ListenerId)
    (endpoint : Endpoint) (proxyName : String) (now : Time) (owner : CtrlId) {s' : Server}
    (h : s.registerUdpSession ticket listener endpoint proxyName now owner = s') :
    SamePlusPending s s' ∧
      (∀ {t i}, s'.pendingUserConns.lookup t = some i → s.pendingUserConns.lookup t = some i) ∧
      (∀ {t i}, s'.pendingUdpSessions.lookup t = some i →
        s.pendingUdpSessions.lookup t = some i ∨
          t = ticket ∧ i = ⟨listener, endpoint, proxyName, now, owner⟩) := by
  obtain ⟨hsame, hshrink⟩ := cleanupLoop_pending now s.ticketExpirationQueue s
  unfold registerUdpSession doLazyCleanup at h
  generalize cleanupLoop now s s.ticketExpirationQueue = s₁ at h hsame hshrink
  by_cases hfull : s₁.pendingTickets ≥ maxPendingTickets
  · rw [if_pos hfull] at h
    subst h
    exact ⟨hsame, hshrink.tcp, fun h => Or.inl (hshrink.udp h)⟩
  · rw [if_neg hfull] at h
    subst h
    refine ⟨hsame.trans ⟨_, _, _, _, rfl⟩, fun h => hshrink.tcp h, ?_⟩
    intro t i ht
    simp only [Table.lookup_emplace] at ht
    split at ht
    · rename_i hk
      exact Or.inr ⟨hk.1, (Option.some.inj ht).symm⟩
    · exact Or.inl (hshrink.udp ht)

/-- Nothing changed that a control session owns, tickets apart. -/
def OnlyTickets (s s' : Server) : Prop :=
  ∃ p u q m sent handed, s' = { s with
    pendingUserConns := p, pendingUdpSessions := u, ticketExpirationQueue := q,
    endpointToTicket := m, sent := sent, handed := handed }

theorem SamePlusPending.onlyTickets {s s' : Server} (h : SamePlusPending s s') :
    OnlyTickets s s' := by
  obtain ⟨p, u, q, m, rfl⟩ := h
  exact ⟨p, u, q, m, s.sent, s.handed, rfl⟩

/-! ## User traffic -/

/-- A step that files a ticket for a session and may tell the session about it. -/
structure Files (s s' : Server) (c : CtrlId) (ticket : String) : Prop where
  only : OnlyTickets s s'
  handed : s'.handed = s.handed
  /-- At most this one announcement is sent. -/
  sent : s'.sent = s.sent ∨ ∃ name, s'.sent = s.sent ++ [(c, .newUserConn ⟨name, ticket⟩)]
  tcp : ∀ {t i}, s'.pendingUserConns.lookup t = some i →
    s.pendingUserConns.lookup t = some i ∨ t = ticket ∧ i.owner = c
  udp : ∀ {t i}, s'.pendingUdpSessions.lookup t = some i →
    s.pendingUdpSessions.lookup t = some i ∨ t = ticket ∧ i.owner = c

/-- A step that does nothing files nothing. -/
theorem Files.refl (s : Server) (c : CtrlId) (ticket : String) : Files s s c ticket :=
  ⟨⟨_, _, _, _, _, _, rfl⟩, rfl, Or.inl rfl, Or.inl, Or.inl⟩

theorem SamePlusPending.sent {s s' : Server} (h : SamePlusPending s s') : s'.sent = s.sent := by
  obtain ⟨_, _, _, _, rfl⟩ := h
  rfl

theorem SamePlusPending.handed {s s' : Server} (h : SamePlusPending s s') :
    s'.handed = s.handed := by
  obtain ⟨_, _, _, _, rfl⟩ := h
  rfl

theorem OnlyTickets.trans {s₁ s₂ s₃ : Server} (h₁ : OnlyTickets s₁ s₂)
    (h₂ : OnlyTickets s₂ s₃) : OnlyTickets s₁ s₃ := by
  obtain ⟨_, _, _, _, _, _, rfl⟩ := h₁
  obtain ⟨_, _, _, _, _, _, rfl⟩ := h₂
  exact ⟨_, _, _, _, _, _, rfl⟩

theorem Files.sendMessage {s s' : Server} {c : CtrlId} {ticket : String}
    (h : Files s s' c ticket) (hsent : s'.sent = s.sent) (proxyName : String) :
    Files s (s'.sendMessage c (.newUserConn ⟨proxyName, ticket⟩)) c ticket := by
  refine ⟨h.only.trans ⟨_, _, _, _, _, _, rfl⟩, h.handed, Or.inr ⟨proxyName, ?_⟩, h.tcp, h.udp⟩
  rw [← hsent]
  rfl

theorem Files.announce {s s' : Server} {c : CtrlId} {ticket : String} (h : Files s s' c ticket)
    (hsent : s'.sent = s.sent) (locked : Bool) (proxyName : String) :
    Files s (s'.announce locked c proxyName ticket) c ticket := by
  cases locked with
  | false => exact h
  | true => exact h.sendMessage hsent proxyName

theorem registerUserConn_files (s : Server) (ticket : String) (socket : Socket)
    (proxyName : String) (initialData : List Byte) (now : Time) (owner : CtrlId) :
    let s' := s.registerUserConn ticket socket proxyName initialData now owner
    Files s s' owner ticket ∧ s'.sent = s.sent := by
  obtain ⟨hsame, htcp, hudp⟩ :=
    registerUserConn_pending s ticket socket proxyName initialData now owner rfl
  refine ⟨⟨hsame.onlyTickets, hsame.handed, Or.inl hsame.sent, ?_, fun h => Or.inl (hudp h)⟩,
    hsame.sent⟩
  intro t i h
  rcases htcp h with h | ⟨ht, hi⟩
  · exact Or.inl h
  · exact Or.inr ⟨ht, by rw [hi]⟩

theorem registerUdpSession_files (s : Server) (ticket : String) (listener : ListenerId)
    (endpoint : Endpoint) (proxyName : String) (now : Time) (owner : CtrlId) :
    let s' := s.registerUdpSession ticket listener endpoint proxyName now owner
    Files s s' owner ticket ∧ s'.sent = s.sent := by
  obtain ⟨hsame, htcp, hudp⟩ :=
    registerUdpSession_pending s ticket listener endpoint proxyName now owner rfl
  refine ⟨⟨hsame.onlyTickets, hsame.handed, Or.inl hsame.sent, fun h => Or.inl (htcp h), ?_⟩,
    hsame.sent⟩
  intro t i h
  rcases hudp h with h | ⟨ht, hi⟩
  · exact Or.inl h
  · exact Or.inr ⟨ht, by rw [hi]⟩

/-- The session an event draws a fresh ticket for, with the ticket. -/
def drawnTicket (s : Server) : Event → Option (CtrlId × String)
  | .acceptUser l ticket _ _ _ => some (l.session, ticket)
  | .receiveUdp l endpoint ticket _ _ =>
      if (s.endpointToTicket.lookup (l.id, endpoint)).isNone then some (l.session, ticket)
      else none
  | .vhostRequest domain _ ticket _ _ locked =>
      if locked then (s.vhostRoutes.lookup domain).map fun route => (route.session, ticket)
      else none
  | _ => none

/-- The events of users. -/
def Event.isUserTraffic : Event → Bool
  | .acceptUser .. => true
  | .receiveUdp .. => true
  | .vhostRequest .. => true
  | _ => false

/-- Users reach a session through a listener of its own or through a route to it. -/
def ReachedByUsers (s : Server) (c : CtrlId) : Prop :=
  (∃ l ∈ s.listeners, l.session = c) ∨ ∃ d route, s.vhostRoutes.lookup d = some route ∧
    route.session = c

/-- **User traffic** files the ticket it draws, or does nothing. -/
theorem step_userTraffic {s s' : Server} {e : Event} (he : e.isUserTraffic = true)
    (h : s.step e = some s') :
    (∃ c ticket, s.drawnTicket e = some (c, ticket) ∧ s.ReachedByUsers c ∧
      Files s s' c ticket) ∨ s' = s := by
  cases e with
  | acceptUser l ticket socket now locked =>
      simp only [step, Option.ite_none_right_eq_some, Option.some.injEq] at h
      obtain ⟨hok, rfl⟩ := h
      obtain ⟨hfiles, hsent⟩ := registerUserConn_files s ticket socket l.proxyName [] now l.session
      exact Or.inl ⟨l.session, ticket, rfl, Or.inl ⟨l, hok.1, rfl⟩,
        hfiles.announce hsent locked l.proxyName⟩
  | receiveUdp l endpoint ticket now locked =>
      simp only [step, Option.ite_none_right_eq_some, Option.some.injEq] at h
      obtain ⟨hok, rfl⟩ := h
      unfold receiveUdp
      split
      · exact Or.inr rfl
      · rename_i hnone
        obtain ⟨hfiles, hsent⟩ := registerUdpSession_files
          { s with endpointToTicket := s.endpointToTicket.insert (l.id, endpoint) ticket }
          ticket l.id endpoint l.proxyName now l.session
        have hfiles' := hfiles.announce hsent locked l.proxyName
        exact Or.inl ⟨l.session, ticket, by simp [drawnTicket, hnone], Or.inl ⟨l, hok.1, rfl⟩,
          OnlyTickets.trans ⟨_, _, _, _, _, _, rfl⟩ hfiles'.only, hfiles'.handed, hfiles'.sent,
          hfiles'.tcp, hfiles'.udp⟩
  | vhostRequest domain data ticket socket now locked =>
      simp only [step, Option.ite_none_right_eq_some, Option.some.injEq] at h
      obtain ⟨-, rfl⟩ := h
      unfold dispatchVhost
      split
      · exact Or.inr rfl
      · rename_i route hroute
        cases locked with
        | false => exact Or.inr rfl
        | true =>
            obtain ⟨hfiles, hsent⟩ :=
              registerUserConn_files s ticket socket route.proxyName data now route.session
            exact Or.inl ⟨route.session, ticket, by simp [drawnTicket, hroute],
              Or.inr ⟨domain, route, hroute, rfl⟩, hfiles.sendMessage hsent route.proxyName⟩
  | _ => exact absurd he (by simp [Event.isUserTraffic])

/-! ## Work streams -/

/-- A ticket that is pending, and the session it is pending for. -/
def PendingFor (s : Server) (ticket : String) (c : CtrlId) : Prop :=
  (∃ i, s.pendingUserConns.lookup ticket = some i ∧ i.owner = c) ∨
    ∃ i, s.pendingUdpSessions.lookup ticket = some i ∧ i.owner = c

/-- **A work stream** is handed what is pending under the ticket it presents, whoever
that belongs to. -/
theorem handleWorkStream_cases {s s' : Server} {mux : MuxId} {bytes : List Byte}
    (h : s.handleWorkStream mux bytes = s') :
    s' = s ∨ ∃ hand : HandOver, hand.mux = mux ∧ s.PendingFor (ticketOf bytes) hand.owner ∧
      s'.handed = s.handed ++ [hand] ∧ s'.sent = s.sent ∧ OnlyTickets s s' ∧
      PendingShrinks s s' := by
  simp only [handleWorkStream] at h
  split at h
  · rename_i info hinfo
    subst h
    exact Or.inr ⟨_, rfl, Or.inl ⟨info, hinfo, rfl⟩, rfl, rfl, ⟨_, _, _, _, _, _, rfl⟩,
      Table.lookup_of_lookup_erase, id⟩
  · split at h
    · rename_i info hinfo
      subst h
      exact Or.inr ⟨_, rfl, Or.inr ⟨info, hinfo, rfl⟩, rfl, rfl, ⟨_, _, _, _, _, _, rfl⟩,
        id, Table.lookup_of_lookup_erase⟩
    · exact Or.inl h.symm

end Server

end Cfrp
