import Cfrp.Lib.Transition
import Cfrp.Lib.Mirror
import Cfrp.Server.Ownership

/-!
# The endpoint map of a UDP listener

A user's first datagram maps its endpoint to a ticket in the listener's own table and files
the ticket in the server's. Redemption and expiry take both entries out. A refused ticket is
never filed, and `ClearPendingForProxy` only knows the server's table and the proxy's name, so
these two can leave an endpoint mapped to a ticket nobody can redeem. `MirrorKept` is exactly
when they do not.
-/

namespace Cfrp

open Lib Protocol ControlSession

/-- The user a pending session is for. -/
def UdpSessionInfo.user (info : UdpSessionInfo) : ListenerId × Endpoint :=
  (info.listener, info.endpoint)

namespace Server

/-- The endpoint map of every open UDP listener is what is pending for it. -/
def Mirrored (s : Server) : Prop :=
  ∀ l ∈ s.listeners, l.kind = .udp → l.id ∈ s.listening → ∀ endpoint ticket,
    s.endpointToTicket.lookup (l.id, endpoint) = some ticket ↔
      ∃ info, s.pendingUdpSessions.lookup ticket = some info ∧
        info.listener = l.id ∧ info.endpoint = endpoint

/-- A ticket that is drawn for a datagram is filed, and what `Stop` clears by name belongs to
listeners that it closes, or that are closed. -/
def MirrorKept (s : Server) : Event → Prop
  | .receiveUdp l endpoint ticket now _ =>
      l.id ∈ s.listening → s.endpointToTicket.lookup (l.id, endpoint) = none →
        (s.doLazyCleanup now).pendingTickets < maxPendingTickets ∧
          (s.doLazyCleanup now).pendingUdpSessions.lookup ticket = none
  | .stop c => ∀ cs, s.controls c = some cs → ∀ ticket info,
      s.pendingUdpSessions.lookup ticket = some info → cs.serves info.proxyName = true →
        info.listener ∈ s.listening → ∃ p ∈ cs.allProxies, p.id = info.listener
  | _ => True

/-- A listener that was opened for UDP. -/
def IsUdp (s : Server) (i : ListenerId) : Prop := ∃ l ∈ s.listeners, l.kind = .udp ∧ l.id = i

/-- Users are those of UDP listeners. -/
structure Located (s : Server) : Prop where
  owned : Owned s
  mapped : ∀ user ticket, s.endpointToTicket.lookup user = some ticket → s.IsUdp user.1
  filed : ∀ ticket info, s.pendingUdpSessions.lookup ticket = some info → s.IsUdp info.listener

/-- The two tables mirror each other at the users of the open listeners. -/
def TablesMirror (s : Server) : Prop :=
  Mirrors UdpSessionInfo.user (fun user => user.1 ∈ s.listening) s.endpointToTicket
    s.pendingUdpSessions

theorem mirrored_iff {s : Server} (h : Located s) : s.Mirrored ↔ s.TablesMirror := by
  have huser : ∀ (info : UdpSessionInfo) (i : ListenerId) (e : Endpoint),
      info.user = (i, e) ↔ info.listener = i ∧ info.endpoint = e := fun _ _ _ => Prod.ext_iff
  constructor
  · intro hm user hopen ticket
    obtain ⟨i, e⟩ := user
    simp only [huser]
    constructor
    · intro hl
      obtain ⟨l, hmem, hkind, rfl⟩ := h.mapped _ _ hl
      exact (hm l hmem hkind hopen e ticket).mp hl
    · rintro ⟨info, hl, rfl, rfl⟩
      obtain ⟨l, hmem, hkind, hid⟩ := h.filed _ _ hl
      have hopen : l.id ∈ s.listening := hid ▸ hopen
      rw [← hid]
      exact (hm l hmem hkind hopen info.endpoint ticket).mpr ⟨info, hl, hid.symm, rfl⟩
  · intro hm l _ _ hopen e ticket
    rw [hm (l.id, e) hopen ticket]
    simp only [huser]

/-! ## The cleanup -/

theorem expireTicket_mirrors {on : ListenerId × Endpoint → Prop} {s : Server}
    (h : Mirrors UdpSessionInfo.user on s.endpointToTicket s.pendingUdpSessions)
    (t : TicketExpiration) :
    Mirrors UdpSessionInfo.user on (s.expireTicket t).endpointToTicket
      (s.expireTicket t).pendingUdpSessions := by
  unfold expireTicket
  split
  · split
    · rename_i info hinfo
      exact h.drop hinfo
    · exact h
  · exact h

/-- What is mapped for a user nothing is pending for stays. -/
theorem expireTicket_mapping {s : Server} {user : ListenerId × Endpoint}
    (h : ∀ t info, s.pendingUdpSessions.lookup t = some info → info.user ≠ user)
    (t : TicketExpiration) :
    (s.expireTicket t).endpointToTicket.lookup user = s.endpointToTicket.lookup user := by
  unfold expireTicket
  split
  · split
    · rename_i info hinfo
      show (s.endpointToTicket.erase info.user).lookup user = _
      rw [Table.lookup_erase_if, if_neg fun heq => h _ _ hinfo heq.symm]
    · rfl
  · rfl

theorem expireTicket_setEndpoints (s : Server) (m : Table (ListenerId × Endpoint) String)
    (t : TicketExpiration) : ∃ m', { s with endpointToTicket := m }.expireTicket t =
      { s.expireTicket t with endpointToTicket := m' } := by
  unfold expireTicket
  dsimp only
  split
  · split
    · exact ⟨_, rfl⟩
    · exact ⟨_, rfl⟩
  · exact ⟨_, rfl⟩

theorem cleanupLoop_mirrors {on : ListenerId × Endpoint → Prop} (now : Time) :
    ∀ (q : List TicketExpiration) (s : Server),
      Mirrors UdpSessionInfo.user on s.endpointToTicket s.pendingUdpSessions →
      Mirrors UdpSessionInfo.user on (cleanupLoop now s q).endpointToTicket
        (cleanupLoop now s q).pendingUdpSessions
  | [], _, h => h
  | oldest :: rest, s, h => by
      unfold cleanupLoop
      split
      · exact cleanupLoop_mirrors now rest _ (expireTicket_mirrors h oldest)
      · exact h

theorem cleanupLoop_mapping {user : ListenerId × Endpoint} (now : Time) :
    ∀ (q : List TicketExpiration) (s : Server),
      (∀ t info, s.pendingUdpSessions.lookup t = some info → info.user ≠ user) →
      (cleanupLoop now s q).endpointToTicket.lookup user = s.endpointToTicket.lookup user
  | [], _, _ => rfl
  | oldest :: rest, s, h => by
      unfold cleanupLoop
      split
      · have hrest : ∀ t info, (s.expireTicket oldest).pendingUdpSessions.lookup t = some info →
            info.user ≠ user := fun t info hl => h t info ((expireTicket_pending s oldest).2.udp hl)
        rw [cleanupLoop_mapping now rest _ hrest, expireTicket_mapping h]
      · rfl

/-- What is pending after a cleanup does not depend on the endpoint maps. -/
theorem cleanupLoop_setEndpoints (now : Time) :
    ∀ (q : List TicketExpiration) (s : Server) (m : Table (ListenerId × Endpoint) String),
      ∃ m', cleanupLoop now { s with endpointToTicket := m } q =
        { cleanupLoop now s q with endpointToTicket := m' }
  | [], _, m => ⟨m, rfl⟩
  | oldest :: rest, s, m => by
      unfold cleanupLoop
      split
      · obtain ⟨m', heq⟩ := expireTicket_setEndpoints s m oldest
        rw [heq]
        exact cleanupLoop_setEndpoints now rest _ m'
      · exact ⟨m, rfl⟩

/-- Mappings that are left were there before. -/
theorem cleanupLoop_mapped (now : Time) {user : ListenerId × Endpoint} {ticket : String} :
    ∀ (q : List TicketExpiration) (s : Server),
      (cleanupLoop now s q).endpointToTicket.lookup user = some ticket →
      s.endpointToTicket.lookup user = some ticket
  | [], _, h => h
  | oldest :: rest, s, h => by
      unfold cleanupLoop at h
      split at h
      · have hexpired := cleanupLoop_mapped now rest _ h
        unfold expireTicket at hexpired
        split at hexpired
        · split at hexpired
          · exact Table.lookup_of_lookup_erase hexpired
          · exact hexpired
        · exact hexpired
      · exact h

/-! ## One step -/

structure EndpointInv (s : Server) : Prop extends Located s where
  mirror : s.TablesMirror

theorem endpointInv_init (token : String) (ports : List PortRange) (clients : List String) :
    EndpointInv (init token ports clients) where
  owned := owned_init token ports clients
  mapped _ _ h := absurd h (by simp [init])
  filed _ _ h := absurd h (by simp [init])
  mirror _ hopen := absurd hopen List.not_mem_nil

/-- Listeners are closed at most. -/
theorem EndpointInv.keep {s s' : Server} (h : EndpointInv s) (howned : Owned s')
    (hmap : s'.endpointToTicket = s.endpointToTicket)
    (hpending : s'.pendingUdpSessions = s.pendingUdpSessions)
    (hlisteners : s'.listeners = s.listeners)
    (hopen : ∀ i ∈ s'.listening, i ∈ s.listening) : EndpointInv s' := by
  have hudp : ∀ i, s.IsUdp i → s'.IsUdp i := by
    intro i hi
    unfold IsUdp
    rw [hlisteners]
    exact hi
  refine ⟨⟨howned, fun u t hl => hudp _ (h.mapped u t (hmap ▸ hl)),
    fun t info hl => hudp _ (h.filed t info (hpending ▸ hl))⟩, ?_⟩
  unfold TablesMirror
  rw [hmap, hpending]
  exact h.mirror.mono fun u hu => hopen u.1 hu

/-- Nobody uses a listener before it is there. -/
theorem EndpointInv.opens {s s' : Server} (h : EndpointInv s) (howned : Owned s')
    (hmap : s'.endpointToTicket = s.endpointToTicket)
    (hpending : s'.pendingUdpSessions = s.pendingUdpSessions) {l : Listener}
    (hlisteners : s'.listeners = s.listeners ++ [l])
    (hopen : s'.listening = s.listeners.length :: s.listening) : EndpointInv s' := by
  have hudp : ∀ i, s.IsUdp i → s'.IsUdp i := by
    rintro i ⟨l', hl', hrest⟩
    exact ⟨l', by rw [hlisteners]; exact List.mem_append_left _ hl', hrest⟩
  have hold : ∀ i, s.IsUdp i → i ≠ s.listeners.length := by
    rintro i ⟨l', hl', -, rfl⟩
    exact Nat.ne_of_lt (h.owned.listener hl').2
  refine ⟨⟨howned, fun u t hl => hudp _ (h.mapped u t (hmap ▸ hl)),
    fun t info hl => hudp _ (h.filed t info (hpending ▸ hl))⟩, ?_⟩
  unfold TablesMirror
  rw [hmap, hpending, hopen]
  have hextended := h.mirror.extend (fun u => u.1 = s.listeners.length) ?_ ?_
  · exact hextended.mono fun u hu => List.mem_cons.mp hu
  · intro u hu
    rw [Option.eq_none_iff_forall_ne_some]
    exact fun t hl => hold u.1 (h.mapped u t hl) hu
  · exact fun t info hl => hold _ (h.filed t info hl)

theorem EndpointInv.cleanup {s : Server} (h : EndpointInv s) (now : Time) :
    EndpointInv (s.doLazyCleanup now) := by
  obtain ⟨hsame, hshrinks⟩ := cleanupLoop_pending now s.ticketExpirationQueue s
  have howned : Owned (s.doLazyCleanup now) :=
    owned_onlyTickets h.owned hsame.onlyTickets fun t c hp => Or.inl (hshrinks.pendingFor hp)
  have hmirror := cleanupLoop_mirrors now s.ticketExpirationQueue s h.mirror
  have hmapped : ∀ u t, (s.doLazyCleanup now).endpointToTicket.lookup u = some t →
      s.endpointToTicket.lookup u = some t :=
    fun _ _ => cleanupLoop_mapped now s.ticketExpirationQueue s
  obtain ⟨p, u, q, m, heq⟩ := hsame
  have heq : s.doLazyCleanup now = _ := heq
  have hlisteners : (s.doLazyCleanup now).listeners = s.listeners := by rw [heq]
  have hlistening : (s.doLazyCleanup now).listening = s.listening := by rw [heq]
  refine ⟨⟨howned, fun u t hl => ?_, fun t info hl => ?_⟩, ?_⟩
  · unfold IsUdp
    rw [hlisteners]
    exact h.mapped u t (hmapped u t hl)
  · unfold IsUdp
    rw [hlisteners]
    exact h.filed t info (hshrinks.udp hl)
  · unfold TablesMirror
    rw [hlistening]
    exact hmirror

theorem endpointInv_message {s : Server} (h : EndpointInv s) {c : CtrlId} {cs : ControlSession}
    (hc : s.controls c = some cs) (msg : Message) (thrown : Option Thrown) :
    EndpointInv (ControlSession.handleMessage s c cs msg thrown) := by
  have howned := owned_step h.owned (step_message hc msg thrown)
  rcases handleMessage_cases s c cs msg thrown with
    ⟨m, -, heq⟩ | ⟨m, -, -, heq⟩ | ⟨m, -, -, heq⟩ | heq
  · rw [heq] at howned ⊢
    rcases handleLogin_cases s c cs m with ⟨-, _, _, -, heq⟩ | ⟨-, _, heq⟩
    · rw [heq] at howned ⊢
      exact h.keep howned rfl rfl rfl fun _ => id
    · rw [heq] at howned ⊢
      exact h.keep howned rfl rfl rfl fun _ => id
  · rw [heq] at howned ⊢
    rcases handleRegisterProxy_cases s c cs m thrown with
      ⟨-, _, heq⟩ | ⟨-, _, heq⟩ | ⟨-, _, heq⟩
    · rw [heq] at howned ⊢
      exact h.keep howned rfl rfl rfl fun _ => id
    · rw [heq] at howned ⊢
      exact h.keep howned rfl rfl rfl fun _ => id
    · rw [heq] at howned ⊢
      exact h.opens howned rfl rfl rfl rfl
  · rw [heq] at howned ⊢
    rcases handleUnregisterProxy_cases s c cs m.name with heq | ⟨p, _, _, -, -, heq⟩
    · rw [heq]
      exact h
    · rw [heq] at howned ⊢
      exact h.keep howned rfl rfl rfl fun i hi => (List.mem_filter.mp hi).1
  · rw [heq]
    exact h

theorem located_stop {s : Server} (h : Located s) {c : CtrlId} {cs : ControlSession}
    (hc : s.controls c = some cs) : Located (ControlSession.stop s c cs) := by
  have howned := owned_actsFor h.owned hc (actsFor_stop hc)
  rw [stop_eq] at howned ⊢
  refine ⟨howned, h.mapped, fun t info hl => h.filed t info ?_⟩
  rw [Table.lookup_eraseIf, Option.filter_eq_some_iff] at hl
  exact hl.1

/-- **`Stop`** keeps the mirror exactly if no user of another open listener is cleared. -/
theorem mirror_stop_iff {s : Server} (h : EndpointInv s) {c : CtrlId} {cs : ControlSession}
    (hc : s.controls c = some cs) :
    (ControlSession.stop s c cs).TablesMirror ↔ s.MirrorKept (.stop c) := by
  have hopen : ∀ i, i ∈ (ControlSession.stop s c cs).listening ↔
      i ∈ s.listening ∧ ∀ p ∈ cs.allProxies, i ≠ p.id := by
    intro i
    rw [stop_eq]
    show i ∈ s.listening.filter _ ↔ _
    rw [List.mem_filter, List.all_eq_true]
    simp only [decide_eq_true_eq]
  have hpending : (ControlSession.stop s c cs).pendingUdpSessions =
      Table.eraseIf s.pendingUdpSessions fun i => cs.serves i.proxyName := by
    rw [stop_eq]
  have hmap : (ControlSession.stop s c cs).endpointToTicket = s.endpointToTicket := by
    rw [stop_eq]
  unfold TablesMirror
  rw [hmap, hpending]
  constructor
  · intro hmirror cs' hcs' t info hl hserves hlistening
    obtain rfl := Option.some.inj (hc.symm.trans hcs')
    -- the user is still mapped, so the listener must be one of those that are closed
    by_contra hnone
    have hstill : info.listener ∈ (ControlSession.stop s c cs).listening :=
      (hopen info.listener).mpr ⟨hlistening, fun p hp heq => hnone ⟨p, hp, heq.symm⟩⟩
    have hmapped := (h.mirror info.user hlistening t).mpr ⟨info, hl, rfl⟩
    obtain ⟨info', hl', -⟩ := (hmirror info.user hstill t).mp hmapped
    rw [Table.lookup_eraseIf, Option.filter_eq_some_iff, hl] at hl'
    rw [← Option.some.inj hl'.1, hserves] at hl'
    exact absurd hl'.2 (by simp)
  · intro hkept
    refine (h.mirror.mono fun u hu => ((hopen u.1).mp hu).1).eraseIf ?_
    intro t info hl hserves hstill
    obtain ⟨hlistening, hne⟩ := (hopen info.listener).mp hstill
    obtain ⟨p, hp, heq⟩ := hkept cs hc t info hl hserves hlistening
    exact hne p hp heq.symm

theorem endpointInv_workStream {s s' : Server} (h : EndpointInv s) {mux : MuxId}
    {bytes : List Byte} (hs : s.handleWorkStream mux bytes = s') (howned : Owned s') :
    EndpointInv s' := by
  subst hs
  unfold handleWorkStream at howned ⊢
  dsimp only at howned ⊢
  split at howned
  · exact h.keep howned rfl rfl rfl fun _ => id
  · split at howned
    · rename_i info hinfo
      refine ⟨⟨howned, fun u t hl => h.mapped u t (Table.lookup_of_lookup_erase hl),
        fun t info hl => h.filed t info (Table.lookup_of_lookup_erase hl)⟩, ?_⟩
      exact h.mirror.drop hinfo
    · exact h

/-- A user connection changes what a cleanup changes. -/
theorem endpointInv_registerUserConn {s s' : Server} (h : EndpointInv s) (ticket : String)
    (socket : Socket) (proxyName : String) (data : List Byte) (now : Time) (owner : CtrlId)
    (howned : Owned s')
    (hs : let t := s.registerUserConn ticket socket proxyName data now owner
      s'.endpointToTicket = t.endpointToTicket ∧ s'.pendingUdpSessions = t.pendingUdpSessions ∧
        s'.listeners = t.listeners ∧ s'.listening = t.listening) : EndpointInv s' := by
  have hsame : let t := s.registerUserConn ticket socket proxyName data now owner
      let d := s.doLazyCleanup now
      t.endpointToTicket = d.endpointToTicket ∧ t.pendingUdpSessions = d.pendingUdpSessions ∧
        t.listeners = d.listeners ∧ t.listening = d.listening := by
    unfold registerUserConn
    dsimp only
    split
    · exact ⟨rfl, rfl, rfl, rfl⟩
    · exact ⟨rfl, rfl, rfl, rfl⟩
  obtain ⟨h₁, h₂, h₃, h₄⟩ := hs
  obtain ⟨k₁, k₂, k₃, k₄⟩ := hsame
  exact (h.cleanup now).keep howned (h₁.trans k₁) (h₂.trans k₂) (h₃.trans k₃)
    fun i hi => (h₄.trans k₄) ▸ hi

/-- The tables after a new user's datagram: `t` is the server with the user mapped and the
expired tickets taken out. -/
structure Received (s t : Server) (user : ListenerId × Endpoint) (ticket : String) (now : Time) :
    Prop where
  only : OnlyTickets s t
  mapped : ∀ u k, t.endpointToTicket.lookup u = some k →
    s.endpointToTicket.lookup u = some k ∨ u = user
  filed : ∀ k info, t.pendingUdpSessions.lookup k = some info →
    s.pendingUdpSessions.lookup k = some info
  mirror : ∀ on, Mirrors UdpSessionInfo.user on s.endpointToTicket s.pendingUdpSessions →
    Mirrors UdpSessionInfo.user (fun u => on u ∧ u ≠ user) t.endpointToTicket t.pendingUdpSessions
  new : (∀ k info, s.pendingUdpSessions.lookup k = some info → info.user ≠ user) →
    t.endpointToTicket.lookup user = some ticket
  pending : t.pendingUdpSessions = (s.doLazyCleanup now).pendingUdpSessions
  count : t.pendingTickets = (s.doLazyCleanup now).pendingTickets

theorem received (s : Server) (user : ListenerId × Endpoint) (ticket : String) (now : Time) :
    Received s
      ({ s with endpointToTicket := s.endpointToTicket.insert user ticket }.doLazyCleanup now)
      user ticket now := by
  obtain ⟨hsame, hshrinks⟩ := cleanupLoop_pending now s.ticketExpirationQueue
    { s with endpointToTicket := s.endpointToTicket.insert user ticket }
  obtain ⟨m, hpending⟩ := cleanupLoop_setEndpoints now s.ticketExpirationQueue s
    (s.endpointToTicket.insert user ticket)
  refine ⟨OnlyTickets.trans ⟨_, _, _, _, _, _, rfl⟩ hsame.onlyTickets, ?_,
    fun k info hl => hshrinks.udp hl, ?_, ?_, ?_, ?_⟩
  · intro u k hl
    have hbefore := cleanupLoop_mapped now s.ticketExpirationQueue _ hl
    dsimp only at hbefore
    rw [Table.lookup_insert_if] at hbefore
    split at hbefore
    · rename_i hu
      exact Or.inr hu
    · exact Or.inl hbefore
  · exact fun on hmirror => cleanupLoop_mirrors now s.ticketExpirationQueue _
      (hmirror.insert user ticket)
  · intro hnone
    exact (cleanupLoop_mapping now s.ticketExpirationQueue
      { s with endpointToTicket := s.endpointToTicket.insert user ticket } hnone).trans
        (AList.lookup_insert _)
  · unfold doLazyCleanup
    rw [hpending]
  · unfold doLazyCleanup
    rw [hpending]
    rfl

/-- What the receive handler does for a user without a ticket. -/
theorem receiveUdp_new {s : Server} {l : Listener} {endpoint : Endpoint} (ticket : String)
    (now : Time) (locked : Bool)
    (hnew : s.endpointToTicket.lookup (l.id, endpoint) = none) :
    ∃ t, Received s t (l.id, endpoint) ticket now ∧
      let s' := s.receiveUdp l endpoint ticket now locked
      s'.endpointToTicket = t.endpointToTicket ∧ s'.listeners = t.listeners ∧
        s'.listening = t.listening ∧
        s'.pendingUdpSessions =
          if t.pendingTickets ≥ maxPendingTickets then t.pendingUdpSessions
          else Table.emplace t.pendingUdpSessions ticket
            ⟨l.id, endpoint, l.proxyName, now, l.session⟩ := by
  refine ⟨_, received s (l.id, endpoint) ticket now, ?_⟩
  unfold receiveUdp
  rw [hnew]
  dsimp only
  obtain ⟨sent, hsent⟩ := announce_eq
    ({ s with endpointToTicket := s.endpointToTicket.insert (l.id, endpoint) ticket
      }.registerUdpSession ticket l.id endpoint l.proxyName now l.session)
    locked l.session l.proxyName ticket
  rw [hsent]
  unfold registerUdpSession
  dsimp only
  split
  · exact ⟨rfl, rfl, rfl, rfl⟩
  · exact ⟨rfl, rfl, rfl, rfl⟩

theorem located_receiveUdp {s s' : Server} (h : Located s) {l : Listener} {endpoint : Endpoint}
    {ticket : String} {now : Time} {locked : Bool}
    (hstep : s.step (.receiveUdp l endpoint ticket now locked) = some s') : Located s' := by
  have howned := owned_step h.owned hstep
  obtain ⟨⟨hl, hkind, -⟩, heq⟩ := Option.ite_none_right_eq_some.mp hstep
  obtain rfl := Option.some.inj heq
  cases hmapped : s.endpointToTicket.lookup (l.id, endpoint) with
  | some k =>
      unfold receiveUdp
      rw [hmapped]
      exact h
  | none =>
      obtain ⟨t, ht, hmap, hlisteners, -, hpending⟩ :=
        receiveUdp_new ticket now locked hmapped
      have hsame : t.listeners = s.listeners := by
        obtain ⟨_, _, _, _, _, _, rfl⟩ := ht.only
        rfl
      have hudp : ∀ i, s.IsUdp i → (s.receiveUdp l endpoint ticket now locked).IsUdp i := by
        intro i hi
        unfold IsUdp
        rw [hlisteners, hsame]
        exact hi
      refine ⟨howned, fun u k hk => ?_, fun k info hk => ?_⟩
      · rw [hmap] at hk
        rcases ht.mapped u k hk with hold | rfl
        · exact hudp _ (h.mapped u k hold)
        · exact hudp _ ⟨l, hl, hkind, rfl⟩
      · rw [hpending] at hk
        split at hk
        · exact hudp _ (h.filed k info (ht.filed k info hk))
        · rw [Table.lookup_emplace] at hk
          split at hk
          · rw [← Option.some.inj hk]
            exact hudp _ ⟨l, hl, hkind, rfl⟩
          · exact hudp _ (h.filed k info (ht.filed k info hk))

/-- **A datagram** keeps the mirror exactly if the ticket drawn for it is filed. -/
theorem mirror_receiveUdp_iff {s : Server} (h : EndpointInv s) {l : Listener}
    {endpoint : Endpoint} {ticket : String} {now : Time} {locked : Bool} :
    (s.receiveUdp l endpoint ticket now locked).TablesMirror ↔
      s.MirrorKept (.receiveUdp l endpoint ticket now locked) := by
  cases hmapped : s.endpointToTicket.lookup (l.id, endpoint) with
  | some k =>
      unfold receiveUdp
      rw [hmapped]
      refine ⟨fun _ _ hnone => ?_, fun _ => h.mirror⟩
      rw [hmapped] at hnone
      exact absurd hnone (by simp)
  | none =>
      obtain ⟨t, ht, hmap, hlisteners, hlistening, hpending⟩ :=
        receiveUdp_new ticket now locked hmapped
      have hsame : t.listening = s.listening := by
        obtain ⟨_, _, _, _, _, _, rfl⟩ := ht.only
        rfl
      unfold TablesMirror
      rw [hmap, hlistening, hsame, hpending]
      by_cases hopen : l.id ∈ s.listening
      · -- nothing is pending for the user, since nothing is mapped
        have hnone : ∀ k info, s.pendingUdpSessions.lookup k = some info →
            info.user ≠ (l.id, endpoint) := by
          intro k info hk heq
          have := (h.mirror (l.id, endpoint) hopen k).mpr ⟨info, hk, heq⟩
          rw [hmapped] at this
          exact absurd this (by simp)
        have hnew := ht.new hnone
        constructor
        · intro hmirror _ _
          rw [← ht.count, ← ht.pending]
          obtain ⟨info, hinfo, huser⟩ := (hmirror (l.id, endpoint) hopen ticket).mp hnew
          split at hinfo
          · exact absurd huser (hnone _ _ (ht.filed _ _ hinfo))
          · rename_i hroom
            refine ⟨Nat.lt_of_not_le hroom, ?_⟩
            rw [Table.lookup_emplace] at hinfo
            split at hinfo
            · rename_i hfree
              exact hfree.2
            · exact absurd huser (hnone _ _ (ht.filed _ _ hinfo))
        · intro hkept
          obtain ⟨hroom, hfree⟩ := hkept hopen hmapped
          rw [← ht.count] at hroom
          rw [← ht.pending] at hfree
          rw [if_neg (Nat.not_le_of_lt hroom)]
          exact Mirrors.file (ht.mirror _ h.mirror) hnew
            (fun k info hk => hnone k info (ht.filed k info hk)) hfree
      · have hmirror : Mirrors UdpSessionInfo.user (fun u => u.1 ∈ s.listening)
            t.endpointToTicket t.pendingUdpSessions :=
          (ht.mirror _ h.mirror).mono fun u hu => ⟨hu, by rintro rfl; exact hopen hu⟩
        refine iff_of_true ?_ fun hin => absurd hin hopen
        split
        · exact hmirror
        · exact hmirror.emplace hopen

/-- **One step** keeps the mirror exactly if it meets the condition, and always the rest. -/
theorem mirror_step_iff {s s' : Server} {e : Event} (h : EndpointInv s)
    (hstep : s.step e = some s') : Located s' ∧ (s'.TablesMirror ↔ s.MirrorKept e) := by
  have howned := owned_step h.owned hstep
  have hkept : EndpointInv s' → Located s' ∧ (s'.TablesMirror ↔ True) :=
    fun h' => ⟨h'.toLocated, iff_true_intro h'.mirror⟩
  cases e with
  | controlStream mux =>
      obtain rfl := Option.some.inj hstep
      exact hkept (h.keep howned rfl rfl rfl fun _ => id)
  | message c msg thrown =>
      obtain ⟨cs, hc, rfl⟩ := Option.map_eq_some_iff.mp hstep
      exact hkept (endpointInv_message h hc msg thrown)
  | stop c =>
      obtain ⟨cs, hc, rfl⟩ := Option.map_eq_some_iff.mp hstep
      exact ⟨located_stop h.toLocated hc, mirror_stop_iff h hc⟩
  | acceptUser l ticket socket now locked =>
      obtain ⟨-, heq⟩ := Option.ite_none_right_eq_some.mp hstep
      obtain rfl := Option.some.inj heq
      obtain ⟨sent, hsent⟩ := announce_eq
        (s.registerUserConn ticket socket l.proxyName [] now l.session) locked l.session
        l.proxyName ticket
      exact hkept (endpointInv_registerUserConn h ticket socket l.proxyName [] now l.session howned
        (by rw [acceptUser, hsent]; exact ⟨rfl, rfl, rfl, rfl⟩))
  | receiveUdp l endpoint ticket now locked =>
      have hlocated := located_receiveUdp h.toLocated hstep
      obtain ⟨-, heq⟩ := Option.ite_none_right_eq_some.mp hstep
      obtain rfl := Option.some.inj heq
      exact ⟨hlocated, mirror_receiveUdp_iff h⟩
  | vhostRequest domain data ticket socket now locked =>
      obtain ⟨-, heq⟩ := Option.ite_none_right_eq_some.mp hstep
      obtain rfl := Option.some.inj heq
      refine hkept ?_
      unfold dispatchVhost at howned ⊢
      split at howned
      · exact h
      · rename_i route _
        cases locked with
        | false => exact h
        | true =>
            exact endpointInv_registerUserConn h ticket socket route.proxyName data now
              route.session howned ⟨rfl, rfl, rfl, rfl⟩
  | workStream mux bytes =>
      obtain ⟨-, heq⟩ := Option.ite_none_right_eq_some.mp hstep
      exact hkept (endpointInv_workStream h (Option.some.inj heq) howned)

/-- **The endpoint maps mirror the pending table** in every state of every run whose steps meet
the condition, and the first step that does not meet it breaks the mirror. -/
theorem endpoints_mirrored {token : String} {ports : List PortRange} {clients : List String}
    {s : Server} (h : Reach step MirrorKept (init token ports clients) s) :
    s.Mirrored ∧ ∀ e s', s.step e = some s' → (s'.Mirrored ↔ s.MirrorKept e) := by
  have hinv : EndpointInv s := h.invariant (endpointInv_init token ports clients)
    fun s e s' hs hok hstep => by
      obtain ⟨hlocated, hmirror⟩ := mirror_step_iff hs hstep
      exact ⟨hlocated, hmirror.mpr hok⟩
  refine ⟨(mirrored_iff hinv.toLocated).mpr hinv.mirror, fun e s' hstep => ?_⟩
  obtain ⟨hlocated, hmirror⟩ := mirror_step_iff hinv hstep
  rw [mirrored_iff hlocated, hmirror]

/-- A session with a UDP proxy. -/
def oneUdpProxy : List Event :=
  [.controlStream 1, .message 0 (.login ⟨"tok", "a"⟩) none,
    .message 0 (.registerProxy ⟨"dns", "udp", 53, [], 0⟩) none]

/-- The first user of the proxy is mapped, and mirrored. -/
theorem endpoints_mirrored_example : ∃ s : Server,
    s.endpointToTicket.lookup (0, 9) = some "t" ∧ s.Mirrored := by
  -- a run that stops no session and draws tickets that are free
  obtain ⟨s, hreach, hobs⟩ := exists_of_runGuarded step
    (fun s e => match e with
      | .receiveUdp _ _ ticket now _ =>
          decide ((s.doLazyCleanup now).pendingTickets < maxPendingTickets ∧
            (s.doLazyCleanup now).pendingUdpSessions.lookup ticket = none)
      | .stop _ => false
      | _ => true)
    (oneUdpProxy ++ [.receiveUdp ⟨0, .udp, 53, "dns", 0⟩ 9 "t" 5 true])
    (fun s => s.endpointToTicket.lookup (0, 9)) (s := init "tok" [] []) (a := some "t") (by decide)
  refine ⟨s, hobs, (endpoints_mirrored (hreach.mono fun s e hok => ?_)).1⟩
  cases e with
  | receiveUdp l endpoint ticket now locked => exact fun _ _ => of_decide_eq_true hok
  | stop c => exact absurd hok Bool.false_ne_true
  | _ => trivial

/-- Two sessions with a UDP proxy of the same name each, a user of the first, and the second
one stops. -/
theorem endpoints_notMirrored : ¬ ∀ s : Server,
    Reach step anyStep (init "tok" [] []) s → s.Mirrored := by
  intro hall
  obtain ⟨s, hreach, hobs⟩ := exists_of_runAll step
    (oneUdpProxy ++ [.controlStream 2, .message 1 (.login ⟨"tok", "b"⟩) none,
      .message 1 (.registerProxy ⟨"dns", "udp", 54, [], 0⟩) none,
      .receiveUdp ⟨0, .udp, 53, "dns", 0⟩ 9 "t" 5 true, .stop 1])
    (fun s => (s.listeners, s.listening, s.endpointToTicket.lookup (0, 9),
      s.pendingUdpSessions.lookup "t"))
    (s := init "tok" [] [])
    (a := ([⟨0, .udp, 53, "dns", 0⟩, ⟨1, .udp, 54, "dns", 1⟩], [0], some "t", none)) (by decide)
  simp only [Prod.mk.injEq] at hobs
  obtain ⟨hlisteners, hlistening, hmapped, hpending⟩ := hobs
  have hmirrored := (hall s hreach ⟨0, .udp, 53, "dns", 0⟩ (by rw [hlisteners]; simp) rfl
    (by rw [hlistening]; simp) 9 "t").mp hmapped
  rw [hpending] at hmirrored
  obtain ⟨info, hinfo, -⟩ := hmirrored
  exact absurd hinfo (by simp)

end Server

end Cfrp
