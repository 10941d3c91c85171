import Cfrp.Lib.Transition
import Cfrp.Lib.Keyed
import Cfrp.Server.Ownership
import Mathlib.Algebra.GroupWithZero.Nat

/-!
# The count of active connections

A listener counts a connection when it accepts it. The count goes down when the bridge of a
connection stops, or the write of its initial data fails, and it goes down at the listener
that the redeeming session has under the proxy's name. A connection that is refused, expires or
is cleared has no bridge, so nothing takes it off.

The run below is the server with the counters, the bridges, and the list of what was accepted.
`Keeps` is when the counter of one listener stays right.
-/

namespace Cfrp

open Lib Protocol

/-- Where a bridge is. -/
inductive TcpBridgeStage where
  /-- The initial data is being written, and `Start` has not run. -/
  | writing
  | running
  /-- `stopped_` is set, or the bridge went with the failed write. -/
  | stopped
  deriving DecidableEq

/-- The `Bridge` that `HandleNewMuxStream` builds for a user's connection. -/
structure TcpBridge where
  socket : Socket
  /-- `tcp_pl`: the listener whose counters the bridge updates. -/
  stats : Option ListenerId
  stage : TcpBridgeStage

structure GaugeRun where
  server : Server
  /-- `active_conns_` of every listener. -/
  activeConns : ListenerId → Nat := fun _ => 0
  bridges : List TcpBridge := []
  /-- What the accept handlers were given. -/
  accepted : List (Socket × ListenerId) := []
  /-- The connections `dec_active_conns` was called for. -/
  decremented : List Socket := []

inductive GaugeEvent where
  | handler (e : Server.Event)
  /-- The write of a bridge's initial data is over. -/
  | initialWrite (i : Nat) (ok : Bool)
  /-- `HandleStop` of a bridge. -/
  | handleStop (i : Nat)

namespace GaugeRun

open Server

/-- The bridge for a redeemed ticket. It starts at once if there is nothing to write. -/
def bridgeFor (hand : HandOver) : Option TcpBridge :=
  match hand.target with
  | .tcp socket initialData =>
      some ⟨socket, hand.stats.map Listener.id,
        if initialData.isEmpty then .running else .writing⟩
  | .udp _ _ => none

/-- A handler of the server has run. -/
def splice (r : GaugeRun) (server : Server) : GaugeRun :=
  { r with
    server := server
    bridges := r.bridges ++ (server.handed.drop r.server.handed.length).filterMap bridgeFor }

/-- `active_conns_++` -/
def count (r : GaugeRun) (l : ListenerId) (socket : Socket) : GaugeRun :=
  { r with
    activeConns := Function.update r.activeConns l ((r.activeConns l + 1) % 2 ^ 32)
    accepted := r.accepted ++ [(socket, l)] }

/-- `dec_active_conns` of the bridge's listener. The bridge holds it weakly, but then the counter
of a listener that is gone is nobody's. -/
def dec (r : GaugeRun) (b : TcpBridge) : GaugeRun :=
  match b.stats with
  | some l =>
      { r with
        activeConns := Function.update r.activeConns l (r.activeConns l - 1)
        decremented := b.socket :: r.decremented }
  | none => r

def setStage (r : GaugeRun) (i : Nat) (stage : TcpBridgeStage) : GaugeRun :=
  { r with bridges := r.bridges.modify i fun b => { b with stage := stage } }

def step (r : GaugeRun) : GaugeEvent → Option GaugeRun
  | .handler e =>
      (r.server.step e).map fun server =>
        match e with
        | .acceptUser l _ socket _ _ => (r.count l.id socket).splice server
        | _ => r.splice server
  | .initialWrite i ok =>
      r.bridges[i]?.bind fun b =>
        if b.stage = .writing then
          some (if ok then r.setStage i .running else (r.setStage i .stopped).dec b)
        else none
  | .handleStop i =>
      r.bridges[i]?.bind fun b =>
        match b.stage with
        | .writing => none
        | .running => some ((r.setStage i .stopped).dec b)
        | .stopped => some r

/-- The socket of a user is pending, or a bridge has it that has not stopped. -/
def isOpen (r : GaugeRun) (socket : Socket) : Bool :=
  r.server.pendingUserConns.entries.any (fun e => e.2.socket == socket) ||
    r.bridges.any fun b => b.socket == socket && b.stage != .stopped

/-- The connections of a listener that are open. -/
def openConns (r : GaugeRun) (l : ListenerId) : Nat :=
  r.accepted.countP fun a => a.2 == l && r.isOpen a.1

/-- A socket that was not there before. -/
structure IsNew (r : GaugeRun) (socket : Socket) : Prop where
  accepted : ∀ l, (socket, l) ∉ r.accepted
  pending : ∀ t info, r.server.pendingUserConns.lookup t = some info → info.socket ≠ socket
  bridged : ∀ b ∈ r.bridges, b.socket ≠ socket

/-- Every connection has a socket of its own. -/
def Fresh (r : GaugeRun) : GaugeEvent → Prop
  | .handler (.acceptUser _ _ socket _ _) => r.IsNew socket
  | .handler (.vhostRequest _ _ _ socket _ _) => r.IsNew socket
  | _ => True

/-! ## When the counter of a listener stays right -/

/-- No ticket of a connection of the listener is among the expired ones at the head of the
queue. -/
def NoneExpires (r : GaugeRun) (l : ListenerId) (now : Time) : Prop :=
  ∀ t ∈ r.server.ticketExpirationQueue.takeWhile (fun t => t.expiresAt ≤ now), t.isUdp = false →
    ∀ info, r.server.pendingUserConns.lookup t.ticket = some info → (info.socket, l) ∉ r.accepted

/-- The ticket is filed, and the counter does not wrap. -/
abbrev Counts (r : GaugeRun) (l : ListenerId) (ticket : String) (now : Time) : Prop :=
  (r.server.doLazyCleanup now).pendingTickets < maxPendingTickets ∧
    (r.server.doLazyCleanup now).pendingUserConns.lookup ticket = none ∧
    r.activeConns l + 1 < 2 ^ 32

/-- The bridge's listener is the one that accepted its connection, or has nothing to take
away. -/
def EndsRight (r : GaugeRun) (l : ListenerId) (b : TcpBridge) : Prop :=
  (b.stats = some l → (b.socket, l) ∈ r.accepted ∨ r.activeConns l = 0) ∧
    ((b.socket, l) ∈ r.accepted → b.stats = some l)

/-- What the counter of a listener needs of a step. -/
def Keeps (l : ListenerId) (r : GaugeRun) : GaugeEvent → Prop
  | .handler (.acceptUser p ticket _ now _) =>
      r.NoneExpires l now ∧ (p.id = l → r.Counts l ticket now)
  | .handler (.receiveUdp p endpoint _ now _) =>
      r.server.endpointToTicket.lookup (p.id, endpoint) = none → r.NoneExpires l now
  | .handler (.vhostRequest domain _ _ _ now locked) =>
      (r.server.vhostRoutes.lookup domain).isSome → locked = true → r.NoneExpires l now
  | .handler (.stop c) => ∀ cs, r.server.controls c = some cs → ∀ t info,
      r.server.pendingUserConns.lookup t = some info → cs.serves info.proxyName = true →
        (info.socket, l) ∉ r.accepted
  | .handler _ => True
  | .initialWrite i ok => ok = false → ∀ b, r.bridges[i]? = some b → r.EndsRight l b
  | .handleStop i => ∀ b, r.bridges[i]? = some b → b.stage = .running → r.EndsRight l b

/-! ## Open connections -/

variable {r : GaugeRun} {l : ListenerId}

theorem isOpen_iff {socket : Socket} : r.isOpen socket = true ↔
    (∃ t info, r.server.pendingUserConns.lookup t = some info ∧ info.socket = socket) ∨
      ∃ b ∈ r.bridges, b.socket = socket ∧ b.stage ≠ .stopped := by
  unfold isOpen
  rw [Bool.or_eq_true, List.any_eq_true, List.any_eq_true]
  refine or_congr ?_ ?_
  · constructor
    · rintro ⟨⟨t, info⟩, hmem, heq⟩
      exact ⟨t, info, Table.lookup_eq_some_iff.mpr hmem, beq_iff_eq.mp heq⟩
    · rintro ⟨t, info, hl, heq⟩
      exact ⟨⟨t, info⟩, Table.lookup_eq_some_iff.mp hl, beq_iff_eq.mpr heq⟩
  · simp only [Bool.and_eq_true, beq_iff_eq, bne_iff_ne]

/-- The count depends on what is open of the listener's own. -/
theorem openConns_congr {r' : GaugeRun} (haccepted : r'.accepted = r.accepted)
    (hopen : ∀ socket, (socket, l) ∈ r.accepted → r'.isOpen socket = r.isOpen socket) :
    r'.openConns l = r.openConns l := by
  unfold openConns
  rw [haccepted]
  refine List.countP_congr fun a ha => ?_
  rw [Bool.and_eq_true, Bool.and_eq_true, beq_iff_eq]
  refine and_congr_right fun hl => ?_
  rw [hopen a.1 (hl ▸ ha)]

/-- One element less satisfies the test. -/
theorem countP_of_one {α : Type*} {p p' : α → Bool} {a : α} :
    ∀ {as : List α}, as.Nodup → a ∈ as → p a = true → p' a = false →
      (∀ b ∈ as, b ≠ a → p' b = p b) → as.countP p = as.countP p' + 1
  | [], _, ha, _, _, _ => absurd ha List.not_mem_nil
  | b :: as, hnd, ha, hp, hp', hother => by
      rw [List.nodup_cons] at hnd
      rw [List.countP_cons, List.countP_cons]
      by_cases hb : b = a
      · subst hb
        have hrest : as.countP p' = as.countP p := List.countP_congr fun c hc => by
          rw [hother c (List.mem_cons_of_mem _ hc) fun heq => hnd.1 (heq ▸ hc)]
        rw [hp, hp', hrest, if_pos rfl, if_neg Bool.false_ne_true]
      · have hrest := countP_of_one hnd.2 ((List.mem_cons.mp ha).resolve_left fun h => hb h.symm)
          hp hp' fun c hc => hother c (List.mem_cons_of_mem _ hc)
        rw [hrest, hother b List.mem_cons_self hb]
        omega

/-! ## The cleanup and the pending connections -/

/-- A connection whose ticket is not due stays. -/
theorem cleanupLoop_keeps (now : Time) {k : String} {info : TcpSessionInfo} :
    ∀ (q : List TicketExpiration) (s : Server), s.pendingUserConns.lookup k = some info →
      (∀ t ∈ q.takeWhile (fun t => t.expiresAt ≤ now), t.isUdp = false → t.ticket ≠ k) →
      (cleanupLoop now s q).pendingUserConns.lookup k = some info
  | [], _, hl, _ => hl
  | oldest :: rest, s, hl, hdue => by
      unfold cleanupLoop
      split
      · rename_i hexpired
        rw [List.takeWhile_cons, if_pos (decide_eq_true hexpired)] at hdue
        refine cleanupLoop_keeps now rest _ ?_ fun t ht => hdue t (List.mem_cons_of_mem _ ht)
        unfold expireTicket
        split
        · split
          · exact hl
          · exact hl
        · rename_i htcp
          have hne := hdue oldest List.mem_cons_self (by simpa using htcp)
          show (s.pendingUserConns.erase oldest.ticket).lookup k = some info
          rw [Table.lookup_erase_if, if_neg hne.symm]
          exact hl
      · exact hl

/-- The connections of the listener are still pending after a cleanup. -/
theorem NoneExpires.kept {now : Time} (h : r.NoneExpires l now) {s : Server}
    (hpending : s.pendingUserConns = r.server.pendingUserConns)
    (hqueue : s.ticketExpirationQueue = r.server.ticketExpirationQueue) {t : String}
    {info : TcpSessionInfo} (hl : r.server.pendingUserConns.lookup t = some info)
    (haccepted : (info.socket, l) ∈ r.accepted) :
    (s.doLazyCleanup now).pendingUserConns.lookup t = some info := by
  refine cleanupLoop_keeps now _ _ (hpending ▸ hl) fun due hdue htcp heq => ?_
  rw [hqueue] at hdue
  subst heq
  exact h due hdue htcp info hl haccepted

/-- What a registration does to the table of pending connections. -/
theorem registerUserConn_lookup (s : Server) (ticket : String) (socket : Socket)
    (proxyName : String) (data : List Byte) (now : Time) (owner : CtrlId) :
    let d := s.doLazyCleanup now
    (s.registerUserConn ticket socket proxyName data now owner).pendingUserConns =
      if d.pendingTickets ≥ maxPendingTickets then d.pendingUserConns
      else Table.emplace d.pendingUserConns ticket ⟨socket, data, proxyName, now, owner⟩ := by
  unfold registerUserConn
  dsimp only
  split
  · rfl
  · rfl

theorem registerUdpSession_lookup (s : Server) (ticket : String) (listener : ListenerId)
    (endpoint : Endpoint) (proxyName : String) (now : Time) (owner : CtrlId) :
    (s.registerUdpSession ticket listener endpoint proxyName now owner).pendingUserConns =
      (s.doLazyCleanup now).pendingUserConns := by
  unfold registerUdpSession
  dsimp only
  split
  · rfl
  · rfl

/-! ## One place for every socket -/

/-- A socket is pending under one ticket, or one bridge has it, and a bridge that was counted
off has stopped. -/
structure SocketsInv (r : GaugeRun) : Prop where
  owned : r.server.Owned
  pendingOnce : ∀ {t t' info info'}, r.server.pendingUserConns.lookup t = some info →
    r.server.pendingUserConns.lookup t' = some info' → info.socket = info'.socket → t = t'
  notBridged : ∀ {t info}, r.server.pendingUserConns.lookup t = some info →
    ∀ b ∈ r.bridges, b.socket ≠ info.socket
  bridgedOnce : (r.bridges.map TcpBridge.socket).Nodup
  acceptedOnce : (r.accepted.map Prod.fst).Nodup
  once : r.decremented.Nodup
  ended : ∀ {socket}, socket ∈ r.decremented →
    ∃ b ∈ r.bridges, b.socket = socket ∧ b.stage = .stopped

theorem socketsInv_init (token : String) (ports : List PortRange) (clients : List String) :
    SocketsInv { server := init token ports clients } where
  owned := owned_init token ports clients
  pendingOnce h := absurd h (by simp [init])
  notBridged h := absurd h (by simp [init])
  bridgedOnce := List.nodup_nil
  acceptedOnce := List.nodup_nil
  once := List.nodup_nil
  ended h := absurd h List.not_mem_nil

/-- A handler that builds no bridge files one new connection at most, and takes out none of a
listener's whose condition it meets. -/
structure FilesUser (r : GaugeRun) (e : GaugeEvent) (s : Server) (ticket : String) : Prop where
  owned : s.Owned
  built : (s.handed.drop r.server.handed.length).filterMap bridgeFor = []
  old : ∀ {t info}, s.pendingUserConns.lookup t = some info →
    r.server.pendingUserConns.lookup t = some info ∨ t = ticket ∧ r.IsNew info.socket
  kept : ∀ {l}, r.Keeps l e → ∀ {t info}, r.server.pendingUserConns.lookup t = some info →
    (info.socket, l) ∈ r.accepted → s.pendingUserConns.lookup t = some info

variable {e : GaugeEvent} {s : Server} {ticket : String}

theorem FilesUser.bridges (h : FilesUser r e s ticket) : (r.splice s).bridges = r.bridges := by
  show r.bridges ++ _ = r.bridges
  rw [h.built, List.append_nil]

theorem FilesUser.sockets (h : FilesUser r e s ticket) (hr : SocketsInv r) :
    SocketsInv (r.splice s) where
  owned := h.owned
  pendingOnce ht ht' heq := by
    rcases h.old ht with hold | ⟨rfl, hnew⟩
    · rcases h.old ht' with hold' | ⟨-, hnew'⟩
      · exact hr.pendingOnce hold hold' heq
      · exact absurd heq (hnew'.pending _ _ hold)
    · rcases h.old ht' with hold' | ⟨rfl, -⟩
      · exact absurd heq.symm (hnew.pending _ _ hold')
      · rfl
  notBridged ht b hb := by
    rw [h.bridges] at hb
    rcases h.old ht with hold | ⟨-, hnew⟩
    · exact hr.notBridged hold b hb
    · exact hnew.bridged b hb
  bridgedOnce := by
    rw [h.bridges]
    exact hr.bridgedOnce
  acceptedOnce := hr.acceptedOnce
  once := hr.once
  ended hs := by
    rw [h.bridges]
    exact hr.ended hs

/-- What a listener accepted is open as before. -/
theorem FilesUser.openConns (h : FilesUser r e s ticket) (hok : r.Keeps l e) :
    (r.splice s).openConns l = r.openConns l := by
  refine openConns_congr rfl fun socket haccepted => ?_
  rw [Bool.eq_iff_iff, isOpen_iff, isOpen_iff, h.bridges]
  refine or_congr ⟨?_, ?_⟩ Iff.rfl
  · rintro ⟨t, info, ht, rfl⟩
    rcases h.old ht with hold | ⟨-, hnew⟩
    · exact ⟨t, info, hold, rfl⟩
    · exact absurd haccepted (hnew.accepted l)
  · rintro ⟨t, info, ht, rfl⟩
    exact ⟨t, info, h.kept hok ht haccepted, rfl⟩

/-- A listener has accepted a connection and counted it. -/
theorem FilesUser.sockets_count (h : FilesUser r e s ticket) (hr : SocketsInv r) {socket : Socket}
    (hnew : r.IsNew socket) (p : ListenerId) : SocketsInv ((r.count p socket).splice s) := by
  have hs := h.sockets hr
  refine ⟨hs.owned, hs.pendingOnce, hs.notBridged, hs.bridgedOnce, ?_, hs.once, hs.ended⟩
  show ((r.accepted ++ [(socket, p)]).map Prod.fst).Nodup
  refine nodup_concat hr.acceptedOnce fun a ha heq => ?_
  have heq : a.1 = socket := heq
  exact hnew.accepted a.2 (heq ▸ ha)

/-- The counter of the accepting listener, the ticket filed, and every other counter. -/
theorem FilesUser.gauge_count (h : FilesUser r e s ticket) (hok : r.Keeps l e)
    (hgauge : r.activeConns l = r.openConns l) (socket : Socket) (p : ListenerId)
    (hfiled : p = l → r.activeConns l + 1 < 2 ^ 32 ∧
      ∃ info, s.pendingUserConns.lookup ticket = some info ∧ info.socket = socket) :
    ((r.count p socket).splice s).activeConns l = ((r.count p socket).splice s).openConns l := by
  -- what is open does not depend on the list of what was accepted
  have hopen : ((r.count p socket).splice s).openConns l = (r.splice s).openConns l +
      [(socket, p)].countP fun a => a.2 == l && (r.splice s).isOpen a.1 :=
    List.countP_append
  show Function.update r.activeConns p ((r.activeConns p + 1) % 2 ^ 32) l = _
  rw [hopen, h.openConns hok, List.countP_singleton, ← hgauge]
  by_cases hp : p = l
  · obtain ⟨hwrap, info, hinfo, hsocket⟩ := hfiled hp
    have hisOpen : (r.splice s).isOpen socket = true :=
      isOpen_iff.mpr (Or.inl ⟨ticket, info, hinfo, hsocket⟩)
    rw [hp, Function.update_self, hisOpen, beq_self_eq_true, Nat.mod_eq_of_lt hwrap]
    rfl
  · rw [Function.update_of_ne fun heq => hp heq.symm, beq_eq_false_iff_ne.mpr hp]
    rfl

/-! ## Redemption -/

/-- A redeemed ticket: its connection goes from the table to a bridge. -/
structure Redeems (r : GaugeRun) (s : Server) (ticket : String) (info : TcpSessionInfo)
    (b : TcpBridge) : Prop where
  owned : s.Owned
  found : r.server.pendingUserConns.lookup ticket = some info
  pending : s.pendingUserConns = r.server.pendingUserConns.erase ticket
  built : (s.handed.drop r.server.handed.length).filterMap bridgeFor = [b]
  socket : b.socket = info.socket
  stage : b.stage ≠ .stopped

variable {info : TcpSessionInfo} {b : TcpBridge}

theorem Redeems.bridges (h : Redeems r s ticket info b) :
    (r.splice s).bridges = r.bridges ++ [b] := by
  rw [← h.built]
  rfl

theorem Redeems.lookup (h : Redeems r s ticket info b) {t : String} {i : TcpSessionInfo} :
    s.pendingUserConns.lookup t = some i ↔
      r.server.pendingUserConns.lookup t = some i ∧ t ≠ ticket := by
  rw [h.pending, Table.lookup_erase_if]
  split
  · rename_i heq
    exact iff_of_false (by simp) fun hh => hh.2 heq
  · rename_i hne
    exact (and_iff_left hne).symm

theorem Redeems.sockets (h : Redeems r s ticket info b) (hr : SocketsInv r) :
    SocketsInv (r.splice s) where
  owned := h.owned
  pendingOnce ht ht' heq := hr.pendingOnce (h.lookup.mp ht).1 (h.lookup.mp ht').1 heq
  notBridged ht b' hb' := by
    obtain ⟨ht, hne⟩ := h.lookup.mp ht
    rw [h.bridges] at hb'
    rcases List.mem_append.mp hb' with hold | hb
    · exact hr.notBridged ht b' hold
    · rw [List.mem_singleton.mp hb, h.socket]
      exact fun heq => hne (hr.pendingOnce ht h.found heq.symm)
  bridgedOnce := by
    rw [h.bridges]
    exact nodup_concat hr.bridgedOnce fun b' hb' => h.socket ▸ hr.notBridged h.found b' hb'
  acceptedOnce := hr.acceptedOnce
  once := hr.once
  ended hs := by
    obtain ⟨b', hb', hrest⟩ := hr.ended hs
    exact ⟨b', by rw [h.bridges]; exact List.mem_append_left _ hb', hrest⟩

theorem Redeems.openConns (h : Redeems r s ticket info b) :
    (r.splice s).openConns l = r.openConns l := by
  refine openConns_congr rfl fun socket _ => ?_
  rw [Bool.eq_iff_iff, isOpen_iff, isOpen_iff, h.bridges]
  constructor
  · rintro (⟨t, i, ht, heq⟩ | ⟨b', hb', heq, hopen⟩)
    · exact Or.inl ⟨t, i, (h.lookup.mp ht).1, heq⟩
    · rcases List.mem_append.mp hb' with hold | hb
      · exact Or.inr ⟨b', hold, heq, hopen⟩
      · rw [List.mem_singleton.mp hb, h.socket] at heq
        exact Or.inl ⟨ticket, info, h.found, heq⟩
  · rintro (⟨t, i, ht, heq⟩ | ⟨b', hb', heq, hopen⟩)
    · by_cases hticket : t = ticket
      · subst hticket
        obtain rfl := Option.some.inj (h.found.symm.trans ht)
        exact Or.inr ⟨b, List.mem_append_right _ (List.mem_singleton_self b),
          h.socket.trans heq, h.stage⟩
      · exact Or.inl ⟨t, i, h.lookup.mpr ⟨ht, hticket⟩, heq⟩
    · exact Or.inr ⟨b', List.mem_append_left _ hb', heq, hopen⟩

/-! ## Bridges -/

theorem SocketsInv.setStage (hr : SocketsInv r) {i : Nat} {b : TcpBridge}
    (hb : r.bridges[i]? = some b) (hopen : b.stage ≠ .stopped) (stage : TcpBridgeStage) :
    SocketsInv (r.setStage i stage) where
  owned := hr.owned
  pendingOnce := hr.pendingOnce
  notBridged ht b' hb' := by
    rcases mem_modify hb hb' with rfl | hold
    · exact hr.notBridged ht b (List.mem_of_getElem? hb)
    · exact hr.notBridged ht b' hold
  bridgedOnce := by
    show ((r.bridges.modify i _).map TcpBridge.socket).Nodup
    rw [map_key_modify hb rfl]
    exact hr.bridgedOnce
  acceptedOnce := hr.acceptedOnce
  once := hr.once
  ended hs := by
    obtain ⟨b', hb', heq, hstopped⟩ := hr.ended hs
    obtain ⟨j, hj⟩ := List.getElem?_of_mem hb'
    have hne : i ≠ j := by
      rintro rfl
      obtain rfl := Option.some.inj (hb.symm.trans hj)
      exact hopen hstopped
    have hkept : (r.setStage i stage).bridges[j]? = some b' := by
      show (r.bridges.modify i _)[j]? = _
      rw [List.getElem?_modify_ne _ _ hne, hj]
    exact ⟨b', List.mem_of_getElem? hkept, heq, hstopped⟩

/-- What is open after a bridge has changed its stage. -/
theorem isOpen_setStage (hr : SocketsInv r) {i : Nat} {b : TcpBridge}
    (hb : r.bridges[i]? = some b) (stage : TcpBridgeStage) (socket : Socket) :
    (r.setStage i stage).isOpen socket =
      if socket = b.socket then stage != .stopped else r.isOpen socket := by
  have hat : (r.setStage i stage).bridges[i]? = some { b with stage := stage } := by
    show (r.bridges.modify i _)[i]? = _
    rw [List.getElem?_modify_eq, hb]
    rfl
  split
  · rename_i heq
    subst heq
    rw [Bool.eq_iff_iff, isOpen_iff, bne_iff_ne]
    constructor
    · rintro (⟨t, info, ht, hsocket⟩ | ⟨b', hb', hsocket, hopen⟩)
      · exact absurd hsocket.symm (hr.notBridged ht b (List.mem_of_getElem? hb))
      · rcases mem_modify hb hb' with rfl | hold
        · exact hopen
        · obtain ⟨j, hj⟩ := List.getElem?_of_mem hb'
          rcases of_getElem?_modify hb hj with ⟨-, rfl⟩ | ⟨hne, hj⟩
          · exact hopen
          · exact absurd (index_unique hr.bridgedOnce hj hb hsocket) hne
    · exact fun hstage => Or.inr ⟨_, List.mem_of_getElem? hat, rfl, hstage⟩
  · rename_i hne
    rw [Bool.eq_iff_iff, isOpen_iff, isOpen_iff]
    refine or_congr Iff.rfl ⟨?_, ?_⟩
    · rintro ⟨b', hb', hsocket, hopen⟩
      rcases mem_modify hb hb' with rfl | hold
      · exact absurd hsocket.symm hne
      · exact ⟨b', hold, hsocket, hopen⟩
    · rintro ⟨b', hb', hsocket, hopen⟩
      obtain ⟨j, hj⟩ := List.getElem?_of_mem hb'
      have hij : i ≠ j := by
        rintro rfl
        obtain rfl := Option.some.inj (hb.symm.trans hj)
        exact hne hsocket.symm
      have hkept : (r.setStage i stage).bridges[j]? = some b' := by
        show (r.bridges.modify i _)[j]? = _
        rw [List.getElem?_modify_ne _ _ hij, hj]
      exact ⟨b', List.mem_of_getElem? hkept, hsocket, hopen⟩

/-- A bridge that starts stays open. -/
theorem openConns_start (hr : SocketsInv r) {i : Nat} (hb : r.bridges[i]? = some b)
    (hstage : b.stage ≠ .stopped) : (r.setStage i .running).openConns l = r.openConns l := by
  refine openConns_congr rfl fun socket _ => ?_
  rw [isOpen_setStage hr hb]
  split
  · rename_i heq
    exact (isOpen_iff.mpr (Or.inr ⟨b, List.mem_of_getElem? hb, heq.symm, hstage⟩)).symm
  · rfl

theorem dec_openConns (r : GaugeRun) (b : TcpBridge) : (r.dec b).openConns l = r.openConns l := by
  unfold dec
  cases b.stats with
  | none => rfl
  | some p => rfl

/-- What the counter of a listener becomes. -/
theorem dec_activeConns (r : GaugeRun) (b : TcpBridge) :
    (r.dec b).activeConns l =
      if b.stats = some l then r.activeConns l - 1 else r.activeConns l := by
  unfold dec
  cases b.stats with
  | none => rw [if_neg (by simp)]
  | some p =>
      dsimp only
      rw [Function.update_apply]
      by_cases hp : l = p
      · rw [if_pos hp, if_pos (congrArg some hp.symm), hp]
      · rw [if_neg hp, if_neg fun heq => hp (Option.some.inj heq).symm]

theorem SocketsInv.stop (hr : SocketsInv r) {i : Nat} (hb : r.bridges[i]? = some b)
    (hopen : b.stage ≠ .stopped) : SocketsInv ((r.setStage i .stopped).dec b) := by
  have hs := hr.setStage hb hopen .stopped
  have hat : (r.setStage i .stopped).bridges[i]? = some { b with stage := .stopped } := by
    show (r.bridges.modify i _)[i]? = _
    rw [List.getElem?_modify_eq, hb]
    rfl
  unfold dec
  cases hstats : b.stats with
  | none => exact hs
  | some p =>
      refine ⟨hs.owned, hs.pendingOnce, hs.notBridged, hs.bridgedOnce, hs.acceptedOnce, ?_, ?_⟩
      · -- only a bridge that has stopped was counted off, and no other has this socket
        refine List.nodup_cons.mpr ⟨fun hmem => ?_, hs.once⟩
        obtain ⟨b', hb', heq, hstopped⟩ := hr.ended hmem
        obtain ⟨j, hj⟩ := List.getElem?_of_mem hb'
        obtain rfl := index_unique hr.bridgedOnce hj hb heq
        obtain rfl := Option.some.inj (hb.symm.trans hj)
        exact hopen hstopped
      · intro socket hmem
        rcases List.mem_cons.mp hmem with rfl | hmem
        · exact ⟨_, List.mem_of_getElem? hat, rfl, rfl⟩
        · exact hs.ended hmem

/-- **A bridge ends**, and the counter follows if the bridge has the right listener. -/
theorem gauge_stop (hr : SocketsInv r) (hgauge : r.activeConns l = r.openConns l) {i : Nat}
    (hb : r.bridges[i]? = some b) (hopen : b.stage ≠ .stopped) (hends : r.EndsRight l b) :
    ((r.setStage i .stopped).dec b).activeConns l =
      ((r.setStage i .stopped).dec b).openConns l := by
  have hbefore : r.isOpen b.socket = true :=
    isOpen_iff.mpr (Or.inr ⟨b, List.mem_of_getElem? hb, rfl, hopen⟩)
  have hafter := isOpen_setStage hr hb .stopped
  have hself : (r.setStage i .stopped).isOpen b.socket = false := by
    rw [hafter, if_pos rfl]
    rfl
  have hother : ∀ socket, socket ≠ b.socket →
      (r.setStage i .stopped).isOpen socket = r.isOpen socket := by
    intro socket hne
    rw [hafter, if_neg hne]
  rw [dec_openConns, dec_activeConns]
  show (if b.stats = some l then r.activeConns l - 1 else r.activeConns l) = _
  by_cases haccepted : (b.socket, l) ∈ r.accepted
  · have hcount : r.openConns l = (r.setStage i .stopped).openConns l + 1 := by
      refine countP_of_one (hr.acceptedOnce.of_map _) haccepted ?_ ?_ ?_
      · rw [hbefore, beq_self_eq_true]
        rfl
      · rw [hself, Bool.and_false]
      · intro a ha hne
        have hsocket : a.1 ≠ b.socket := fun heq =>
          hne (List.inj_on_of_nodup_map hr.acceptedOnce ha haccepted heq)
        rw [hother a.1 hsocket]
    rw [if_pos (hends.2 haccepted)]
    omega
  · have hcount : (r.setStage i .stopped).openConns l = r.openConns l := by
      refine openConns_congr rfl fun socket hsocket => hother socket ?_
      rintro rfl
      exact haccepted hsocket
    rw [hcount, ← hgauge]
    split
    · rename_i hstats
      have hzero := (hends.1 hstats).resolve_left haccepted
      omega
    · rfl

/-! ## What a step can do -/

/-- **A step, sorted** by what becomes of the connections. -/
inductive Change (r : GaugeRun) (e : GaugeEvent) : GaugeRun → Prop where
  | files {s : Server} {ticket : String} (h : FilesUser r e s ticket) : Change r e (r.splice s)
  | counts {s : Server} {ticket : String} (h : FilesUser r e s ticket) {socket : Socket}
      (hnew : r.IsNew socket) (p : ListenerId)
      (hfiled : r.Keeps p e → r.activeConns p + 1 < 2 ^ 32 ∧
        ∃ info, s.pendingUserConns.lookup ticket = some info ∧ info.socket = socket) :
      Change r e ((r.count p socket).splice s)
  | redeems {s : Server} {ticket : String} {info : TcpSessionInfo} {b : TcpBridge}
      (h : Redeems r s ticket info b) : Change r e (r.splice s)
  | starts {i : Nat} {b : TcpBridge} (hb : r.bridges[i]? = some b)
      (hwriting : b.stage = .writing) : Change r e (r.setStage i .running)
  | stops {i : Nat} {b : TcpBridge} (hb : r.bridges[i]? = some b) (hopen : b.stage ≠ .stopped)
      (hends : ∀ l, r.Keeps l e → r.EndsRight l b) :
      Change r e ((r.setStage i .stopped).dec b)
  | nothing : Change r e r

variable {r' : GaugeRun}

theorem writing_ne_stopped (hwriting : b.stage = .writing) : b.stage ≠ .stopped := by
  rw [hwriting]
  exact TcpBridgeStage.noConfusion

theorem Change.sockets (h : Change r e r') (hr : SocketsInv r) : SocketsInv r' := by
  cases h with
  | files h => exact h.sockets hr
  | counts h hnew p => exact h.sockets_count hr hnew p
  | redeems h => exact h.sockets hr
  | starts hb hwriting => exact hr.setStage hb (writing_ne_stopped hwriting) _
  | stops hb hopen => exact hr.stop hb hopen
  | nothing => exact hr

theorem Change.gauge (h : Change r e r') (hr : SocketsInv r) (hok : r.Keeps l e)
    (hgauge : r.activeConns l = r.openConns l) : r'.activeConns l = r'.openConns l := by
  cases h with
  | files h => exact hgauge.trans (h.openConns hok).symm
  | counts h hnew p hfiled =>
      refine h.gauge_count hok hgauge _ p ?_
      rintro rfl
      exact hfiled hok
  | redeems h => exact hgauge.trans h.openConns.symm
  | starts hb hwriting =>
      exact hgauge.trans (openConns_start hr hb (writing_ne_stopped hwriting)).symm
  | stops hb hopen hends => exact gauge_stop hr hgauge hb hopen (hends l hok)
  | nothing => exact hgauge

/-- A handler that hands nothing over builds no bridge. -/
theorem built_of_handed (h : s.handed = r.server.handed) :
    (s.handed.drop r.server.handed.length).filterMap bridgeFor = [] := by
  rw [h, List.drop_length]
  rfl

/-- A handler that leaves the table and hands nothing over. -/
theorem change_same (howned : s.Owned) (hpending : s.pendingUserConns = r.server.pendingUserConns)
    (hbuilt : (s.handed.drop r.server.handed.length).filterMap bridgeFor = []) :
    Change r e (r.splice s) := by
  have hfiles : FilesUser r e s "" :=
    ⟨howned, hbuilt, fun ht => Or.inl (hpending ▸ ht), fun _ _ _ ht _ => hpending ▸ ht⟩
  exact .files hfiles

theorem change_stop (hr : SocketsInv r) {c : CtrlId} {cs : ControlSession}
    (hc : r.server.controls c = some cs) :
    Change r (.handler (.stop c)) (r.splice (ControlSession.stop r.server c cs)) := by
  have hpending : (ControlSession.stop r.server c cs).pendingUserConns =
      Table.eraseIf r.server.pendingUserConns fun i => cs.serves i.proxyName := by
    rw [ControlSession.stop_eq]
  have hhanded : (ControlSession.stop r.server c cs).handed = r.server.handed := by
    rw [ControlSession.stop_eq]
  have hfiles : FilesUser r (.handler (.stop c)) (ControlSession.stop r.server c cs) "" := by
    refine ⟨owned_actsFor hr.owned hc (actsFor_stop hc), built_of_handed hhanded, ?_, ?_⟩
    · intro t info ht
      rw [hpending, Table.lookup_eraseIf, Option.filter_eq_some_iff] at ht
      exact Or.inl ht.1
    · intro l hok t info ht haccepted
      rw [hpending, Table.lookup_eraseIf, ht, Option.filter_some]
      refine if_pos ?_
      have hnot : cs.serves info.proxyName ≠ true := fun hserves =>
        hok cs hc t info ht hserves haccepted
      simpa using hnot
  exact .files hfiles

/-- What `RegisterUserConn` leaves, whatever the handler sends afterwards. -/
theorem filesUser_registerUserConn {socket : Socket} (hnew : r.IsNew socket) (proxyName : String)
    (data : List Byte) (now : Time) (owner : CtrlId) (howned : s.Owned)
    (hpending : s.pendingUserConns =
      (r.server.registerUserConn ticket socket proxyName data now owner).pendingUserConns)
    (hhanded : s.handed = r.server.handed) (hnone : ∀ l, r.Keeps l e → r.NoneExpires l now) :
    FilesUser r e s ticket := by
  obtain ⟨-, hold, -⟩ :=
    registerUserConn_pending r.server ticket socket proxyName data now owner rfl
  refine ⟨howned, built_of_handed hhanded, fun ht => ?_, fun hok t info ht haccepted => ?_⟩
  · rw [hpending] at ht
    rcases hold ht with ht | ⟨rfl, rfl⟩
    · exact Or.inl ht
    · exact Or.inr ⟨rfl, hnew⟩
  · have hkept := (hnone _ hok).kept rfl rfl ht haccepted
    rw [hpending, registerUserConn_lookup]
    split
    · exact hkept
    · rw [Table.lookup_emplace]
      split
      · rename_i hfree
        rw [hfree.1, hfree.2] at hkept
        exact absurd hkept (by simp)
      · exact hkept

theorem change_acceptUser {p : Listener} {socket : Socket} {now : Time} {locked : Bool}
    (hnew : r.IsNew socket) (howned : (r.server.acceptUser p ticket socket now locked).Owned) :
    Change r (.handler (.acceptUser p ticket socket now locked))
      ((r.count p.id socket).splice (r.server.acceptUser p ticket socket now locked)) := by
  obtain ⟨sent, hsent⟩ := announce_eq
    (r.server.registerUserConn ticket socket p.proxyName [] now p.session) locked p.session
    p.proxyName ticket
  have haccept : r.server.acceptUser p ticket socket now locked =
      { r.server.registerUserConn ticket socket p.proxyName [] now p.session with sent } := hsent
  obtain ⟨hsame, -, -⟩ :=
    registerUserConn_pending r.server ticket socket p.proxyName [] now p.session rfl
  have hfiles : FilesUser r (.handler (.acceptUser p ticket socket now locked))
      (r.server.acceptUser p ticket socket now locked) ticket :=
    filesUser_registerUserConn hnew p.proxyName [] now p.session howned
      (by rw [haccept]) (by rw [haccept]; exact hsame.handed) fun l hok => hok.1
  refine .counts hfiles hnew p.id fun hok => ?_
  obtain ⟨hroom, hfree, hwrap⟩ := hok.2 rfl
  refine ⟨hwrap, ⟨socket, [], p.proxyName, now, p.session⟩, ?_, rfl⟩
  rw [haccept, registerUserConn_lookup, if_neg (Nat.not_le_of_lt hroom), Table.lookup_emplace,
    if_pos ⟨rfl, hfree⟩]

theorem change_vhostRequest (hr : SocketsInv r) {domain : String} {data : List Byte}
    {socket : Socket} {now : Time} {locked : Bool} (hnew : r.IsNew socket)
    (howned : (r.server.dispatchVhost domain data ticket socket now locked).Owned) :
    Change r (.handler (.vhostRequest domain data ticket socket now locked))
      (r.splice (r.server.dispatchVhost domain data ticket socket now locked)) := by
  unfold dispatchVhost at howned ⊢
  cases hroute : r.server.vhostRoutes.lookup domain with
  | none => exact change_same hr.owned rfl (built_of_handed rfl)
  | some route =>
      rw [hroute] at howned
      cases locked with
      | false => exact change_same hr.owned rfl (built_of_handed rfl)
      | true =>
          obtain ⟨hsame, -, -⟩ := registerUserConn_pending r.server ticket socket route.proxyName
            data now route.session rfl
          exact .files (filesUser_registerUserConn hnew route.proxyName data now route.session
            howned rfl hsame.handed fun l hok => hok (by rw [hroute]; rfl) rfl)

/-- The datagram of an unmapped user cleans up, with the user mapped already. -/
theorem receiveUdp_keeps (s : Server) {p : Listener} {endpoint : Endpoint} (ticket : String)
    (now : Time) (locked : Bool) (hnew : s.endpointToTicket.lookup (p.id, endpoint) = none) :
    ∃ t : Server, t.pendingUserConns = s.pendingUserConns ∧
      t.ticketExpirationQueue = s.ticketExpirationQueue ∧
      (s.receiveUdp p endpoint ticket now locked).pendingUserConns =
        (t.doLazyCleanup now).pendingUserConns ∧
      (s.receiveUdp p endpoint ticket now locked).handed = s.handed := by
  refine ⟨{ s with endpointToTicket := s.endpointToTicket.insert (p.id, endpoint) ticket },
    rfl, rfl, ?_⟩
  unfold receiveUdp
  rw [hnew]
  dsimp only
  obtain ⟨sent, hsent⟩ := announce_eq
    ({ s with endpointToTicket := s.endpointToTicket.insert (p.id, endpoint) ticket
      }.registerUdpSession ticket p.id endpoint p.proxyName now p.session) locked p.session
    p.proxyName ticket
  obtain ⟨hsame, -, -⟩ := registerUdpSession_pending
    { s with endpointToTicket := s.endpointToTicket.insert (p.id, endpoint) ticket }
    ticket p.id endpoint p.proxyName now p.session rfl
  rw [hsent]
  exact ⟨registerUdpSession_lookup .., hsame.handed⟩

theorem change_receiveUdp (hr : SocketsInv r) {p : Listener} {endpoint : Endpoint} {now : Time}
    {locked : Bool} (howned : (r.server.receiveUdp p endpoint ticket now locked).Owned) :
    Change r (.handler (.receiveUdp p endpoint ticket now locked))
      (r.splice (r.server.receiveUdp p endpoint ticket now locked)) := by
  cases hmapped : r.server.endpointToTicket.lookup (p.id, endpoint) with
  | some k =>
      unfold receiveUdp
      rw [hmapped]
      exact change_same hr.owned rfl (built_of_handed rfl)
  | none =>
      obtain ⟨t, hsame, hqueue, hpending, hhanded⟩ :=
        receiveUdp_keeps r.server ticket now locked hmapped
      obtain ⟨-, hshrinks⟩ := cleanupLoop_pending now t.ticketExpirationQueue t
      have hfiles : FilesUser r (.handler (.receiveUdp p endpoint ticket now locked))
          (r.server.receiveUdp p endpoint ticket now locked) "" := by
        refine ⟨howned, built_of_handed hhanded, fun ht => ?_, fun hok _ _ ht haccepted => ?_⟩
        · rw [hpending] at ht
          exact Or.inl (hsame ▸ hshrinks.tcp ht)
        · rw [hpending]
          exact NoneExpires.kept (hok hmapped) hsame hqueue ht haccepted
      exact .files hfiles

theorem change_workStream (hr : SocketsInv r) (mux : MuxId) (bytes : List Byte)
    (howned : (r.server.handleWorkStream mux bytes).Owned) :
    Change r (.handler (.workStream mux bytes))
      (r.splice (r.server.handleWorkStream mux bytes)) := by
  have hdrop : ∀ hand : HandOver,
      (r.server.handed ++ [hand]).drop r.server.handed.length = [hand] := fun _ => List.drop_left
  unfold handleWorkStream at howned ⊢
  dsimp only at howned ⊢
  cases htcp : r.server.pendingUserConns.lookup (ticketOf bytes) with
  | some info =>
      rw [htcp] at howned
      refine .redeems ⟨howned, htcp, rfl, by rw [hdrop]; rfl, rfl, ?_⟩
      dsimp only
      split
      · exact TcpBridgeStage.noConfusion
      · exact TcpBridgeStage.noConfusion
  | none =>
      rw [htcp] at howned
      dsimp only at howned ⊢
      cases hudp : r.server.pendingUdpSessions.lookup (ticketOf bytes) with
      | some info =>
          rw [hudp] at howned
          exact change_same howned rfl (by rw [hdrop]; rfl)
      | none => exact change_same hr.owned rfl (built_of_handed rfl)

/-- **Every step** is one of the changes. -/
theorem step_change (hr : SocketsInv r) (hfresh : r.Fresh e) (hstep : r.step e = some r') :
    Change r e r' := by
  cases e with
  | handler e =>
      obtain ⟨s, hs, rfl⟩ := Option.map_eq_some_iff.mp hstep
      have howned := owned_step hr.owned hs
      cases e with
      | controlStream mux =>
          obtain rfl := Option.some.inj hs
          exact change_same howned rfl (built_of_handed rfl)
      | message c msg thrown =>
          obtain ⟨cs, -, rfl⟩ := Option.map_eq_some_iff.mp hs
          have hkept := ControlSession.handleMessage_pending r.server c cs msg thrown
          exact change_same howned hkept.userConns (built_of_handed hkept.handed)
      | stop c =>
          obtain ⟨cs, hc, rfl⟩ := Option.map_eq_some_iff.mp hs
          exact change_stop hr hc
      | acceptUser p ticket socket now locked =>
          obtain ⟨-, hs⟩ := Option.ite_none_right_eq_some.mp hs
          obtain rfl := Option.some.inj hs
          exact change_acceptUser hfresh howned
      | receiveUdp p endpoint ticket now locked =>
          obtain ⟨-, hs⟩ := Option.ite_none_right_eq_some.mp hs
          obtain rfl := Option.some.inj hs
          exact change_receiveUdp hr howned
      | vhostRequest domain data ticket socket now locked =>
          obtain ⟨-, hs⟩ := Option.ite_none_right_eq_some.mp hs
          obtain rfl := Option.some.inj hs
          exact change_vhostRequest hr hfresh howned
      | workStream mux bytes =>
          obtain ⟨-, hs⟩ := Option.ite_none_right_eq_some.mp hs
          obtain rfl := Option.some.inj hs
          exact change_workStream hr mux bytes howned
  | initialWrite i ok =>
      obtain ⟨b, hb, hwritten⟩ := Option.bind_eq_some_iff.mp hstep
      obtain ⟨hwriting, hr'⟩ := Option.ite_none_right_eq_some.mp hwritten
      obtain rfl := Option.some.inj hr'
      cases ok with
      | true => exact .starts hb hwriting
      -- the initial data is not written: the bridge stops without having run
      | false => exact .stops hb (writing_ne_stopped hwriting) fun l hok => hok rfl b hb
  | handleStop i =>
      obtain ⟨b, hb, hstopped⟩ := Option.bind_eq_some_iff.mp hstep
      cases hstage : b.stage with
      | writing =>
          rw [hstage] at hstopped
          exact absurd hstopped (by simp)
      | running =>
          rw [hstage] at hstopped
          obtain rfl := Option.some.inj hstopped
          refine .stops hb ?_ fun l hok => hok b hb hstage
          rw [hstage]
          exact TcpBridgeStage.noConfusion
      | stopped =>
          rw [hstage] at hstopped
          obtain rfl := Option.some.inj hstopped
          exact .nothing

/-- **The gauge of a listener.** No connection is taken off twice in any run. And in every state
of a run whose steps meet a listener's condition its counter is the number of connections it
accepted that are pending or bridged. -/
theorem activeConns_eq {token : String} {ports : List PortRange} {clients : List String}
    (h : Reach step Fresh { server := init token ports clients } r) :
    r.decremented.Nodup ∧ ∀ l,
      Reach step (fun r e => r.Fresh e ∧ r.Keeps l e) { server := init token ports clients } r →
        r.activeConns l = r.openConns l := by
  have hsockets : SocketsInv r := h.invariant (socketsInv_init token ports clients)
    fun _ _ _ hr hfresh hstep => (step_change hr hfresh hstep).sockets hr
  refine ⟨hsockets.once, fun l hkept => ?_⟩
  have hinv : SocketsInv r ∧ r.activeConns l = r.openConns l := hkept.invariant
    (P := fun r => SocketsInv r ∧ r.activeConns l = r.openConns l)
    ⟨socketsInv_init token ports clients, rfl⟩ ?_
  · exact hinv.2
  · rintro r e r' ⟨hr, hgauge⟩ ⟨hfresh, hok⟩ hstep
    have hchange := step_change hr hfresh hstep
    exact ⟨hchange.sockets hr, hchange.gauge hr hok hgauge⟩

/-- The test that a socket is new. -/
def unused (r : GaugeRun) (socket : Socket) : Bool :=
  r.accepted.all (fun a => a.1 != socket) &&
    r.server.pendingUserConns.entries.all (fun e => e.2.socket != socket) &&
    r.bridges.all fun b => b.socket != socket

theorem isNew_of_unused {socket : Socket} (h : r.unused socket = true) : r.IsNew socket := by
  unfold unused at h
  simp only [Bool.and_eq_true, List.all_eq_true, bne_iff_ne] at h
  obtain ⟨⟨haccepted, hpending⟩, hbridges⟩ := h
  exact ⟨fun l hmem => haccepted _ hmem rfl,
    fun t info hl => hpending _ (Table.lookup_eq_some_iff.mp hl), hbridges⟩

/-- A session with a TCP proxy. -/
def oneTcpListener : List GaugeEvent :=
  [.handler (.controlStream 1), .handler (.message 0 (.login ⟨"tok", "a"⟩) none),
    .handler (.message 0 (.registerProxy ⟨"ssh", "tcp", 6000, [], 0⟩) none)]

/-- A user comes and is redeemed. -/
theorem activeConns_eq_example : ∃ r : GaugeRun,
    r.activeConns 0 = 1 ∧ r.bridges.length = 1 ∧ r.openConns 0 = 1 := by
  obtain ⟨r, hreach, hobs⟩ := exists_of_runGuarded step
    (fun r e => match e with
      | .handler (.acceptUser p ticket socket now _) =>
          r.unused socket &&
            (r.server.ticketExpirationQueue.isEmpty && decide (r.Counts p.id ticket now))
      | .handler (.controlStream _) => true
      | .handler (.message _ _ _) => true
      | .handler (.workStream _ _) => true
      | _ => false)
    (oneTcpListener ++ [.handler (.acceptUser ⟨0, .tcp, 6000, "ssh", 0⟩ "12" 7 5 true),
      .handler (.workStream 1 (0 :: 49 :: 50 :: List.replicate 62 32))])
    (fun r => (r.activeConns 0, r.bridges.length))
    (s := { server := init "tok" [] [] }) (a := (1, 1)) (by decide)
  obtain ⟨hactive, hbridges⟩ := Prod.mk.inj hobs
  have hkept : Reach step (fun r e => r.Fresh e ∧ r.Keeps 0 e)
      { server := init "tok" [] [] } r := by
    refine hreach.mono fun r e hok => ?_
    cases e with
    | handler e =>
        cases e with
        | acceptUser p ticket socket now locked =>
            obtain ⟨hnew, hrest⟩ := Bool.and_eq_true_iff.mp hok
            obtain ⟨hqueue, hcounts⟩ := Bool.and_eq_true_iff.mp hrest
            refine ⟨isNew_of_unused hnew, ?_, fun hp => hp ▸ of_decide_eq_true hcounts⟩
            intro t ht
            rw [List.isEmpty_iff.mp hqueue] at ht
            exact absurd ht List.not_mem_nil
        | controlStream => exact ⟨trivial, trivial⟩
        | message => exact ⟨trivial, trivial⟩
        | workStream => exact ⟨trivial, trivial⟩
        | _ => exact absurd hok Bool.false_ne_true
    | _ => exact absurd hok Bool.false_ne_true
  refine ⟨r, hactive, hbridges, ?_⟩
  rw [← (activeConns_eq (hkept.mono fun _ _ hok => hok.1)).2 0 hkept, hactive]

/-- The first user's ticket has expired when the second user comes, and both are counted. -/
theorem activeConns_expired : ¬ ∀ (r : GaugeRun) (l : ListenerId),
    Reach step Fresh { server := init "tok" [] [] } r → r.activeConns l = r.openConns l := by
  intro hall
  obtain ⟨r, hreach, hobs⟩ := exists_of_runGuarded step
    (fun r e => match e with
      | .handler (.acceptUser _ _ socket _ _) => r.unused socket
      | .handler (.vhostRequest ..) => false
      | _ => true)
    (oneTcpListener ++ [.handler (.acceptUser ⟨0, .tcp, 6000, "ssh", 0⟩ "12" 7 5 true),
      .handler (.acceptUser ⟨0, .tcp, 6000, "ssh", 0⟩ "34" 8 10000000005 true)])
    (fun r => (r.activeConns 0, r.openConns 0))
    (s := { server := init "tok" [] [] }) (a := (2, 1)) (by decide)
  obtain ⟨hactive, hopen⟩ := Prod.mk.inj hobs
  have hequal := hall r 0 (hreach.mono fun r e hok => ?_)
  · rw [hactive, hopen] at hequal
    exact absurd hequal (by decide)
  · cases e with
    | handler e =>
        cases e with
        | acceptUser p ticket socket now locked => exact isNew_of_unused hok
        | vhostRequest => exact absurd hok Bool.false_ne_true
        | _ => trivial
    | _ => trivial

end GaugeRun

end Cfrp
