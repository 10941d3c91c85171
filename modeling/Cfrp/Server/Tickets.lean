import Cfrp.Lib.Transition
import Cfrp.Server.Traffic

/-!
# The table of pending tickets

A user connection waits in one of two tables until a work stream presents its ticket, its
proxy is cleared, or the lazy cleanup finds that ten seconds have passed. The cleanup
looks at `ticket_expiration_queue_` only, and stops at the first record that has not
expired. `TicketInv` is what makes that right: the queue is in the order of its
deadlines, names every pending entry, and names no ticket twice. Records of tickets that
were redeemed or cleared stay behind and do no harm, since no ticket is drawn twice.
-/

namespace Cfrp

open Lib Protocol

/-! ## The bytes of a work stream -/

/-- A `std::string` of at most 64 characters that does not end in whitespace. -/
structure IsTicket (ticket : String) : Prop where
  length : ticket.toList.length ≤ 64
  bytes : ∀ c ∈ ticket.toList, c.toNat < 256
  trimmed : ∀ h : ticket.toList ≠ [], Server.isTicketSpace (ticket.toList.getLast h) = false

/-- `vector::resize` of the client's buffer. -/
def resize (n : Nat) (b : Byte) (l : List Byte) : List Byte :=
  l.take n ++ List.replicate (n - l.length) b

/-- What `Client::HandleNewUserConn` writes to a new work stream. -/
def ticketBytes (compression : Bool) (ticket : String) : List Byte :=
  resize 65 32 ((if compression then 1 else 0) :: ticket.toList.map fun c => UInt8.ofNat c.toNat)

theorem head_ticketBytes (compression : Bool) (ticket : String) :
    ((ticketBytes compression ticket).head? == some 1) = compression := by
  cases compression <;> rfl

/-- The server recovers the ticket that the client was sent. -/
theorem ticketOf_ticketBytes {ticket : String} (h : IsTicket ticket) (compression : Bool) :
    Server.ticketOf (ticketBytes compression ticket) = ticket := by
  have hlen : (ticket.toList.map fun c => UInt8.ofNat c.toNat).length ≤ 64 := by
    rw [List.length_map]
    exact h.length
  have hdrop : (ticketBytes compression ticket).drop 1 =
      (ticket.toList.map fun c => UInt8.ofNat c.toNat) ++
        List.replicate (64 - ticket.toList.length) 32 := by
    rw [ticketBytes, resize, List.take_of_length_le (by rw [List.length_cons]; omega),
      List.cons_append, List.drop_one, List.tail_cons, List.length_cons, List.length_map]
    congr 2
    omega
  have hchars : ((ticket.toList.map fun c => UInt8.ofNat c.toNat).map fun b => Char.ofNat b.toNat) =
      ticket.toList := by
    rw [List.map_map]
    refine (List.map_congr_left fun c hc => ?_).trans (List.map_id _)
    show Char.ofNat (UInt8.ofNat c.toNat).toNat = c
    rw [UInt8.toNat_ofNat', Nat.mod_eq_of_lt (h.bytes c hc), Char.ofNat_toNat]
  -- the padding is dropped, and nothing else
  have htrim : ∀ n, (ticket.toList ++ List.replicate n ' ').rdropWhile Server.isTicketSpace =
      ticket.toList := by
    intro n
    induction n with
    | zero =>
        rw [List.replicate_zero, List.append_nil, List.rdropWhile_eq_self_iff]
        intro hne
        rw [h.trimmed hne]
        exact Bool.false_ne_true
    | succ n ih =>
        rw [List.replicate_succ', ← List.append_assoc,
          List.rdropWhile_concat_pos Server.isTicketSpace _ _ rfl]
        exact ih
  rw [Server.ticketOf, hdrop, List.map_append, hchars, List.map_replicate]
  show String.ofList ((ticket.toList ++ List.replicate _ ' ').rdropWhile _) = ticket
  rw [htrim, String.ofList_toList]

/-! ## Sorted queues -/

/-- Popping from a sorted queue what is due leaves exactly what is not due. -/
theorem mem_dropWhile_iff {α : Type*} {f : α → Nat} {t : Nat} {l : List α}
    (h : l.Pairwise fun a b => f a ≤ f b) {a : α} :
    a ∈ l.dropWhile (fun a => decide (f a ≤ t)) ↔ a ∈ l ∧ t < f a := by
  induction l with
  | nil => simp
  | cons b l ih =>
      rw [List.pairwise_cons] at h
      rw [List.dropWhile_cons]
      by_cases hb : f b ≤ t
      · rw [if_pos (by simpa using hb), ih h.2, List.mem_cons]
        refine ⟨fun hm => ⟨Or.inr hm.1, hm.2⟩, ?_⟩
        rintro ⟨rfl | hm, hlt⟩
        · omega
        · exact ⟨hm, hlt⟩
      · rw [if_neg (by simpa using hb)]
        refine ⟨fun hm => ⟨hm, ?_⟩, fun hm => hm.1⟩
        rcases List.mem_cons.mp hm with rfl | hm
        · omega
        · have hle := h.1 a hm
          omega

namespace Server

/-! ## The cleanup loop -/

theorem length_erase_le {κ ν : Type} [DecidableEq κ] (t : Table κ ν) (k : κ) :
    (t.erase k).entries.length ≤ t.entries.length :=
  (List.kerase_sublist k t.entries).length_le

theorem length_emplace_le {κ ν : Type} [DecidableEq κ] (t : Table κ ν) (k : κ) (v : ν) :
    (t.emplace k v).entries.length ≤ t.entries.length + 1 := by
  rw [Table.emplace]
  by_cases hk : k ∈ t
  · rw [if_pos hk]
    exact Nat.le_succ _
  · rw [if_neg hk, AList.entries_insert_of_notMem hk]
    exact Nat.le_refl _

theorem length_eraseIf_le {κ ν : Type} [DecidableEq κ] (t : Table κ ν) (p : ν → Bool) :
    (t.eraseIf p).entries.length ≤ t.entries.length :=
  List.length_filter_le _ _

theorem expireTicket_tcp (s : Server) (t : TicketExpiration) {k : String} {info : TcpSessionInfo} :
    (s.expireTicket t).pendingUserConns.lookup k = some info ↔
      s.pendingUserConns.lookup k = some info ∧ ¬(t.isUdp = false ∧ t.ticket = k) := by
  rw [expireTicket]
  cases hudp : t.isUdp with
  | true =>
      rw [if_pos rfl]
      cases hlookup : s.pendingUdpSessions.lookup t.ticket with
      | none => simp
      | some i => simp [removeEndpoint]
  | false =>
      rw [if_neg Bool.false_ne_true]
      show (s.pendingUserConns.erase t.ticket).lookup k = some info ↔ _
      rw [Table.lookup_erase_if]
      by_cases hk : k = t.ticket
      · rw [if_pos hk]
        simp [hk]
      · rw [if_neg hk]
        simp [Ne.symm hk]

theorem expireTicket_udp (s : Server) (t : TicketExpiration) {k : String} {info : UdpSessionInfo} :
    (s.expireTicket t).pendingUdpSessions.lookup k = some info ↔
      s.pendingUdpSessions.lookup k = some info ∧ ¬(t.isUdp = true ∧ t.ticket = k) := by
  rw [expireTicket]
  cases hudp : t.isUdp with
  | true =>
      rw [if_pos rfl]
      cases hlookup : s.pendingUdpSessions.lookup t.ticket with
      | none =>
          simp only [true_and]
          refine ⟨fun h => ⟨h, ?_⟩, fun h => h.1⟩
          rintro rfl
          rw [hlookup] at h
          cases h
      | some i =>
          show (s.pendingUdpSessions.erase t.ticket).lookup k = some info ↔ _
          rw [Table.lookup_erase_if]
          by_cases hk : k = t.ticket
          · rw [if_pos hk]
            simp [hk]
          · rw [if_neg hk]
            simp [Ne.symm hk]
  | false =>
      rw [if_neg Bool.false_ne_true]
      simp

theorem expireTicket_pendingTickets (s : Server) (t : TicketExpiration) :
    (s.expireTicket t).pendingTickets ≤ s.pendingTickets := by
  have htcp := length_erase_le s.pendingUserConns t.ticket
  have hudp := length_erase_le s.pendingUdpSessions t.ticket
  rw [expireTicket]
  split
  · split
    · show s.pendingUserConns.entries.length +
        (s.pendingUdpSessions.erase t.ticket).entries.length ≤
        s.pendingUserConns.entries.length + s.pendingUdpSessions.entries.length
      omega
    · exact Nat.le_refl _
  · show (s.pendingUserConns.erase t.ticket).entries.length + s.pendingUdpSessions.entries.length ≤
      s.pendingUserConns.entries.length + s.pendingUdpSessions.entries.length
    omega

/-- The queue is sorted by `expires_at`. -/
def Chronological (q : List TicketExpiration) : Prop :=
    q.Pairwise fun a b => a.expiresAt ≤ b.expiresAt

/-- What the loop does to a sorted queue: every record that is due takes its entry with it,
although the loop stops at the first one that is not. -/
structure Cleaned (now : Time) (s : Server) (q : List TicketExpiration) (s' : Server) : Prop where
  queue : s'.ticketExpirationQueue = q.dropWhile fun e => decide (e.expiresAt ≤ now)
  tcp : ∀ k info, s'.pendingUserConns.lookup k = some info ↔
    s.pendingUserConns.lookup k = some info ∧
      ∀ e ∈ q, e.isUdp = false → e.ticket = k → now < e.expiresAt
  udp : ∀ k info, s'.pendingUdpSessions.lookup k = some info ↔
    s.pendingUdpSessions.lookup k = some info ∧
      ∀ e ∈ q, e.isUdp = true → e.ticket = k → now < e.expiresAt
  count : s'.pendingTickets ≤ s.pendingTickets
  handed : s'.handed = s.handed

theorem cleanupLoop_cleaned (now : Time) (q : List TicketExpiration) (hq : Chronological q)
    (s : Server) : Cleaned now s q (cleanupLoop now s q) := by
  induction q generalizing s with
  | nil => exact ⟨rfl, by simp [cleanupLoop], by simp [cleanupLoop], Nat.le_refl _, rfl⟩
  | cons oldest rest ih =>
      rw [Chronological, List.pairwise_cons] at hq
      rw [cleanupLoop]
      by_cases hdue : oldest.expiresAt ≤ now
      · have hrest := ih hq.2 (s.expireTicket oldest)
        rw [if_pos hdue]
        constructor
        case queue => rw [hrest.queue, List.dropWhile_cons, if_pos (by simpa using hdue)]
        case tcp =>
          intro k info
          rw [hrest.tcp, expireTicket_tcp, List.forall_mem_cons]
          constructor
          · rintro ⟨⟨hl, hne⟩, hr⟩
            exact ⟨hl, fun hu ht => absurd ⟨hu, ht⟩ hne, hr⟩
          · rintro ⟨hl, hfirst, hr⟩
            refine ⟨⟨hl, fun hh => ?_⟩, hr⟩
            exact Nat.not_lt.mpr hdue (hfirst hh.1 hh.2)
        case udp =>
          intro k info
          rw [hrest.udp, expireTicket_udp, List.forall_mem_cons]
          constructor
          · rintro ⟨⟨hl, hne⟩, hr⟩
            exact ⟨hl, fun hu ht => absurd ⟨hu, ht⟩ hne, hr⟩
          · rintro ⟨hl, hfirst, hr⟩
            refine ⟨⟨hl, fun hh => ?_⟩, hr⟩
            exact Nat.not_lt.mpr hdue (hfirst hh.1 hh.2)
        case count => exact Nat.le_trans hrest.count (expireTicket_pendingTickets s oldest)
        case handed =>
          rw [hrest.handed]
          exact (expireTicket_pending s oldest).1.handed
      · rw [if_neg hdue]
        -- the loop stops here: what is behind in the queue expires no earlier
        have hlater : ∀ e ∈ oldest :: rest, now < e.expiresAt := by
          intro e he
          rcases List.mem_cons.mp he with rfl | he
          · exact Nat.lt_of_not_le hdue
          · exact Nat.lt_of_lt_of_le (Nat.lt_of_not_le hdue) (hq.1 e he)
        refine ⟨?_, ?_, ?_, Nat.le_refl _, rfl⟩
        · rw [List.dropWhile_cons, if_neg (by simpa using hdue)]
        · exact fun k info => ⟨fun hl => ⟨hl, fun e he _ _ => hlater e he⟩, fun hl => hl.1⟩
        · exact fun k info => ⟨fun hl => ⟨hl, fun e he _ _ => hlater e he⟩, fun hl => hl.1⟩

/-! ## Filing a ticket -/

/-- `RegisterUserConn` after its cleanup; the clock has been read once more. -/
def fileUserConn (s : Server) (ticket : String) (socket : Socket) (proxyName : String)
    (initialData : List Byte) (now : Time) (owner : CtrlId) : Server :=
  if s.pendingTickets ≥ maxPendingTickets then s
  else
    { s with
      pendingUserConns :=
        Table.emplace s.pendingUserConns ticket ⟨socket, initialData, proxyName, now, owner⟩
      ticketExpirationQueue :=
        s.ticketExpirationQueue ++ [⟨ticket, false, now + ticketLifetime⟩] }

/-- `RegisterUdpSession` after its cleanup. -/
def fileUdpSession (s : Server) (ticket : String) (listener : ListenerId) (endpoint : Endpoint)
    (proxyName : String) (now : Time) (owner : CtrlId) : Server :=
  if s.pendingTickets ≥ maxPendingTickets then s
  else
    { s with
      pendingUdpSessions :=
        Table.emplace s.pendingUdpSessions ticket ⟨listener, endpoint, proxyName, now, owner⟩
      ticketExpirationQueue :=
        s.ticketExpirationQueue ++ [⟨ticket, true, now + ticketLifetime⟩] }

theorem fileUserConn_files (s : Server) (ticket : String) (socket : Socket) (proxyName : String)
    (initialData : List Byte) (now : Time) (owner : CtrlId) :
    Files s (s.fileUserConn ticket socket proxyName initialData now owner) owner ticket := by
  rw [fileUserConn]
  by_cases hfull : s.pendingTickets ≥ maxPendingTickets
  · rw [if_pos hfull]
    exact Files.refl s owner ticket
  · rw [if_neg hfull]
    refine ⟨⟨_, _, _, _, _, _, rfl⟩, rfl, Or.inl rfl, ?_, Or.inl⟩
    intro t i hl
    rw [Table.lookup_emplace] at hl
    by_cases ht : t = ticket ∧ s.pendingUserConns.lookup ticket = none
    · rw [if_pos ht] at hl
      exact Or.inr ⟨ht.1, by rw [← Option.some.inj hl]⟩
    · rw [if_neg ht] at hl
      exact Or.inl hl

theorem fileUdpSession_files (s : Server) (ticket : String) (listener : ListenerId)
    (endpoint : Endpoint) (proxyName : String) (now : Time) (owner : CtrlId) :
    Files s (s.fileUdpSession ticket listener endpoint proxyName now owner) owner ticket := by
  rw [fileUdpSession]
  by_cases hfull : s.pendingTickets ≥ maxPendingTickets
  · rw [if_pos hfull]
    exact Files.refl s owner ticket
  · rw [if_neg hfull]
    refine ⟨⟨_, _, _, _, _, _, rfl⟩, rfl, Or.inl rfl, Or.inl, ?_⟩
    intro t i hl
    rw [Table.lookup_emplace] at hl
    by_cases ht : t = ticket ∧ s.pendingUdpSessions.lookup ticket = none
    · rw [if_pos ht] at hl
      exact Or.inr ⟨ht.1, by rw [← Option.some.inj hl]⟩
    · rw [if_neg ht] at hl
      exact Or.inl hl

/-! ## Runs over the tables of tickets -/

/-- The server's tables with what the tickets' owners know: the clock, the tickets drawn
so far and what each stands for, and the work streams that presented one. -/
structure TicketRun where
  server : Server
  clock : Time
  drawn : List (String × Target) := []
  presented : List (MuxId × Bool × String) := []

inductive TicketEvent where
  /-- The clock reads `cleaned` in the cleanup, and `now` when the entry is filed. -/
  | registerUserConn (ticket : String) (socket : Socket) (proxyName : String)
      (initialData : List Byte) (cleaned now : Time) (owner : CtrlId)
  | registerUdpSession (ticket : String) (listener : ListenerId) (endpoint : Endpoint)
      (proxyName : String) (cleaned now : Time) (owner : CtrlId)
  /-- The read handler of a work stream, with the bytes a client built. -/
  | workStream (mux : MuxId) (compression : Bool) (ticket : String)
  | clearPendingForProxy (proxyName : String)
  | doLazyCleanup (now : Time)

namespace TicketRun

/-- No ticket has been drawn yet. -/
def start (s : Server) (clock : Time) : TicketRun where
  server := { s with
    pendingUserConns := ∅, pendingUdpSessions := ∅, ticketExpirationQueue := [], handed := [] }
  clock := clock

def step (r : TicketRun) : TicketEvent → Option TicketRun
  | .registerUserConn ticket socket proxyName initialData cleaned now owner =>
      some { r with
        server := (r.server.doLazyCleanup cleaned).fileUserConn ticket socket proxyName
          initialData now owner
        clock := now
        drawn := r.drawn ++ [(ticket, .tcp socket initialData)] }
  | .registerUdpSession ticket listener endpoint proxyName cleaned now owner =>
      some { r with
        server := (r.server.doLazyCleanup cleaned).fileUdpSession ticket listener endpoint
          proxyName now owner
        clock := now
        drawn := r.drawn ++ [(ticket, .udp listener endpoint)] }
  | .workStream mux compression ticket =>
      some { r with
        server := r.server.handleWorkStream mux (ticketBytes compression ticket)
        presented := r.presented ++ [(mux, compression, ticket)] }
  | .clearPendingForProxy proxyName =>
      some { r with server := r.server.clearPendingForProxy proxyName }
  | .doLazyCleanup now =>
      some { r with server := r.server.doLazyCleanup now, clock := now }

/-- The clock does not run backwards, and a drawn ticket is new. -/
def Allowed (r : TicketRun) : TicketEvent → Prop
  | .registerUserConn ticket _ _ _ cleaned now _ =>
      ticket ∉ r.drawn.map Prod.fst ∧ r.clock ≤ cleaned ∧ cleaned ≤ now
  | .registerUdpSession ticket _ _ _ cleaned now _ =>
      ticket ∉ r.drawn.map Prod.fst ∧ r.clock ≤ cleaned ∧ cleaned ≤ now
  | .workStream _ _ ticket => IsTicket ticket
  | .clearPendingForProxy _ => True
  | .doLazyCleanup now => r.clock ≤ now

end TicketRun

/-- The queue itself: in order, and one record for each ticket. -/
structure QueueOk (q : List TicketExpiration) (clock : Time) (drawn : List (String × Target)) :
    Prop where
  sorted : Chronological q
  /-- A record filed now goes to the end of the queue without disturbing the order. -/
  recent : ∀ e ∈ q, e.expiresAt ≤ clock + ticketLifetime
  once : (q.map TicketExpiration.ticket).Nodup
  known : ∀ e ∈ q, e.ticket ∈ drawn.map Prod.fst

/-- What the queue knows of the pending entries. -/
structure QueueInv (s : Server) (clock : Time) (drawn : List (String × Target)) : Prop where
  queue : QueueOk s.ticketExpirationQueue clock drawn
  tcp : ∀ k info, s.pendingUserConns.lookup k = some info →
    ⟨k, false, info.createdAt + ticketLifetime⟩ ∈ s.ticketExpirationQueue ∧
      (k, Target.tcp info.socket info.initialData) ∈ drawn
  udp : ∀ k info, s.pendingUdpSessions.lookup k = some info →
    ⟨k, true, info.createdAt + ticketLifetime⟩ ∈ s.ticketExpirationQueue ∧
      (k, Target.udp info.listener info.endpoint) ∈ drawn
  bound : s.pendingTickets ≤ maxPendingTickets

/-- What has become of the tickets that were drawn. -/
structure HandedInv (r : TicketRun) : Prop where
  drawnOnce : (r.drawn.map Prod.fst).Nodup
  handedOnce : (r.server.handed.map HandOver.ticket).Nodup
  handedDrawn : ∀ hand ∈ r.server.handed, (hand.ticket, hand.target) ∈ r.drawn
  tcpGone : ∀ hand ∈ r.server.handed, r.server.pendingUserConns.lookup hand.ticket = none
  udpGone : ∀ hand ∈ r.server.handed, r.server.pendingUdpSessions.lookup hand.ticket = none
  presented : (r.server.handed.map fun hand => (hand.mux, hand.useCompression, hand.ticket)).Sublist
    r.presented

structure TicketInv (r : TicketRun) : Prop where
  queue : QueueInv r.server r.clock r.drawn
  handed : HandedInv r

/-! ## The queue from step to step -/

theorem QueueOk.sublist {q q' : List TicketExpiration} {clock now : Time}
    {drawn : List (String × Target)} (h : QueueOk q clock drawn) (hsub : q'.Sublist q)
    (hnow : clock ≤ now) : QueueOk q' now drawn where
  sorted := h.sorted.sublist hsub
  recent e he := Nat.le_trans (h.recent e (hsub.subset he)) (Nat.add_le_add_right hnow _)
  once := h.once.sublist (hsub.map _)
  known e he := h.known e (hsub.subset he)

theorem QueueOk.draw {q : List TicketExpiration} {clock : Time} {drawn : List (String × Target)}
    (h : QueueOk q clock drawn) (d : String × Target) : QueueOk q clock (drawn ++ [d]) where
  sorted := h.sorted
  recent := h.recent
  once := h.once
  known e he := by
    rw [List.map_append]
    exact List.mem_append_left _ (h.known e he)

/-- A new record goes to the end: nothing in the queue expires later. -/
theorem QueueOk.file {q : List TicketExpiration} {clock : Time} {drawn : List (String × Target)}
    (h : QueueOk q clock drawn) {ticket : String} (hnew : ticket ∉ drawn.map Prod.fst)
    (isUdp : Bool) (target : Target) :
    QueueOk (q ++ [⟨ticket, isUdp, clock + ticketLifetime⟩]) clock
      (drawn ++ [(ticket, target)]) where
  sorted := by
    refine List.pairwise_append.mpr ⟨h.sorted, List.pairwise_singleton _ _, ?_⟩
    intro a ha b hb
    rw [List.mem_singleton.mp hb]
    exact h.recent a ha
  recent e he := by
    rcases List.mem_append.mp he with he | he
    · exact h.recent e he
    · rw [List.mem_singleton.mp he]
  once := by
    rw [List.map_append, List.map_singleton]
    refine List.nodup_append.mpr ⟨h.once, List.nodup_singleton _, ?_⟩
    intro k hk k' hk' heq
    obtain ⟨e, he, rfl⟩ := List.mem_map.mp hk
    rw [List.mem_singleton.mp hk'] at heq
    have hknown := h.known e he
    rw [heq] at hknown
    exact hnew hknown
  known e he := by
    rw [List.map_append]
    rcases List.mem_append.mp he with he | he
    · exact List.mem_append_left _ (h.known e he)
    · rw [List.mem_singleton.mp he]
      exact List.mem_append_right _ List.mem_cons_self

/-- Two records of one ticket are one record. -/
theorem QueueOk.unique {q : List TicketExpiration} {clock : Time}
    {drawn : List (String × Target)} (h : QueueOk q clock drawn) {a b : TicketExpiration}
    (ha : a ∈ q) (hb : b ∈ q) (hab : a.ticket = b.ticket) : a = b :=
  List.inj_on_of_nodup_map h.once ha hb hab

theorem doLazyCleanup_cleaned {s : Server} {clock : Time} {drawn : List (String × Target)}
    (h : QueueInv s clock drawn) (now : Time) :
    Cleaned now s s.ticketExpirationQueue (s.doLazyCleanup now) :=
  cleanupLoop_cleaned now s.ticketExpirationQueue h.queue.sorted s

/-- **`DoLazyCleanup`** takes exactly the TCP entries that are ten seconds old. -/
theorem doLazyCleanup_tcp {s : Server} {clock : Time} {drawn : List (String × Target)}
    (h : QueueInv s clock drawn) (now : Time) {k : String} {info : TcpSessionInfo} :
    (s.doLazyCleanup now).pendingUserConns.lookup k = some info ↔
      s.pendingUserConns.lookup k = some info ∧ ¬ info.createdAt + ticketLifetime ≤ now := by
  rw [(doLazyCleanup_cleaned h now).tcp]
  refine and_congr_right fun hl => ?_
  have hcovered := (h.tcp k info hl).1
  rw [Nat.not_le]
  constructor
  · intro hall
    exact hall _ hcovered rfl rfl
  · intro hlt e he _ hk
    rw [h.queue.unique he hcovered hk]
    exact hlt

/-- **`DoLazyCleanup`**, and exactly the UDP entries. -/
theorem doLazyCleanup_udp {s : Server} {clock : Time} {drawn : List (String × Target)}
    (h : QueueInv s clock drawn) (now : Time) {k : String} {info : UdpSessionInfo} :
    (s.doLazyCleanup now).pendingUdpSessions.lookup k = some info ↔
      s.pendingUdpSessions.lookup k = some info ∧ ¬ info.createdAt + ticketLifetime ≤ now := by
  rw [(doLazyCleanup_cleaned h now).udp]
  refine and_congr_right fun hl => ?_
  have hcovered := (h.udp k info hl).1
  rw [Nat.not_le]
  constructor
  · intro hall
    exact hall _ hcovered rfl rfl
  · intro hlt e he _ hk
    rw [h.queue.unique he hcovered hk]
    exact hlt

/-- What is still pending after a cleanup still has its record. -/
theorem QueueInv.cleanup {s : Server} {clock : Time} {drawn : List (String × Target)}
    (h : QueueInv s clock drawn) {now : Time} (hnow : clock ≤ now) :
    QueueInv (s.doLazyCleanup now) now drawn := by
  have hc := doLazyCleanup_cleaned h now
  refine ⟨?_, ?_, ?_, Nat.le_trans hc.count h.bound⟩
  · rw [hc.queue]
    exact h.queue.sublist (List.dropWhile_sublist _) hnow
  · intro k info hl
    obtain ⟨hl, hlate⟩ := (doLazyCleanup_tcp h now).mp hl
    obtain ⟨hmem, hdrawn⟩ := h.tcp k info hl
    rw [hc.queue, mem_dropWhile_iff h.queue.sorted]
    exact ⟨⟨hmem, Nat.lt_of_not_le hlate⟩, hdrawn⟩
  · intro k info hl
    obtain ⟨hl, hlate⟩ := (doLazyCleanup_udp h now).mp hl
    obtain ⟨hmem, hdrawn⟩ := h.udp k info hl
    rw [hc.queue, mem_dropWhile_iff h.queue.sorted]
    exact ⟨⟨hmem, Nat.lt_of_not_le hlate⟩, hdrawn⟩

/-- A ticket that was never drawn is not pending. -/
theorem QueueInv.fresh {s : Server} {clock : Time} {drawn : List (String × Target)}
    (h : QueueInv s clock drawn) {ticket : String} (hnew : ticket ∉ drawn.map Prod.fst) :
    s.pendingUserConns.lookup ticket = none ∧ s.pendingUdpSessions.lookup ticket = none := by
  constructor
  · rw [Option.eq_none_iff_forall_ne_some]
    intro info hl
    exact hnew (List.mem_map_of_mem (h.tcp ticket info hl).2)
  · rw [Option.eq_none_iff_forall_ne_some]
    intro info hl
    exact hnew (List.mem_map_of_mem (h.udp ticket info hl).2)

/-- The draw is recorded, whether or not the table had room. -/
theorem QueueInv.draw {s : Server} {clock : Time} {drawn : List (String × Target)}
    (h : QueueInv s clock drawn) (d : String × Target) : QueueInv s clock (drawn ++ [d]) where
  queue := h.queue.draw d
  tcp k info hl := ⟨(h.tcp k info hl).1, List.mem_append_left _ (h.tcp k info hl).2⟩
  udp k info hl := ⟨(h.udp k info hl).1, List.mem_append_left _ (h.udp k info hl).2⟩
  bound := h.bound

/-- Time passes. -/
theorem QueueInv.tick {s : Server} {clock now : Time} {drawn : List (String × Target)}
    (h : QueueInv s clock drawn) (hnow : clock ≤ now) : QueueInv s now drawn where
  queue := h.queue.sublist (List.Sublist.refl _) hnow
  tcp := h.tcp
  udp := h.udp
  bound := h.bound

theorem queueInv_fileUserConn {s : Server} {clock now : Time}
    {drawn : List (String × Target)} (h : QueueInv s clock drawn) (hnow : clock ≤ now)
    {ticket : String} (hnew : ticket ∉ drawn.map Prod.fst) (socket : Socket)
    (proxyName : String) (initialData : List Byte) (owner : CtrlId) :
    QueueInv (s.fileUserConn ticket socket proxyName initialData now owner) now
      (drawn ++ [(ticket, .tcp socket initialData)]) := by
  have hc := h.tick hnow
  rw [fileUserConn]
  by_cases hfull : s.pendingTickets ≥ maxPendingTickets
  · rw [if_pos hfull]
    exact hc.draw _
  · rw [if_neg hfull]
    refine ⟨hc.queue.file hnew false _, ?_, ?_, ?_⟩
    · intro k info hl
      have hl : (s.pendingUserConns.emplace ticket ⟨socket, initialData, proxyName,
        now, owner⟩).lookup
          k = some info := hl
      rw [Table.lookup_emplace] at hl
      by_cases hk : k = ticket
      · rw [if_pos ⟨hk, (hc.fresh hnew).1⟩] at hl
        rw [← Option.some.inj hl, hk]
        exact ⟨List.mem_append_right _ List.mem_cons_self,
          List.mem_append_right _ List.mem_cons_self⟩
      · rw [if_neg fun hh => hk hh.1] at hl
        exact ⟨List.mem_append_left _ (hc.tcp k info hl).1,
          List.mem_append_left _ (hc.tcp k info hl).2⟩
    · intro k info hl
      exact ⟨List.mem_append_left _ (hc.udp k info hl).1,
        List.mem_append_left _ (hc.udp k info hl).2⟩
    · have hgrew := length_emplace_le s.pendingUserConns ticket
        ⟨socket, initialData, proxyName, now, owner⟩
      show (s.pendingUserConns.emplace ticket _).entries.length +
        s.pendingUdpSessions.entries.length ≤ maxPendingTickets
      rw [pendingTickets] at hfull
      omega

theorem queueInv_fileUdpSession {s : Server} {clock now : Time}
    {drawn : List (String × Target)} (h : QueueInv s clock drawn) (hnow : clock ≤ now)
    {ticket : String} (hnew : ticket ∉ drawn.map Prod.fst) (listener : ListenerId)
    (endpoint : Endpoint) (proxyName : String) (owner : CtrlId) :
    QueueInv (s.fileUdpSession ticket listener endpoint proxyName now owner) now
      (drawn ++ [(ticket, .udp listener endpoint)]) := by
  have hc := h.tick hnow
  rw [fileUdpSession]
  by_cases hfull : s.pendingTickets ≥ maxPendingTickets
  · rw [if_pos hfull]
    exact hc.draw _
  · rw [if_neg hfull]
    refine ⟨hc.queue.file hnew true _, ?_, ?_, ?_⟩
    · intro k info hl
      exact ⟨List.mem_append_left _ (hc.tcp k info hl).1,
        List.mem_append_left _ (hc.tcp k info hl).2⟩
    · intro k info hl
      have hl : (s.pendingUdpSessions.emplace ticket ⟨listener, endpoint, proxyName,
        now, owner⟩).lookup
          k = some info := hl
      rw [Table.lookup_emplace] at hl
      by_cases hk : k = ticket
      · rw [if_pos ⟨hk, (hc.fresh hnew).2⟩] at hl
        rw [← Option.some.inj hl, hk]
        exact ⟨List.mem_append_right _ List.mem_cons_self,
          List.mem_append_right _ List.mem_cons_self⟩
      · rw [if_neg fun hh => hk hh.1] at hl
        exact ⟨List.mem_append_left _ (hc.udp k info hl).1,
          List.mem_append_left _ (hc.udp k info hl).2⟩
    · have hgrew := length_emplace_le s.pendingUdpSessions ticket
        ⟨listener, endpoint, proxyName, now, owner⟩
      show s.pendingUserConns.entries.length +
        (s.pendingUdpSessions.emplace ticket _).entries.length ≤ maxPendingTickets
      rw [pendingTickets] at hfull
      omega

/-- Taking entries out of the tables leaves every record that is still needed. -/
theorem QueueInv.shrink {s s' : Server} {clock : Time} {drawn : List (String × Target)}
    (h : QueueInv s clock drawn) (hs : PendingShrinks s s')
    (hq : s'.ticketExpirationQueue = s.ticketExpirationQueue)
    (hcount : s'.pendingTickets ≤ s.pendingTickets) : QueueInv s' clock drawn where
  queue := by
    rw [hq]
    exact h.queue
  tcp k info hl := by
    rw [hq]
    exact h.tcp k info (hs.tcp hl)
  udp k info hl := by
    rw [hq]
    exact h.udp k info (hs.udp hl)
  bound := Nat.le_trans hcount h.bound

theorem pendingShrinks_clearPendingForProxy (s : Server) (proxyName : String) :
    PendingShrinks s (s.clearPendingForProxy proxyName) where
  tcp hl := by
    rw [clearPendingForProxy, Table.lookup_eraseIf, Option.filter_eq_some_iff] at hl
    exact hl.1
  udp hl := by
    rw [clearPendingForProxy, Table.lookup_eraseIf, Option.filter_eq_some_iff] at hl
    exact hl.1

theorem pendingTickets_clearPendingForProxy (s : Server) (proxyName : String) :
    (s.clearPendingForProxy proxyName).pendingTickets ≤ s.pendingTickets :=
  Nat.add_le_add (length_eraseIf_le _ _) (length_eraseIf_le _ _)

/-! ## Handing over -/

/-- The work stream that presents `ticket` is handed what was pending under it. -/
structure Hands (s s' : Server) (mux : MuxId) (compression : Bool) (ticket : String)
    (hand : HandOver) : Prop where
  handed : s'.handed = s.handed ++ [hand]
  sameMux : hand.mux = mux
  sameFlag : hand.useCompression = compression
  sameTicket : hand.ticket = ticket
  target : (∃ info, s.pendingUserConns.lookup ticket = some info ∧
      hand.target = .tcp info.socket info.initialData ∧
      s'.pendingUserConns.lookup ticket = none) ∨
    ∃ info, s.pendingUserConns.lookup ticket = none ∧
      s.pendingUdpSessions.lookup ticket = some info ∧
      hand.target = .udp info.listener info.endpoint ∧
      s'.pendingUdpSessions.lookup ticket = none

/-- What the read handler of a work stream does, handed something or not. -/
theorem handleWorkStream_bytes (s : Server) (mux : MuxId) (bytes : List Byte) {s' : Server}
    (h : s.handleWorkStream mux bytes = s') :
    PendingShrinks s s' ∧ s'.ticketExpirationQueue = s.ticketExpirationQueue ∧
      s'.pendingTickets ≤ s.pendingTickets ∧
      (s'.handed = s.handed ∨
        ∃ hand, Hands s s' mux (bytes.head? == some 1) (ticketOf bytes) hand) := by
  simp only [handleWorkStream] at h
  cases htcp : s.pendingUserConns.lookup (ticketOf bytes) with
  | some info =>
      simp only [htcp] at h
      subst h
      refine ⟨⟨Table.lookup_of_lookup_erase, id⟩, rfl,
        Nat.add_le_add_right (length_erase_le _ _) _, Or.inr ⟨_, rfl, rfl, rfl, rfl, ?_⟩⟩
      exact Or.inl ⟨info, htcp, rfl, AList.lookup_erase _ _⟩
  | none =>
      simp only [htcp] at h
      cases hudp : s.pendingUdpSessions.lookup (ticketOf bytes) with
      | some info =>
          simp only [hudp] at h
          subst h
          refine ⟨⟨id, Table.lookup_of_lookup_erase⟩, rfl,
            Nat.add_le_add_left (length_erase_le _ _) _, Or.inr ⟨_, rfl, rfl, rfl, rfl, ?_⟩⟩
          exact Or.inr ⟨info, htcp, hudp, rfl, AList.lookup_erase _ _⟩
      | none =>
          simp only [hudp] at h
          subst h
          exact ⟨PendingShrinks.refl s, rfl, Nat.le_refl _, Or.inl rfl⟩

/-- The same for the bytes a client builds. -/
theorem handleWorkStream_hands (s : Server) (mux : MuxId) {ticket : String}
    (hticket : IsTicket ticket) (compression : Bool) {s' : Server}
    (h : s.handleWorkStream mux (ticketBytes compression ticket) = s') :
    PendingShrinks s s' ∧ s'.ticketExpirationQueue = s.ticketExpirationQueue ∧
      s'.pendingTickets ≤ s.pendingTickets ∧
      (s'.handed = s.handed ∨ ∃ hand, Hands s s' mux compression ticket hand) := by
  have hbytes := handleWorkStream_bytes s mux _ h
  rwa [ticketOf_ticketBytes hticket, head_ticketBytes] at hbytes

/-- No ticket is pending in both tables. -/
theorem QueueInv.exclusive {s : Server} {clock : Time} {drawn : List (String × Target)}
    (h : QueueInv s clock drawn) {k : String} {info : TcpSessionInfo} {info' : UdpSessionInfo}
    (htcp : s.pendingUserConns.lookup k = some info) :
    s.pendingUdpSessions.lookup k ≠ some info' := by
  intro hudp
  have hsame := h.queue.unique (h.tcp k info htcp).1 (h.udp k info' hudp).1 rfl
  exact absurd (congrArg TicketExpiration.isUdp hsame) Bool.false_ne_true

/-- Steps that only take entries out of the tables. -/
theorem HandedInv.shrink {r : TicketRun} (h : HandedInv r) {s : Server}
    (hs : PendingShrinks r.server s) (hhanded : s.handed = r.server.handed) (clock : Time) :
    HandedInv { r with server := s, clock := clock } where
  drawnOnce := h.drawnOnce
  handedOnce := by
    show (s.handed.map _).Nodup
    rw [hhanded]
    exact h.handedOnce
  handedDrawn hand hmem := h.handedDrawn hand (hhanded ▸ hmem)
  tcpGone hand hmem := by
    rw [Option.eq_none_iff_forall_ne_some]
    intro info hl
    exact Option.eq_none_iff_forall_ne_some.mp (h.tcpGone hand (hhanded ▸ hmem)) info (hs.tcp hl)
  udpGone hand hmem := by
    rw [Option.eq_none_iff_forall_ne_some]
    intro info hl
    exact Option.eq_none_iff_forall_ne_some.mp (h.udpGone hand (hhanded ▸ hmem)) info (hs.udp hl)
  presented := by
    show (s.handed.map _).Sublist r.presented
    rw [hhanded]
    exact h.presented

/-- A registration files at most its own ticket, which has not been handed to anybody. -/
theorem HandedInv.file {r : TicketRun} (h : HandedInv r) {s : Server} {c : CtrlId}
    {ticket : String} (hfiles : Files r.server s c ticket)
    (hnew : ticket ∉ r.drawn.map Prod.fst) (target : Target) (now : Time) :
    HandedInv { r with server := s, clock := now, drawn := r.drawn ++ [(ticket, target)] } where
  drawnOnce := by
    rw [List.map_append, List.map_singleton]
    exact (List.nodup_append_comm).mp (List.nodup_cons.mpr ⟨hnew, h.drawnOnce⟩)
  handedOnce := by
    show (s.handed.map _).Nodup
    rw [hfiles.handed]
    exact h.handedOnce
  handedDrawn hand hmem := List.mem_append_left _ (h.handedDrawn hand (hfiles.handed ▸ hmem))
  tcpGone hand hmem := by
    have hmem : hand ∈ r.server.handed := hfiles.handed ▸ hmem
    rw [Option.eq_none_iff_forall_ne_some]
    intro info hl
    rcases hfiles.tcp hl with hl | ⟨hk, -⟩
    · exact Option.eq_none_iff_forall_ne_some.mp (h.tcpGone hand hmem) info hl
    · exact hnew (hk ▸ List.mem_map_of_mem (h.handedDrawn hand hmem))
  udpGone hand hmem := by
    have hmem : hand ∈ r.server.handed := hfiles.handed ▸ hmem
    rw [Option.eq_none_iff_forall_ne_some]
    intro info hl
    rcases hfiles.udp hl with hl | ⟨hk, -⟩
    · exact Option.eq_none_iff_forall_ne_some.mp (h.udpGone hand hmem) info hl
    · exact hnew (hk ▸ List.mem_map_of_mem (h.handedDrawn hand hmem))
  presented := by
    show (s.handed.map _).Sublist r.presented
    rw [hfiles.handed]
    exact h.presented

/-- What is handed out stands for a drawn ticket, and is in neither table afterwards. -/
theorem Hands.spec {r : TicketRun} (hq : QueueInv r.server r.clock r.drawn) {s : Server}
    (hs : PendingShrinks r.server s) {mux : MuxId} {compression : Bool} {ticket : String}
    {hand : HandOver} (h : Hands r.server s mux compression ticket hand) :
    (ticket, hand.target) ∈ r.drawn ∧ s.pendingUserConns.lookup ticket = none ∧
      s.pendingUdpSessions.lookup ticket = none ∧
      ¬ (r.server.pendingUserConns.lookup ticket = none ∧
        r.server.pendingUdpSessions.lookup ticket = none) := by
  rcases h.target with ⟨info, hl, htarget, hgone⟩ | ⟨info, hnone, hl, htarget, hgone⟩
  · refine ⟨htarget ▸ (hq.tcp ticket info hl).2, hgone, ?_, ?_⟩
    · rw [Option.eq_none_iff_forall_ne_some]
      intro info' hudp
      exact hq.exclusive hl (hs.udp hudp)
    · intro hh
      rw [hl] at hh
      exact absurd hh.1 (Option.some_ne_none _)
  · refine ⟨htarget ▸ (hq.udp ticket info hl).2, ?_, hgone, ?_⟩
    · rw [Option.eq_none_iff_forall_ne_some]
      intro info' htcp
      rw [hs.tcp htcp] at hnone
      exact absurd hnone (Option.some_ne_none _)
    · intro hh
      rw [hl] at hh
      exact absurd hh.2 (Option.some_ne_none _)

theorem handedInv_workStream {r : TicketRun} (hq : QueueInv r.server r.clock r.drawn)
    (h : HandedInv r) {mux : MuxId} {ticket : String} (hticket : IsTicket ticket)
    (compression : Bool) :
    HandedInv { r with
      server := r.server.handleWorkStream mux (ticketBytes compression ticket)
      presented := r.presented ++ [(mux, compression, ticket)] } := by
  obtain ⟨hs, -, -, hhanded | ⟨hand, hhands⟩⟩ :=
    handleWorkStream_hands r.server mux hticket compression rfl
  · have hsame := h.shrink hs hhanded r.clock
    exact ⟨hsame.drawnOnce, hsame.handedOnce, hsame.handedDrawn, hsame.tcpGone, hsame.udpGone,
      hsame.presented.trans (List.sublist_append_left _ _)⟩
  · generalize hs' : r.server.handleWorkStream mux (ticketBytes compression ticket) = s at *
    obtain ⟨hdrawn, htcp, hudp, hpending⟩ := hhands.spec hq hs
    -- a ticket that was handed out before is not pending any more
    have hfirst : ∀ k ∈ r.server.handed, k.ticket ≠ ticket := by
      intro k hk heq
      exact hpending ⟨heq ▸ h.tcpGone k hk, heq ▸ h.udpGone k hk⟩
    have hold : ∀ k ∈ s.handed, k ∈ r.server.handed ∨ k = hand := by
      intro k hk
      rw [hhands.handed, List.mem_append, List.mem_singleton] at hk
      exact hk
    constructor
    case drawnOnce => exact h.drawnOnce
    case handedOnce =>
      show (s.handed.map HandOver.ticket).Nodup
      rw [hhands.handed, List.map_append, List.map_singleton]
      refine List.nodup_append_comm.mp (List.nodup_cons.mpr ⟨fun hmem => ?_, h.handedOnce⟩)
      obtain ⟨k, hk, heq⟩ := List.mem_map.mp hmem
      exact hfirst k hk (heq.trans hhands.sameTicket)
    case handedDrawn =>
      intro k hk
      rcases hold k hk with hk | rfl
      · exact h.handedDrawn k hk
      · rw [hhands.sameTicket]
        exact hdrawn
    case tcpGone =>
      intro k hk
      rcases hold k hk with hk | rfl
      · exact (h.shrink (s := { s with handed := r.server.handed }) ⟨hs.tcp, hs.udp⟩ rfl
          r.clock).tcpGone k hk
      · rw [hhands.sameTicket]
        exact htcp
    case udpGone =>
      intro k hk
      rcases hold k hk with hk | rfl
      · exact (h.shrink (s := { s with handed := r.server.handed }) ⟨hs.tcp, hs.udp⟩ rfl
          r.clock).udpGone k hk
      · rw [hhands.sameTicket]
        exact hudp
    case presented =>
      show (s.handed.map _).Sublist (r.presented ++ [(mux, compression, ticket)])
      rw [hhands.handed, List.map_append, List.map_singleton, hhands.sameMux, hhands.sameFlag,
        hhands.sameTicket]
      exact h.presented.append (List.Sublist.refl _)

theorem ticketInv_start (s : Server) (clock : Time) : TicketInv (TicketRun.start s clock) where
  queue := by
    refine ⟨⟨List.Pairwise.nil, ?_, List.nodup_nil, ?_⟩, ?_, ?_, Nat.zero_le _⟩
    · exact fun e he => absurd he List.not_mem_nil
    · exact fun e he => absurd he List.not_mem_nil
    · exact fun k info hl => absurd hl (by simp [TicketRun.start])
    · exact fun k info hl => absurd hl (by simp [TicketRun.start])
  handed := by
    refine ⟨List.nodup_nil, List.nodup_nil, ?_, ?_, ?_, List.Sublist.refl _⟩
    · exact fun hand hmem => absurd hmem List.not_mem_nil
    · exact fun hand hmem => absurd hmem List.not_mem_nil
    · exact fun hand hmem => absurd hmem List.not_mem_nil

theorem ticketInv_doLazyCleanup {r : TicketRun} (h : TicketInv r) {now : Time}
    (hnow : r.clock ≤ now) :
    TicketInv { r with server := r.server.doLazyCleanup now, clock := now } := by
  obtain ⟨hsame, hs⟩ := cleanupLoop_pending now r.server.ticketExpirationQueue r.server
  exact ⟨h.queue.cleanup hnow, h.handed.shrink hs hsame.handed now⟩

theorem ticketInv_step {r r' : TicketRun} {e : TicketEvent} (h : TicketInv r)
    (hok : r.Allowed e) (hstep : r.step e = some r') : TicketInv r' := by
  cases e with
  | registerUserConn ticket socket proxyName initialData cleaned now owner =>
      rw [← Option.some.inj hstep]
      obtain ⟨hnew, hcleaned, hnow⟩ := hok
      have hc := ticketInv_doLazyCleanup h hcleaned
      exact ⟨queueInv_fileUserConn hc.queue hnow hnew socket proxyName initialData owner,
        hc.handed.file (fileUserConn_files _ ticket socket proxyName initialData now owner) hnew _
          now⟩
  | registerUdpSession ticket listener endpoint proxyName cleaned now owner =>
      rw [← Option.some.inj hstep]
      obtain ⟨hnew, hcleaned, hnow⟩ := hok
      have hc := ticketInv_doLazyCleanup h hcleaned
      exact ⟨queueInv_fileUdpSession hc.queue hnow hnew listener endpoint proxyName owner,
        hc.handed.file (fileUdpSession_files _ ticket listener endpoint proxyName now owner) hnew _
          now⟩
  | workStream mux compression ticket =>
      rw [← Option.some.inj hstep]
      obtain ⟨hs, hq, hcount, -⟩ := handleWorkStream_hands r.server mux hok compression rfl
      exact ⟨h.queue.shrink hs hq hcount, handedInv_workStream h.queue h.handed hok compression⟩
  | clearPendingForProxy proxyName =>
      rw [← Option.some.inj hstep]
      have hs := pendingShrinks_clearPendingForProxy r.server proxyName
      exact ⟨h.queue.shrink hs rfl (pendingTickets_clearPendingForProxy r.server proxyName),
        h.handed.shrink hs rfl r.clock⟩
  | doLazyCleanup now =>
      rw [← Option.some.inj hstep]
      exact ticketInv_doLazyCleanup h hok

/-- **The table of pending tickets.** Whatever happens to it, in whatever order: a
connection is handed to at most one work stream, one that presented its ticket, with that
client's flag; every pending entry has its record in a queue that stays in order, so that
a cleanup at any time takes exactly the entries that are ten seconds old; and there is
never more pending than `MAX_PENDING_TICKETS`. -/
theorem pending_tickets {s : Server} {clock : Time} {r : TicketRun}
    (h : Reach TicketRun.step TicketRun.Allowed (TicketRun.start s clock) r) :
    (r.server.handed.map HandOver.ticket).Nodup ∧
    (r.drawn.map Prod.fst).Nodup ∧
    (∀ hand ∈ r.server.handed, (hand.ticket, hand.target) ∈ r.drawn) ∧
    (r.server.handed.map fun hand => (hand.mux, hand.useCompression, hand.ticket)).Sublist
      r.presented ∧
    Chronological r.server.ticketExpirationQueue ∧
    (∀ k info, r.server.pendingUserConns.lookup k = some info →
      ⟨k, false, info.createdAt + ticketLifetime⟩ ∈ r.server.ticketExpirationQueue) ∧
    (∀ k info, r.server.pendingUdpSessions.lookup k = some info →
      ⟨k, true, info.createdAt + ticketLifetime⟩ ∈ r.server.ticketExpirationQueue) ∧
    (∀ t k info, (r.server.doLazyCleanup t).pendingUserConns.lookup k = some info ↔
      r.server.pendingUserConns.lookup k = some info ∧ ¬ info.createdAt + ticketLifetime ≤ t) ∧
    (∀ t k info, (r.server.doLazyCleanup t).pendingUdpSessions.lookup k = some info ↔
      r.server.pendingUdpSessions.lookup k = some info ∧ ¬ info.createdAt + ticketLifetime ≤ t) ∧
    r.server.pendingTickets ≤ maxPendingTickets := by
  have hinv : TicketInv r := h.invariant (P := TicketInv) (ticketInv_start s clock)
    fun r e r' hr hok hstep => ticketInv_step hr hok hstep
  exact ⟨hinv.handed.handedOnce, hinv.handed.drawnOnce, hinv.handed.handedDrawn,
    hinv.handed.presented, hinv.queue.queue.sorted,
    fun k info hl => (hinv.queue.tcp k info hl).1, fun k info hl => (hinv.queue.udp k info hl).1,
    fun t k info => doLazyCleanup_tcp hinv.queue t, fun t k info => doLazyCleanup_udp hinv.queue t,
    hinv.queue.bound⟩

theorem isTicket_12 : IsTicket "12" := ⟨by decide, by simp, fun _ => rfl⟩

/-- Of two users one is claimed, by a client that compresses, and the other expires. -/
theorem pending_tickets_twoUsers :
    ∃ r : TicketRun,
      r.server.handed.map (fun hand => (hand.mux, hand.useCompression, hand.target)) =
        [(1, true, .tcp 7 [])] ∧
      r.server.pendingTickets = 0 ∧ (r.server.handed.map HandOver.ticket).Nodup := by
  have h₀ : Reach TicketRun.step TicketRun.Allowed (TicketRun.start (init "tok" [] []) 0) _ :=
    Reach.init
  have h₁ := h₀.next (.registerUserConn "12" 7 "ssh" [] 5 5 0)
    ⟨by decide, Nat.zero_le 5, Nat.le_refl 5⟩ rfl
  have h₂ := h₁.next (.registerUdpSession "34" 2 9 "dns" 6 7 0)
    ⟨by decide, show (5 : Nat) ≤ 6 by decide, show (6 : Nat) ≤ 7 by decide⟩ rfl
  have h₃ := h₂.next (.workStream 1 true "12") isTicket_12 rfl
  have h₄ := h₃.next (.doLazyCleanup 10000000007) (show (7 : Nat) ≤ 10000000007 by decide) rfl
  exact ⟨_, rfl, rfl, (pending_tickets h₄).1⟩

end Server

end Cfrp
