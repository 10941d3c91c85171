import Cfrp.Server.Effects
import Cfrp.Server.Tickets

/-!
# Datagrams of UDP users

`UdpProxyListener::DoReceive` announces a session for an endpoint it does not know, and
puts the datagram away with its buffer. It does the same with every later one, and a
`UdpBridge` only reads from its work stream. So nothing a user sends is forwarded; and since
redeeming a ticket makes the listener forget the endpoint, the next datagram opens a
second session beside the spliced one. What is left is `Idle`: as long as no datagram
comes from an endpoint that has a session, there is nothing to forward and every endpoint
has one session at most.
-/

namespace Cfrp

open Lib Protocol

/-! ## The bridge -/

/-- What a bridge asks of its work stream and of the listening socket. -/
inductive BridgeAction where
  | asyncRead (n : Nat)
  | asyncWrite (bytes : List Byte)
  | close
  | sendTo (endpoint : Endpoint) (data : List Byte)

/-- Which callback a bridge waits for. -/
inductive BridgeStage where
  | header
  | body (len : Nat) (compressed : Bool)
  /-- The rate limiter's, if there is one. -/
  | limited (data : List Byte)
  | sending
  | closed
  deriving DecidableEq

/-- The server's `UdpBridge`, with the ticket it was built for. -/
structure UdpBridge where
  ticket : String
  listener : ListenerId
  remoteEndpoint : Endpoint
  stage : BridgeStage := .header

inductive BridgeEvent where
  | header (word : UInt16)
  | body (bytes : List Byte)
  | limiter
  | sent (ok : Bool)
  | streamError

namespace UdpBridge

/-- `Start`. -/
def start : List BridgeAction := [.asyncRead 2]

/-- The end of the bridge: `stream_->close()`, and no further read. -/
def shut (b : UdpBridge) : UdpBridge × List BridgeAction := ({ b with stage := .closed }, [.close])

/-- The callbacks of `DoReadFromStream`. `inflate` is what zstd makes of a compressed packet. -/
def step (inflate : List Byte → Option (List Byte)) (b : UdpBridge) :
    BridgeEvent → Option (UdpBridge × List BridgeAction)
  | .header word =>
      match b.stage with
      | .header =>
          let len := (word &&& 0x7FFF).toNat
          if len > 65535 then some b.shut
          else some ({ b with stage := .body len (word &&& 0x8000 != 0) }, [.asyncRead len])
      | _ => none
  | .body bytes =>
      match b.stage with
      | .body len compressed =>
          if bytes.length = len then
            match (if compressed then inflate bytes else some bytes) with
            | none => some b.shut
            | some data => some ({ b with stage := .limited data }, [])
          else none
      | _ => none
  | .limiter =>
      match b.stage with
      | .limited data => some ({ b with stage := .sending }, [.sendTo b.remoteEndpoint data])
      | _ => none
  | .sent ok =>
      match b.stage with
      | .sending => if ok then some ({ b with stage := .header }, [.asyncRead 2]) else some b.shut
      | _ => none
  | .streamError =>
      match b.stage with
      | .header => some b.shut
      | .body _ _ => some b.shut
      | _ => none

/-- The bridge serves the user at `endpoint`. -/
def serves (b : UdpBridge) (key : ListenerId × Endpoint) : Bool :=
  b.stage != .closed && (b.listener, b.remoteEndpoint) == key

/-- **A bridge never writes to its work stream**, and stays with its user. -/
theorem step_spec {inflate : List Byte → Option (List Byte)} {b b' : UdpBridge} {e : BridgeEvent}
    {actions : List BridgeAction} (h : b.step inflate e = some (b', actions)) :
    (∀ bytes, BridgeAction.asyncWrite bytes ∉ actions) ∧ b.stage ≠ .closed ∧
      b'.ticket = b.ticket ∧ b'.listener = b.listener ∧ b'.remoteEndpoint = b.remoteEndpoint := by
  cases e <;> cases hstage : b.stage <;>
    simp only [step, hstage, shut, Option.ite_none_right_eq_some, reduceCtorEq] at h
  case header.header word =>
    split at h <;> obtain ⟨rfl, rfl⟩ := Prod.mk.inj (Option.some.inj h) <;> simp
  case body.body bytes len compressed =>
    obtain ⟨-, h⟩ := h
    generalize (if compressed then inflate bytes else some bytes) = data at h
    cases data <;> obtain ⟨rfl, rfl⟩ := Prod.mk.inj (Option.some.inj h) <;> simp
  case sent.sending ok =>
    split at h <;> obtain ⟨rfl, rfl⟩ := Prod.mk.inj (Option.some.inj h) <;> simp
  all_goals
    obtain ⟨rfl, rfl⟩ := Prod.mk.inj (Option.some.inj h)
    simp

end UdpBridge

/-! ## Runs -/

/-- The server, its UDP bridges, and what is observed of the users' datagrams. -/
structure UdpRun where
  server : Server
  bridges : List UdpBridge := []
  /-- What the bridges have done so far, each under its ticket. -/
  actions : List (String × BridgeAction) := []
  /-- The datagrams received so far from endpoints that had a session, each under the
  session's ticket. -/
  due : List (String × List Byte) := []

inductive UdpEvent where
  /-- Any handler of the server but the receive handler of a UDP listener. -/
  | handler (e : Server.Event)
  | datagram (l : Listener) (endpoint : Endpoint) (data : List Byte) (ticket : String)
      (now : Time) (locked : Bool)
  | bridge (i : Nat) (e : BridgeEvent)

namespace Server

/-- The tickets pending for a user of a UDP listener. -/
def pendingOf (s : Server) (key : ListenerId × Endpoint) : List String :=
  (s.pendingUdpSessions.entries.filter fun e => (e.2.listener, e.2.endpoint) == key).map Sigma.fst

/-- The bridge `HandleNewMuxStream` builds for a redeemed UDP ticket. -/
def bridgeOf (hand : HandOver) : Option UdpBridge :=
  match hand.target with
  | .udp listener endpoint =>
      some { ticket := hand.ticket, listener := listener, remoteEndpoint := endpoint }
  | .tcp _ _ => none

def Event.isReceiveUdp : Event → Bool
  | .receiveUdp .. => true
  | _ => false

end Server

namespace UdpRun

open Server

/-- The sessions a user has at the moment, pending or spliced, by ticket. -/
def sessionsOf (r : UdpRun) (key : ListenerId × Endpoint) : List String :=
  r.server.pendingOf key ++
    (r.bridges.filter fun b => b.serves key).map UdpBridge.ticket

/-- The bridges a step of the server has built, and their first reads. -/
def splice (r : UdpRun) (server : Server) : UdpRun :=
  let built := (server.handed.drop r.server.handed.length).filterMap bridgeOf
  { r with
    server := server
    bridges := r.bridges ++ built
    actions := r.actions ++ built.flatMap fun b => UdpBridge.start.map fun a => (b.ticket, a) }

def step (inflate : List Byte → Option (List Byte)) (r : UdpRun) : UdpEvent → Option UdpRun
  | .handler e => if e.isReceiveUdp then none else (r.server.step e).map r.splice
  | .datagram l endpoint data ticket now locked =>
      (r.server.step (.receiveUdp l endpoint ticket now locked)).map fun server =>
        { r with
          server := server
          due := r.due ++ (r.sessionsOf (l.id, endpoint)).map fun t => (t, data) }
  | .bridge i e =>
      r.bridges[i]?.bind fun b =>
        (b.step inflate e).map fun ba =>
          { r with
            bridges := r.bridges.set i ba.1
            actions := r.actions ++ ba.2.map fun a => (b.ticket, a) }

/-- No datagram comes from an endpoint whose session is pending or spliced. -/
def idle (r : UdpRun) : UdpEvent → Bool
  | .datagram l endpoint _ _ _ _ => (r.sessionsOf (l.id, endpoint)).isEmpty
  | _ => true

/-- The datagrams that should go to the work stream of a ticket. -/
def dueFor (r : UdpRun) (ticket : String) : List (List Byte) :=
  (r.due.filter fun d => d.1 == ticket).map Prod.snd

/-- The bytes the server has written to the work stream of a ticket. -/
def written (r : UdpRun) (ticket : String) : List Byte :=
  (r.actions.filterMap fun a =>
    match a with
    | (t, .asyncWrite bytes) => if t = ticket then some bytes else none
    | _ => none).flatten

end UdpRun

/-- The datagrams in the bytes of a work stream: each with a two-byte header, that is its
length and the compression flag. -/
def datagramsIn (inflate : List Byte → Option (List Byte)) : Nat → List Byte → List (List Byte)
  | fuel + 1, hi :: lo :: rest =>
      let word := hi.toNat * 256 + lo.toNat
      let len := word % 32768
      if rest.length < len then []
      else
        match (if word ≥ 32768 then inflate (rest.take len) else some (rest.take len)) with
        | none => []
        | some data => data :: datagramsIn inflate fuel (rest.drop len)
  | _, _ => []

namespace UdpRun

variable (inflate : List Byte → Option (List Byte))

/-- The datagrams forwarded so far on the work stream of a ticket. -/
def forwarded (r : UdpRun) (ticket : String) : List (List Byte) :=
  datagramsIn inflate (r.written ticket).length (r.written ticket)

/-- Users have one session each at most, and what they send is forwarded in order: nothing
else is, and nothing is lost, that is, it has been forwarded or may still be. -/
structure Serves (r : UdpRun) : Prop where
  single : ∀ key, (r.sessionsOf key).length ≤ 1
  sound : ∀ ticket, forwarded inflate r ticket <+: r.dueFor ticket
  complete : ∀ ticket, ∃ r', Reach (step inflate) anyStep r r' ∧
    r.dueFor ticket <+: forwarded inflate r' ticket

/-! ## Nothing is forwarded -/

/-- No bridge has written to its work stream. -/
def NoWrites (r : UdpRun) : Prop :=
    ∀ ticket bytes, (ticket, BridgeAction.asyncWrite bytes) ∉ r.actions

variable {inflate}

theorem noWrites_step {r r' : UdpRun} {e : UdpEvent} (hr : r.NoWrites)
    (h : r.step inflate e = some r') : r'.NoWrites := by
  intro ticket bytes hmem
  cases e with
  | handler e =>
      simp only [step, Option.ite_none_left_eq_some, Option.map_eq_some_iff] at h
      obtain ⟨-, server, -, rfl⟩ := h
      rcases List.mem_append.mp hmem with hmem | hmem
      · exact hr ticket bytes hmem
      · simp [UdpBridge.start] at hmem
  | datagram l endpoint data t now locked =>
      simp only [step, Option.map_eq_some_iff] at h
      obtain ⟨server, -, rfl⟩ := h
      exact hr ticket bytes hmem
  | bridge i e =>
      simp only [step, Option.bind_eq_some_iff, Option.map_eq_some_iff] at h
      obtain ⟨b, -, ba, hb, rfl⟩ := h
      rcases List.mem_append.mp hmem with hmem | hmem
      · exact hr ticket bytes hmem
      · obtain ⟨a, ha, heq⟩ := List.mem_map.mp hmem
        rw [(Prod.mk.inj heq).2] at ha
        exact (UdpBridge.step_spec hb).1 bytes ha

theorem noWrites_reach {ok : UdpRun → UdpEvent → Prop} {r r' : UdpRun} (hr : r.NoWrites)
    (h : Reach (step inflate) ok r r') : r'.NoWrites :=
  h.invariant (P := NoWrites) hr fun _ _ _ hr _ hstep => noWrites_step hr hstep

theorem NoWrites.forwarded {r : UdpRun} (hr : r.NoWrites) (ticket : String) :
    forwarded inflate r ticket = [] := by
  have hwritten : r.written ticket = [] := by
    rw [written, List.flatten_eq_nil_iff]
    intro bytes hmem
    obtain ⟨⟨t, a⟩, ha, heq⟩ := List.mem_filterMap.mp hmem
    cases a with
    | asyncWrite b => exact absurd ha (hr t b)
    | _ => exact absurd heq (by simp)
  rw [UdpRun.forwarded, hwritten]
  rfl

/-- So a run serves its users just as long as they have nothing to be forwarded. -/
theorem NoWrites.serves_iff {r : UdpRun} (hr : r.NoWrites) :
    Serves inflate r ↔ (∀ key, (r.sessionsOf key).length ≤ 1) ∧ r.due = [] := by
  constructor
  · intro h
    refine ⟨h.single, List.eq_nil_iff_forall_not_mem.mpr fun d hd => ?_⟩
    obtain ⟨r', hreach, hpre⟩ := h.complete d.1
    rw [(noWrites_reach hr hreach).forwarded, List.prefix_nil, dueFor, List.map_eq_nil_iff,
      List.filter_eq_nil_iff] at hpre
    exact hpre d hd (by simp)
  · rintro ⟨hsingle, hdue⟩
    have hnone : ∀ ticket, r.dueFor ticket = [] := by
      intro ticket
      rw [dueFor, hdue]
      rfl
    refine ⟨hsingle, fun ticket => ?_, fun ticket => ⟨r, Reach.init, ?_⟩⟩
    · rw [hr.forwarded]
      exact List.nil_prefix
    · rw [hnone]
      exact List.nil_prefix

end UdpRun

/-! ## The sessions of one user -/

namespace Server

theorem mem_pendingOf {s : Server} {key : ListenerId × Endpoint} {t : String} :
    t ∈ s.pendingOf key ↔
      ∃ i, s.pendingUdpSessions.lookup t = some i ∧ (i.listener, i.endpoint) = key := by
  rw [pendingOf, List.mem_map]
  constructor
  · rintro ⟨⟨t', i⟩, hmem, rfl⟩
    rw [List.mem_filter, beq_iff_eq] at hmem
    exact ⟨i, Table.lookup_eq_some_iff.mpr hmem.1, hmem.2⟩
  · rintro ⟨i, hl, hkey⟩
    refine ⟨⟨t, i⟩, ?_, rfl⟩
    rw [List.mem_filter, beq_iff_eq]
    exact ⟨Table.lookup_eq_some_iff.mp hl, hkey⟩

theorem nodup_pendingOf (s : Server) (key : ListenerId × Endpoint) : (s.pendingOf key).Nodup :=
  List.Nodup.sublist (List.filter_sublist.map _) s.pendingUdpSessions.nodupKeys

/-- Fewer entries, fewer sessions. -/
theorem pendingOf_length_le {s s' : Server} {key : ListenerId × Endpoint}
    (h : ∀ t ∈ s'.pendingOf key, t ∈ s.pendingOf key) :
    (s'.pendingOf key).length ≤ (s.pendingOf key).length :=
  ((nodup_pendingOf s' key).subperm h).length_le

/-- The receive handler aside, a handler files no UDP session, and only the work stream
that presents a ticket takes something over. -/
theorem step_handler {s s' : Server} {e : Event} (he : e.isReceiveUdp = false)
    (h : s.step e = some s') :
    (∀ {t i}, s'.pendingUdpSessions.lookup t = some i → s.pendingUdpSessions.lookup t = some i) ∧
      (s'.handed = s.handed ∨ ∃ mux compression ticket hand,
        Hands s s' mux compression ticket hand) := by
  cases e with
  | controlStream mux =>
      rw [← Option.some.inj h]
      exact ⟨id, Or.inl rfl⟩
  | message c msg be =>
      simp only [step, Option.map_eq_some_iff] at h
      obtain ⟨cs, -, rfl⟩ := h
      have hkept := ControlSession.handleMessage_pending s c cs msg be
      refine ⟨fun hl => ?_, Or.inl hkept.handed⟩
      rw [hkept.udpSessions] at hl
      exact hl
  | stop c =>
      simp only [step, Option.map_eq_some_iff] at h
      obtain ⟨cs, -, rfl⟩ := h
      rw [ControlSession.stop_eq]
      refine ⟨fun hl => ?_, Or.inl rfl⟩
      -- sessions are dropped, none is filed
      rw [Table.lookup_eraseIf, Option.filter_eq_some_iff] at hl
      exact hl.1
  | acceptUser l ticket socket now locked =>
      simp only [step, Option.ite_none_right_eq_some, Option.some.injEq] at h
      obtain ⟨-, rfl⟩ := h
      obtain ⟨hsame, -, hudp⟩ :=
        registerUserConn_pending s ticket socket l.proxyName [] now l.session rfl
      cases locked with
      | false => exact ⟨hudp, Or.inl hsame.handed⟩
      | true => exact ⟨hudp, Or.inl hsame.handed⟩
  | receiveUdp => exact absurd he (by simp [Event.isReceiveUdp])
  | vhostRequest domain data ticket socket now locked =>
      simp only [step, Option.ite_none_right_eq_some, Option.some.injEq] at h
      obtain ⟨-, rfl⟩ := h
      rw [dispatchVhost]
      split
      · exact ⟨id, Or.inl rfl⟩
      · rename_i route _
        obtain ⟨hsame, -, hudp⟩ :=
          registerUserConn_pending s ticket socket route.proxyName data now route.session rfl
        cases locked with
        | false => exact ⟨id, Or.inl rfl⟩
        | true => exact ⟨hudp, Or.inl hsame.handed⟩
  | workStream mux bytes =>
      simp only [step, Option.ite_none_right_eq_some, Option.some.injEq] at h
      obtain ⟨hs, -, -, hhanded | ⟨hand, hhands⟩⟩ := handleWorkStream_bytes s mux bytes h.2
      · exact ⟨hs.udp, Or.inl hhanded⟩
      · exact ⟨hs.udp, Or.inr ⟨_, _, _, hand, hhands⟩⟩

end Server

namespace UdpRun

open Server

variable {inflate : List Byte → Option (List Byte)}

theorem sessionsOf_length (r : UdpRun) (key : ListenerId × Endpoint) :
    (r.sessionsOf key).length =
      (r.server.pendingOf key).length + (r.bridges.filter fun b => b.serves key).length := by
  rw [sessionsOf, List.length_append, List.length_map]

/-- A hand-over turns a pending session into a spliced one. -/
theorem splice_length_le {r : UdpRun} {server : Server}
    (hshrink : ∀ {t i}, server.pendingUdpSessions.lookup t = some i →
      r.server.pendingUdpSessions.lookup t = some i)
    (h : server.handed = r.server.handed ∨ ∃ mux compression ticket hand,
      Hands r.server server mux compression ticket hand) (key : ListenerId × Endpoint) :
    ((r.splice server).sessionsOf key).length ≤ (r.sessionsOf key).length := by
  have hold : ∀ t ∈ server.pendingOf key, t ∈ r.server.pendingOf key := by
    intro t ht
    obtain ⟨i, hl, hkey⟩ := mem_pendingOf.mp ht
    exact mem_pendingOf.mpr ⟨i, hshrink hl, hkey⟩
  have hle := pendingOf_length_le hold
  rw [sessionsOf_length, sessionsOf_length]
  rcases h with hhanded | ⟨mux, compression, ticket, hand, hhands⟩
  · have hsame : (r.splice server).bridges = r.bridges := by
      simp only [splice, hhanded, List.drop_length, List.filterMap_nil, List.append_nil]
    rw [hsame]
    exact Nat.add_le_add_right hle _
  · have hbuilt : (r.splice server).bridges = r.bridges ++ (bridgeOf hand).toList := by
      simp only [splice, hhands.handed, List.drop_left]
      cases hb : bridgeOf hand <;> simp [hb]
    rw [hbuilt, List.filter_append, List.length_append]
    show (server.pendingOf key).length + _ ≤ _
    rcases hhands.target with ⟨info, -, htarget, -⟩ | ⟨info, -, hl, htarget, hgone⟩
    · have hnone : bridgeOf hand = none := by rw [bridgeOf, htarget]
      rw [hnone]
      simp only [Option.toList_none, List.filter_nil, List.length_nil]
      omega
    · have hsome : bridgeOf hand = some
          { ticket := hand.ticket, listener := info.listener,
            remoteEndpoint := info.endpoint } := by
        rw [bridgeOf, htarget]
      rw [hsome]
      by_cases hkey : (info.listener, info.endpoint) = key
      · -- the entry that the bridge takes over is the one that leaves the table
        have hmore : (ticket :: server.pendingOf key).length ≤ (r.server.pendingOf key).length := by
          have hnodup : (ticket :: server.pendingOf key).Nodup := by
            refine List.nodup_cons.mpr ⟨fun hmem => ?_, nodup_pendingOf server key⟩
            obtain ⟨i, hi, -⟩ := mem_pendingOf.mp hmem
            rw [hgone] at hi
            exact absurd hi (Option.some_ne_none _).symm
          refine (hnodup.subperm fun t ht => ?_).length_le
          rcases List.mem_cons.mp ht with rfl | ht
          · exact mem_pendingOf.mpr ⟨info, hl, hkey⟩
          · exact hold t ht
        have hone := List.length_filter_le (fun b : UdpBridge => b.serves key) (Option.toList (some
          { ticket := hand.ticket, listener := info.listener, remoteEndpoint := info.endpoint }))
        rw [List.length_cons] at hmore
        rw [Option.toList_some, List.length_singleton] at hone
        rw [Option.toList_some]
        omega
      · have hnot : UdpBridge.serves
            { ticket := hand.ticket, listener := info.listener, remoteEndpoint := info.endpoint }
            key = false := by
          rw [UdpBridge.serves, Bool.and_eq_false_iff]
          exact Or.inr (by simpa using hkey)
        rw [Option.toList_some, List.filter_cons, if_neg (by rw [hnot]; exact Bool.false_ne_true)]
        simp only [List.filter_nil, List.length_nil]
        omega

/-- A bridge keeps its user, or stops serving anybody. -/
theorem set_length_le {bridges : List UdpBridge} {i : Nat} {b b' : UdpBridge} {e : BridgeEvent}
    {actions : List BridgeAction} (hb : bridges[i]? = some b)
    (h : b.step inflate e = some (b', actions)) (key : ListenerId × Endpoint) :
    ((bridges.set i b').filter fun b => b.serves key).length ≤
      (bridges.filter fun b => b.serves key).length := by
  obtain ⟨-, hopen, -, hlistener, hendpoint⟩ := UdpBridge.step_spec h
  obtain ⟨hi, hget⟩ := List.getElem?_eq_some_iff.mp hb
  have himp : b'.serves key = true → b.serves key = true := by
    rw [UdpBridge.serves, UdpBridge.serves, hlistener, hendpoint]
    simp only [Bool.and_eq_true, bne_iff_ne]
    exact fun hh => ⟨hopen, hh.2⟩
  rw [← List.countP_eq_length_filter, ← List.countP_eq_length_filter, List.countP_set hi, hget]
  have hpos : b.serves key = true → 0 < bridges.countP fun b => b.serves key := by
    intro hs
    exact List.countP_pos_iff.mpr ⟨b, hget ▸ List.getElem_mem hi, hs⟩
  cases hnow : b.serves key with
  | true =>
      have hlt := hpos hnow
      have hone : (if b'.serves key = true then 1 else 0) ≤ 1 := by split <;> simp
      rw [if_pos rfl]
      omega
  | false =>
      rw [if_neg Bool.false_ne_true, if_neg fun hh => absurd (himp hh) (by rw [hnow]; simp)]
      exact Nat.le_refl _

/-- A datagram opens a session for its sender at most. -/
theorem datagram_length_le {r : UdpRun} {server : Server} {l : Listener} {endpoint : Endpoint}
    {ticket : String} {now : Time} {locked : Bool}
    (h : r.server.step (.receiveUdp l endpoint ticket now locked) = some server)
    (key : ListenerId × Endpoint) :
    (server.pendingOf key).length ≤ (r.server.pendingOf key).length ∨
      key = (l.id, endpoint) ∧
        (server.pendingOf key).length ≤ (r.server.pendingOf key).length + 1 := by
  simp only [Server.step, Option.ite_none_right_eq_some, Option.some.injEq] at h
  obtain ⟨-, rfl⟩ := h
  have hnew : ∀ t ∈ (r.server.receiveUdp l endpoint ticket now locked).pendingOf key,
      t ∈ r.server.pendingOf key ∨ t = ticket ∧ key = (l.id, endpoint) := by
    intro t ht
    obtain ⟨i, hi, hik⟩ := mem_pendingOf.mp ht
    rw [receiveUdp] at hi
    split at hi
    · exact Or.inl (mem_pendingOf.mpr ⟨i, hi, hik⟩)
    · obtain ⟨sent, hsent⟩ := announce_eq
        ({ r.server with
            endpointToTicket := r.server.endpointToTicket.insert (l.id, endpoint) ticket
          }.registerUdpSession ticket l.id endpoint l.proxyName now l.session)
        locked l.session l.proxyName ticket
      dsimp only at hi
      rw [hsent] at hi
      obtain ⟨-, -, hudp⟩ := registerUdpSession_pending
        { r.server with
          endpointToTicket := r.server.endpointToTicket.insert (l.id, endpoint) ticket }
        ticket l.id endpoint l.proxyName now l.session rfl
      rcases hudp hi with hi | ⟨rfl, rfl⟩
      · exact Or.inl (mem_pendingOf.mpr ⟨i, hi, hik⟩)
      · exact Or.inr ⟨rfl, hik.symm⟩
  by_cases hkey : key = (l.id, endpoint)
  · refine Or.inr ⟨hkey, ?_⟩
    rw [← List.length_cons (a := ticket)]
    refine ((nodup_pendingOf _ key).subperm fun t ht => ?_).length_le
    rcases hnew t ht with ht | ⟨rfl, -⟩
    · exact List.mem_cons_of_mem _ ht
    · exact List.mem_cons_self
  · refine Or.inl (pendingOf_length_le fun t ht => ?_)
    rcases hnew t ht with ht | ⟨-, heq⟩
    · exact ht
    · exact absurd heq hkey

/-! ## When users are served -/

/-- **One step** serves the users on exactly if it is not a datagram of a user who has a
session. -/
theorem serves_step {r r' : UdpRun} {e : UdpEvent} (hw : r.NoWrites) (hr : Serves inflate r)
    (h : r.step inflate e = some r') : Serves inflate r' ↔ r.idle e = true := by
  obtain ⟨hsingle, hdue⟩ := hw.serves_iff.mp hr
  rw [(noWrites_step hw h).serves_iff]
  cases e with
  | handler e =>
      simp only [step, Option.ite_none_left_eq_some, Option.map_eq_some_iff] at h
      obtain ⟨he, server, hserver, rfl⟩ := h
      obtain ⟨hshrink, hhanded⟩ := step_handler (Bool.eq_false_iff.mpr he) hserver
      refine iff_of_true ⟨fun key => ?_, hdue⟩ rfl
      exact Nat.le_trans (splice_length_le hshrink hhanded key) (hsingle key)
  | datagram l endpoint data t now locked =>
      simp only [step, Option.map_eq_some_iff] at h
      obtain ⟨server, hserver, rfl⟩ := h
      simp only [hdue, List.nil_append, List.map_eq_nil_iff, idle, List.isEmpty_iff]
      refine ⟨fun hh => hh.2, fun hidle => ⟨fun key => ?_, hidle⟩⟩
      have hbefore := hsingle key
      rw [sessionsOf_length] at hbefore ⊢
      rcases datagram_length_le hserver key with hle | ⟨rfl, hle⟩
      · exact Nat.le_trans (Nat.add_le_add_right hle _) hbefore
      · have hzero := congrArg List.length hidle
        rw [sessionsOf_length, List.length_nil] at hzero
        show (server.pendingOf (l.id, endpoint)).length +
          (r.bridges.filter fun b => b.serves (l.id, endpoint)).length ≤ 1
        omega
  | bridge i e =>
      simp only [step, Option.bind_eq_some_iff, Option.map_eq_some_iff] at h
      obtain ⟨b, hb, ⟨b', actions⟩, hstep, rfl⟩ := h
      refine iff_of_true ⟨fun key => ?_, hdue⟩ rfl
      have hbefore := hsingle key
      rw [sessionsOf_length] at hbefore ⊢
      exact Nat.le_trans (Nat.add_le_add_left (set_length_le hb hstep key) _) hbefore

/-- **UDP users are served while they are silent.** In a run in which no datagram comes from an
endpoint that has a session, every user has one session at most and nothing is lost; and
the first datagram that does come ends this. -/
theorem serves_while_idle {token : String} {ports : List PortRange} {clients : List String}
    {r : UdpRun}
    (h : Reach (step inflate) (fun r e => r.idle e = true)
      { server := Server.init token ports clients } r) :
    Serves inflate r ∧
      ∀ e r', r.step inflate e = some r' → (Serves inflate r' ↔ r.idle e = true) := by
  have hinit : ({ server := Server.init token ports clients } : UdpRun).NoWrites :=
    fun _ _ hmem => absurd hmem List.not_mem_nil
  have hboth : r.NoWrites ∧ Serves inflate r := by
    refine h.invariant (P := fun r => r.NoWrites ∧ Serves inflate r)
      ⟨hinit, hinit.serves_iff.mpr ⟨fun key => Nat.zero_le 1, rfl⟩⟩ ?_
    rintro r e r' ⟨hw, hr⟩ hok hstep
    exact ⟨noWrites_step hw hstep, (serves_step hw hr hstep).mpr hok⟩
  exact ⟨hboth.2, fun e r' hstep => serves_step hboth.1 hboth.2 hstep⟩

/-- A session with one UDP proxy, and the first datagram of a user. -/
def firstDatagram : List UdpEvent :=
  [.handler (.controlStream 1), .handler (.message 0 (.login ⟨"tok", "a"⟩) none),
    .handler (.message 0 (.registerProxy ⟨"dns", "udp", 6000, [], 0⟩) none),
    .datagram ⟨0, .udp, 6000, "dns", 0⟩ 9 [1] "12" 5 true]

/-- The 65 bytes that ask for the ticket `12`. -/
def claim12 : List Byte := 0 :: 49 :: 50 :: List.replicate 62 32

theorem serves_while_idle_firstDatagram :
    ∃ r : UdpRun, r.sessionsOf (0, 9) = ["12"] ∧ Serves (fun _ => none) r := by
  obtain ⟨r, hreach, hobs⟩ := exists_of_runGuarded (step fun _ => none) idle firstDatagram
    (fun r => r.sessionsOf (0, 9)) (s := { server := Server.init "tok" [] [] }) (a := ["12"]) rfl
  exact ⟨r, hobs, (serves_while_idle hreach).1⟩

/-- The user's ticket is redeemed, and the user goes on sending: the next datagram is dropped,
and a second session is opened beside the spliced one. -/
theorem serves_secondDatagram :
    ¬ ∀ (inflate : List Byte → Option (List Byte)) (token : String) (ports : List PortRange)
      (clients : List String) (r : UdpRun),
      Reach (step inflate) anyStep { server := Server.init token ports clients } r →
      Serves inflate r := by
  intro hall
  obtain ⟨r, hreach, hobs⟩ := exists_of_runAll (step fun _ => none)
    (firstDatagram ++ [.handler (.workStream 1 claim12),
      .datagram ⟨0, .udp, 6000, "dns", 0⟩ 9 [2] "34" 6 true])
    (fun r => (r.sessionsOf (0, 9), r.due)) (s := { server := Server.init "tok" [] [] })
    (a := (["34", "12"], [("12", [2])])) rfl
  have hw : r.NoWrites := noWrites_reach (fun _ _ hmem => absurd hmem List.not_mem_nil) hreach
  have hsingle := (hw.serves_iff.mp (hall _ _ _ _ r hreach)).1 (0, 9)
  rw [(Prod.mk.inj hobs).1] at hsingle
  exact absurd hsingle (by decide)

end UdpRun

end Cfrp
