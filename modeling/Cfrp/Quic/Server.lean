import Cfrp.Quic.Connection
import Cfrp.Quic.Timer

/-!
# The QUIC sessions of the server

All clients send to one UDP socket. `DoUdpRead` gives a packet to the session of its sender,
which it makes when there is none, and a session leaves `quic_sessions_` in its `on_closed`.
That erases by the endpoint, from a handler that is posted when the session closes, so by
then the entry could be another session's.

What is posted to the strand of a session is run in order, and only what matters here is kept
of it: packets, `on_new_stream` and `on_closed`. There is one receive at a time. Its handler
looks into the table twice and posts the packet after that, and `Stop`, which runs on another
thread, first collects the sessions, then closes them one by one and then clears the table.
Each of these parts is a step.
-/

namespace Cfrp.Quic

open Lib Mux

/-- What ngtcp2 calls while it reads a packet. -/
inductive Callback where
  /-- `fin` is `NGTCP2_STREAM_DATA_FLAG_FIN`. -/
  | recvStreamData (streamId : StreamId) (bytes : List Byte) (fin : Bool)
  | streamClose (streamId : StreamId)

/-- What is posted to the strand of a session. -/
inductive Posted where
  | handlePacket (packet : List Byte)
  /-- `on_new_stream`, with the stream. -/
  | newStream (o : Nat)
  | closed
  deriving DecidableEq

namespace Posted

def packets (ts : List Posted) : List (List Byte) :=
  ts.filterMap fun | .handlePacket packet => some packet | _ => none

def streams (ts : List Posted) : List Nat :=
  ts.filterMap fun | .newStream o => some o | _ => none

/-- Whether one of them owns the session. That with a stream does not. -/
def owning (ts : List Posted) : Bool := ts.any fun | .newStream _ => false | _ => true

end Posted

/-- A session of the server. `given` are the packets posted to it and `handled` those that
ngtcp2 has read; `muxes` are the streams that a mux session has been started on, and
`closings` counts the calls of `on_closed`. -/
structure ServerSession (ε : Type) where
  endpoint : ε
  /-- Whether `init` has made the ngtcp2 connection. -/
  ready : Bool
  connection : Connection := {}
  /-- Whether `on_closed` is set. -/
  onClosed : Bool := true
  tasks : List Posted := []
  given : List (List Byte) := []
  handled : List (List Byte) := []
  muxes : List Nat := []
  closings : Nat := 0

namespace ServerSession

variable {ε : Type}

def closed (s : ServerSession ε) : Bool := s.connection.session.closedNotified

/-- Whether `handle_packet` and `send_packets` do anything. -/
def active (s : ServerSession ε) : Bool := s.ready && !s.closed

/-- The session is now `c`. When it is closed by that, `on_closed` is posted. -/
def become (s : ServerSession ε) (c : Connection) : ServerSession ε :=
  { s with
    connection := c
    tasks := s.tasks ++
      if c.session.closedNotified && !s.closed && s.onClosed then [.closed] else [] }

/-- `on_stream_data`. A stream nobody knows is handed to `on_new_stream`. -/
def onStreamData (s : ServerSession ε) (streamId : StreamId) (bytes : List Byte) :
    ServerSession ε :=
  { s with
    connection := s.connection.streamData streamId bytes
    tasks := s.tasks ++
      if (s.connection.streams.lookup streamId).isNone then
        [.newStream s.connection.objs.length] else [] }

/-- `on_stream_close`. -/
def onStreamClose (s : ServerSession ε) (streamId : StreamId) : ServerSession ε :=
  { s with connection := s.connection.streamClose streamId }

def callback (s : ServerSession ε) : Callback → ServerSession ε
  | .recvStreamData streamId bytes fin =>
      let s := s.onStreamData streamId bytes
      if fin then s.onStreamClose streamId else s
  | .streamClose streamId => s.onStreamClose streamId

def closeSession (s : ServerSession ε) : ServerSession ε :=
  if s.active then s.become s.connection.closeSession else s

/-- `send_packets`, which ends with `check_closed`. -/
def sendPackets (s : ServerSession ε) (p : Packets) : ServerSession ε :=
  if s.active then
    let s := if p.fails then s.closeSession else s
    let s := s.become (s.connection.afterWrite (s.connection.session.doWrite p.calls))
    if p.closing then s.closeSession else s
  else s

/-- `handle_packet`. ngtcp2 reads the packet, and then there is something to send unless it
failed. Its own `check_closed` asks the same as that of `send_packets`. -/
def handlePacket (s : ServerSession ε) (packet : List Byte) (callbacks : List Callback)
    (p : Option Packets) : ServerSession ε :=
  if s.active then
    let s := callbacks.foldl callback { s with handled := s.handled ++ [packet] }
    match p with
    | none => s.closeSession
    | some p => s.sendPackets p
  else s

/-- What happens to a session without a packet: its streams are used, it is written to, a timer
runs out. The streams of a server are its peer's. -/
def own : Connection.Event → Bool
  | .asyncRead _ _ _ | .asyncWrite _ _ | .enqueue _ | .doWrite _ | .close _ | .closeSession =>
      true
  | _ => false

/-- `asio::post` of `handle_packet`. -/
def give (s : ServerSession ε) (packet : List Byte) : ServerSession ε :=
  { s with tasks := s.tasks ++ [.handlePacket packet], given := s.given ++ [packet] }

/-- The calls of `on_closed`, with the one that is posted. -/
def ends (s : ServerSession ε) : Nat := s.closings + s.tasks.count .closed

end ServerSession

/-- Where `Stop` is. -/
inductive StopPhase where
  | running
  /-- The sessions that are still to be closed. -/
  | closing (sessions : List Nat)
  /-- The table has been cleared. -/
  | cleared
  /-- The socket has been closed. -/
  | stopped

namespace StopPhase

def sessions : StopPhase → List Nat
  | .closing sessions => sessions
  | _ => []

/-- Whether the table has been cleared. -/
def hasCleared : StopPhase → Bool
  | .cleared | .stopped => true
  | _ => false

end StopPhase

/-- The handler of a receive, with the session it has found or made. -/
structure Reading (ε : Type) where
  endpoint : ε
  packet : List Byte
  session : Option Nat

structure QuicServer (ε : Type) where
  quicSessions : Table ε Nat := ∅
  /-- Every session there was. -/
  objs : List (ServerSession ε) := []
  phase : StopPhase := .running
  reading : Option (Reading ε) := none
  /-- How many sessions there were when `Stop` collected them. -/
  collected : Nat := 0
  /-- The packets that went to a session, with their senders. -/
  received : List (ε × List Byte) := []

namespace QuicServer

variable {ε : Type} [DecidableEq ε]

inductive Event (ε : Type) where
  /-- A packet from `endpoint`, and the first look into the table. -/
  | receive (endpoint : ε) (packet : List Byte)
  /-- There was no session. `ready` is whether the `init` of a new one succeeds. -/
  | accept (ready : Bool)
  /-- The packet is posted to the session. -/
  | post
  /-- The first task of session `o`, and what comes of it if it is a packet. -/
  | run (o : Nat) (callbacks : List Callback) (p : Option Packets)
  | own (o : Nat) (e : Connection.Event)
  /-- The last owner of session `o` lets it go. -/
  | expire (o : Nat)
  /-- `Stop` collects the sessions. -/
  | stop
  /-- `set_on_closed(nullptr)` of the next one. -/
  | forget
  | closeNext
  | clear
  | closeSocket

/-- Session `o` is now `s`. -/
def put (v : QuicServer ε) (o : Nat) (s : ServerSession ε) : QuicServer ε :=
  { v with objs := v.objs.modify o fun _ => s }

/-- A packet for session `o`. -/
def give (v : QuicServer ε) (o : Nat) (endpoint : ε) (packet : List Byte) : QuicServer ε :=
  { v with
    objs := v.objs.modify o (ServerSession.give · packet)
    received := v.received ++ [(endpoint, packet)]
    reading := none }

/-- `DoUdpRead` after it has found no session. `decodes` is `ngtcp2_pkt_decode_version_cid`. -/
def accept (decodes : List Byte → Bool) (v : QuicServer ε) (r : Reading ε) (ready : Bool) :
    QuicServer ε :=
  if decodes r.packet then
    match v.quicSessions.lookup r.endpoint with
    | some o => { v with reading := some { r with session := some o } }
    | none =>
        { v with
          quicSessions := v.quicSessions.insert r.endpoint v.objs.length
          objs := v.objs ++ [{ endpoint := r.endpoint, ready : ServerSession ε }]
          reading := some { r with session := some v.objs.length } }
  else { v with reading := none }

def run (v : QuicServer ε) (o : Nat) (callbacks : List Callback) (p : Option Packets) :
    Option (QuicServer ε) := do
  let s ← v.objs[o]?
  match s.tasks with
  | [] => none
  | .handlePacket packet :: tasks =>
      some (v.put o ({ s with tasks }.handlePacket packet callbacks p))
  | .newStream stream :: tasks =>
      some (v.put o { s with tasks, muxes := s.muxes ++ [stream] })
  | .closed :: tasks =>
      some ({ v with quicSessions := v.quicSessions.erase s.endpoint }.put o
        { s with tasks, closings := s.closings + 1 })

/-- Whether the table, `Stop` or the handler of a receive has a pointer to session `o`. -/
def holds (v : QuicServer ε) (o : Nat) (s : ServerSession ε) : Prop :=
  v.quicSessions.lookup s.endpoint = some o ∨ o ∈ v.phase.sessions ∨
    v.reading.bind Reading.session = some o

instance (v : QuicServer ε) (o : Nat) (s : ServerSession ε) : Decidable (v.holds o s) :=
  inferInstanceAs (Decidable (_ ∨ _ ∨ _))

def step (decodes : List Byte → Bool) (v : QuicServer ε) : Event ε → Option (QuicServer ε)
  | .receive endpoint packet =>
      match v.phase, v.reading with
      | .stopped, _ => none
      | _, some _ => none
      | _, none =>
          some { v with reading := some ⟨endpoint, packet, v.quicSessions.lookup endpoint⟩ }
  | .accept ready =>
      match v.reading with
      | some ⟨endpoint, packet, none⟩ => some (v.accept decodes ⟨endpoint, packet, none⟩ ready)
      | _ => none
  | .post =>
      match v.reading with
      | some ⟨endpoint, packet, some o⟩ => some (v.give o endpoint packet)
      | _ => none
  | .run o callbacks p =>
      -- a write between its test and its lock has the strand
      if (v.objs[o]?).all fun s => s.connection.entering.isNone then v.run o callbacks p else none
  | .own o e => do
      let s ← v.objs[o]?
      if s.ready && ServerSession.own e then
        let c ← s.connection.step e
        some (v.put o (s.become c))
      else none
  | .expire o => do
      let s ← v.objs[o]?
      if ¬v.holds o s ∧ Posted.owning s.tasks = false then
        let c ← s.connection.step .expire
        some (v.put o { s with connection := c })
      else none
  | .stop =>
      match v.phase with
      | .running =>
          some { v with
            phase := .closing (v.quicSessions.entries.map Sigma.snd)
            collected := v.objs.length }
      | _ => none
  | .forget =>
      match v.phase with
      | .closing (o :: _) => (v.objs[o]?).map fun s => v.put o { s with onClosed := false }
      | _ => none
  | .closeNext =>
      match v.phase with
      | .closing (o :: rest) => do
          let s ← v.objs[o]?
          if s.onClosed then none
          else some { v.put o s.closeSession with phase := .closing rest }
      | _ => none
  | .clear =>
      match v.phase with
      | .closing [] => some { v with quicSessions := ∅, phase := .cleared }
      | _ => none
  | .closeSocket =>
      match v.phase with
      | .cleared => some { v with phase := .stopped }
      | _ => none

end QuicServer

/-! ## One session -/

namespace Connection

/-- What a step leaves as it is: the number of streams, whether the session exists, and that it
is closed. Only a session that exists is closed. -/
structure Steady (c c' : Connection) : Prop where
  objs : c'.objs.length = c.objs.length
  alive : c'.alive = c.alive
  closed : c.session.closedNotified = true → c'.session.closedNotified = true
  closes : c'.session.closedNotified = true → c.session.closedNotified = true ∨ c.alive = true

theorem Steady.refl (c : Connection) : Steady c c := ⟨rfl, rfl, id, Or.inl⟩

theorem afterWrite_frame (c : Connection) (session : QuicSession Byte) :
    (c.afterWrite session).objs.length = c.objs.length ∧ (c.afterWrite session).alive = c.alive ∧
    (c.afterWrite session).session = session := by
  unfold afterWrite
  split
  · exact ⟨List.length_mapIdx, rfl, rfl⟩
  · exact ⟨rfl, rfl, rfl⟩

theorem doWrite_closed {s : QuicSession Byte} (h : s.closedNotified = true)
    (calls : List Writev) : (s.doWrite calls).closedNotified = true := by
  rw [QuicSession.doWrite, if_pos h]
  exact h

/-- A write of a session that exists. -/
theorem steady_afterWrite {c c₀ : Connection} (halive : c.alive = true)
    (hobjs : c₀.objs.length = c.objs.length) (halive₀ : c₀.alive = c.alive)
    {session : QuicSession Byte}
    (hclosed : c.session.closedNotified = true → session.closedNotified = true) :
    Steady c (c₀.afterWrite session) := by
  obtain ⟨hobjs', halive', hsession⟩ := afterWrite_frame c₀ session
  exact ⟨hobjs'.trans hobjs, halive'.trans halive₀, fun hc => by rw [hsession]; exact hclosed hc,
    fun _ => Or.inr halive⟩

theorem steady_write (c : Connection) (streamId : StreamId) (buffers : List (List Byte)) :
    Steady c (c.write streamId buffers) := by
  unfold write
  split
  · exact ⟨rfl, rfl, id, Or.inl⟩
  · exact ⟨rfl, rfl, id, Or.inl⟩

theorem steady_push {c : Connection} (halive : c.alive = true) (w : Entering)
    (calls : List Writev) : Steady c (c.push w calls) := by
  let session := c.session.pushWrite w.streamId w.buffers c.submitted.length calls
  have hsession : c.session.closedNotified = true → session.closedNotified = true := by
    intro hclosed
    show (QuicSession.pushWrite _ _ _ _ _).closedNotified = true
    unfold QuicSession.pushWrite
    split
    · exact hclosed
    · exact doWrite_closed (s := c.session.enqueue _ _ _) hclosed calls
  unfold push
  refine steady_afterWrite halive ?_ ?_ hsession
  · rfl
  · rfl

theorem closeSession_frame (c : Connection) :
    c.closeSession.objs.length = c.objs.length ∧ c.closeSession.alive = c.alive ∧
    c.closeSession.session.closedNotified = true := by
  unfold closeSession
  split
  · rename_i hclosed
    exact ⟨rfl, rfl, hclosed⟩
  · exact ⟨List.length_mapIdx, rfl, rfl⟩

theorem streamClose_frame (c : Connection) (streamId : StreamId) :
    (c.streamClose streamId).objs.length = c.objs.length ∧
    (c.streamClose streamId).alive = c.alive ∧
    (c.streamClose streamId).session = c.session ∧
    (c.streamClose streamId).entering = c.entering := by
  unfold streamClose
  split
  · exact ⟨List.length_modify _ _ _, rfl, rfl, rfl⟩
  · exact ⟨rfl, rfl, rfl, rfl⟩

theorem closeSession_entering (c : Connection) : c.closeSession.entering = c.entering := by
  unfold closeSession
  split
  · rfl
  · rfl

/-- An event that is not held up. -/
theorem step_eq_act {c : Connection} {e : Event}
    (h : c.entering = none ∨ offStrand e = true) : c.step e = c.act e := by
  rw [step]
  refine if_neg fun hheld => ?_
  rw [Bool.and_eq_true, Bool.not_eq_true'] at hheld
  rcases h with h | h
  · rw [h] at hheld
    cases hheld.1
  · rw [h] at hheld
    cases hheld.2

theorem act_of_step {c c' : Connection} {e : Event} (h : c.step e = some c') :
    c.act e = some c' := (Option.ite_none_left_eq_some.mp h).2

/-- What happens to a session without a packet makes no stream, and opens nothing again. -/
theorem own_step {c c' : Connection} {e : Event} (he : ServerSession.own e = true)
    (hs : c.step e = some c') : Steady c c' := by
  have hact := act_of_step hs
  cases e with
  | asyncRead o size readAll =>
      obtain ⟨obj, -, rfl⟩ := Option.map_eq_some_iff.mp hact
      exact ⟨List.length_modify _ _ _, rfl, id, Or.inl⟩
  | asyncWrite o buffers =>
      obtain ⟨obj, -, rfl⟩ := Option.map_eq_some_iff.mp hact
      exact steady_write c obj.id buffers
  | enqueue calls =>
      rw [act, Option.ite_none_right_eq_some] at hact
      obtain ⟨w, -, rfl⟩ := Option.map_eq_some_iff.mp hact.2
      exact steady_push hact.1 w calls
  | doWrite calls =>
      rw [act, Option.ite_none_right_eq_some] at hact
      obtain ⟨halive, hact⟩ := hact
      cases hact
      exact steady_afterWrite halive rfl rfl fun hclosed => doWrite_closed hclosed calls
  | close o =>
      obtain ⟨obj, -, rfl⟩ := Option.map_eq_some_iff.mp hact
      exact ⟨List.length_modify _ _ _, rfl, id, Or.inl⟩
  | closeSession =>
      rw [act, Option.ite_none_right_eq_some] at hact
      obtain ⟨halive, hact⟩ := hact
      cases hact
      obtain ⟨hobjs, halive', hclosed⟩ := closeSession_frame c
      exact ⟨hobjs, halive', fun _ => hclosed, fun _ => Or.inr halive⟩
  | openStream streamId => cases he
  | streamData streamId bytes => cases he
  | streamClose streamId => cases he
  | expire => cases he

theorem expire_frame {c c' : Connection} (hs : c.step .expire = some c') :
    c'.objs.length = c.objs.length ∧ c'.session = c.session := by
  have hact := act_of_step hs
  rw [act, Option.ite_none_right_eq_some] at hact
  obtain ⟨-, hact⟩ := hact
  cases hact
  exact ⟨List.length_mapIdx, rfl⟩

end Connection

namespace Posted

theorem packets_append (ts ts' : List Posted) :
    packets (ts ++ ts') = packets ts ++ packets ts' := List.filterMap_append

theorem streams_append (ts ts' : List Posted) :
    streams (ts ++ ts') = streams ts ++ streams ts' := List.filterMap_append

theorem owning_append (ts ts' : List Posted) :
    owning (ts ++ ts') = (owning ts || owning ts') := List.any_append

end Posted

namespace ServerSession

variable {ε : Type} {s s' : ServerSession ε}

theorem active_iff : s.active = true ↔ s.ready = true ∧ s.closed = false := by
  rw [active, Bool.and_eq_true, Bool.not_eq_true']

/-- How often `on_closed` has been called of a session or will be, without anything else. -/
structure Notified (closed onClosed : Bool) (ends : Nat) : Prop where
  once : ends ≤ 1
  early : closed = false → ends = 0
  told : closed = true → onClosed = true → ends = 1

theorem Notified.of_eq {closed onClosed : Bool} {n m : Nat} (h : Notified closed onClosed n)
    (heq : n = m) : Notified closed onClosed m := heq ▸ h

/-- **What is true of a session at all times.** It is a run of `Connection`, and exists as long
as something posted owns it. The packets that ngtcp2 has read are the first it was given, and
as long as it is open the others are waiting. Each of its streams is handed to a mux session
once, in order. `on_closed` is called at most once, and not before the session closes. One
that could not be initialised does nothing. -/
structure Orderly (s : ServerSession ε) : Prop where
  reach : Reach Connection.step anyStep {} s.connection
  alive : Posted.owning s.tasks = true → s.connection.alive = true
  packets : ∃ dropped, s.given = s.handled ++ dropped ++ Posted.packets s.tasks ∧
    (s.active = true → dropped = [])
  streams : s.muxes ++ Posted.streams s.tasks = List.range s.connection.objs.length
  notified : Notified s.closed s.onClosed s.ends
  inert : s.ready = false → s.closed = false ∧ s.handled = []

/-- What the steps of a session leave as it is. -/
structure Becomes (s s' : ServerSession ε) : Prop where
  orderly : s'.Orderly
  endpoint : s'.endpoint = s.endpoint
  given : s'.given = s.given
  closings : s'.closings = s.closings
  active : s'.active = true → s.active = true
  alive : s'.connection.alive = s.connection.alive

theorem Becomes.refl (h : s.Orderly) : Becomes s s := ⟨h, rfl, rfl, rfl, id, rfl⟩

theorem Becomes.trans {s'' : ServerSession ε} (h : Becomes s s') (h' : Becomes s' s'') :
    Becomes s s'' :=
  ⟨h'.orderly, h'.endpoint.trans h.endpoint, h'.given.trans h.given,
    h'.closings.trans h.closings, fun ha => h.active (h'.active ha), h'.alive.trans h.alive⟩

theorem become_tasks (s : ServerSession ε) (c : Connection) :
    (s.become c).ends =
      s.ends + (if c.session.closedNotified && !s.closed && s.onClosed then 1 else 0) ∧
    Posted.packets (s.become c).tasks = Posted.packets s.tasks ∧
    Posted.streams (s.become c).tasks = Posted.streams s.tasks := by
  refine ⟨?_, ?_, ?_⟩
  · show s.closings + (s.tasks ++ _).count .closed = _
    rw [List.count_append, ← Nat.add_assoc]
    split
    · rfl
    · rfl
  · show Posted.packets (s.tasks ++ _) = _
    rw [Posted.packets_append]
    split
    · exact List.append_nil _
    · exact List.append_nil _
  · show Posted.streams (s.tasks ++ _) = _
    rw [Posted.streams_append]
    split
    · exact List.append_nil _
    · exact List.append_nil _

/-- `on_closed` is posted when the session closes, and then only. -/
theorem Notified.become (h : Notified s.closed s.onClosed s.ends) {c : Connection}
    (hmono : s.closed = true → c.session.closedNotified = true) :
    Notified (s.become c).closed (s.become c).onClosed (s.become c).ends := by
  have hends := (become_tasks s c).1
  refine ⟨?_, fun hopen => ?_, fun hc hon => ?_⟩
  · rw [hends]
    split
    · rename_i hnow
      simp only [Bool.and_eq_true, Bool.not_eq_true'] at hnow
      rw [h.early hnow.1.2]
    · exact h.once
  · have hopen' : c.session.closedNotified = false := hopen
    -- a session does not open again
    have hbefore : s.closed = false := by
      by_contra hne
      rw [hmono (Bool.not_eq_false _ ▸ hne)] at hopen'
      cases hopen'
    rw [hends, hopen', h.early hbefore]
    rfl
  · have hc' : c.session.closedNotified = true := hc
    have hon' : s.onClosed = true := hon
    rw [hends, hc', hon', Bool.true_and, Bool.and_true]
    -- closed before, or now, with `on_closed` posted
    cases hbefore : s.closed with
    | true => exact h.told hbefore hon
    | false =>
        rw [h.early hbefore]
        rfl

/-- A session goes on, and when that closes it, `on_closed` is posted. -/
theorem Orderly.become (h : s.Orderly) (hready : s.ready = true) {e : Connection.Event}
    (he : own e = true) {c : Connection} (hs : s.connection.step e = some c) :
    Becomes s (s.become c) := by
  have hsteady := Connection.own_step he hs
  obtain ⟨-, hpackets, hstreams⟩ := become_tasks s c
  have hmono : (s.become c).active = true → s.active = true := by
    intro ha
    obtain ⟨-, hopen⟩ := active_iff.mp ha
    refine active_iff.mpr ⟨hready, ?_⟩
    by_contra hne
    have hstill : c.session.closedNotified = true := hsteady.closed (Bool.not_eq_false _ ▸ hne)
    rw [show (s.become c).closed = c.session.closedNotified from rfl, hstill] at hopen
    cases hopen
  refine ⟨?_, rfl, rfl, rfl, hmono, hsteady.alive⟩
  refine ⟨Reach.tail h.reach trivial hs, fun howning => ?_, ?_, ?_,
    h.notified.become hsteady.closed, fun hnot => ?_⟩
  · show c.alive = true
    rw [hsteady.alive]
    have hposted : Posted.owning (s.tasks ++ _) = true := howning
    rw [Posted.owning_append, Bool.or_eq_true] at hposted
    rcases hposted with hold | hnew
    · exact h.alive hold
    · -- only a session that exists closes
      split at hnew
      · rename_i hnow
        simp only [Bool.and_eq_true, Bool.not_eq_true'] at hnow
        refine (hsteady.closes hnow.1.1).resolve_left fun hbefore => ?_
        rw [closed, hbefore] at hnow
        cases hnow.1.2
      · cases hnew
  · obtain ⟨dropped, hgiven, hnone⟩ := h.packets
    exact ⟨dropped, hpackets ▸ hgiven, fun ha => hnone (hmono ha)⟩
  · rw [hstreams]
    show s.muxes ++ _ = List.range c.objs.length
    rw [hsteady.objs]
    exact h.streams
  · have hnot' : s.ready = false := hnot
    rw [hready] at hnot'
    cases hnot'

/-- `close_session` needs no strand. -/
theorem Orderly.closeSession (h : s.Orderly) (halive : s.connection.alive = true) :
    Becomes s s.closeSession := by
  unfold ServerSession.closeSession
  split
  · rename_i ha
    refine h.become (active_iff.mp ha).1 (e := .closeSession) rfl ?_
    rw [Connection.step_eq_act (Or.inr rfl)]
    exact if_pos halive
  · exact Becomes.refl h

theorem closeSession_frame (s : ServerSession ε) : s.closeSession.ready = s.ready ∧
    s.closeSession.connection.entering = s.connection.entering ∧
    s.closeSession.active = false := by
  unfold closeSession
  split
  · obtain ⟨-, -, hclosed⟩ := Connection.closeSession_frame s.connection
    refine ⟨rfl, Connection.closeSession_entering _, ?_⟩
    show (s.ready && !s.connection.closeSession.session.closedNotified) = false
    rw [hclosed, Bool.not_true, Bool.and_false]
  · rename_i hnot
    exact ⟨rfl, rfl, Bool.not_eq_true _ ▸ hnot⟩

/-- The session is on its strand: it exists, and no write is about to take the lock. -/
structure OnStrand (s : ServerSession ε) : Prop where
  alive : s.connection.alive = true
  entering : s.connection.entering = none

theorem Orderly.sendPackets (h : s.Orderly) (hstrand : s.OnStrand) (p : Packets) :
    Becomes s (s.sendPackets p) := by
  unfold ServerSession.sendPackets
  split
  · rename_i ha
    -- a send that fails closes the session first, and `do_write` finds it closed
    have hfails : Becomes s (if p.fails then s.closeSession else s) ∧
        (if p.fails then s.closeSession else s).ready = true ∧
        (if p.fails then s.closeSession else s).connection.entering = none := by
      split
      · obtain ⟨hready, hentering, -⟩ := closeSession_frame s
        exact ⟨h.closeSession hstrand.alive, hready.trans (active_iff.mp ha).1,
          hentering.trans hstrand.entering⟩
      · exact ⟨Becomes.refl h, (active_iff.mp ha).1, hstrand.entering⟩
    dsimp only
    generalize (if p.fails then s.closeSession else s) = s' at hfails ⊢
    obtain ⟨hfirst, hready, hentering⟩ := hfails
    have halive : s'.connection.alive = true := hfirst.alive.trans hstrand.alive
    have hstep : s'.connection.step (.doWrite p.calls) =
        some (s'.connection.afterWrite (s'.connection.session.doWrite p.calls)) := by
      rw [Connection.step_eq_act (Or.inl hentering)]
      exact if_pos halive
    have hwrite := hfirst.trans (hfirst.orderly.become hready (e := .doWrite p.calls) rfl hstep)
    split
    · exact hwrite.trans (hwrite.orderly.closeSession (hwrite.alive.trans hstrand.alive))
    · exact hwrite
  · exact Becomes.refl h

theorem Orderly.onStreamClose (h : s.Orderly) (hstrand : s.OnStrand) (ha : s.active = true)
    (streamId : StreamId) :
    Becomes s (s.onStreamClose streamId) ∧ (s.onStreamClose streamId).active = true ∧
    (s.onStreamClose streamId).OnStrand := by
  obtain ⟨hobjs, halive, hsession, hentering⟩ :=
    Connection.streamClose_frame s.connection streamId
  have hclosed : (s.onStreamClose streamId).closed = s.closed :=
    congrArg QuicSession.closedNotified hsession
  have hactive : (s.onStreamClose streamId).active = s.active := by
    rw [active, active, hclosed]
    rfl
  have hstep : s.connection.step (.streamClose streamId) =
      some (s.connection.streamClose streamId) := by
    rw [Connection.step_eq_act (Or.inl hstrand.entering), Connection.act, hstrand.alive]
    exact if_pos (by rw [Bool.true_and]; exact Bool.not_eq_true' _ ▸ (active_iff.mp ha).2)
  refine ⟨⟨⟨Reach.tail h.reach trivial hstep, fun _ => halive.trans hstrand.alive, ?_, ?_, ?_,
    fun hnot => ?_⟩, rfl, rfl, rfl, fun _ => ha, halive⟩, hactive.trans ha,
    ⟨halive.trans hstrand.alive, hentering.trans hstrand.entering⟩⟩
  · rw [hactive]
    exact h.packets
  · show _ = List.range (s.connection.streamClose streamId).objs.length
    rw [hobjs]
    exact h.streams
  · rw [hclosed]
    exact h.notified
  · rw [hclosed]
    exact h.inert hnot

theorem Orderly.onStreamData (h : s.Orderly) (hstrand : s.OnStrand) (ha : s.active = true)
    (streamId : StreamId) (bytes : List Byte) :
    Becomes s (s.onStreamData streamId bytes) ∧ (s.onStreamData streamId bytes).active = true ∧
    (s.onStreamData streamId bytes).OnStrand := by
  obtain ⟨hready, hopen⟩ := active_iff.mp ha
  have hstep : s.connection.step (.streamData streamId bytes) =
      some (s.connection.streamData streamId bytes) := by
    rw [Connection.step_eq_act (Or.inl hstrand.entering), Connection.act, hstrand.alive]
    exact if_pos (by rw [Bool.true_and]; exact Bool.not_eq_true' _ ▸ hopen)
  have hreach := Reach.tail h.reach trivial hstep
  rw [ServerSession.onStreamData]
  cases hl : s.connection.streams.lookup streamId with
  | some o =>
      have hdata : s.connection.streamData streamId bytes = s.connection.modifyObj o fun obj =>
          obj.after (obj.stream.handleData bytes) := by
        rw [Connection.streamData, hl]
      rw [hdata] at hreach ⊢
      rw [Option.isNone_some, if_neg Bool.false_ne_true, List.append_nil]
      refine ⟨⟨⟨hreach, h.alive, h.packets, ?_, h.notified, h.inert⟩, rfl, rfl, rfl,
        fun _ => ha, rfl⟩, ha, ⟨hstrand.alive, hstrand.entering⟩⟩
      show _ = List.range (s.connection.objs.modify o _).length
      rw [List.length_modify]
      exact h.streams
  | none =>
      have hdata : s.connection.streamData streamId bytes = { s.connection with
          objs := s.connection.objs ++
            [StreamObj.after (QuicStream.handleData {} bytes) { id := streamId }]
          streams := s.connection.streams.insert streamId s.connection.objs.length } := by
        rw [Connection.streamData, hl]
      rw [hdata] at hreach ⊢
      rw [Option.isNone_none, if_pos rfl]
      have hends : s.ends = s.closings +
          (s.tasks ++ [Posted.newStream s.connection.objs.length]).count .closed := by
        rw [List.count_append]
        rfl
      refine ⟨⟨⟨hreach, fun _ => hstrand.alive, ?_, ?_, h.notified.of_eq hends, h.inert⟩, rfl, rfl,
        rfl, fun _ => ha, rfl⟩, ha, ⟨hstrand.alive, hstrand.entering⟩⟩
      · obtain ⟨dropped, hgiven, hnone⟩ := h.packets
        refine ⟨dropped, ?_, hnone⟩
        show s.given = s.handled ++ dropped ++ Posted.packets (s.tasks ++ _)
        rw [Posted.packets_append, hgiven]
        exact congrArg _ (List.append_nil _).symm
      · show s.muxes ++ Posted.streams (s.tasks ++ _) = List.range (s.connection.objs ++ _).length
        rw [Posted.streams_append, ← List.append_assoc, h.streams, List.length_append]
        exact List.range_succ.symm

theorem Orderly.callback (h : s.Orderly) (hstrand : s.OnStrand) (ha : s.active = true)
    (cb : Callback) :
    Becomes s (s.callback cb) ∧ (s.callback cb).active = true ∧ (s.callback cb).OnStrand := by
  cases cb with
  | recvStreamData streamId bytes fin =>
      have hdata := h.onStreamData hstrand ha streamId bytes
      cases fin with
      | false => exact hdata
      | true =>
          obtain ⟨hfirst, hactive, hstill⟩ := hdata
          obtain ⟨hclose, hrest⟩ := hfirst.orderly.onStreamClose hstill hactive streamId
          exact ⟨hfirst.trans hclose, hrest⟩
  | streamClose streamId => exact h.onStreamClose hstrand ha streamId

theorem Orderly.callbacks (h : s.Orderly) (hstrand : s.OnStrand) (ha : s.active = true)
    (cbs : List Callback) :
    Becomes s (cbs.foldl ServerSession.callback s) ∧
    (cbs.foldl ServerSession.callback s).OnStrand := by
  induction cbs generalizing s with
  | nil => exact ⟨Becomes.refl h, hstrand⟩
  | cons cb cbs ih =>
      obtain ⟨hfirst, hactive, hstill⟩ := h.callback hstrand ha cb
      obtain ⟨hrest, hlast⟩ := ih hfirst.orderly hstill hactive
      exact ⟨hfirst.trans hrest, hlast⟩

theorem orderly_new (endpoint : ε) (ready : Bool) :
    Orderly ({ endpoint, ready : ServerSession ε }) where
  reach := Reach.init
  alive _ := rfl
  packets := ⟨[], rfl, fun _ => rfl⟩
  streams := rfl
  notified := ⟨Nat.zero_le _, fun _ => rfl, fun h => (by cases h)⟩
  inert _ := ⟨rfl, rfl⟩

theorem Orderly.give (h : s.Orderly) (halive : s.connection.alive = true) (packet : List Byte) :
    (s.give packet).Orderly := by
  obtain ⟨dropped, hgiven, hnone⟩ := h.packets
  have hends : s.ends = s.closings + (s.tasks ++ [Posted.handlePacket packet]).count .closed := by
    rw [List.count_append]
    rfl
  refine ⟨h.reach, fun _ => halive, ⟨dropped, ?_, hnone⟩, ?_, h.notified.of_eq hends, h.inert⟩
  · show s.given ++ [packet] = _ ++ Posted.packets (s.tasks ++ _)
    rw [Posted.packets_append, hgiven, List.append_assoc _ _ [packet]]
    rfl
  · show s.muxes ++ Posted.streams (s.tasks ++ _) = _
    rw [Posted.streams_append]
    exact (congrArg _ (List.append_nil _)).trans h.streams

/-- A packet is taken from the strand. -/
theorem Orderly.handlePacket (h : s.Orderly) (hentering : s.connection.entering = none)
    {packet : List Byte} {tasks : List Posted} (htasks : s.tasks = .handlePacket packet :: tasks)
    (cbs : List Callback) (p : Option Packets) :
    Becomes s (ServerSession.handlePacket { s with tasks } packet cbs p) := by
  obtain ⟨dropped, hgiven, hnone⟩ := h.packets
  have halive : s.connection.alive = true := h.alive (by rw [htasks]; rfl)
  have hwaiting : Posted.packets s.tasks = packet :: Posted.packets tasks := by rw [htasks]; rfl
  have hends : s.ends = s.closings + tasks.count .closed := by
    rw [ends, htasks]
    rfl
  have hstreams : s.muxes ++ Posted.streams tasks = List.range s.connection.objs.length := by
    rw [← h.streams, htasks]
    rfl
  rw [hwaiting] at hgiven
  unfold ServerSession.handlePacket
  split
  · rename_i ha
    have hread : Becomes s { s with tasks, handled := s.handled ++ [packet] } := by
      refine ⟨⟨h.reach, fun _ => halive, ⟨[], ?_, fun _ => rfl⟩, hstreams, h.notified.of_eq hends,
        fun hnot => ?_⟩, rfl, rfl, rfl, id, rfl⟩
      · rw [hgiven, hnone ha, List.append_nil, List.append_nil, List.append_assoc]
        rfl
      · have hready : s.ready = true := (active_iff.mp ha).1
        have hnot' : s.ready = false := hnot
        rw [hready] at hnot'
        cases hnot'
    obtain ⟨hcalled, hstrand⟩ := hread.orderly.callbacks ⟨halive, hentering⟩ ha cbs
    cases p with
    | none => exact (hread.trans hcalled).trans (hcalled.orderly.closeSession hstrand.alive)
    | some p => exact (hread.trans hcalled).trans (hcalled.orderly.sendPackets hstrand p)
  · -- nobody reads it
    rename_i hnot
    refine ⟨⟨h.reach, fun _ => halive, ⟨dropped ++ [packet], ?_, fun ha => absurd ha hnot⟩,
      hstreams, h.notified.of_eq hends, h.inert⟩, rfl, rfl, rfl, id, rfl⟩
    rw [hgiven, ← List.append_assoc, List.append_assoc _ [packet]]
    rfl

/-- A stream is taken from the strand. -/
theorem Orderly.newStream (h : s.Orderly) {o : Nat} {tasks : List Posted}
    (htasks : s.tasks = .newStream o :: tasks) :
    Becomes s { s with tasks, muxes := s.muxes ++ [o] } := by
  have hends : s.ends = s.closings + tasks.count .closed := by
    rw [ends, htasks]
    rfl
  have hpackets : Posted.packets s.tasks = Posted.packets tasks := by
    rw [htasks]
    rfl
  have halive : Posted.owning tasks = true → s.connection.alive = true := fun howning =>
    h.alive (by rw [htasks]; exact howning)
  refine ⟨⟨h.reach, halive, hpackets ▸ h.packets, ?_, h.notified.of_eq hends, h.inert⟩,
    rfl, rfl, rfl, id, rfl⟩
  show s.muxes ++ [o] ++ Posted.streams tasks = _
  rw [← h.streams, htasks, List.append_assoc]
  rfl

/-- `on_closed` is posted once. -/
theorem Orderly.closings_eq_zero (h : s.Orderly) {tasks : List Posted}
    (htasks : s.tasks = .closed :: tasks) : s.closings = 0 := by
  have honce := h.notified.once
  rw [ends, htasks, List.count_cons_self] at honce
  omega

/-- `on_closed` is taken from the strand. -/
theorem Orderly.onClosed (h : s.Orderly) {tasks : List Posted}
    (htasks : s.tasks = .closed :: tasks) :
    ServerSession.Orderly { s with tasks, closings := s.closings + 1 } := by
  have hends : s.ends = s.closings + 1 + tasks.count .closed := by
    rw [ends, htasks, List.count_cons_self]
    omega
  have hpackets : Posted.packets s.tasks = Posted.packets tasks := by
    rw [htasks]
    rfl
  have hstreams : Posted.streams s.tasks = Posted.streams tasks := by
    rw [htasks]
    rfl
  have halive : Posted.owning tasks = true → s.connection.alive = true := fun _ =>
    h.alive (by rw [htasks]; rfl)
  exact ⟨h.reach, halive, hpackets ▸ h.packets, hstreams ▸ h.streams, h.notified.of_eq hends,
    h.inert⟩

/-- `set_on_closed(nullptr)`. -/
theorem Orderly.forget (h : s.Orderly) : Becomes s { s with onClosed := false } :=
  ⟨⟨h.reach, h.alive, h.packets, h.streams,
    ⟨h.notified.once, h.notified.early, fun _ hon => (by cases hon)⟩, h.inert⟩,
    rfl, rfl, rfl, id, rfl⟩

end ServerSession

end Cfrp.Quic
