import Mathlib.Logic.Function.Basic
import Cfrp.Lib.Transition

/-!
# Connecting

How the client gets a connection: `DoConnect` resolves the server's name, tries the QUIC
endpoints one after the other or connects by TCP, and `HandleDisconnect` goes on to the
next protocol or waits for the reconnect timer.

Every try is an attempt with a number of its own: one for `DoConnect`, and with QUIC one
for each endpoint. The code has no such numbers; it tells the callbacks of an old attempt
by `connection_id_`, which changes in `DoConnect` and in `HandleDisconnect` only. A task
is a callback that is outstanding or queued, with the attempt it belongs to. Most
callbacks run off the client's strand, and there `HandleDisconnect` posts itself. A callback
runs to its end here; `Threads` takes those that are off the strand apart. `current` is the
attempt the client is at; it, `abandoned` and `tried` are history.
-/

namespace Cfrp

open Lib

abbrev AttemptId := Nat
abbrev UdpEndpoint := Nat

/-- The error codes the callbacks tell apart. -/
inductive ConnectError where
  | success
  | operationAborted
  | connectionRefused
  | connectionReset
  | other
  deriving DecidableEq

inductive TaskKind where
  /-- The handlers of `async_resolve`, `async_connect` and `async_handshake`. -/
  | resolve
  | connect
  | handshake
  /-- The control stream fails: the end of a read or a write, or a message too large. -/
  | control
  /-- The handler of `handshake_timer_`, which has expired. -/
  | timer
  /-- The callbacks of a QUIC session. -/
  | onConnected
  | onClosed
  /-- The handler of `async_receive_from`. -/
  | udp
  /-- `HandleDisconnect`, posted to the strand. -/
  | disconnect
  deriving DecidableEq

structure ClientTask where
  attempt : AttemptId
  connId : Nat
  kind : TaskKind
  deriving DecidableEq

/-- What a callback finds: its error code, the names `async_resolve` found, and the
endpoints `RebindUdpSocketForEndpoint` would succeed for. -/
structure Outcome where
  ec : ConnectError := .success
  results : List UdpEndpoint := []
  usable : UdpEndpoint → Bool := fun _ => true

structure QuicAttempt where
  connId : Nat
  /-- `closed_notified_`. -/
  closed : Bool := false
  deriving DecidableEq

/-- Who ends an attempt. -/
inductive Cause where
  | callback (a : AttemptId)
  | reconnect
  | user
  deriving DecidableEq

structure Connector where
  protocol : String
  currentProtocol : String
  connectionId : Nat := 0
  quicEndpoints : List UdpEndpoint := []
  quicEndpointIndex : Nat := 0
  /-- The QUIC sessions, named by the attempts that made them. -/
  quicAttempts : AttemptId → Option QuicAttempt := fun _ => none
  quicSession : Option AttemptId := none
  muxSession : Option AttemptId := none
  /-- The attempt whose wait on `handshake_timer_` is pending, with its `conn_id`. -/
  handshakeTimer : Option (AttemptId × Nat) := none
  /-- The attempt `udp_socket_` is open for. -/
  udpSocket : Option AttemptId := none
  reconnectDelay : Nat := 0
  /-- `reconnect_timer_` is armed. -/
  reconnectTimer : Bool := false
  /-- How many handlers of `reconnect_timer_` are queued. To arm the timer again does not
  take them back. -/
  reconnects : Nat := 0
  /-- How many times `DoConnect` is posted. -/
  connects : Nat := 0
  stopping : Bool := false
  tasks : List ClientTask := []
  nextAttempt : AttemptId := 0
  current : Option AttemptId := none
  /-- The attempts that were replaced or given up, each with who did it. -/
  abandoned : List (AttemptId × Cause) := []
  /-- `current_protocol_` at each `DoConnect`. -/
  tried : List String := []

namespace Connector

/-- The client after `Run`, `DoConnect` to come. -/
def init (protocol : String) : Connector :=
  { protocol, currentProtocol := if protocol = "auto" then "quic" else protocol, connects := 1 }

def push (s : Connector) (a : AttemptId) (connId : Nat) (kind : TaskKind) : Connector :=
  { s with tasks := s.tasks ++ [⟨a, connId, kind⟩] }

def postDisconnect (s : Connector) (t : ClientTask) : Connector :=
  s.push t.attempt t.connId .disconnect

/-- The attempt the client is at, if any, is over. -/
def abandon (s : Connector) (cause : Cause) : List (AttemptId × Cause) :=
  s.abandoned ++ s.current.toList.map fun a => (a, cause)

/-- `cancel`. The handler it aborts returns at once and is left out. -/
def cancelTimer (s : Connector) : Connector := { s with handshakeTimer := none }

/-! ## QUIC sessions -/

/-- `close_session`: its callback is posted, once. -/
def closeSession (s : Connector) (a : AttemptId) : Connector :=
  match s.quicAttempts a with
  | some q =>
      if q.closed then s
      else
        { s with
          quicAttempts := Function.update s.quicAttempts a (some { q with closed := true }) }.push
          a q.connId .onClosed
  | none => s

/-- `quic_session_` is closed and reset. -/
def dropSession (s : Connector) : Connector :=
  match s.quicSession with
  | some a => { s.closeSession a with quicSession := none }
  | none => s

/-- `DoUdpRead`, on the socket as it is. A receive on a closed socket, which fails at
once, stays with the attempt that asked for it. -/
def doUdpRead (s : Connector) (a : AttemptId) : Connector :=
  s.push (s.udpSocket.getD a) s.connectionId .udp

/-- `DoQuicConnect`: a new attempt. -/
def doQuicConnect (s : Connector) (connId : Nat) (cause : Cause) : Connector :=
  let a := s.nextAttempt
  { s with
    nextAttempt := a + 1
    current := some a
    abandoned := s.abandon cause
    quicAttempts := Function.update s.quicAttempts a (some { connId })
    quicSession := some a
    udpSocket := some a
    handshakeTimer := some (a, connId) }.doUdpRead a

/-- The loop of `TryNextQuicEndpoint`: how many endpoints it passes, the first usable
one included. -/
def nextUsable (usable : UdpEndpoint → Bool) : List UdpEndpoint → Option Nat
  | [] => none
  | e :: es => if usable e then some 1 else (nextUsable usable es).map (· + 1)

/-- `TryNextQuicEndpoint` past its look at `connection_id_`, with its result. -/
def nextQuicEndpoint (s : Connector) (connId : Nat) (cause : Cause)
    (usable : UdpEndpoint → Bool) : Connector × Bool :=
  let s := s.cancelTimer.dropSession
  match nextUsable usable (s.quicEndpoints.drop s.quicEndpointIndex) with
  | some n =>
      ({ s with quicEndpointIndex := s.quicEndpointIndex + n }.doQuicConnect connId cause, true)
  | none =>
      -- every rebinding closed the socket
      let udpSocket := if s.quicEndpointIndex < s.quicEndpoints.length then none else s.udpSocket
      ({ s with
        quicEndpointIndex := max s.quicEndpointIndex s.quicEndpoints.length, udpSocket }, false)

/-- `TryNextQuicEndpoint`. -/
def tryNextQuicEndpoint (s : Connector) (connId : Nat) (cause : Cause)
    (usable : UdpEndpoint → Bool) : Connector × Bool :=
  if connId ≠ s.connectionId then (s, false) else s.nextQuicEndpoint connId cause usable

/-! ## Disconnecting -/

def scheduleReconnect (s : Connector) : Connector :=
  { s with
    reconnectDelay := if s.reconnectDelay < 600 then s.reconnectDelay + 10 else s.reconnectDelay
    reconnectTimer := true }

/-- `HandleDisconnect`, on the strand. -/
def handleDisconnect (s : Connector) (cause : Cause) : Connector :=
  let s := { s with
    connectionId := s.connectionId + 1, muxSession := none
    current := none, abandoned := s.abandon cause }
  let s := { s.dropSession with udpSocket := none }
  if s.stopping then s
  else if s.protocol = "auto" then
    if s.currentProtocol = "quic" then
      { s with currentProtocol := "tcp", connects := s.connects + 1 }
    else if s.currentProtocol = "tcp" then
      { s with currentProtocol := "websocket", connects := s.connects + 1 }
    else { s with currentProtocol := "quic" }.scheduleReconnect
  else s.scheduleReconnect

/-! ## Connecting -/

/-- `DoConnect`. -/
def doConnect (s : Connector) : Connector :=
  let a := s.nextAttempt
  { s with
    connectionId := s.connectionId + 1
    nextAttempt := a + 1
    current := some a
    abandoned := s.abandon .reconnect
    tried := s.tried ++ [s.currentProtocol] }.push a (s.connectionId + 1) .resolve

/-- `OnConnect`: the login is written and the first header read. -/
def onConnect (s : Connector) (t : ClientTask) (ec : ConnectError) : Connector :=
  let s := s.cancelTimer
  if ec = .success then
    { s with reconnectDelay := 0, muxSession := some t.attempt }.push t.attempt
      s.connectionId .control
  else s.postDisconnect t

/-- The body of a callback. -/
def handler (s : Connector) (t : ClientTask) (out : Outcome) : Connector :=
  match t.kind with
  | .resolve =>
      if t.connId ≠ s.connectionId then s
      else if out.ec ≠ .success then s.handleDisconnect (.callback t.attempt)
      else if s.currentProtocol = "quic" then
        let s := { s with quicEndpoints := out.results.eraseDups, quicEndpointIndex := 0 }
        match s.tryNextQuicEndpoint t.connId (.callback t.attempt) out.usable with
        | (s, true) => s
        | (s, false) => s.handleDisconnect (.callback t.attempt)
      else s.push t.attempt t.connId .connect
  | .connect =>
      if t.connId ≠ s.connectionId then s
      else if out.ec = .success then s.push t.attempt t.connId .handshake
      else s.handleDisconnect (.callback t.attempt)
  | .handshake => if t.connId ≠ s.connectionId then s else s.onConnect t out.ec
  | .control => if t.connId ≠ s.connectionId then s else s.postDisconnect t
  | .timer =>
      if t.connId ≠ s.connectionId then s
      else if s.currentProtocol ≠ "quic" then s
      else if s.protocol = "auto" then
        match s.tryNextQuicEndpoint t.connId (.callback t.attempt) out.usable with
        | (s, true) => s
        | (s, false) => s.postDisconnect t
      else s.postDisconnect t
  | .onConnected =>
      if t.connId ≠ s.connectionId then s
      else if (s.quicAttempts t.attempt).any fun q => !q.closed then s.onConnect t .success
      else s.cancelTimer.postDisconnect t
  | .onClosed =>
      if t.connId ≠ s.connectionId then s
      else
        match s.cancelTimer.tryNextQuicEndpoint t.connId (.callback t.attempt) out.usable with
        | (s, true) => s
        | (s, false) => s.postDisconnect t
  | .udp =>
      if out.ec = .success then s.doUdpRead t.attempt
      else if out.ec = .operationAborted then s
      else if out.ec = .connectionRefused ∨ out.ec = .connectionReset then s.postDisconnect t
      else if s.udpSocket.isSome then s.doUdpRead t.attempt
      else s
  | .disconnect => s.handleDisconnect (.callback t.attempt)

/-! ## The transition system -/

inductive Event where
  /-- The posted `DoConnect`, which does nothing once the client stops. -/
  | connect
  /-- `reconnect_timer_` fires: its handler is queued. -/
  | fire
  /-- A handler of `reconnect_timer_` runs. -/
  | reconnect
  /-- The wait on `handshake_timer_` is over. -/
  | expire
  /-- A QUIC session completes its handshake. -/
  | quicConnected (a : AttemptId)
  /-- A QUIC session closes by itself: its peer, an error, or its idle timeout. -/
  | quicClosed (a : AttemptId)
  | run (t : ClientTask) (out : Outcome)
  | stop

/-- The control stream may fail more than once. -/
def consume (s : Connector) (t : ClientTask) : Connector :=
  if t.kind = .control then s else { s with tasks := s.tasks.erase t }

def step (s : Connector) : Event → Option Connector
  | .connect =>
      if s.connects = 0 then none
      else
        let s := { s with connects := s.connects - 1 }
        some (if s.stopping then s else s.doConnect)
  | .fire =>
      if s.reconnectTimer then
        some { s with reconnectTimer := false, reconnects := s.reconnects + 1 }
      else none
  | .reconnect =>
      if s.reconnects = 0 then none
      else some { s with reconnects := s.reconnects - 1 }.doConnect
  | .expire => s.handshakeTimer.map fun w => s.cancelTimer.push w.1 w.2 .timer
  | .quicConnected a =>
      (s.quicAttempts a).bind fun q =>
        if q.closed then none else some (s.push a q.connId .onConnected)
  | .quicClosed a =>
      (s.quicAttempts a).bind fun q => if q.closed then none else some (s.closeSession a)
  | .run t out => if t ∈ s.tasks then some ((s.consume t).handler t out) else none
  | .stop => some ({ s with stopping := true }.handleDisconnect .user)

end Connector

end Cfrp
