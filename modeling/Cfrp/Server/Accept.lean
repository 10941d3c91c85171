import Cfrp.Server.Effects

/-!
# Accepting connections

The way of a connection from `DoAccept` or `DoUdpRead` to a control session, and the two
timers on that way: `handshake_timer`, which `DoAccept` starts and `start_mux` cancels,
and the `auth_timer` that `HandleNewMuxStream` starts for stream 1. A timer is armed,
then expired, which means that its handler is queued and can no longer be cancelled, and
over when the handler has run or was cancelled.

A connection is closed when its socket, or its QUIC session, is. `Stop` of a control
session posts `stop` to the mux session, and that closes the stream below it: for a TCP
connection the socket, for QUIC one stream of the connection.
-/

namespace Cfrp

open Lib Protocol

abbrev ConnId := Nat
abbrev TimerId := Nat

/-- How far the server has got with a connection. -/
inductive Stage where
  /-- The first byte is being peeked at, to see whether it starts a TLS handshake. -/
  | peeking
  /-- `async_handshake` is outstanding. -/
  | handshaking
  /-- With the protocol `auto`, the first byte is being read. -/
  | firstByte
  /-- With the protocol `auto`, the handshake of the WebSocket is outstanding. -/
  | upgrading
  /-- `start_mux` has run. -/
  | muxed
  /-- The accept path is over. -/
  | dropped
  /-- A QUIC session. -/
  | quic
  deriving DecidableEq

/-- An operation of the accept path is outstanding; its handler holds the
`ConnectionState`. -/
def Stage.pending : Stage → Bool
  | .peeking | .handshaking | .firstByte | .upgrading => true
  | .muxed | .dropped | .quic => false

structure Connection where
  stage : Stage
  /-- `handshake_timer`. A QUIC session has none. -/
  timer : TimerId := 0
  closed : Bool := false
  deriving DecidableEq

/-- A mux session, as far as its end is concerned. -/
structure MuxSession where
  conn : ConnId
  /-- `stop` has been posted or has run. -/
  stopping : Bool := false
  /-- `stop` has run. -/
  stopped : Bool := false
  deriving DecidableEq

inductive TimerState where
  | armed
  | expired
  | over
  deriving DecidableEq

/-- What the handler of a timer is for. -/
inductive TimerTarget where
  | handshake (c : ConnId)
  | auth (k : CtrlId)
  deriving DecidableEq

structure SteadyTimer where
  deadline : Time
  state : TimerState := .armed
  target : TimerTarget
  deriving DecidableEq

/-- `cancel`. It comes too late for a handler that is queued. -/
def SteadyTimer.cancel (t : SteadyTimer) : SteadyTimer :=
  if t.state = .armed then { t with state := .over } else t

/-- Three seconds. -/
def handshakeTimeout : Time := 3000000000

/-- Ten seconds. -/
def authTimeout : Time := 10000000000

/-- The server with the connections it has accepted. -/
structure Frontend where
  server : Server
  protocol : String
  sslEnable : Bool
  conns : List Connection := []
  /-- The mux sessions; a `MuxId` is a place in this list. -/
  muxes : List MuxSession := []
  timers : List SteadyTimer := []
  clock : Time := 0
  /-- The control sessions whose `Stop` a timer has posted. -/
  stops : List CtrlId := []

namespace Frontend

def init (token : String) (allowedPorts : List PortRange) (allowedClients : List String)
    (protocol : String) (sslEnable : Bool) : Frontend :=
  { server := Server.init token allowedPorts allowedClients, protocol, sslEnable }

def modifyConn (s : Frontend) (c : ConnId) (f : Connection → Connection) : Frontend :=
  { s with conns := s.conns.modify c f }

def setStage (s : Frontend) (c : ConnId) (stage : Stage) : Frontend :=
  s.modifyConn c fun conn => { conn with stage }

/-- The socket of a connection is closed. -/
def closeConn (s : Frontend) (c : ConnId) : Frontend :=
  s.modifyConn c fun conn => { conn with closed := true }

/-! ## Timers -/

/-- `expires_after` and `async_wait` of a new timer. -/
def startTimer (s : Frontend) (after : Time) (target : TimerTarget) : Frontend :=
  { s with timers := s.timers ++ [{ deadline := s.clock + after, target }] }

def cancelTimer (s : Frontend) (t : TimerId) : Frontend :=
  { s with timers := s.timers.modify t SteadyTimer.cancel }

def setTimer (s : Frontend) (t : TimerId) (state : TimerState) : Frontend :=
  { s with timers := s.timers.modify t fun timer => { timer with state } }

/-- `weak_state` locks: a handler of the accept path holds the state. -/
def holdsState (s : Frontend) (c : ConnId) : Bool :=
  (s.conns[c]?).any fun conn => conn.stage.pending

/-- Nobody has logged in on the control session, which still exists if `locked`. -/
def awaitsLogin (s : Frontend) (locked : Bool) (k : CtrlId) : Bool :=
  (s.server.controls k).any fun cs => locked && !cs.authenticated

/-- `Stop` of a control session, off its strand. -/
def postStop (s : Frontend) (k : CtrlId) : Frontend := { s with stops := s.stops ++ [k] }

/-- The handler of an expired timer. -/
def runHandler (s : Frontend) (locked : Bool) : TimerTarget → Frontend
  | .handshake c => if s.holdsState c then s.closeConn c else s
  | .auth k => if s.awaitsLogin locked k then s.postStop k else s

/-! ## The accept path -/

/-- The accept handler of `DoAccept`. -/
def accept (s : Frontend) : Frontend :=
  let stage := if s.sslEnable then Stage.peeking else .handshaking
  { s.startTimer handshakeTimeout (.handshake s.conns.length) with
    conns := s.conns ++ [{ stage, timer := s.timers.length }] }

/-- The error paths: the connection is closed and its timer cancelled. -/
def giveUp (s : Frontend) (c : ConnId) (conn : Connection) : Frontend :=
  ((s.closeConn c).setStage c .dropped).cancelTimer conn.timer

/-- `start_mux`. -/
def startMux (s : Frontend) (c : ConnId) (conn : Connection) : Frontend :=
  let s' := (s.setStage c .muxed).cancelTimer conn.timer
  { s' with muxes := s'.muxes ++ [{ conn := c }] }

/-- The handler of the peek. -/
def peeked (s : Frontend) (c : ConnId) (conn : Connection) : Option Byte → Frontend
  | none => s.giveUp c conn
  | some b =>
      if b ≠ 0x16 then s.giveUp c conn
      else if conn.closed then s.setStage c .dropped
      else s.setStage c .handshaking

/-- The handler of `async_handshake`. -/
def handshook (s : Frontend) (c : ConnId) (conn : Connection) (ok : Bool) : Frontend :=
  if ok then
    if s.protocol = "auto" then s.setStage c .firstByte else s.startMux c conn
  else s.giveUp c conn

/-- The handler of the read of the first byte: `G` starts a WebSocket. -/
def firstRead (s : Frontend) (c : ConnId) (conn : Connection) : Option Byte → Frontend
  | none => s.giveUp c conn
  | some b => if b = 0x47 then s.setStage c .upgrading else s.startMux c conn

def upgraded (s : Frontend) (c : ConnId) (conn : Connection) (ok : Bool) : Frontend :=
  if ok then s.startMux c conn else s.giveUp c conn

/-! ## Mux sessions -/

/-- The control branch of `HandleNewMuxStream`. -/
def controlStream (s : Frontend) (m : MuxId) : Frontend :=
  { s.startTimer authTimeout (.auth s.server.nextControl) with
    server := s.server.handleControlStream m }

/-- `stop` of a mux session: it closes the stream below it. -/
def stopMux (s : Frontend) (m : MuxId) (mux : MuxSession) : Frontend :=
  let s' := { s with muxes := s.muxes.set m { mux with stopping := true, stopped := true } }
  match s.conns[mux.conn]? with
  | some conn => if conn.stage = .quic then s' else s'.closeConn mux.conn
  | none => s'

/-- `Stop` of a control session. -/
def stopControl (s : Frontend) (k : CtrlId) (cs : ControlSession) : Frontend :=
  { s with
    server := ControlSession.stop s.server k cs
    muxes := s.muxes.modify cs.muxSession fun mux => { mux with stopping := true } }

/-! ## The transition system -/

inductive Event where
  | accept
  | peeked (c : ConnId) (byte : Option Byte)
  | handshook (c : ConnId) (ok : Bool)
  | firstRead (c : ConnId) (byte : Option Byte)
  | upgraded (c : ConnId) (ok : Bool)
  /-- `DoUdpRead` makes a session for an endpoint it does not know. -/
  | newQuic
  /-- The peer of a QUIC session opens a stream of it. -/
  | quicStream (c : ConnId)
  /-- The QUIC session ends: an error, its peer, or its idle timeout. -/
  | quicClosed (c : ConnId)
  /-- The peer of a mux session opens stream 1. -/
  | controlStream (m : MuxId)
  | message (k : CtrlId) (msg : Message) (thrown : Option Thrown)
  /-- `Stop` of a control session runs, whoever posted it. -/
  | stop (k : CtrlId)
  /-- `stop` of a mux session runs, whoever posted it. -/
  | muxStop (m : MuxId)
  /-- What users of the proxies and work streams do. -/
  | traffic (e : Server.Event)
  | tick (now : Time)
  | expire (t : TimerId)
  | runTimer (t : TimerId) (locked : Bool)

/-- The connection, if its accept path waits in that stage. -/
def waiting (s : Frontend) (c : ConnId) (stage : Stage) : Option Connection :=
  (s.conns[c]?).filter fun conn => conn.stage = stage

/-- A control session lives until it is stopped: the handler of its read holds it. -/
def lockable (s : Frontend) (locked : Bool) : TimerTarget → Bool
  | .handshake _ => true
  | .auth k => (s.server.controls k).all fun cs => cs.stopped || locked

def isTraffic : Server.Event → Bool
  | .acceptUser .. | .receiveUdp .. | .vhostRequest .. | .workStream .. => true
  | .controlStream _ | .message .. | .stop _ => false

def step (s : Frontend) : Event → Option Frontend
  | .accept => some s.accept
  | .peeked c byte => (s.waiting c .peeking).map fun conn => s.peeked c conn byte
  | .handshook c ok => (s.waiting c .handshaking).map fun conn => s.handshook c conn ok
  | .firstRead c byte => (s.waiting c .firstByte).map fun conn => s.firstRead c conn byte
  | .upgraded c ok => (s.waiting c .upgrading).map fun conn => s.upgraded c conn ok
  | .newQuic =>
      if s.protocol = "quic" ∨ s.protocol = "auto" then
        some { s with conns := s.conns ++ [{ stage := .quic }] }
      else none
  | .quicStream c =>
      (s.waiting c .quic).map fun _ => { s with muxes := s.muxes ++ [{ conn := c }] }
  | .quicClosed c => (s.waiting c .quic).map fun _ => s.closeConn c
  | .controlStream m =>
      (s.muxes[m]?).bind fun mux => if mux.stopped then none else some (s.controlStream m)
  | .message k msg thrown =>
      (s.server.step (.message k msg thrown)).map fun server => { s with server }
  | .stop k => (s.server.controls k).map fun cs => s.stopControl k cs
  | .muxStop m => (s.muxes[m]?).map fun mux => s.stopMux m mux
  | .traffic e =>
      if isTraffic e then (s.server.step e).map fun server => { s with server } else none
  | .tick now => if s.clock ≤ now then some { s with clock := now } else none
  | .expire t =>
      (s.timers[t]?).bind fun timer =>
        if timer.state = .armed ∧ timer.deadline ≤ s.clock then some (s.setTimer t .expired)
        else none
  | .runTimer t locked =>
      (s.timers[t]?).bind fun timer =>
        if timer.state = .expired ∧ s.lockable locked timer.target then
          some ((s.setTimer t .over).runHandler locked timer.target)
        else none

end Frontend

end Cfrp
