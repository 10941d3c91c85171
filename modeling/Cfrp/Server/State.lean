import Cfrp.Lib.Table
import Cfrp.Protocol.Messages
import Mathlib.Data.Finset.Insert
import Mathlib.Data.Rat.Defs
import Mathlib.Algebra.Order.Ring.Unbundled.Rat
import Mathlib.Logic.Function.Basic
import Mathlib.Data.List.DropRight

/-!
# The server's tables

The server is one object with a handful of hash tables, keyed by strings its
clients choose, and a heap of control sessions that own entries in them. The
records below follow `server.h`.

Objects that the source reaches through a `shared_ptr` (control sessions, mux
sessions, listeners, sockets) are numbers here. Three kinds of field are not in
the source and only record what happened: `owner` and `owners` say on whose behalf
an entry exists, `stopped` that `Stop` has run, and `sent` and `handed` what left
the server. Nothing the server computes reads them.
-/

namespace Cfrp

open Lib Protocol

/-- A control session object. -/
abbrev CtrlId := Nat
/-- A mux session object. -/
abbrev MuxId := Nat
/-- A listener object. -/
abbrev ListenerId := Nat
/-- An accepted user socket. -/
abbrev Socket := Nat
/-- The address of a UDP user. -/
abbrev Endpoint := Nat
/-- A reading of the steady clock, in nanoseconds. -/
abbrev Time := Nat

/-- `RateLimiter`, as far as the server's tables touch it. -/
structure RateLimiter where
  bytesPerSec : Int
  tokens : Rat
  /-- The sessions whose registrations created it or set its rate. -/
  owners : List CtrlId
  deriving DecidableEq

/-- The constructor: a full bucket. -/
def RateLimiter.make (bytesPerSec : Int) (owner : CtrlId) : RateLimiter :=
  { bytesPerSec := bytesPerSec, tokens := bytesPerSec, owners := [owner] }

def RateLimiter.setRate (rl : RateLimiter) (bytesPerSec : Int) : RateLimiter :=
  { rl with bytesPerSec := bytesPerSec, tokens := min rl.tokens bytesPerSec }

/-- What the limiter computes with. -/
def RateLimiter.bucket (rl : RateLimiter) : Int × Rat := (rl.bytesPerSec, rl.tokens)

structure PortRange where
  start : UInt16
  endPort : UInt16

inductive ListenerKind where
  | tcp
  | udp
  deriving DecidableEq

/-- `ProxyListener` and `UdpProxyListener`. -/
structure Listener where
  id : ListenerId
  kind : ListenerKind
  port : UInt16
  proxyName : String
  session : CtrlId
  deriving DecidableEq

structure ControlSession where
  muxSession : MuxId
  clientName : String := ""
  proxies : List Listener := []
  udpProxies : List Listener := []
  registeredDomains : List String := []
  authenticated : Bool := false
  /-- `Stop` has run at least once. -/
  stopped : Bool := false

structure VhostRoute where
  session : CtrlId
  proxyName : String
  type : String
  deriving DecidableEq

structure TcpSessionInfo where
  socket : Socket
  initialData : List Byte
  proxyName : String
  createdAt : Time
  /-- The session the user connection is for. -/
  owner : CtrlId
  deriving DecidableEq

structure UdpSessionInfo where
  listener : ListenerId
  endpoint : Endpoint
  proxyName : String
  createdAt : Time
  /-- The session the user's datagrams are for. -/
  owner : CtrlId
  deriving DecidableEq

structure TicketExpiration where
  ticket : String
  isUdp : Bool
  expiresAt : Time
  deriving DecidableEq

/-- What a redeemed ticket stands for. -/
inductive Target where
  | tcp (socket : Socket) (initialData : List Byte)
  | udp (listener : ListenerId) (endpoint : Endpoint)
  deriving DecidableEq

/-- One bridge built by `HandleNewMuxStream`: what was handed to a work stream of
which mux session. -/
structure HandOver where
  mux : MuxId
  ticket : String
  useCompression : Bool
  target : Target
  proxyName : String
  /-- The listener whose counters the bridge updates. -/
  stats : Option Listener
  limiter : Option RateLimiter
  owner : CtrlId
  deriving DecidableEq

structure Server where
  token : String
  allowedPorts : List PortRange := []
  allowedClients : List String := []
  /-- The control session objects. -/
  controls : CtrlId → Option ControlSession := fun _ => none
  nextControl : CtrlId := 0
  /-- The listener objects, closed ones included. -/
  listeners : List Listener := []
  /-- The listeners whose acceptor or socket is open. -/
  listening : List ListenerId := []
  vhostRoutes : Table String VhostRoute := ∅
  proxyRateLimiters : Table String RateLimiter := ∅
  pendingUserConns : Table String TcpSessionInfo := ∅
  pendingUdpSessions : Table String UdpSessionInfo := ∅
  ticketExpirationQueue : List TicketExpiration := []
  activeClientNames : Finset String := ∅
  sessions : Table String CtrlId := ∅
  muxToControl : Table MuxId CtrlId := ∅
  /-- `endpoint_to_ticket_` of every UDP listener. -/
  endpointToTicket : Table (ListenerId × Endpoint) String := ∅
  /-- The messages sent so far, in order. -/
  sent : List (CtrlId × Message) := []
  /-- The tickets redeemed so far, in order. -/
  handed : List HandOver := []

namespace Server

/-- A server that has just started. -/
def init (token : String) (allowedPorts : List PortRange) (allowedClients : List String) :
    Server :=
  { token := token, allowedPorts := allowedPorts, allowedClients := allowedClients }

def maxPendingTickets : Nat := 512

/-- Ten seconds: how long a ticket may stay pending. -/
def ticketLifetime : Time := 10000000000

end Server

end Cfrp
