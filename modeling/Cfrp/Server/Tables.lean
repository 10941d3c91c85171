import Cfrp.Server.State
import Mathlib.Data.Finset.Card

/-!
# The server's own methods

One definition for each method of `Server` that touches a table. Every method
holds the mutex of the tables it touches, so each is one step here. The clock
readings a method takes are its argument `now`.
-/

namespace Cfrp

open Lib Protocol

namespace Server

/-! ## Client names -/

/-- The suffix loop of `AllocateClientName`, unrolled `fuel` times at most. -/
def suffixLoop (active : Finset String) (name : String) : Nat → Nat → String → String
  | 0, _, finalName => finalName
  | fuel + 1, suffix, finalName =>
      if finalName ∈ active then
        suffixLoop active name fuel (suffix + 1) (name ++ "_" ++ toString suffix)
      else finalName

/-- The name `AllocateClientName` settles on. -/
def freeClientName (active : Finset String) (requestedName : String) : String :=
  let name := if requestedName = "" then "client" else requestedName
  suffixLoop active name (active.card + 1) 1 name

def allocateClientName (s : Server) (requestedName : String) (session : CtrlId) :
    Server × String :=
  let finalName := freeClientName s.activeClientNames requestedName
  ({ s with
      activeClientNames := insert finalName s.activeClientNames
      sessions := s.sessions.insert finalName session }, finalName)

def releaseClientName (s : Server) (name : String) : Server :=
  { s with
    activeClientNames := s.activeClientNames.erase name
    sessions := s.sessions.erase name }

def isPortAllowed (s : Server) (port : UInt16) : Bool :=
  s.allowedPorts.isEmpty ||
    s.allowedPorts.any fun range => port ≥ range.start && port ≤ range.endPort

def isClientAllowed (s : Server) (name : String) : Bool :=
  s.allowedClients.isEmpty || s.allowedClients.contains name

/-! ## Routes and rate limiters -/

def addVhostRoute (s : Server) (domain : String) (session : CtrlId) (proxyName type : String) :
    Server :=
  { s with vhostRoutes := s.vhostRoutes.insert domain ⟨session, proxyName, type⟩ }

def removeVhostRoute (s : Server) (domain : String) : Server :=
  { s with vhostRoutes := s.vhostRoutes.erase domain }

/-- `owner` is the session whose registration asks for the limiter. -/
def createRateLimiter (s : Server) (proxyName : String) (bytesPerSec : Int) (owner : CtrlId) :
    Server :=
  match s.proxyRateLimiters.lookup proxyName with
  | none =>
      { s with
        proxyRateLimiters :=
          s.proxyRateLimiters.insert proxyName (RateLimiter.make bytesPerSec owner) }
  | some rl =>
      { s with
        proxyRateLimiters := s.proxyRateLimiters.insert proxyName
          { rl.setRate bytesPerSec with owners := rl.owners.insert owner } }

def removeRateLimiter (s : Server) (proxyName : String) : Server :=
  { s with proxyRateLimiters := s.proxyRateLimiters.erase proxyName }

def removeMuxControl (s : Server) (mux : MuxId) : Server :=
  { s with muxToControl := s.muxToControl.erase mux }

/-! ## Pending tickets -/

def clearPendingForProxy (s : Server) (proxyName : String) : Server :=
  { s with
    pendingUserConns := Table.eraseIf s.pendingUserConns fun i => i.proxyName == proxyName
    pendingUdpSessions := Table.eraseIf s.pendingUdpSessions fun i => i.proxyName == proxyName }

/-- `UdpProxyListener::RemoveEndpoint`. -/
def removeEndpoint (s : Server) (listener : ListenerId) (endpoint : Endpoint) : Server :=
  { s with endpointToTicket := s.endpointToTicket.erase (listener, endpoint) }

/-- What `DoLazyCleanup` does with an expired ticket. -/
def expireTicket (s : Server) (t : TicketExpiration) : Server :=
  if t.isUdp then
    match s.pendingUdpSessions.lookup t.ticket with
    | some info =>
        { s.removeEndpoint info.listener info.endpoint with
          pendingUdpSessions := s.pendingUdpSessions.erase t.ticket }
    | none => s
  else { s with pendingUserConns := s.pendingUserConns.erase t.ticket }

def cleanupLoop (now : Time) : Server → List TicketExpiration → Server
  | s, [] => { s with ticketExpirationQueue := [] }
  | s, oldest :: rest =>
      if oldest.expiresAt ≤ now then cleanupLoop now (s.expireTicket oldest) rest
      else { s with ticketExpirationQueue := oldest :: rest }

def doLazyCleanup (s : Server) (now : Time) : Server :=
  cleanupLoop now s s.ticketExpirationQueue

/-- The number of tickets pending. -/
def pendingTickets (s : Server) : Nat :=
  s.pendingUserConns.entries.length + s.pendingUdpSessions.entries.length

def registerUserConn (s : Server) (ticket : String) (socket : Socket) (proxyName : String)
    (initialData : List Byte) (now : Time) (owner : CtrlId) : Server :=
  let s := s.doLazyCleanup now
  if s.pendingTickets ≥ maxPendingTickets then s
  else
    { s with
      pendingUserConns :=
        Table.emplace s.pendingUserConns ticket ⟨socket, initialData, proxyName, now, owner⟩
      ticketExpirationQueue :=
        s.ticketExpirationQueue ++ [⟨ticket, false, now + ticketLifetime⟩] }

def registerUdpSession (s : Server) (ticket : String) (listener : ListenerId)
    (endpoint : Endpoint) (proxyName : String) (now : Time) (owner : CtrlId) : Server :=
  let s := s.doLazyCleanup now
  if s.pendingTickets ≥ maxPendingTickets then s
  else
    { s with
      pendingUdpSessions :=
        Table.emplace s.pendingUdpSessions ticket ⟨listener, endpoint, proxyName, now, owner⟩
      ticketExpirationQueue :=
        s.ticketExpirationQueue ++ [⟨ticket, true, now + ticketLifetime⟩] }

/-! ## Objects -/

/-- Replace one control session object. -/
def setControl (s : Server) (c : CtrlId) (cs : ControlSession) : Server :=
  { s with controls := Function.update s.controls c (some cs) }

/-- `ControlSession::SendMessage`. -/
def sendMessage (s : Server) (c : CtrlId) (msg : Message) : Server :=
  { s with sent := s.sent ++ [(c, msg)] }

/-- The constructor of a listener, its port bound. -/
def openListener (s : Server) (kind : ListenerKind) (port : UInt16) (proxyName : String)
    (session : CtrlId) : Server × Listener :=
  let l : Listener := ⟨s.listeners.length, kind, port, proxyName, session⟩
  ({ s with listeners := s.listeners ++ [l], listening := l.id :: s.listening }, l)

/-- `Stop` of a listener: its acceptor or socket is closed. -/
def closeListener (s : Server) (l : Listener) : Server :=
  { s with listening := s.listening.filter (· ≠ l.id) }

end Server

end Cfrp
