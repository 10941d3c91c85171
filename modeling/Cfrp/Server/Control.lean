import Cfrp.Server.Tables

/-!
# Control sessions and user traffic

The handlers that work on the server's tables: `HandleMessage` and `Stop` of a
control session, the accept and receive handlers of the listeners, and the two
branches of `HandleNewMuxStream`. A handler runs to its end before another one
starts. `Stop` inside a handler only posts itself to the session's strand, so it
is a step of its own and not part of the handler that calls it.
-/

namespace Cfrp

open Lib Protocol

/-! ## Control messages -/

/-- An exception thrown inside a registration's `try` block: its text, and how many of the
custom domains were routed before it. -/
structure Thrown where
  what : String
  routed : Nat := 0
  deriving DecidableEq

namespace ControlSession

def findProxy (cs : ControlSession) (name : String) : Option Listener :=
  cs.proxies.find? fun p => p.proxyName == name

def findUdpProxy (cs : ControlSession) (name : String) : Option Listener :=
  cs.udpProxies.find? fun p => p.proxyName == name

def handleLogin (s : Server) (c : CtrlId) (cs : ControlSession) (m : LoginMessage) : Server :=
  if m.token ≠ s.token then
    s.sendMessage c (.loginResp { status := "error", message := "Invalid token" })
  else if !s.isClientAllowed m.name then
    s.sendMessage c (.loginResp { status := "error", message := "client name not allowed" })
  else
    let (s, clientName) := s.allocateClientName m.name c
    let s := s.setControl c { cs with clientName := clientName, authenticated := true }
    s.sendMessage c (.loginResp { status := "ok", name := clientName })

/-- The types served through the vhost tables instead of a listener of their own. -/
def isVhostType (type : String) : Bool := type == "http" || type == "https"

/-- The loop over `custom_domains`. -/
def addDomains (s : Server) (c : CtrlId) (cs : ControlSession) (proxyName type : String) :
    List String → Server × ControlSession
  | [] => (s, cs)
  | domain :: rest =>
      addDomains (s.addVhostRoute domain c proxyName type) c
        { cs with registeredDomains := cs.registeredDomains.insert domain } proxyName type rest

/-- The `RegisterProxy` branch of `HandleMessage`. `thrown` is the exception of the
listener's constructor, if its port cannot be bound, or of the insertion of a route. -/
def handleRegisterProxy (s : Server) (c : CtrlId) (cs : ControlSession)
    (m : RegisterProxyMessage) (thrown : Option Thrown) : Server :=
  let type := if m.type = "" then "tcp" else m.type
  let s := if m.bandwidthLimit > 0 then s.createRateLimiter m.name m.bandwidthLimit c else s
  if !isVhostType type && !s.isPortAllowed m.remotePort then
    s.sendMessage c (.registerProxyResp ⟨"error", m.name, "port not allowed"⟩)
  else if isVhostType type then
    match thrown with
    | some e =>
        -- the domains routed before the exception stay
        let (s, cs) := addDomains s c cs m.name type (m.customDomains.take e.routed)
        (s.setControl c cs).sendMessage c (.registerProxyResp ⟨"error", m.name, e.what⟩)
    | none =>
        let (s, cs) := addDomains s c cs m.name type m.customDomains
        (s.setControl c cs).sendMessage c (.registerProxyResp ⟨"ok", m.name, ""⟩)
  else
    match thrown with
    | some e => s.sendMessage c (.registerProxyResp ⟨"error", m.name, e.what⟩)
    | none =>
        let kind := if type = "udp" then ListenerKind.udp else ListenerKind.tcp
        let (s, listener) := s.openListener kind m.remotePort m.name c
        let cs := match kind with
          | .udp => { cs with udpProxies := cs.udpProxies ++ [listener] }
          | .tcp => { cs with proxies := cs.proxies ++ [listener] }
        (s.setControl c cs).sendMessage c (.registerProxyResp ⟨"ok", m.name, ""⟩)

/-- The `UnregisterProxy` branch of `HandleMessage`. -/
def handleUnregisterProxy (s : Server) (c : CtrlId) (cs : ControlSession) (name : String) :
    Server :=
  match cs.findProxy name with
  | some p => (s.closeListener p).setControl c { cs with proxies := cs.proxies.erase p }
  | none =>
      match cs.findUdpProxy name with
      | some p => (s.closeListener p).setControl c { cs with udpProxies := cs.udpProxies.erase p }
      | none => s

def handleMessage (s : Server) (c : CtrlId) (cs : ControlSession) (msg : Message)
    (thrown : Option Thrown) : Server :=
  match msg with
  | .login m => handleLogin s c cs m
  | .registerProxy m =>
      if cs.authenticated then handleRegisterProxy s c cs m thrown else s
  | .unregisterProxy m =>
      if cs.authenticated then handleUnregisterProxy s c cs m.name else s
  | _ => s

/-! ## Stopping -/

/-- One turn of the loops of `Stop` over `proxies_` and `udp_proxies_`. -/
def stopProxy (s : Server) (p : Listener) : Server :=
  ((s.clearPendingForProxy p.proxyName).removeRateLimiter p.proxyName).closeListener p

def stop (s : Server) (c : CtrlId) (cs : ControlSession) : Server :=
  let s := if cs.authenticated then s.releaseClientName cs.clientName else s
  let s := s.removeMuxControl cs.muxSession
  let s := cs.proxies.foldl stopProxy s
  let s := cs.udpProxies.foldl stopProxy s
  let s := cs.registeredDomains.foldl Server.removeVhostRoute s
  s.setControl c
    { cs with proxies := [], udpProxies := [], registeredDomains := [], stopped := true }

end ControlSession

namespace Server

/-! ## User traffic -/

/-- Tell the session about a new user connection, if its `weak_ptr` still locks. -/
def announce (s : Server) (locked : Bool) (c : CtrlId) (proxyName ticket : String) : Server :=
  if locked then s.sendMessage c (.newUserConn ⟨proxyName, ticket⟩) else s

/-- Telling the session is all that is done. -/
theorem announce_eq (s : Server) (locked : Bool) (c : CtrlId) (proxyName ticket : String) :
    ∃ sent, s.announce locked c proxyName ticket = { s with sent } := by
  cases locked with
  | false => exact ⟨s.sent, rfl⟩
  | true => exact ⟨_, rfl⟩

/-- The accept handler of `ProxyListener::DoAccept`. -/
def acceptUser (s : Server) (l : Listener) (ticket : String) (socket : Socket) (now : Time)
    (locked : Bool) : Server :=
  (s.registerUserConn ticket socket l.proxyName [] now l.session).announce locked l.session
    l.proxyName ticket

/-- The receive handler of `UdpProxyListener::DoReceive`. `ticket` is the ticket drawn
when the sender has none. -/
def receiveUdp (s : Server) (l : Listener) (endpoint : Endpoint) (ticket : String) (now : Time)
    (locked : Bool) : Server :=
  match s.endpointToTicket.lookup (l.id, endpoint) with
  | some _ => s
  | none =>
      let s := { s with endpointToTicket := s.endpointToTicket.insert (l.id, endpoint) ticket }
      (s.registerUdpSession ticket l.id endpoint l.proxyName now l.session).announce locked
        l.session l.proxyName ticket

/-- The end of `DoVhostAccept`'s read handler, with the domain it extracted. A route
whose session is gone dispatches nothing. -/
def dispatchVhost (s : Server) (domain : String) (data : List Byte) (ticket : String)
    (socket : Socket) (now : Time) (locked : Bool) : Server :=
  match s.vhostRoutes.lookup domain with
  | none => s
  | some route =>
      if locked then
        (s.registerUserConn ticket socket route.proxyName data now route.session).sendMessage
          route.session (.newUserConn ⟨route.proxyName, ticket⟩)
      else s

/-! ## Mux streams -/

/-- The control branch of `HandleNewMuxStream`: stream 1 of a mux session. -/
def handleControlStream (s : Server) (mux : MuxId) : Server :=
  { s.setControl s.nextControl { muxSession := mux } with
    nextControl := s.nextControl + 1
    muxToControl := s.muxToControl.insert mux s.nextControl }

/-- The characters `ticket.erase(ticket.find_last_not_of(" \n\r\t") + 1)` drops. -/
def isTicketSpace (c : Char) : Bool := c == ' ' || c == '\n' || c == '\r' || c == '\t'

/-- The ticket in the 65 bytes of a work stream: all but the first, trimmed. -/
def ticketOf (bytes : List Byte) : String :=
  String.ofList (((bytes.drop 1).map fun b => Char.ofNat b.toNat).rdropWhile isTicketSpace)

/-- The work branch of `HandleNewMuxStream`: its read handler, with the 65 bytes. -/
def handleWorkStream (s : Server) (mux : MuxId) (bytes : List Byte) : Server :=
  let useCompression := bytes.head? == some 1
  let ticket := ticketOf bytes
  let control := (s.muxToControl.lookup mux).bind s.controls
  match s.pendingUserConns.lookup ticket with
  | some info =>
      { s with
        pendingUserConns := s.pendingUserConns.erase ticket
        handed := s.handed ++
          [{ mux, ticket, useCompression
             target := .tcp info.socket info.initialData
             proxyName := info.proxyName
             stats := control.bind fun cs => cs.findProxy info.proxyName
             limiter := s.proxyRateLimiters.lookup info.proxyName
             owner := info.owner }] }
  | none =>
      match s.pendingUdpSessions.lookup ticket with
      | some info =>
          { s.removeEndpoint info.listener info.endpoint with
            pendingUdpSessions := s.pendingUdpSessions.erase ticket
            handed := s.handed ++
              [{ mux, ticket, useCompression
                 target := .udp info.listener info.endpoint
                 proxyName := info.proxyName
                 stats := control.bind fun cs => cs.findUdpProxy info.proxyName
                 limiter := s.proxyRateLimiters.lookup info.proxyName
                 owner := info.owner }] }
      | none => s

/-! ## The transition system -/

/-- The handlers that can run, each with what it receives from outside. -/
inductive Event where
  /-- A mux session's peer opens stream 1. -/
  | controlStream (mux : MuxId)
  /-- A control session has read a message. -/
  | message (c : CtrlId) (msg : Message) (thrown : Option Thrown)
  /-- `Stop` of a control session runs, posted by a timer, an error or a message. -/
  | stop (c : CtrlId)
  | acceptUser (l : Listener) (ticket : String) (socket : Socket) (now : Time) (locked : Bool)
  | receiveUdp (l : Listener) (endpoint : Endpoint) (ticket : String) (now : Time)
      (locked : Bool)
  | vhostRequest (domain : String) (data : List Byte) (ticket : String) (socket : Socket)
      (now : Time) (locked : Bool)
  /-- A work stream has delivered its 65 bytes. -/
  | workStream (mux : MuxId) (bytes : List Byte)

/-- A `weak_ptr` to a session locks as long as a table holds the session. -/
def held (s : Server) (c : CtrlId) : Bool :=
  s.sessions.entries.any (fun e => e.2 == c) || s.muxToControl.entries.any (fun e => e.2 == c)

def step (s : Server) : Event → Option Server
  | .controlStream mux => some (s.handleControlStream mux)
  | .message c msg thrown =>
      (s.controls c).map fun cs => ControlSession.handleMessage s c cs msg thrown
  | .stop c => (s.controls c).map fun cs => ControlSession.stop s c cs
  | .acceptUser l ticket socket now locked =>
      if l ∈ s.listeners ∧ l.kind = .tcp ∧ (s.held l.session → locked) then
        some (s.acceptUser l ticket socket now locked)
      else none
  | .receiveUdp l endpoint ticket now locked =>
      if l ∈ s.listeners ∧ l.kind = .udp ∧ (s.held l.session → locked) then
        some (s.receiveUdp l endpoint ticket now locked)
      else none
  | .vhostRequest domain data ticket socket now locked =>
      if ∀ route, s.vhostRoutes.lookup domain = some route → s.held route.session → locked then
        some (s.dispatchVhost domain data ticket socket now locked)
      else none
  | .workStream mux bytes =>
      if bytes.length = 65 then some (s.handleWorkStream mux bytes) else none

end Server

end Cfrp
