import Cfrp.Lib.Json
import Cfrp.Protocol.Binary
import Cfrp.Server.State

/-!
# The management interface

What `/api/v1/clients` answers. `GetClientsJson` writes the document by hand and splices the
names into it as they are; `clientsDocument` is the document that it means to write.
-/

namespace Cfrp

open Lib
open Protocol (bytesOf)

structure ProxyStats where
  name : List Byte
  type : List Byte
  port : UInt16
  activeConns : Int32 := 0
  totalConns : Int32 := 0
  bytesSent : UInt64 := 0
  bytesReceived : UInt64 := 0
  deriving DecidableEq

structure ClientInfo where
  name : List Byte
  endpoint : List Byte
  protocol : List Byte
  proxies : List ProxyStats
  deriving DecidableEq

/-! ## What is reported -/

/-- The counters of a listener. -/
structure Counters where
  activeConns : Int32
  totalConns : Int32
  bytesSent : UInt64
  bytesReceived : UInt64

/-- What a stream says of itself. -/
structure Peer where
  remoteEndpointString : List Byte
  protocolName : List Byte

/-- `GetStats`. A UDP listener has no active connections. -/
def Listener.getStats (l : Listener) (n : Counters) : ProxyStats where
  name := bytesOf l.proxyName
  type := match l.kind with
    | .tcp => bytesOf "tcp"
    | .udp => bytesOf "udp"
  port := l.port
  activeConns := match l.kind with
    | .tcp => n.activeConns
    | .udp => 0
  totalConns := n.totalConns
  bytesSent := n.bytesSent
  bytesReceived := n.bytesReceived

def ControlSession.getInfo (c : ControlSession) (peer : Peer) (counters : ListenerId → Counters) :
    ClientInfo where
  name := bytesOf c.clientName
  endpoint := peer.remoteEndpointString
  protocol := peer.protocolName
  proxies := (c.proxies.map fun p => p.getStats (counters p.id)) ++
    c.udpProxies.map fun p => p.getStats (counters p.id)

/-- The values of `sessions_`, as the loop comes upon them, each with the stream of its session. -/
def getClientsInfo (sessions : List (Option (ControlSession × Peer)))
    (counters : ListenerId → Counters) : List ClientInfo :=
  sessions.filterMap fun second => second.map fun (c, peer) => c.getInfo peer counters

structure TrafficStats where
  bytesSent : UInt64
  bytesReceived : UInt64

def getTotalStats (sessions : List (Option (ControlSession × Peer)))
    (counters : ListenerId → Counters) : TrafficStats :=
  let proxies := (getClientsInfo sessions counters).flatMap ClientInfo.proxies
  { bytesSent := proxies.foldl (fun sent p => sent + p.bytesSent) 0
    bytesReceived := proxies.foldl (fun received p => received + p.bytesReceived) 0 }

/-! ## What is written -/

/-- A loop that writes a comma after every turn but the last. -/
def writeAll {α : Type} (write : α → List Byte) : List α → List Byte
  | [] => []
  | x :: xs => write x ++ (if xs.isEmpty then [] else bytesOf ",") ++ writeAll write xs

def ProxyStats.json (p : ProxyStats) : List Byte :=
  bytesOf "\x7b" ++
    bytesOf "\"name\": \"" ++ p.name ++ bytesOf "\"," ++
    bytesOf "\"type\": \"" ++ p.type ++ bytesOf "\"," ++
    bytesOf "\"port\": " ++ bytesOf (toString p.port.toNat) ++ bytesOf "," ++
    bytesOf "\"active_conns\": " ++ bytesOf (toString p.activeConns.toInt) ++ bytesOf "," ++
    bytesOf "\"total_conns\": " ++ bytesOf (toString p.totalConns.toInt) ++ bytesOf "," ++
    bytesOf "\"bytes_sent\": " ++ bytesOf (toString p.bytesSent.toNat) ++ bytesOf "," ++
    bytesOf "\"bytes_received\": " ++ bytesOf (toString p.bytesReceived.toNat) ++
    bytesOf "\x7d"

def ClientInfo.json (c : ClientInfo) : List Byte :=
  bytesOf "\x7b" ++
    bytesOf "\"name\": \"" ++ c.name ++ bytesOf "\"," ++
    bytesOf "\"endpoint\": \"" ++ c.endpoint ++ bytesOf "\"," ++
    bytesOf "\"protocol\": \"" ++ c.protocol ++ bytesOf "\"," ++
    bytesOf "\"proxies\": [" ++ writeAll ProxyStats.json c.proxies ++
    bytesOf "]\x7d"

def getClientsJson (clients : List ClientInfo) : List Byte :=
  bytesOf "[" ++ writeAll ClientInfo.json clients ++ bytesOf "]"

/-! ## What is meant -/

def ProxyStats.document (p : ProxyStats) : Json := .obj [
  (bytesOf "name", .str p.name),
  (bytesOf "type", .str p.type),
  (bytesOf "port", .num p.port.toNat 0),
  (bytesOf "active_conns", .num p.activeConns.toInt 0),
  (bytesOf "total_conns", .num p.totalConns.toInt 0),
  (bytesOf "bytes_sent", .num p.bytesSent.toNat 0),
  (bytesOf "bytes_received", .num p.bytesReceived.toNat 0)]

def ClientInfo.document (c : ClientInfo) : Json := .obj [
  (bytesOf "name", .str c.name),
  (bytesOf "endpoint", .str c.endpoint),
  (bytesOf "protocol", .str c.protocol),
  (bytesOf "proxies", .arr (c.proxies.map ProxyStats.document))]

def clientsDocument (clients : List ClientInfo) : Json := .arr (clients.map ClientInfo.document)

/-! ## The text of the document -/

theorem bytesOf_append (s t : String) : bytesOf (s ++ t) = bytesOf s ++ bytesOf t := by
  rw [bytesOf, String.toList_append, List.map_append]
  rfl

theorem bytesOf_toString_nat (n : Nat) : bytesOf (toString n) = Json.decimal n := by
  rw [bytesOf, Nat.toString_eq_ofList_toDigits, String.toList_ofList]
  rfl

theorem bytesOf_toString_int (n : Int) : bytesOf (toString n) = Json.decimalInt n := by
  cases n with
  | ofNat n => exact bytesOf_toString_nat n
  | negSucc n =>
      show bytesOf ("-" ++ toString (n + 1)) = _
      rw [bytesOf_append, bytesOf_toString_nat]
      rfl

theorem writeAll_eq_commas {α : Type} (write : α → List Byte) (xs : List α) :
    writeAll write xs = Json.commas (xs.map write) := by
  induction xs with
  | nil => rfl
  | cons x xs ih =>
      cases xs with
      | nil => simp [writeAll, Json.commas]
      | cons y ys =>
          have hcommas : Json.commas ((x :: y :: ys).map write) =
              write x ++ 0x2C :: Json.commas ((y :: ys).map write) := by
            rw [List.map_cons, List.map_cons, Json.commas]
            exact List.cons_ne_nil _ _
          rw [hcommas, ← ih, writeAll, List.append_assoc]
          rfl

/-- The key of a number. -/
theorem bytesOf_key {s k : String} (h : s = "\"" ++ k ++ "\": ") :
    bytesOf s = Json.quoted (bytesOf k) ++ [0x3A, 0x20] := by
  rw [h, bytesOf_append, bytesOf_append, Json.quoted]
  simp [bytesOf]

/-- The key of a string, and the quotation mark that the string begins with. -/
theorem bytesOf_key_string {s k : String} (h : s = "\"" ++ k ++ "\": \"") :
    bytesOf s = Json.quoted (bytesOf k) ++ [0x3A, 0x20, 0x22] := by
  rw [h, bytesOf_append, bytesOf_append, Json.quoted]
  simp [bytesOf]

theorem print_num (n : Int) : (Json.num n 0).print = Json.decimalInt n := by
  rw [Json.print, Json.printNum, if_pos rfl, List.append_nil]

theorem ProxyStats.json_eq_print (p : ProxyStats) : p.json = p.document.print := by
  have hopen : bytesOf "\x7b" = [0x7B] := rfl
  have hclose : bytesOf "\x7d" = [0x7D] := rfl
  have hcomma : bytesOf "," = [0x2C] := rfl
  have hend : bytesOf "\"," = [0x22, 0x2C] := rfl
  unfold json
  rw [bytesOf_key_string (s := "\"name\": \"") (k := "name") rfl,
    bytesOf_key_string (s := "\"type\": \"") (k := "type") rfl,
    bytesOf_key (s := "\"port\": ") (k := "port") rfl,
    bytesOf_key (s := "\"active_conns\": ") (k := "active_conns") rfl,
    bytesOf_key (s := "\"total_conns\": ") (k := "total_conns") rfl,
    bytesOf_key (s := "\"bytes_sent\": ") (k := "bytes_sent") rfl,
    bytesOf_key (s := "\"bytes_received\": ") (k := "bytes_received") rfl,
    hopen, hclose, hcomma, hend, document, Json.print]
  simp only [List.map_cons, List.map_nil, Json.commas, print_num, Json.print, Json.quoted,
    bytesOf_toString_nat, bytesOf_toString_int, List.append_assoc, List.cons_append,
    List.nil_append]
  rfl

theorem ClientInfo.json_eq_print (c : ClientInfo) : c.json = c.document.print := by
  have hopen : bytesOf "\x7b" = [0x7B] := rfl
  have hclose : bytesOf "]\x7d" = [0x5D, 0x7D] := rfl
  have hend : bytesOf "\"," = [0x22, 0x2C] := rfl
  have hproxies : bytesOf "\"proxies\": [" =
      Json.quoted (bytesOf "proxies") ++ [0x3A, 0x20, 0x5B] := rfl
  have hlist : writeAll ProxyStats.json c.proxies =
      Json.commas ((c.proxies.map ProxyStats.document).map Json.print) := by
    rw [writeAll_eq_commas, List.map_map]
    exact congrArg Json.commas (List.map_congr_left fun p _ => p.json_eq_print)
  unfold json
  rw [bytesOf_key_string (s := "\"name\": \"") (k := "name") rfl,
    bytesOf_key_string (s := "\"endpoint\": \"") (k := "endpoint") rfl,
    bytesOf_key_string (s := "\"protocol\": \"") (k := "protocol") rfl,
    hopen, hclose, hend, hproxies, hlist, document, Json.print]
  simp only [List.map_cons, List.map_nil, Json.commas, Json.print, Json.quoted, List.append_assoc,
    List.cons_append, List.nil_append]

theorem getClientsJson_eq_print (clients : List ClientInfo) :
    getClientsJson clients = (clientsDocument clients).print := by
  have hlist : clients.map ClientInfo.json = (clients.map ClientInfo.document).map Json.print := by
    rw [List.map_map]
    exact List.map_congr_left fun c _ => c.json_eq_print
  unfold getClientsJson
  rw [writeAll_eq_commas, hlist, clientsDocument, Json.print, List.append_assoc]
  rfl

/-! ## When it is read back -/

/-- The strings of the report can be written between quotation marks as they are. -/
structure ProxyStats.Plain (p : ProxyStats) : Prop where
  name : Json.Plain p.name
  type : Json.Plain p.type

structure ClientInfo.Plain (c : ClientInfo) : Prop where
  name : Json.Plain c.name
  endpoint : Json.Plain c.endpoint
  protocol : Json.Plain c.protocol
  proxies : ∀ p ∈ c.proxies, p.Plain

theorem plain_keys : ∀ k ∈ ["name", "type", "port", "active_conns", "total_conns", "bytes_sent",
    "bytes_received", "endpoint", "protocol", "proxies"], Json.Plain (bytesOf k) := by
  decide +kernel

theorem ProxyStats.raw_document (p : ProxyStats) : p.document.Raw ↔ p.Plain := by
  have hraw : p.document.Raw ↔ Json.Plain p.name ∧ Json.Plain p.type := by
    rw [document, Json.Raw]
    simp [Json.Raw, plain_keys]
  exact hraw.trans ⟨fun h => ⟨h.1, h.2⟩, fun h => ⟨h.name, h.type⟩⟩

theorem ClientInfo.raw_document (c : ClientInfo) : c.document.Raw ↔ c.Plain := by
  have hraw : c.document.Raw ↔ Json.Plain c.name ∧ Json.Plain c.endpoint ∧
      Json.Plain c.protocol ∧ ∀ p ∈ c.proxies, p.Plain := by
    rw [document, Json.Raw]
    simp [Json.Raw, plain_keys, ProxyStats.raw_document]
  rw [hraw]
  constructor
  · rintro ⟨hname, hendpoint, hprotocol, hproxies⟩
    exact ⟨hname, hendpoint, hprotocol, hproxies⟩
  · exact fun h => ⟨h.name, h.endpoint, h.protocol, h.proxies⟩

theorem raw_clientsDocument (clients : List ClientInfo) :
    (clientsDocument clients).Raw ↔ ∀ c ∈ clients, c.Plain := by
  rw [clientsDocument, Json.Raw, List.forall_mem_map]
  exact forall₂_congr fun c _ => c.raw_document

/-- **The report is read back as it was meant** just if no string in it needs an escape. -/
theorem parse_getClientsJson_iff (clients : List ClientInfo) :
    Json.parse (getClientsJson clients) = some (clientsDocument clients) ↔
      ∀ c ∈ clients, c.Plain := by
  rw [getClientsJson_eq_print, Json.parse_print_iff, raw_clientsDocument]

/-- A quotation mark in the name of a client ends the name early. -/
theorem getClientsJson_quotation_mark :
    ¬ ∀ clients : List ClientInfo,
      Json.parse (getClientsJson clients) = some (clientsDocument clients) := by
  intro h
  have hnone : (Json.parse (getClientsJson [{
      name := bytesOf "a\"b"
      endpoint := bytesOf "192.0.2.1:40000"
      protocol := bytesOf "TCP"
      proxies := [] }])).isNone = true := by decide +kernel
  rw [h] at hnone
  exact absurd hnone Bool.false_ne_true

theorem Listener.plain_getStats_iff (l : Listener) (n : Counters) :
    (l.getStats n).Plain ↔ Json.Plain (bytesOf l.proxyName) := by
  have htypes : Json.Plain (bytesOf "tcp") ∧ Json.Plain (bytesOf "udp") := by decide +kernel
  refine ⟨fun h => h.name, fun h => ⟨h, ?_⟩⟩
  rw [getStats]
  cases l.kind
  · exact htypes.1
  · exact htypes.2

/-- The types that the server reports are plain, and the rest is for the client to choose. -/
theorem ControlSession.plain_getInfo_iff (c : ControlSession) (peer : Peer)
    (counters : ListenerId → Counters) :
    (c.getInfo peer counters).Plain ↔ Json.Plain (bytesOf c.clientName) ∧
      Json.Plain peer.remoteEndpointString ∧ Json.Plain peer.protocolName ∧
      ∀ l ∈ c.proxies ++ c.udpProxies, Json.Plain (bytesOf l.proxyName) := by
  have hproxies : (∀ p ∈ (c.getInfo peer counters).proxies, p.Plain) ↔
      ∀ l ∈ c.proxies ++ c.udpProxies, Json.Plain (bytesOf l.proxyName) := by
    rw [getInfo, ← List.map_append, List.forall_mem_map]
    exact forall₂_congr fun l _ => l.plain_getStats_iff _
  rw [← hproxies]
  constructor
  · exact fun h => ⟨h.name, h.endpoint, h.protocol, h.proxies⟩
  · rintro ⟨hname, hendpoint, hprotocol, hlist⟩
    exact ⟨hname, hendpoint, hprotocol, hlist⟩

/-- Of a server's own report: the names are what matters, given what the streams say. -/
theorem parse_getClientsInfo_iff (sessions : List (Option (ControlSession × Peer)))
    (counters : ListenerId → Counters) :
    Json.parse (getClientsJson (getClientsInfo sessions counters)) =
        some (clientsDocument (getClientsInfo sessions counters)) ↔
      ∀ c peer, some (c, peer) ∈ sessions → Json.Plain (bytesOf c.clientName) ∧
        Json.Plain peer.remoteEndpointString ∧ Json.Plain peer.protocolName ∧
        ∀ l ∈ c.proxies ++ c.udpProxies, Json.Plain (bytesOf l.proxyName) := by
  rw [getClientsJson_eq_print, Json.parse_print_iff, raw_clientsDocument]
  constructor
  · intro h c peer hmem
    exact (c.plain_getInfo_iff peer counters).mp
      (h _ (List.mem_filterMap.mpr ⟨_, hmem, rfl⟩))
  · intro h info hinfo
    obtain ⟨second, hmem, hsecond⟩ := List.mem_filterMap.mp hinfo
    obtain ⟨⟨c, peer⟩, rfl, rfl⟩ := Option.map_eq_some_iff.mp hsecond
    exact (c.plain_getInfo_iff peer counters).mpr (h c peer hmem)

end Cfrp
