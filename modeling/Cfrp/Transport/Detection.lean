import Cfrp.Mux.Output
import Cfrp.Transport.Channel
import Cfrp.Websocket.Handshake

/-!
# One port for two protocols

With the protocol `auto`, the server reads one byte of a connection. A `G` starts the request
of a WebSocket handshake; anything else is the first byte of a frame. Either way a
`BufferedStream` gives the byte back. The client knows which of the two it speaks.

`up` and `down` are the bytes under way. The response that the client read and the request
that the server read are kept next to the channels.
-/

namespace Cfrp.Transport

open Lib Websocket
open Mux (SessionFrame Encoded encodeFrame)

/-- The client's end of a connection. -/
inductive Near where
  /-- `async_handshake` comes next. -/
  | connecting (websocket : Bool)
  | requesting
  | opened (response : List Byte) (ch : Channel)
  | refused (response : List Byte)

/-- The server's end, from `DoAccept` on. -/
inductive Far where
  | firstByte
  | upgrading (requestBuf : List Byte)
  | responding (requestBuf : List Byte)
  | muxed (requestBuf : List Byte) (ch : Channel)
  | refused (requestBuf : List Byte)

structure AutoLink where
  near : Near
  far : Far := .firstByte
  /-- The server's. -/
  buffered : Buffered := {}
  up : List Byte := []
  down : List Byte := []
  nearClosed : Bool := false
  farClosed : Bool := false

namespace AutoLink

def start (websocket : Bool) : AutoLink := { near := .connecting websocket }

inductive NearEvent where
  | connected
  /-- The read of the response returns some `n` bytes. -/
  | response (n : Nat)
  | use (u : Use)
  | close

inductive FarEvent where
  | firstByte
  /-- A read of `DoServerHandshakeRead` returns, some `n` bytes if it goes to the socket. -/
  | request (n : Nat)
  /-- The response has been written. -/
  | responded
  | use (u : Use)
  | close

inductive Event where
  | near (e : NearEvent)
  | far (e : FarEvent)

/-- What a handshake reads into its buffer of 1024 bytes. -/
def segment (data : List Byte) : Option Segment :=
  if fits : data.length ≤ 1024 then some ⟨data, fits⟩ else none

section

variable (c : Crypto) (nonce : List Byte)

/-- A plain stream is connected at once; `DoClientHandshake` writes its request. -/
def onConnected (l : AutoLink) (websocket : Bool) : AutoLink :=
  if websocket then
    { l with near := .requesting, up := l.up ++ clientRequest (c.generateClientKey nonce) }
  else { l with near := .opened [] (.plain [] []) }

def onResponse (l : AutoLink) (n : Nat) : Option AutoLink := do
  let (data, down) ← readSome 1024 n l.down
  let temp ← segment data
  match (doClientHandshake c nonce [some temp]).1 with
  | .succeeded _ => some { l with near := .opened data (.websocket (Stream.init true)), down }
  | _ => some { l with near := .refused data, down }

def useNear (l : AutoLink) (response : List Byte) (ch : Channel) (u : Use) : Option AutoLink := do
  let (ch', down) ← ch.use (readAll · l.down) l.down u
  some { l with
    near := .opened response ch', down, up := l.up ++ ch'.handed.drop ch.handed.length }

def nearStep (l : AutoLink) : NearEvent → Option AutoLink
  | .connected =>
      match l.near with
      | .connecting websocket => some (l.onConnected c nonce websocket)
      | _ => none
  | .response n =>
      match l.near with
      | .requesting => l.onResponse c nonce n
      | _ => none
  | .use u =>
      match l.near with
      | .opened response ch => l.useNear response ch u
      | _ => none
  | .close => some { l with nearClosed := true }

def onFirstByte (l : AutoLink) : Option AutoLink :=
  match l.up with
  | [] => none
  | firstByte :: up =>
      some { l with
        buffered := { buffer := [firstByte] }
        up
        far := if firstByte = 0x47 then .upgrading [] else .muxed [] (.plain [] []) }

def onRequest (l : AutoLink) (requestBuf : List Byte) (n : Nat) : Option AutoLink := do
  let (data, buffered, up) ← l.buffered.asyncReadSome 1024 n l.up
  let temp ← segment data
  match (doServerHandshakeRead c requestBuf [some temp]).1 with
  | .pending => some { l with far := .upgrading (requestBuf ++ data), buffered, up }
  | .succeeded response =>
      some { l with
        far := .responding (requestBuf ++ data), buffered, up, down := l.down ++ response }
  | .failed _ => some { l with far := .refused (requestBuf ++ data), buffered, up }

def useFar (l : AutoLink) (requestBuf : List Byte) (ch : Channel) (u : Use) : Option AutoLink := do
  let (ch', buffered, up) ← ch.use (l.buffered.asyncRead · l.up) (l.buffered, l.up) u
  some { l with
    far := .muxed requestBuf ch', buffered, up
    down := l.down ++ ch'.handed.drop ch.handed.length }

def farStep (l : AutoLink) : FarEvent → Option AutoLink
  | .firstByte =>
      match l.far with
      | .firstByte => l.onFirstByte
      | _ => none
  | .request n =>
      match l.far with
      | .upgrading requestBuf => l.onRequest c requestBuf n
      | _ => none
  | .responded =>
      match l.far with
      | .responding requestBuf =>
          some { l with far := .muxed requestBuf (.websocket (Stream.init false)) }
      | _ => none
  | .use u =>
      match l.far with
      | .muxed requestBuf ch => l.useFar requestBuf ch u
      | _ => none
  | .close => some { l with farClosed := true }

def step (l : AutoLink) : Event → Option AutoLink
  | .near e => if l.nearClosed then none else l.nearStep c nonce e
  | .far e => if l.farClosed then none else l.farStep c e

end

/-- A mux session writes frames. -/
def muxWrites (_ : AutoLink) : Event → Prop
  | .near (.use (.write buffers)) => Encoded buffers.flatten
  | _ => True

end AutoLink

/-! ## The first bytes -/

/-- The key is the Base64 of sixteen bytes. -/
structure EncodesKey (c : Crypto) (nonce : List Byte) : Prop where
  length : (c.generateClientKey nonce).length = 24
  line : 0x0D ∉ c.generateClientKey nonce

theorem length_clientRequest (key : List Byte) : (clientRequest key).length = 119 + key.length := by
  have hempty : (clientRequest []).length = 119 := by decide +kernel
  rw [← hempty]
  simp only [clientRequest, List.length_append, List.length_nil]
  omega

/-- **A request is its own head**: its first empty line is its end. -/
theorem head_clientRequest {key : List Byte} (hkey : 0x0D ∉ key) :
    head (clientRequest key) = some (clientRequest key) := by
  let l := ascii ("GET / HTTP/1.1\r\nHost: cfrp\r\nUpgrade: websocket\r\nConnection: Upgrade\r\n" ++
    "Sec-WebSocket-Key:")
  let version := ascii "\r\nSec-WebSocket-Version: 13\r\n\r\n"
  have hrequest : clientRequest key = l ++ [0x20] ++ (key ++ version) := by
    rw [clientRequest, ← List.append_assoc]
    exact congrArg (· ++ (key ++ version)) (by decide +kernel)
  have hl : find headEnd l = none := by decide +kernel
  have hlength : l.length = 87 := by decide +kernel
  have hversion : find headEnd version = some 27 := by decide +kernel
  have hfind : find headEnd (clientRequest key) = some (115 + key.length) := by
    rw [hrequest, find_append_of_break headEnd_ne_nil (by decide) hl]
    rw [headEnd, find_append_of_notMem hkey, ← headEnd, hversion, hlength]
    simp only [Option.map_some]
    exact congrArg some (by omega)
  rw [head, hfind, Option.map_some, List.take_of_length_le]
  rw [length_clientRequest]
  omega

theorem version_of_sessionFrame {f : Mux.Frame} (h : SessionFrame f) : f.header.version = 0 := by
  cases h with
  | control h => cases h <;> rfl
  | stream id h => cases h <;> rfl

/-- What a mux session writes does not start with a `G`. -/
theorem first_of_encoded {wire rest : List Byte} {b : Byte} (h : Encoded wire)
    (hwire : wire = b :: rest) : b = 0 := by
  obtain ⟨fs, hfs, rfl⟩ := h
  cases fs with
  | nil => cases hwire
  | cons f fs =>
      have hfirst : f.header.version = b := (List.cons.inj hwire).1
      rw [← hfirst, version_of_sessionFrame (hfs f List.mem_cons_self)]

namespace AutoLink

variable {c : Crypto} {nonce : List Byte} {websocket : Bool} {l l' : AutoLink}

/-! ## What has been sent, and what has been read -/

section

variable (c nonce)

/-- The response that the client expects. -/
def expected : List Byte := serverResponse (c.generateAcceptKey (c.generateClientKey nonce))

/-- What a channel has been sent through so far, behind a handshake. -/
def behind (handshake : List Byte) (ch : Channel) : List Byte :=
  (if ch.isWebsocket then handshake else []) ++ ch.handed

def nearSent : Near → List Byte
  | .connecting _ => []
  | .requesting | .refused _ => clientRequest (c.generateClientKey nonce)
  | .opened _ ch => behind (clientRequest (c.generateClientKey nonce)) ch

def farSent : Far → List Byte
  | .firstByte | .upgrading _ | .refused _ => []
  | .responding _ => expected c nonce
  | .muxed _ ch => behind (expected c nonce) ch

end

def nearGot : Near → List Byte
  | .connecting _ | .requesting => []
  | .refused response => response
  | .opened response ch => response ++ ch.fed

def farGot : Far → List Byte
  | .firstByte => []
  | .upgrading requestBuf | .responding requestBuf | .refused requestBuf => requestBuf
  | .muxed requestBuf ch => requestBuf ++ ch.fed

/-- The client's end agrees with what it was started as. -/
def NearOk (c : Crypto) (nonce : List Byte) (websocket : Bool) : Near → Prop
  | .connecting w => w = websocket
  | .requesting => websocket = true
  | .refused response => websocket = true ∧ ¬Accepts c nonce response
  | .opened response ch => ch.isWebsocket = websocket ∧ ch.Runs true ∧
      if websocket then Accepts c nonce response else response = [] ∧ Encoded ch.handed

/-- The server's end does. -/
def FarOk (c : Crypto) (nonce : List Byte) (websocket : Bool) (buffered : Buffered) : Far → Prop
  | .firstByte => buffered.rest = []
  | .upgrading requestBuf => websocket = true ∧ find headEnd requestBuf = none
  | .responding requestBuf =>
      websocket = true ∧ requestBuf = clientRequest (c.generateClientKey nonce)
  | .muxed requestBuf ch => ch.isWebsocket = websocket ∧ ch.Runs false ∧
      requestBuf = if websocket then clientRequest (c.generateClientKey nonce) else []
  | .refused _ => False

structure Inv (c : Crypto) (nonce : List Byte) (websocket : Bool) (l : AutoLink) : Prop where
  near : NearOk c nonce websocket l.near
  far : FarOk c nonce websocket l.buffered l.far
  up : farGot l.far ++ (l.buffered.rest ++ l.up) = nearSent c nonce l.near
  down : nearGot l.near ++ l.down = farSent c nonce l.far

theorem inv_start : Inv c nonce websocket (start websocket) := ⟨rfl, rfl, rfl, rfl⟩

/-! ## The client's steps -/

theorem segment_eq_some {data : List Byte} {temp : Segment} (h : segment data = some temp) :
    temp.bytes = data := by
  rw [segment] at h
  split at h
  · cases h
    rfl
  · cases h

theorem behind_handed {handshake : List Byte} {ch ch' : Channel}
    (hsame : ch'.isWebsocket = ch.isWebsocket) (hhanded : ch.handed <+: ch'.handed) :
    behind handshake ch' = behind handshake ch ++ ch'.handed.drop ch.handed.length := by
  obtain ⟨out, hout⟩ := hhanded
  rw [behind, behind, hsame, ← hout, List.drop_left, List.append_assoc]

theorem Inv.onConnected (h : Inv c nonce websocket l) (hnear : l.near = .connecting websocket) :
    Inv c nonce websocket (l.onConnected c nonce websocket) := by
  have hup := h.up
  have hdown := h.down
  rw [hnear] at hup hdown
  rw [AutoLink.onConnected]
  cases websocket with
  | false => exact ⟨⟨rfl, trivial, rfl, Mux.encoded_nil⟩, h.far, hup, hdown⟩
  | true =>
      refine ⟨rfl, h.far, ?_, hdown⟩
      show farGot l.far ++ (l.buffered.rest ++ (l.up ++ _)) = _
      rw [← List.append_assoc, ← List.append_assoc, List.append_assoc _ l.buffered.rest, hup]
      rfl

theorem Inv.onResponse (h : Inv c nonce websocket l) (hnear : l.near = .requesting) {n : Nat}
    (hs : l.onResponse c nonce n = some l') : Inv c nonce websocket l' := by
  simp only [AutoLink.onResponse, Option.bind_eq_bind, Option.bind_eq_some_iff] at hs
  obtain ⟨⟨data, down⟩, hread, temp, htemp, hs⟩ := hs
  have hwebsocket := h.near
  have hup := h.up
  have hdown := h.down
  rw [hnear] at hwebsocket hup hdown
  obtain ⟨hsplit, -, -⟩ := Buffered.readSome_eq_some hread
  -- the first read alone decides
  have hok := (clientHandshake_ok c nonce [temp]).1
  have hfirst : joined ([temp].take 1) = data :=
    (List.append_nil _).trans (segment_eq_some htemp)
  rw [hfirst] at hok
  have hdown' : data ++ down = farSent c nonce l.far := hsplit ▸ hdown
  split at hs
  · rename_i sent hsucceeded
    cases hs
    have haccepts : Accepts c nonce data := by
      refine hok.mp ?_
      show ((doClientHandshake c nonce [some temp]).1).ok
      rw [hsucceeded]
      trivial
    obtain rfl : websocket = true := hwebsocket
    refine ⟨⟨rfl, Reach.init, haccepts⟩, h.far, ?_, ?_⟩
    · rw [hup]
      exact (List.append_nil _).symm
    · rw [← hdown']
      exact congrArg (· ++ down) (List.append_nil data)
  · rename_i hnot
    cases hs
    refine ⟨⟨hwebsocket, fun haccepts => ?_⟩, h.far, hup, hdown'⟩
    have hsucceeded : ((doClientHandshake c nonce [some temp]).1).ok := hok.mpr haccepts
    cases houtcome : (doClientHandshake c nonce [some temp]).1 with
    | succeeded sent => exact hnot sent houtcome
    | pending =>
        rw [houtcome] at hsucceeded
        exact hsucceeded
    | failed ec =>
        rw [houtcome] at hsucceeded
        exact hsucceeded

theorem Inv.useNear (h : Inv c nonce websocket l) {response : List Byte} {ch : Channel}
    (hnear : l.near = .opened response ch) {u : Use} (hok : muxWrites l (.near (.use u)))
    (hs : l.useNear response ch u = some l') : Inv c nonce websocket l' := by
  simp only [AutoLink.useNear, Option.bind_eq_bind, Option.bind_eq_some_iff] at hs
  obtain ⟨⟨ch', down⟩, huse, hs⟩ := hs
  cases hs
  have hclient := h.near
  have hup := h.up
  have hdown := h.down
  rw [hnear] at hclient hup hdown
  obtain ⟨hkind, hruns, hrole⟩ := hclient
  have hused : ∃ data, Channel.Used true ch ch' data u.payload ∧ l.down = data ++ down := by
    rcases Channel.used hruns huse with ⟨hused, rfl⟩ | ⟨n, data, hread, hused⟩
    · exact ⟨[], hused, rfl⟩
    · exact ⟨data, hused, (Buffered.readAll_eq_some hread).1⟩
  obtain ⟨data, hused, hsplit⟩ := hused
  refine ⟨⟨hused.same.trans hkind, hused.runs, ?_⟩, h.far, ?_, ?_⟩
  · cases websocket with
    | true => exact hrole
    | false =>
        obtain ⟨hresponse, hencoded⟩ := hrole
        refine ⟨hresponse, ?_⟩
        cases ch with
        | websocket s => cases hkind
        | plain w taken =>
            cases u with
            | write buffers =>
                cases huse
                exact Encoded.concat hencoded hok
            | read n =>
                obtain ⟨r, -, heq⟩ := Option.map_eq_some_iff.mp huse
                cases heq
                exact hencoded
            | run | look | written | proceed | reset | arrive | readFail => cases huse
  · show farGot l.far ++ (l.buffered.rest ++ (l.up ++ _)) = behind _ ch'
    rw [behind_handed hused.same hused.handed, ← List.append_assoc, ← List.append_assoc,
      List.append_assoc _ l.buffered.rest, hup]
    rfl
  · show response ++ ch'.fed ++ down = _
    rw [hused.fed, ← hdown, hsplit]
    simp only [nearGot, List.append_assoc]

/-! ## The server's steps -/

theorem Inv.onFirstByte (h : Inv c nonce websocket l) (hfar : l.far = .firstByte)
    (hs : l.onFirstByte = some l') : Inv c nonce websocket l' := by
  rw [AutoLink.onFirstByte] at hs
  split at hs
  · cases hs
  rename_i b up hcons
  cases hs
  have hempty := h.far
  have hup := h.up
  have hdown := h.down
  rw [hfar] at hempty hup hdown
  have hrest : l.buffered.rest = [] := hempty
  have hsent : b :: up = nearSent c nonce l.near := by
    rw [← hup, hrest, hcons]
    rfl
  have hbuffered : ({ buffer := [b] } : Buffered).rest ++ up = nearSent c nonce l.near := hsent
  -- a `G` tells the two kinds of clients apart
  have hfirst : b = 0x47 ↔ websocket = true := by
    have hclient := h.near
    cases hnear : l.near with
    | connecting w =>
        rw [hnear] at hsent
        cases hsent
    | requesting =>
        rw [hnear] at hsent hclient
        exact iff_of_true (List.cons.inj hsent).1 hclient
    | refused r =>
        rw [hnear] at hsent hclient
        exact iff_of_true (List.cons.inj hsent).1 hclient.1
    | opened r ch =>
        rw [hnear] at hsent hclient
        obtain ⟨hkind, -, hrole⟩ := hclient
        have hbehind : b :: up = behind (clientRequest (c.generateClientKey nonce)) ch := hsent
        rw [behind, hkind] at hbehind
        cases websocket with
        | true => exact iff_of_true (List.cons.inj hbehind).1 rfl
        | false =>
            have hzero := first_of_encoded hrole.2 hbehind.symm
            exact iff_of_false (by rw [hzero]; decide) Bool.false_ne_true
  by_cases hg : b = 0x47
  · rw [if_pos hg]
    exact ⟨h.near, ⟨hfirst.mp hg, rfl⟩, hbuffered, hdown⟩
  · rw [if_neg hg]
    have hplain : websocket = false := Bool.eq_false_iff.mpr fun hw => hg (hfirst.mpr hw)
    refine ⟨h.near, ⟨hplain.symm, trivial, ?_⟩, hbuffered, hdown⟩
    rw [hplain]
    rfl

/-- While the server has sent nothing, a client that speaks WebSocket has sent its request. -/
theorem Inv.request_sent (h : Inv c nonce true l) (hquiet : farSent c nonce l.far = [])
    (hsent : nearSent c nonce l.near ≠ []) :
    nearSent c nonce l.near = clientRequest (c.generateClientKey nonce) := by
  have hclient := h.near
  have hdown := h.down
  rw [hquiet] at hdown
  cases hnear : l.near with
  | connecting w =>
      rw [hnear] at hsent
      exact absurd rfl hsent
  | requesting => rfl
  | refused r => rfl
  | opened r ch =>
      rw [hnear] at hclient hdown
      obtain ⟨-, -, haccepts⟩ := hclient
      have hnil : r = [] := (List.append_eq_nil_iff.mp (List.append_eq_nil_iff.mp hdown).1).1
      rw [hnil] at haccepts
      exact absurd haccepts (not_accepts_nil c nonce)

theorem Inv.onRequest (hkey : EncodesKey c nonce) (h : Inv c nonce websocket l)
    {requestBuf : List Byte} (hfar : l.far = .upgrading requestBuf) {n : Nat}
    (hs : l.onRequest c requestBuf n = some l') : Inv c nonce websocket l' := by
  simp only [AutoLink.onRequest, Option.bind_eq_bind, Option.bind_eq_some_iff] at hs
  obtain ⟨⟨data, buffered, up⟩, hread, temp, htemp, hs⟩ := hs
  have hserver := h.far
  have hup := h.up
  have hdown := h.down
  rw [hfar] at hserver hup hdown
  obtain ⟨rfl, -⟩ : websocket = true ∧ _ := hserver
  obtain ⟨hsplit, hpos, -⟩ := Buffered.asyncReadSome_eq_some (by decide) hread
  rw [hsplit] at hup
  have hup' : requestBuf ++ data ++ (buffered.rest ++ up) = nearSent c nonce l.near := by
    rw [List.append_assoc]
    exact hup
  have hrequest : nearSent c nonce l.near = clientRequest (c.generateClientKey nonce) := by
    refine h.request_sent (by rw [hfar]; rfl) ?_
    rw [← hup']
    intro hnil
    have hdata := (List.append_eq_nil_iff.mp (List.append_eq_nil_iff.mp hnil).1).2
    rw [hdata] at hpos
    exact absurd hpos (by decide)
  have hhead : head (requestBuf ++ data ++ (buffered.rest ++ up)) =
      some (clientRequest (c.generateClientKey nonce)) := by
    rw [hup', hrequest, head_clientRequest hkey.line]
  have hfound := find_headEnd_of_head hhead
  have hle : (requestBuf ++ data).length ≤ 143 := by
    have hlen := congrArg List.length (hup'.trans hrequest)
    rw [List.length_append, length_clientRequest, hkey.length] at hlen
    omega
  have hbytes : temp.bytes = data := segment_eq_some htemp
  rw [doServerHandshakeRead, hbytes] at hs
  by_cases hwhole : (find headEnd (requestBuf ++ data)).isSome = true
  · -- the read that completes the request ends with it
    have hall : requestBuf ++ data = clientRequest (c.generateClientKey nonce) := by
      refine eq_head_of_length hhead (Nat.le_antisymm ?_ (hfound.mp hwhole))
      rw [← hrequest, ← hup']
      exact (List.prefix_append _ _).length_le
    rw [if_pos hwhole] at hs
    simp only [hall, answer_clientRequest c hkey.line] at hs
    cases hs
    refine ⟨h.near, ⟨rfl, rfl⟩, hall ▸ hup', ?_⟩
    show nearGot l.near ++ (l.down ++ _) = _
    rw [← List.append_assoc, hdown]
    rfl
  · rw [if_neg hwhole, if_neg (by omega), doServerHandshakeRead] at hs
    cases hs
    exact ⟨h.near, ⟨rfl, Option.not_isSome_iff_eq_none.mp hwhole⟩, hup', hdown⟩

theorem Inv.responded (h : Inv c nonce websocket l) {requestBuf : List Byte}
    (hfar : l.far = .responding requestBuf) : Inv c nonce websocket
      { l with far := .muxed requestBuf (.websocket (Stream.init false)) } := by
  have hserver := h.far
  have hup := h.up
  have hdown := h.down
  rw [hfar] at hserver hup hdown
  obtain ⟨rfl, hrequest⟩ : websocket = true ∧ _ := hserver
  refine ⟨h.near, ⟨rfl, Reach.init, hrequest⟩, ?_, ?_⟩
  · rw [← hup]
    exact congrArg (· ++ (l.buffered.rest ++ l.up)) (List.append_nil requestBuf)
  · rw [hdown]
    exact (List.append_nil _).symm

theorem Inv.useFar (h : Inv c nonce websocket l) {requestBuf : List Byte} {ch : Channel}
    (hfar : l.far = .muxed requestBuf ch) {u : Use}
    (hs : l.useFar requestBuf ch u = some l') : Inv c nonce websocket l' := by
  simp only [AutoLink.useFar, Option.bind_eq_bind, Option.bind_eq_some_iff] at hs
  obtain ⟨⟨ch', buffered, up⟩, huse, hs⟩ := hs
  cases hs
  have hserver := h.far
  have hup := h.up
  have hdown := h.down
  rw [hfar] at hserver hup hdown
  obtain ⟨hkind, hruns, hrequest⟩ := hserver
  have hused : ∃ data, Channel.Used false ch ch' data u.payload ∧
      l.buffered.rest ++ l.up = data ++ (buffered.rest ++ up) := by
    rcases Channel.used hruns huse with ⟨hused, heq⟩ | ⟨n, data, hread, hused⟩
    · cases heq
      exact ⟨[], hused, rfl⟩
    · exact ⟨data, hused, (Buffered.asyncRead_eq_some hread).1⟩
  obtain ⟨data, hused, hsplit⟩ := hused
  refine ⟨h.near, ⟨hused.same.trans hkind, hused.runs, hrequest⟩, ?_, ?_⟩
  · show requestBuf ++ ch'.fed ++ (buffered.rest ++ up) = _
    rw [hused.fed, ← hup, hsplit]
    simp only [farGot, List.append_assoc]
  · show nearGot l.near ++ (l.down ++ _) = behind _ ch'
    rw [behind_handed hused.same hused.handed, ← List.append_assoc, hdown]
    rfl

/-! ## Every step -/

theorem Inv.nearStep (h : Inv c nonce websocket l) {e : NearEvent} (hok : muxWrites l (.near e))
    (hs : l.nearStep c nonce e = some l') : Inv c nonce websocket l' := by
  cases e with
  | connected =>
      rw [AutoLink.nearStep] at hs
      split at hs
      · rename_i w hnear
        cases hs
        have hclient := h.near
        rw [hnear] at hclient
        obtain rfl : w = websocket := hclient
        exact h.onConnected hnear
      · cases hs
  | response n =>
      rw [AutoLink.nearStep] at hs
      split at hs
      · rename_i hnear
        exact h.onResponse hnear hs
      · cases hs
  | use u =>
      rw [AutoLink.nearStep] at hs
      split at hs
      · rename_i response ch hnear
        exact h.useNear hnear hok hs
      · cases hs
  | close =>
      cases hs
      exact ⟨h.near, h.far, h.up, h.down⟩

theorem Inv.farStep (hkey : EncodesKey c nonce) (h : Inv c nonce websocket l) {e : FarEvent}
    (hs : l.farStep c e = some l') : Inv c nonce websocket l' := by
  cases e with
  | firstByte =>
      rw [AutoLink.farStep] at hs
      split at hs
      · rename_i hfar
        exact h.onFirstByte hfar hs
      · cases hs
  | request n =>
      rw [AutoLink.farStep] at hs
      split at hs
      · rename_i requestBuf hfar
        exact h.onRequest hkey hfar hs
      · cases hs
  | responded =>
      rw [AutoLink.farStep] at hs
      split at hs
      · rename_i requestBuf hfar
        cases hs
        exact h.responded hfar
      · cases hs
  | use u =>
      rw [AutoLink.farStep] at hs
      split at hs
      · rename_i requestBuf ch hfar
        exact h.useFar hfar hs
      · cases hs
  | close =>
      cases hs
      exact ⟨h.near, h.far, h.up, h.down⟩

theorem inv_step (hkey : EncodesKey c nonce) (h : Inv c nonce websocket l) {e : Event}
    (hok : muxWrites l e) (hs : step c nonce l e = some l') : Inv c nonce websocket l' := by
  cases e with
  | near e =>
      rw [step, Option.ite_none_left_eq_some] at hs
      exact h.nearStep hok hs.2
  | far e =>
      rw [step, Option.ite_none_left_eq_some] at hs
      exact h.farStep hkey hs.2

/-! ## What the mux sessions get -/

/-- A channel delivers what was written at the other end, if it got what that end handed over. -/
theorem delivered_of_fed {isClient isClient' : Bool} {ch ch' : Channel} (h : ch.Runs isClient)
    (h' : ch'.Runs isClient') (hkind : ch'.isWebsocket = ch.isWebsocket) (hfits : ch.Fits)
    (hfed : ch'.fed <+: ch.handed) : ch'.delivered <+: ch.written := by
  cases ch with
  | plain w taken =>
      cases ch' with
      | plain w' taken' => exact hfed
      | websocket s' => cases hkind
  | websocket s =>
      cases ch' with
      | plain w' taken' => cases hkind
      | websocket s' => exact Stream.end_to_end h h' hfits hfed

/-- The channel as it is before anything is written to it. -/
def unused (websocket isClient : Bool) : Channel :=
  if websocket then .websocket (Stream.init isClient) else .plain [] []

def nearChannel (websocket : Bool) : Near → Channel
  | .opened _ ch => ch
  | _ => unused websocket true

def farChannel (websocket : Bool) : Far → Channel
  | .muxed _ ch => ch
  | _ => unused websocket false

theorem unused_spec (websocket isClient : Bool) :
    (unused websocket isClient).isWebsocket = websocket ∧
    (unused websocket isClient).Runs isClient ∧ (unused websocket isClient).handed = [] := by
  cases websocket with
  | false => exact ⟨rfl, trivial, rfl⟩
  | true => exact ⟨rfl, Reach.init, rfl⟩

theorem Inv.nearChannel (h : Inv c nonce websocket l) :
    (nearChannel websocket l.near).isWebsocket = websocket ∧
    (nearChannel websocket l.near).Runs true := by
  have hclient := h.near
  cases hnear : l.near with
  | opened r ch =>
      rw [hnear] at hclient
      exact ⟨hclient.1, hclient.2.1⟩
  | connecting | requesting | refused =>
      exact ⟨(unused_spec websocket true).1, (unused_spec websocket true).2.1⟩

theorem Inv.farChannel (h : Inv c nonce websocket l) :
    (farChannel websocket l.far).isWebsocket = websocket ∧
    (farChannel websocket l.far).Runs false := by
  have hserver := h.far
  cases hfar : l.far with
  | muxed b ch =>
      rw [hfar] at hserver
      exact ⟨hserver.1, hserver.2.1⟩
  | firstByte | upgrading | responding | refused =>
      exact ⟨(unused_spec websocket false).1, (unused_spec websocket false).2.1⟩

/-- What the client has sent is its request, if it has one, and what its channel handed over. -/
theorem Inv.nearSent_eq (h : Inv c nonce websocket l) (hsent : nearSent c nonce l.near ≠ []) :
    nearSent c nonce l.near = (if websocket then clientRequest (c.generateClientKey nonce) else [])
      ++ (AutoLink.nearChannel websocket l.near).handed := by
  have hclient := h.near
  have hunused := (unused_spec websocket true).2.2
  cases hnear : l.near with
  | connecting w =>
      rw [hnear] at hsent
      exact absurd rfl hsent
  | requesting =>
      rw [hnear] at hclient
      obtain rfl : websocket = true := hclient
      exact (List.append_nil _).symm
  | refused r =>
      rw [hnear] at hclient
      obtain ⟨rfl, -⟩ := hclient
      exact (List.append_nil _).symm
  | opened r ch =>
      rw [hnear] at hclient
      rw [nearSent, behind, hclient.1]
      rfl

/-- What the server has sent is its response, if it has one, and what its channel handed over. -/
theorem Inv.farSent_eq (h : Inv c nonce websocket l)
    (hsent : websocket = true → farSent c nonce l.far ≠ []) :
    farSent c nonce l.far = (if websocket then expected c nonce else []) ++
      (AutoLink.farChannel websocket l.far).handed := by
  have hserver := h.far
  cases hfar : l.far with
  | firstByte =>
      cases websocket with
      | false => rfl
      | true =>
          rw [hfar] at hsent
          exact absurd rfl (hsent rfl)
  | upgrading b =>
      rw [hfar] at hserver hsent
      exact absurd rfl (hsent hserver.1)
  | responding b =>
      rw [hfar] at hserver
      obtain ⟨rfl, -⟩ : websocket = true ∧ _ := hserver
      exact (List.append_nil _).symm
  | refused b =>
      rw [hfar] at hserver
      exact hserver.elim
  | muxed b ch =>
      rw [hfar] at hserver
      rw [farSent, behind, hserver.1]
      rfl

/-- The server's mux session is given what the client's channel handed over. -/
theorem Inv.muxed (h : Inv c nonce websocket l) {requestBuf : List Byte} {ch : Channel}
    (hfar : l.far = .muxed requestBuf ch) :
    ch.isWebsocket = websocket ∧
    ch.fed ++ (l.buffered.rest ++ l.up) = (AutoLink.nearChannel websocket l.near).handed := by
  have hserver := h.far
  have hup := h.up
  rw [hfar] at hserver hup
  obtain ⟨hkind, -, rfl⟩ := hserver
  refine ⟨hkind, ?_⟩
  rw [farGot, List.append_assoc] at hup
  by_cases hsent : nearSent c nonce l.near = []
  · -- a plain client that has not written anything
    rw [hsent, List.append_eq_nil_iff] at hup
    obtain ⟨hnone, hnil⟩ := hup
    cases websocket with
    | true => cases hnone
    | false =>
        rw [hnil]
        cases hnear : l.near with
        | opened r ch' =>
            have hclient := h.near
            rw [hnear] at hclient hsent
            rw [nearSent, behind, hclient.1] at hsent
            exact hsent.symm
        | connecting | requesting | refused => rfl
  · rw [h.nearSent_eq hsent] at hup
    exact List.append_cancel_left hup

/-- A client that read the response and no more is given what the server's channel handed over. -/
theorem Inv.opened (h : Inv c nonce websocket l) {response : List Byte} {ch : Channel}
    (hnear : l.near = .opened response ch) : ch.isWebsocket = websocket ∧
      ((websocket = true → response = expected c nonce) →
        ch.fed ++ l.down = (AutoLink.farChannel websocket l.far).handed) := by
  have hclient := h.near
  have hdown := h.down
  rw [hnear] at hclient hdown
  obtain ⟨hkind, -, hrole⟩ := hclient
  refine ⟨hkind, fun hexact => ?_⟩
  rw [nearGot, List.append_assoc] at hdown
  cases websocket with
  | false =>
      obtain ⟨rfl, -⟩ := hrole
      rw [h.farSent_eq fun hw => (Bool.false_ne_true hw).elim] at hdown
      exact hdown
  | true =>
      have haccepts : Accepts c nonce response := hrole
      have hsent : farSent c nonce l.far ≠ [] := by
        intro hnil
        rw [hnil] at hdown
        rw [(List.append_eq_nil_iff.mp hdown).1] at haccepts
        exact not_accepts_nil c nonce haccepts
      rw [h.farSent_eq fun _ => hsent, hexact rfl] at hdown
      exact List.append_cancel_left hdown

/-- **One port for two protocols.** Whichever kind of client connects, and however its bytes are
cut: the server does not refuse it, and runs its mux session on the kind of channel that the client
has. The session reads what the client's session has written from its first byte on, and what is
missing is buffered or under way. The client gets what the server's session writes, unless it read
more or less than the response when it read that; it refuses only what is not the whole
response. -/
theorem auto_detects (hkey : EncodesKey c nonce)
    (h : Reach (step c nonce) muxWrites (start websocket) l) :
    (∀ requestBuf, l.far ≠ .refused requestBuf) ∧
    (∀ response, l.near = .refused response → ¬expected c nonce <+: response) ∧
    (∀ requestBuf ch, l.far = .muxed requestBuf ch → ch.isWebsocket = websocket ∧
      ch.fed ++ (l.buffered.rest ++ l.up) = (nearChannel websocket l.near).handed ∧
      ((nearChannel websocket l.near).Fits →
        ch.delivered <+: (nearChannel websocket l.near).written)) ∧
    ∀ response ch, l.near = .opened response ch → ch.isWebsocket = websocket ∧
      ((websocket = true → response = expected c nonce) →
        ch.fed ++ l.down = (farChannel websocket l.far).handed ∧
        ((farChannel websocket l.far).Fits →
          ch.delivered <+: (farChannel websocket l.far).written)) := by
  have hinv : Inv c nonce websocket l :=
    h.invariant inv_start fun _ _ _ hl hok hs => inv_step hkey hl hok hs
  obtain ⟨hnearKind, hnearRuns⟩ := hinv.nearChannel
  obtain ⟨hfarKind, hfarRuns⟩ := hinv.farChannel
  refine ⟨fun b hfar => ?_, fun r hnear hwhole => ?_, fun b ch hfar => ?_, fun r ch hnear => ?_⟩
  · have hserver := hinv.far
    rw [hfar] at hserver
    exact hserver
  · have hclient := hinv.near
    rw [hnear] at hclient
    exact hclient.2 ((accepts_serverResponse c nonce).mono hwhole.isInfix)
  · obtain ⟨hkind, hfed⟩ := hinv.muxed hfar
    refine ⟨hkind, hfed, fun hfits => ?_⟩
    rw [hfar] at hfarRuns
    exact delivered_of_fed hnearRuns hfarRuns (hkind.trans hnearKind.symm) hfits
      (hfed ▸ List.prefix_append _ _)
  · obtain ⟨hkind, hfed⟩ := hinv.opened hnear
    refine ⟨hkind, fun hexact => ⟨hfed hexact, fun hfits => ?_⟩⟩
    rw [hnear] at hnearRuns
    exact delivered_of_fed hfarRuns hnearRuns (hkind.trans hfarKind.symm) hfits
      (hfed hexact ▸ List.prefix_append _ _)

/-- A client that speaks WebSocket connects and sends a ping. -/
def upgradedPing : List Event :=
  [.near .connected, .far .firstByte, .far (.request 1), .far (.request 142), .far .responded,
    .near (.response 129), .near (.use (.write [encodeFrame Mux.Session.pingFrame])),
    .near (.use (.run ⟨1, 2, 3, 4⟩)), .near (.use .look), .far (.use (.read 12)),
    .far (.use .arrive), .far (.use .arrive)]

/-- The client writes pings only. -/
def writesPings (_ : AutoLink) : Event → Bool
  | .near (.use (.write buffers)) => buffers.flatten == encodeFrame Mux.Session.pingFrame
  | _ => true

theorem muxWrites_of_writesPings {e : Event} (h : writesPings l e = true) : muxWrites l e := by
  unfold muxWrites
  split
  · exact ⟨[Mux.Session.pingFrame], by
      intro f hf
      rw [List.mem_singleton.mp hf]
      exact .control .ping, beq_iff_eq.mp h⟩
  · trivial

/-- What the server's channel has delivered. -/
def farDelivered (l : AutoLink) : Option (Bool × List Byte) :=
  match l.far with
  | .muxed _ ch => some (ch.isWebsocket, ch.delivered)
  | _ => none

theorem encodesKey_sample : EncodesKey sampleCrypto (ascii "the sample nonce") :=
  ⟨by decide +kernel, by decide +kernel⟩

theorem auto_detects_upgradedPing :
    ∃ l, farDelivered l = some (true, encodeFrame Mux.Session.pingFrame) ∧
      (∀ requestBuf, l.far ≠ .refused requestBuf) ∧
      ∀ requestBuf ch, l.far = .muxed requestBuf ch → ch.isWebsocket = true := by
  obtain ⟨l, hreach, hobs⟩ := exists_of_runGuarded
    (step sampleCrypto (ascii "the sample nonce")) writesPings upgradedPing farDelivered
    (s := start true) (a := some (true, encodeFrame Mux.Session.pingFrame)) (by decide +kernel)
  obtain ⟨hnot, -, hmuxed, -⟩ := auto_detects encodesKey_sample
    (hreach.mono fun _ _ => muxWrites_of_writesPings)
  exact ⟨l, hobs, hnot, fun b ch hfar => (hmuxed b ch hfar).1⟩

end AutoLink

end Cfrp.Transport
