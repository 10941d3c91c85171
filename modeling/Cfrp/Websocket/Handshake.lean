import Cfrp.Lib.Search
import Cfrp.Websocket.Stream
import Mathlib.Data.List.DropRight

/-!
# The WebSocket handshake

A client writes its request and takes what its first read returns for the response. A server
reads until it has seen an empty line and takes everything that it has read for the request.
What either has read beyond the empty line is not handed on to `ReadWsFrame`.

A `Segment` is what one `async_read_some` returns. The hash and the encoding are those of
wolfSSL.
-/

namespace Cfrp.Websocket

open Lib

structure Crypto where
  sha1 : List Byte → List Byte
  /-- `Base64_Encode`, which ends its lines. -/
  base64 : List Byte → List Byte

/-- What a buffer of 1024 bytes has room for. -/
structure Segment where
  bytes : List Byte
  fits : bytes.length ≤ 1024

inductive HandshakeError where
  | accessDenied
  | invalidArgument
  | messageSize
  /-- Any error of the transport. -/
  | transport
  deriving DecidableEq

/-- What the handler of a handshake is called with, and what has been written by then. -/
inductive Outcome where
  | pending
  | failed (ec : HandshakeError)
  | succeeded (sent : List Byte)
  deriving DecidableEq

def ascii (s : String) : List Byte := s.toList.map fun c => UInt8.ofNat c.toNat

/-- `"\r\n\r\n"` -/
def headEnd : List Byte := [0x0D, 0x0A, 0x0D, 0x0A]

def statusText : List Byte := ascii "101 Switching Protocols"
def acceptText : List Byte := ascii "Sec-WebSocket-Accept: "
def keyText : List Byte := ascii "Sec-WebSocket-Key: "

namespace Crypto

variable (c : Crypto)

def base64Encode (data : List Byte) : List Byte :=
  (c.base64 data).rdropWhile fun b => b = 0x00 ∨ b = 0x0A ∨ b = 0x0D

def generateClientKey (nonce : List Byte) : List Byte := c.base64Encode nonce

def generateAcceptKey (clientKey : List Byte) : List Byte :=
  c.base64Encode (c.sha1 (clientKey ++ ascii "258EAFA5-E914-47DA-95CA-C5AB0DC85B11"))

def hasValidAcceptHeader (response clientKey : List Byte) : Bool :=
  (find (acceptText ++ c.generateAcceptKey clientKey) response).isSome

end Crypto

/-- The request of `DoClientHandshake`. -/
def clientRequest (key : List Byte) : List Byte :=
  ascii "GET / HTTP/1.1\r\nHost: cfrp\r\nUpgrade: websocket\r\nConnection: Upgrade\r\n" ++
    (keyText ++ (key ++ ascii "\r\nSec-WebSocket-Version: 13\r\n\r\n"))

/-- `DoClientHandshake`: its outcome, and the reads that are left. A read that fails is `none`. -/
def doClientHandshake (c : Crypto) (nonce : List Byte) :
    List (Option Segment) → Outcome × List (Option Segment)
  | [] => (.pending, [])
  | none :: rest => (.failed .transport, rest)
  | some response :: rest =>
      let key := c.generateClientKey nonce
      if (find statusText response.bytes).isSome && c.hasValidAcceptHeader response.bytes key then
        (.succeeded (clientRequest key), rest)
      else (.failed .accessDenied, rest)

/-- The response of a server. -/
def serverResponse (acceptKey : List Byte) : List Byte :=
  ascii "HTTP/1.1 101 Switching Protocols\r\nUpgrade: websocket\r\nConnection: Upgrade\r\n" ++
    (acceptText ++ (acceptKey ++ headEnd))

/-- A server's answer to a request that is complete. -/
def answer (c : Crypto) (req : List Byte) : Outcome :=
  match find keyText req with
  | none => .failed .invalidArgument
  | some keyPos =>
      let clientKey :=
        match (find [0x0D, 0x0A] (req.drop keyPos)).map (keyPos + ·) with
        | some keyEnd => (req.drop (keyPos + 19)).take (keyEnd - (keyPos + 19))
        | none => req.drop (keyPos + 19)
      .succeeded (serverResponse (c.generateAcceptKey clientKey))

/-- `DoServerHandshakeRead`: its outcome, and the reads that are left. -/
def doServerHandshakeRead (c : Crypto) (requestBuf : List Byte) :
    List (Option Segment) → Outcome × List (Option Segment)
  | [] => (.pending, [])
  | none :: rest => (.failed .transport, rest)
  | some temp :: rest =>
      if (find headEnd (requestBuf ++ temp.bytes)).isSome then
        (answer c (requestBuf ++ temp.bytes), rest)
      else if (requestBuf ++ temp.bytes).length > 8192 then (.failed .messageSize, rest)
      else doServerHandshakeRead c (requestBuf ++ temp.bytes) rest

def doServerHandshake (c : Crypto) (reads : List (Option Segment)) :
    Outcome × List (Option Segment) := doServerHandshakeRead c [] reads

/-! ## What the handshake should do -/

def Outcome.ok : Outcome → Prop
  | .succeeded _ => True
  | _ => False

/-- All that the peer sends, however it is cut. -/
def joined (reads : List Segment) : List Byte := reads.flatMap Segment.bytes

/-- The head of a message: up to and with the first empty line. -/
def head (l : List Byte) : Option (List Byte) := (find headEnd l).map fun i => l.take (i + 4)

/-- The response has the status and the key. -/
def Accepts (c : Crypto) (nonce response : List Byte) : Prop :=
  statusText <:+: response ∧
    acceptText ++ c.generateAcceptKey (c.generateClientKey nonce) <:+: response

/-- The stream after its handshake: `ReadWsFrame` reads what is left. -/
def opened (isClient : Bool) (rest : List (Option Segment)) : Stream :=
  { isClient, input := joined rest.reduceOption, fed := joined rest.reduceOption }

/-- The client accepts the heads that it should, and reads on after the head. -/
def ClientHandOver (c : Crypto) (nonce : List Byte) (reads : List Segment) : Prop :=
  let r := doClientHandshake c nonce (reads.map some)
  (r.1.ok ↔ ∃ h, head (joined reads) = some h ∧ h.length ≤ 1024 ∧ Accepts c nonce h) ∧
    (r.1.ok → ∀ h, head (joined reads) = some h →
      (opened true r.2).input = (joined reads).drop h.length)

/-- The outcome for a head. The buffer stays below 8192 bytes plus one read. -/
def headOutcome (c : Crypto) (h : List Byte) : Outcome :=
  if 9216 < h.length then .failed .messageSize else answer c h

/-- The head decides the server's outcome, and the server reads on after it. -/
def ServerHandOver (c : Crypto) (reads : List Segment) : Prop :=
  let r := doServerHandshake c (reads.map some)
  ∀ h, head (joined reads) = some h → r.1 = headOutcome c h ∧
    (r.1.ok → (opened false r.2).input = (joined reads).drop h.length)

/-- What has been read when there are `n` bytes, and what is left to read. -/
def readUntil (n : Nat) (buf : List Byte) : List Segment → List Byte × List Segment
  | [] => (buf, [])
  | temp :: rest => if n ≤ buf.length then (buf, temp :: rest)
    else readUntil n (buf ++ temp.bytes) rest

/-- The first read is the head, or neither is a response that is accepted. -/
def ClientCut (c : Crypto) (nonce : List Byte) (reads : List Segment) : Prop :=
  head (joined reads) = some (joined (reads.take 1)) ∨
    ¬Accepts c nonce (joined (reads.take 1)) ∧
      ∀ h, head (joined reads) = some h → h.length ≤ 1024 → ¬Accepts c nonce h

/-- No read ends between 8192 bytes and the end of the head, and the read that completes the head
ends with it or leaves the request without a key. -/
def ServerCut (reads : List Segment) : Prop :=
  ∀ h, head (joined reads) = some h → 9216 < h.length ∨
    h.length ≤ (readUntil 8193 [] reads).1.length ∧
      ((readUntil h.length [] reads).1 = h ∨ ¬keyText <:+: (readUntil h.length [] reads).1)

/-! ## Heads -/

theorem headEnd_ne_nil : headEnd ≠ [] := List.cons_ne_nil _ _

theorem head_eq_some {l h : List Byte} (hh : head l = some h) :
    find headEnd l = some (h.length - 4) ∧ 4 ≤ h.length ∧ h.length ≤ l.length ∧
      h = l.take h.length := by
  obtain ⟨i, hi, rfl⟩ := Option.map_eq_some_iff.mp hh
  have hroom : i + headEnd.length ≤ l.length :=
    length_of_prefix_drop headEnd_ne_nil ((find_eq_some_iff headEnd_ne_nil).mp hi).1
  have hlen : (l.take (i + 4)).length = i + 4 := List.length_take_of_le hroom
  rw [hlen, Nat.add_sub_cancel]
  exact ⟨hi, Nat.le_add_left _ _, hroom, rfl⟩

/-- The empty line is in what has been read as soon as the head is. -/
theorem find_headEnd_of_head {got rest h : List Byte} (hh : head (got ++ rest) = some h) :
    (find headEnd got).isSome = true ↔ h.length ≤ got.length := by
  obtain ⟨hfind, hfour, -, -⟩ := head_eq_some hh
  have hgot : find headEnd got = (find headEnd (got ++ rest)).filter
      fun i => i + headEnd.length ≤ got.length := by
    rw [← find_take headEnd_ne_nil, List.take_left]
  have hlen : headEnd.length = 4 := rfl
  rw [hgot, hfind, hlen, Option.filter_some]
  split
  · rename_i hle
    rw [decide_eq_true_iff] at hle
    exact iff_of_true rfl (by omega)
  · rename_i hle
    rw [decide_eq_true_iff] at hle
    exact iff_of_false Bool.false_ne_true (by omega)

/-- What is cut off after its head. -/
theorem eq_head_of_length {got rest h : List Byte} (hh : head (got ++ rest) = some h)
    (hlen : got.length = h.length) : got = h := by
  obtain ⟨-, -, -, htake⟩ := head_eq_some hh
  rw [htake, ← hlen, List.take_left]

theorem prefix_of_length {got rest h : List Byte} (hh : head (got ++ rest) = some h)
    (hle : h.length ≤ got.length) : h <+: got := by
  obtain ⟨-, -, -, htake⟩ := head_eq_some hh
  rw [htake, List.take_append_of_le_length hle]
  exact List.take_prefix _ _

theorem reduceOption_map_some (reads : List Segment) : (reads.map some).reduceOption = reads := by
  show (reads.map some).filterMap id = reads
  rw [List.filterMap_map]
  exact List.filterMap_some

/-! ## The client -/

theorem Accepts.mono {c : Crypto} {nonce l l' : List Byte} (h : Accepts c nonce l)
    (hl : l <:+: l') : Accepts c nonce l' := ⟨h.1.trans hl, h.2.trans hl⟩

theorem not_accepts_nil (c : Crypto) (nonce : List Byte) : ¬Accepts c nonce [] := by
  intro h
  exact absurd (List.infix_nil.mp h.1) (by decide)

/-- **The client decides by its first read.** -/
theorem clientHandshake_ok (c : Crypto) (nonce : List Byte) (reads : List Segment) :
    ((doClientHandshake c nonce (reads.map some)).1.ok ↔
      Accepts c nonce (joined (reads.take 1))) ∧
    joined (doClientHandshake c nonce (reads.map some)).2.reduceOption = joined (reads.drop 1) := by
  cases reads with
  | nil => exact ⟨iff_of_false id (not_accepts_nil c nonce), rfl⟩
  | cons first rest =>
      have hfirst : joined ((first :: rest).take 1) = first.bytes := List.append_nil _
      have haccept : acceptText ++ c.generateAcceptKey (c.generateClientKey nonce) ≠ [] :=
        List.append_ne_nil_of_left_ne_nil (by decide) _
      rw [hfirst, Accepts, ← isSome_find_iff (by decide), ← isSome_find_iff haccept]
      rw [List.map_cons, doClientHandshake, Crypto.hasValidAcceptHeader]
      split
      · rename_i hboth
        rw [Bool.and_eq_true] at hboth
        refine ⟨iff_of_true trivial hboth, ?_⟩
        rw [reduceOption_map_some]
        rfl
      · rename_i hboth
        rw [Bool.and_eq_true] at hboth
        refine ⟨iff_of_false id hboth, ?_⟩
        rw [reduceOption_map_some]
        rfl

theorem joined_take_drop (reads : List Segment) :
    joined (reads.take 1) ++ joined (reads.drop 1) = joined reads := by
  rw [joined, joined, ← List.flatMap_append, List.take_append_drop]
  rfl

theorem joined_take_le (reads : List Segment) : (joined (reads.take 1)).length ≤ 1024 := by
  cases reads with
  | nil => exact Nat.zero_le _
  | cons first rest =>
      have hfirst : joined ((first :: rest).take 1) = first.bytes := List.append_nil _
      rw [hfirst]
      exact first.fits

/-- **The client's hand-over.** -/
theorem clientHandOver_iff (c : Crypto) (nonce : List Byte) (reads : List Segment) :
    ClientHandOver c nonce reads ↔ ClientCut c nonce reads := by
  obtain ⟨hok, hrest⟩ := clientHandshake_ok c nonce reads
  have hjoined := joined_take_drop reads
  have hfits := joined_take_le reads
  rw [ClientHandOver, ClientCut]
  simp only [hok, opened, hrest]
  generalize joined (reads.take 1) = first at *
  generalize joined (reads.drop 1) = rest at *
  rw [← hjoined]
  constructor
  · rintro ⟨haccepts, hleft⟩
    by_cases hhead : head (first ++ rest) = some first
    · exact .inl hhead
    have hfirst : ¬Accepts c nonce first := by
      intro hfirst
      obtain ⟨h, hh, -, -⟩ := haccepts.mp hfirst
      have hdrop := congrArg List.length (hleft hfirst h hh)
      obtain ⟨-, -, hle, -⟩ := head_eq_some hh
      rw [List.length_drop, List.length_append] at hdrop
      rw [List.length_append] at hle
      refine hhead ?_
      rw [eq_head_of_length hh (by omega)]
      exact eq_head_of_length hh (by omega) ▸ hh
    exact .inr ⟨hfirst, fun h hh hlen hh' => hfirst (haccepts.mpr ⟨h, hh, hlen, hh'⟩)⟩
  · rintro (hhead | ⟨hfirst, hnone⟩)
    · refine ⟨⟨fun hfirst => ⟨first, hhead, hfits, hfirst⟩, ?_⟩, ?_⟩
      · rintro ⟨h, hh, -, hh'⟩
        rw [hhead] at hh
        exact Option.some.inj hh ▸ hh'
      · intro _ h hh
        rw [hhead] at hh
        rw [← Option.some.inj hh, List.drop_left]
    · refine ⟨iff_of_false hfirst ?_, fun hfirst' => absurd hfirst' hfirst⟩
      rintro ⟨h, hh, hlen, hh'⟩
      exact hnone h hh hlen hh'

/-! ## The server -/

theorem readUntil_append (n : Nat) : ∀ (reads : List Segment) (buf : List Byte),
    (readUntil n buf reads).1 ++ joined (readUntil n buf reads).2 = buf ++ joined reads
  | [], buf => rfl
  | temp :: rest, buf => by
      rw [readUntil]
      split
      · rfl
      · rw [readUntil_append n rest, List.append_assoc]
        rfl

theorem readUntil_of_le {n : Nat} {buf : List Byte} (h : n ≤ buf.length) (reads : List Segment) :
    readUntil n buf reads = (buf, reads) := by
  cases reads with
  | nil => rfl
  | cons temp rest => rw [readUntil, if_pos h]

theorem le_readUntil (n : Nat) : ∀ (reads : List Segment) (buf : List Byte),
    buf.length ≤ (readUntil n buf reads).1.length
  | [], buf => Nat.le_refl _
  | temp :: rest, buf => by
      rw [readUntil]
      split
      · exact Nat.le_refl _
      · refine Nat.le_trans ?_ (le_readUntil n rest _)
        rw [List.length_append]
        exact Nat.le_add_right _ _

theorem readUntil_ge {n : Nat} : ∀ {reads : List Segment} {buf : List Byte},
    n ≤ (buf ++ joined reads).length → n ≤ (readUntil n buf reads).1.length
  | [], buf, h => by
      have hbuf : buf ++ joined [] = buf := List.append_nil _
      rw [hbuf] at h
      exact h
  | temp :: rest, buf, h => by
      rw [readUntil]
      split
      · assumption
      · refine readUntil_ge ?_
        rw [List.append_assoc]
        exact h

/-- One read goes past the limit. -/
theorem readUntil_le (n : Nat) : ∀ (reads : List Segment) (buf : List Byte), buf.length ≤ n + 1024 →
    (readUntil (n + 1) buf reads).1.length ≤ n + 1024
  | [], buf, h => h
  | temp :: rest, buf, h => by
      rw [readUntil]
      split
      · exact h
      · have hfits := temp.fits
        refine readUntil_le n rest _ ?_
        rw [List.length_append]
        omega

/-- **The server's loop** stops when the head is complete, or when there are more than 8192 bytes
without it. -/
theorem serverHandshakeRead_eq (c : Crypto) {h : List Byte} :
    ∀ (reads : List Segment) (buf : List Byte), buf.length < h.length → buf.length ≤ 8192 →
    head (buf ++ joined reads) = some h →
    doServerHandshakeRead c buf (reads.map some) =
      if h.length ≤ (readUntil 8193 buf reads).1.length then
        (answer c (readUntil h.length buf reads).1, (readUntil h.length buf reads).2.map some)
      else (.failed .messageSize, (readUntil 8193 buf reads).2.map some)
  | [], buf, hlt, _, hh => by
      obtain ⟨-, -, hle, -⟩ := head_eq_some hh
      have hbuf : buf ++ joined [] = buf := List.append_nil _
      rw [hbuf] at hle
      omega
  | temp :: rest, buf, hlt, hsmall, hh => by
      have hcons : buf ++ joined (temp :: rest) = (buf ++ temp.bytes) ++ joined rest :=
        (List.append_assoc _ _ _).symm
      rw [hcons] at hh
      have hfound := find_headEnd_of_head hh
      have huntil : ∀ n, buf.length < n →
          readUntil n buf (temp :: rest) = readUntil n (buf ++ temp.bytes) rest := by
        intro n hn
        rw [readUntil, if_neg (Nat.not_le.mpr hn)]
      rw [List.map_cons, doServerHandshakeRead, huntil _ hlt, huntil 8193 (by omega)]
      split
      · rename_i hhead
        have hle := hfound.mp hhead
        rw [if_pos (hle.trans (le_readUntil _ _ _)), readUntil_of_le hle]
      rename_i hhead
      have hlt' : (buf ++ temp.bytes).length < h.length :=
        Nat.not_le.mp fun hle => hhead (hfound.mpr hle)
      split
      · rename_i hbig
        rw [readUntil_of_le (n := 8193) hbig, if_neg (Nat.not_le.mpr hlt')]
      · rename_i hbig
        exact serverHandshakeRead_eq c rest _ hlt' (Nat.not_lt.mp hbig) hh

theorem keyText_ne_nil : keyText ≠ [] := by decide

theorem answer_of_noKey {c : Crypto} {req : List Byte} (h : ¬keyText <:+: req) :
    answer c req = .failed .invalidArgument := by
  have hnone : find keyText req = none := by
    rw [← Option.not_isSome_iff_eq_none, isSome_find_iff keyText_ne_nil]
    exact h
  rw [answer, hnone]

theorem answer_ok {c : Crypto} {req : List Byte} (h : keyText <:+: req) : (answer c req).ok := by
  obtain ⟨keyPos, hpos⟩ := Option.isSome_iff_exists.mp ((isSome_find_iff keyText_ne_nil).mpr h)
  rw [answer, hpos]
  trivial

/-- **The server's hand-over.** -/
theorem serverHandOver_iff (c : Crypto) (reads : List Segment) :
    ServerHandOver c reads ↔ ServerCut reads := by
  refine forall_congr' fun h => forall_congr' fun hh => ?_
  obtain ⟨-, hfour, -, -⟩ := head_eq_some hh
  have hrun := serverHandshakeRead_eq c reads [] (by rw [List.length_nil]; omega) (Nat.zero_le _) hh
  have hlimit : (readUntil 8193 [] reads).1.length ≤ 9216 :=
    readUntil_le 8192 reads [] (Nat.zero_le _)
  rw [doServerHandshake, hrun, headOutcome]
  split
  · rename_i hle
    have hshort : ¬9216 < h.length := by omega
    -- the head ends within the limit
    rw [if_neg hshort]
    rw [or_iff_right hshort, and_iff_right hle]
    obtain ⟨-, -, hroom, -⟩ := head_eq_some hh
    have hfull : h.length ≤ (readUntil h.length [] reads).1.length := readUntil_ge hroom
    have hgot := readUntil_append h.length reads []
    simp only [opened, reduceOption_map_some, List.nil_append] at hgot ⊢
    generalize (readUntil h.length [] reads).1 = got at *
    generalize (readUntil h.length [] reads).2 = rest at *
    rw [← hgot] at hh hroom ⊢
    constructor
    · rintro ⟨-, hleft⟩
      -- without a key there is no stream to hand the rest to
      by_cases hkey : keyText <:+: got
      · have hdrop := congrArg List.length (hleft (answer_ok hkey))
        rw [List.length_drop, List.length_append] at hdrop
        rw [List.length_append] at hroom
        exact .inl (eq_head_of_length hh (by omega))
      · exact .inr hkey
    · rintro (rfl | hkey)
      · exact ⟨rfl, fun _ => List.drop_left.symm⟩
      · have hhead : ¬keyText <:+: h :=
          fun hin => hkey (hin.trans (prefix_of_length hh hfull).isInfix)
        rw [answer_of_noKey hkey, answer_of_noKey hhead]
        exact ⟨rfl, fun hok => absurd hok id⟩
  · rename_i hlt
    -- the reads end before the head does
    have hnot : ¬(h.length ≤ (readUntil 8193 [] reads).1.length ∧
        ((readUntil h.length [] reads).1 = h ∨ ¬keyText <:+: (readUntil h.length [] reads).1)) :=
      fun hcut => hlt hcut.1
    rw [or_iff_left hnot]
    split
    · rename_i hlong
      exact iff_of_true ⟨rfl, fun hok => absurd hok id⟩ hlong
    · rename_i hshort
      refine iff_of_false ?_ hshort
      rintro ⟨hsame, -⟩
      by_cases hkey : keyText <:+: h
      · have hok := answer_ok (c := c) hkey
        rw [← hsame] at hok
        exact hok
      · rw [answer_of_noKey hkey] at hsame
        cases hsame

/-- **Where the bytes of the handshake end.** Each side hands over the head and nothing else exactly
when its reads are cut at the end of the head, or nothing comes of the handshake anyway. -/
theorem handOver_iff (c : Crypto) (nonce : List Byte) (response request : List Segment) :
    ClientHandOver c nonce response ∧ ServerHandOver c request ↔
      ClientCut c nonce response ∧ ServerCut request :=
  and_congr (clientHandOver_iff c nonce response) (serverHandOver_iff c request)

/-- The example of the protocol's specification, and a frame right behind the response. -/
def sampleKey : List Byte := ascii "dGhlIHNhbXBsZSBub25jZQ=="
def sampleAccept : List Byte := ascii "s3pPLMBiTxaQ9kYGzzhZRbK+xOo="

def sampleCrypto : Crypto where
  sha1 _ := [0xB3, 0x7A, 0x4F, 0x2C, 0xC0, 0x62, 0x4F, 0x16, 0x90, 0xF6, 0x46, 0x06, 0xCF, 0x38,
    0x59, 0x45, 0xB2, 0xBE, 0xC4, 0xEA]
  base64 data := (if data = ascii "the sample nonce" then sampleKey else sampleAccept) ++ [0x0A]

def sampleRead : Segment := ⟨serverResponse sampleAccept ++ [0x82, 0x01, 0x41], by decide +kernel⟩

/-- What comes in one read with the response is lost. -/
theorem frame_with_response_lost :
    ¬ ∀ (c : Crypto) (nonce : List Byte) (response request : List Segment),
      ClientHandOver c nonce response ∧ ServerHandOver c request := by
  intro hall
  have hcut := (clientHandOver_iff _ _ _).mp
    (hall sampleCrypto (ascii "the sample nonce") [sampleRead] []).1
  have haccepts : Accepts sampleCrypto (ascii "the sample nonce") sampleRead.bytes :=
    ⟨(isSome_find_iff (by decide)).mp (by decide +kernel),
      (isSome_find_iff (by decide +kernel)).mp (by decide +kernel)⟩
  have hjoined : joined ([sampleRead].take 1) = sampleRead.bytes := List.append_nil _
  have hhead : head sampleRead.bytes = some (serverResponse sampleAccept) := by decide +kernel
  rw [ClientCut, hjoined] at hcut
  rcases hcut with hcut | ⟨hcut, -⟩
  · have hwhole : joined [sampleRead] = sampleRead.bytes := List.append_nil _
    rw [hwhole, hhead] at hcut
    exact absurd (congrArg (Option.map List.length) hcut) (by decide +kernel)
  · exact hcut haccepts

/-! ## The two sides -/

theorem accepts_serverResponse (c : Crypto) (nonce : List Byte) :
    Accepts c nonce (serverResponse (c.generateAcceptKey (c.generateClientKey nonce))) := by
  refine ⟨?_, ?_⟩
  · exact ((isSome_find_iff (by decide)).mp (by decide +kernel)).trans
      (List.prefix_append _ _).isInfix
  · refine ⟨ascii "HTTP/1.1 101 Switching Protocols\r\nUpgrade: websocket\r\nConnection: Upgrade\r\n",
      headEnd, ?_⟩
    rw [serverResponse, List.append_assoc, List.append_assoc]

/-- **A server's answer to a client's request** has the key that the client expects. -/
theorem answer_clientRequest (c : Crypto) {key : List Byte} (hkey : 0x0D ∉ key) :
    answer c (clientRequest key) = .succeeded (serverResponse (c.generateAcceptKey key)) := by
  let preamble := ascii
    "GET / HTTP/1.1\r\nHost: cfrp\r\nUpgrade: websocket\r\nConnection: Upgrade\r\n"
  let version := ascii "Sec-WebSocket-Version: 13\r\n\r\n"
  have hrequest : clientRequest key = preamble ++ keyText ++ (key ++ ([0x0D, 0x0A] ++ version)) :=
    (List.append_assoc _ _ _).symm
  have hpreamble : preamble.length = 69 := by decide +kernel
  have hlen : (preamble ++ keyText).length = 69 + 19 := by decide +kernel
  have hpos : find keyText (clientRequest key) = some 69 := by
    have hpart := find_take keyText_ne_nil (clientRequest key) (69 + 19)
    rw [hrequest, ← hlen, List.take_left, ← hrequest] at hpart
    have hfound : find keyText (preamble ++ keyText) = some 69 := by decide +kernel
    rw [hfound] at hpart
    exact (Option.filter_eq_some_iff.mp hpart.symm).1
  have hdrop : (clientRequest key).drop 69 = keyText ++ key ++ ([0x0D, 0x0A] ++ version) := by
    rw [hrequest, ← hpreamble, List.append_assoc, List.drop_left, List.append_assoc]
  have hafter : (clientRequest key).drop (69 + 19) = key ++ ([0x0D, 0x0A] ++ version) := by
    rw [hrequest, ← hlen, List.drop_left]
  have hno : 0x0D ∉ keyText ++ key := by
    rw [List.mem_append, not_or]
    exact ⟨by decide, hkey⟩
  have hkeyText : keyText.length = 19 := by decide
  have hend : 69 + (keyText ++ key).length - (69 + 19) = key.length := by
    rw [List.length_append, hkeyText]
    omega
  rw [answer, hpos]
  simp only [hdrop, hafter, find_of_notMem hno, Option.map_some, hend, List.take_left]

end Cfrp.Websocket
