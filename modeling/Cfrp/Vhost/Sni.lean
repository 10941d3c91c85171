import Cfrp.Lib.BigEndian
import Cfrp.Protocol.Messages

/-!
# The server name of a TLS connection

The `https` branch of `DoVhostAccept` looks for the host name in the first record of a
connection. `data` is what the one read has put into the buffer, and its length is `size`.
A position never gets past a few hundred thousand here, so `size_t` is `Nat`.

Every read of the source is a read that can fail here, and the loop over the extensions has
a bound on its turns: `none` would be a read outside the buffer, or a loop that is still
running after as many turns as there are bytes.
-/

namespace Cfrp.Vhost

open Lib

/-- `data[i]`. -/
def byteAt (data : List Byte) (i : Nat) : Option Nat := data[i]?.map UInt8.toNat

/-- `(data[i] << 8) | data[i + 1]`. -/
def wordAt (data : List Byte) (i : Nat) : Option Nat := do
  let hi ← byteAt data i
  let lo ← byteAt data (i + 1)
  return hi <<< 8 ||| lo

/-- `std::string(data + i, n)`. -/
def bytesAt (data : List Byte) (i n : Nat) : Option (List Byte) :=
  if i + n ≤ data.length then some ((data.drop i).take n) else none

/-- The body of a `server_name` extension: the name of its first entry. -/
def serverName (data : List Byte) (pos : Nat) : Option (List Byte) :=
  if pos + 2 ≤ data.length then do
    let _listLen ← wordAt data pos
    let pos := pos + 2
    if pos + 3 ≤ data.length then do
      if (← byteAt data pos) = 0x00 then do
        let nameLen ← wordAt data (pos + 1)
        let pos := pos + 3
        if pos + nameLen ≤ data.length then bytesAt data pos nameLen else some []
      else some []
    else some []
  else some []

/-- The loop over the extensions. -/
def extensionLoop (data : List Byte) (endExt : Nat) : Nat → Nat → Option (List Byte)
  | 0, _ => none
  | turns + 1, pos =>
      if pos + 4 ≤ data.length ∧ pos + 4 ≤ endExt then do
        let etype ← wordAt data pos
        let elen ← wordAt data (pos + 2)
        let pos := pos + 4
        if etype = 0x0000 then serverName data pos
        else extensionLoop data endExt turns (pos + elen)
      else some []

/-- What follows the random bytes of a `ClientHello`. -/
def helloName (data : List Byte) (pos : Nat) : Option (List Byte) :=
  if pos < data.length then do
    let sessIdLen ← byteAt data pos
    let pos := pos + (1 + sessIdLen)
    if pos + 2 ≤ data.length then do
      let cipherLen ← wordAt data pos
      let pos := pos + (2 + cipherLen)
      if pos + 1 ≤ data.length then do
        let compLen ← byteAt data pos
        let pos := pos + (1 + compLen)
        if pos + 2 ≤ data.length then do
          let extLen ← wordAt data pos
          let pos := pos + 2
          let endExt := pos + extLen
          extensionLoop data endExt data.length pos
        else some []
      else some []
    else some []
  else some []

/-- The `https` branch: the domain, which stays empty where the source does not set it. -/
def sniDomain (data : List Byte) : Option (List Byte) :=
  if data.length > 5 then do
    if (← byteAt data 0) = 0x16 then do
      let len ← wordAt data 3
      if len + 5 ≤ data.length then do
        if (← byteAt data 5) = 0x01 then
          helloName data (5 + 4 + 2 + 32)
        else some []
      else some []
    else some []
  else some []

/-! ## No read outside the buffer -/

theorem byteAt_of_lt {data : List Byte} {i : Nat} (h : i < data.length) :
    ∃ b, byteAt data i = some b :=
  ⟨_, by rw [byteAt, List.getElem?_eq_getElem h, Option.map_some]⟩

theorem wordAt_of_le {data : List Byte} {i : Nat} (h : i + 2 ≤ data.length) :
    ∃ w, wordAt data i = some w := by
  obtain ⟨hi, hhi⟩ : ∃ b, byteAt data i = some b := byteAt_of_lt (by omega)
  obtain ⟨lo, hlo⟩ : ∃ b, byteAt data (i + 1) = some b := byteAt_of_lt (by omega)
  exact ⟨_, by rw [wordAt, hhi, hlo]; rfl⟩

/-- A read that succeeds, and then a parser that does. -/
theorem bind_some_of {α β : Type} {x : Option α} {f : α → Option β} (hx : ∃ a, x = some a)
    (hf : ∀ a, ∃ b, f a = some b) : ∃ b, (x >>= f) = some b := by
  obtain ⟨a, rfl⟩ := hx
  exact hf a

/-- A test that protects what it allows. -/
theorem ite_some_of {α : Type} {p : Prop} [Decidable p] {x : Option α} {a : α}
    (hx : p → ∃ b, x = some b) : ∃ b, (if p then x else some a) = some b := by
  split
  · rename_i hp
    exact hx hp
  · exact ⟨a, rfl⟩

theorem serverName_total (data : List Byte) (pos : Nat) :
    ∃ name, serverName data pos = some name := by
  unfold serverName
  refine ite_some_of fun hlist => bind_some_of (wordAt_of_le hlist) fun _ => ?_
  refine ite_some_of fun hentry => bind_some_of (byteAt_of_lt (by omega)) fun _ => ?_
  refine ite_some_of fun _ => bind_some_of (wordAt_of_le (by omega)) fun nameLen => ?_
  exact ite_some_of fun hname => ⟨_, if_pos hname⟩

/-- Every turn moves on by four bytes at least, so a turn for each byte is more than enough. -/
theorem extensionLoop_total (data : List Byte) (endExt : Nat) :
    ∀ turns pos, 0 < turns → data.length < pos + turns →
      ∃ name, extensionLoop data endExt turns pos = some name
  | 0, _, hturns, _ => absurd hturns (Nat.lt_irrefl 0)
  | turns + 1, pos, _, h => by
      unfold extensionLoop
      refine ite_some_of fun hroom => bind_some_of (wordAt_of_le (by omega)) fun etype => ?_
      refine bind_some_of (wordAt_of_le (by omega)) fun elen => ?_
      dsimp only
      split
      · exact serverName_total data (pos + 4)
      · exact extensionLoop_total data endExt turns _ (by omega) (by omega)

theorem helloName_total {data : List Byte} {pos : Nat} (hpos : 0 < pos) :
    ∃ name, helloName data pos = some name := by
  unfold helloName
  refine ite_some_of fun hid => bind_some_of (byteAt_of_lt hid) fun sessIdLen => ?_
  refine ite_some_of fun hcipher => bind_some_of (wordAt_of_le hcipher) fun cipherLen => ?_
  refine ite_some_of fun hcomp => bind_some_of (byteAt_of_lt (by omega)) fun compLen => ?_
  refine ite_some_of fun hext => bind_some_of (wordAt_of_le hext) fun extLen => ?_
  exact extensionLoop_total data _ _ _ (by omega) (by omega)

/-- **The parser is total**: it reads only inside the buffer, whatever the bytes, and the loop
over the extensions comes to an end. -/
theorem sniDomain_total (data : List Byte) : ∃ domain, sniDomain data = some domain := by
  unfold sniDomain
  refine ite_some_of fun hsize => bind_some_of (byteAt_of_lt (by omega)) fun _ => ?_
  refine ite_some_of fun _ => bind_some_of (wordAt_of_le (by omega)) fun len => ?_
  refine ite_some_of fun hlen => bind_some_of (byteAt_of_lt (by omega)) fun _ => ?_
  exact ite_some_of fun _ => helloName_total (by omega)

/-! ## What a client sends -/

/-- An entry of a `server_name` extension. -/
structure ServerName where
  nameType : Byte
  name : List Byte

def ServerName.bytes (n : ServerName) : List Byte :=
  n.nameType :: (be 2 n.name.length ++ n.name)

inductive Extension where
  /-- A list of names, the first of which is a host name. -/
  | serverName (hostName : List Byte) (others : List ServerName)
  | other (type : Nat) (data : List Byte)

namespace Extension

def type : Extension → Nat
  | .serverName _ _ => 0x0000
  | .other type _ => type

/-- The entries of the server name list, one after the other. -/
def names (hostName : List Byte) (others : List ServerName) : List Byte :=
  (⟨0x00, hostName⟩ :: others).flatMap ServerName.bytes

def body : Extension → List Byte
  | .serverName hostName others =>
      be 2 (names hostName others).length ++ names hostName others
  | .other _ data => data

def bytes (e : Extension) : List Byte := be 2 e.type ++ (be 2 e.body.length ++ e.body)

/-- The lengths fit into their fields, and only a `server_name` has the type `0`. -/
def WellFormed : Extension → Prop
  | .serverName hostName others => (body (.serverName hostName others)).length < 65536
  | .other type data => type ≠ 0x0000 ∧ type < 65536 ∧ data.length < 65536

theorem WellFormed.type_lt {e : Extension} (h : e.WellFormed) : e.type < 65536 := by
  cases e with
  | serverName => exact Nat.zero_lt_of_ne_zero (by decide)
  | other => exact h.2.1

theorem WellFormed.body_lt {e : Extension} (h : e.WellFormed) : e.body.length < 65536 := by
  cases e with
  | serverName => exact h
  | other => exact h.2.2

end Extension

/-- A `ClientHello` with an extensions block. -/
structure ClientHello where
  version : List Byte
  random : List Byte
  sessionId : List Byte
  cipherSuites : List Byte
  compressionMethods : List Byte
  extensions : List Extension

namespace ClientHello

def extensionBytes (hello : ClientHello) : List Byte := hello.extensions.flatMap Extension.bytes

def body (hello : ClientHello) : List Byte :=
  hello.version ++ (hello.random ++
    (be 1 hello.sessionId.length ++ (hello.sessionId ++
      (be 2 hello.cipherSuites.length ++ (hello.cipherSuites ++
        (be 1 hello.compressionMethods.length ++ (hello.compressionMethods ++
          (be 2 hello.extensionBytes.length ++ hello.extensionBytes))))))))

/-- The handshake message: its type, its length in three bytes, its body. -/
def handshake (hello : ClientHello) : List Byte := 0x01 :: (be 3 hello.body.length ++ hello.body)

/-- The one record that holds the message. -/
def record (recordVersion : List Byte) (hello : ClientHello) : List Byte :=
  0x16 :: (recordVersion ++ (be 2 hello.handshake.length ++ hello.handshake))

structure WellFormed (hello : ClientHello) : Prop where
  version : hello.version.length = 2
  random : hello.random.length = 32
  sessionId : hello.sessionId.length < 256
  cipherSuites : hello.cipherSuites.length < 65536
  compressionMethods : hello.compressionMethods.length < 256
  extensions : ∀ e ∈ hello.extensions, e.WellFormed
  extensionBytes : hello.extensionBytes.length < 65536
  handshake : hello.handshake.length < 65536

end ClientHello

/-- The host name in the first `server_name` extension, and nothing if there is none. -/
def hostName : List Extension → List Byte
  | [] => []
  | .serverName hostName _ :: _ => hostName
  | .other _ _ :: rest => hostName rest

/-! ## Reading what was written -/

/-- At the position `pos` of the buffer stands `bytes`, up to its end. -/
def At (data : List Byte) (pos : Nat) (bytes : List Byte) : Prop :=
  pos ≤ data.length ∧ data.drop pos = bytes

theorem At.length {data : List Byte} {pos : Nat} {bytes : List Byte} (h : At data pos bytes) :
    data.length = pos + bytes.length := by
  have hlen := congrArg List.length h.2
  rw [List.length_drop] at hlen
  have := h.1
  omega

theorem At.skip {data : List Byte} {pos : Nat} {xs ys : List Byte} (h : At data pos (xs ++ ys)) :
    At data (pos + xs.length) ys := by
  have hlen := h.length
  rw [List.length_append] at hlen
  refine ⟨by omega, ?_⟩
  rw [← List.drop_drop, h.2, List.drop_left]

theorem At.byteAt {data : List Byte} {pos : Nat} {b : Byte} {rest : List Byte}
    (h : At data pos (b :: rest)) : byteAt data pos = some b.toNat := by
  have hget : data[pos]? = some b := by
    have := congrArg (fun l => l[0]?) h.2
    simpa using this
  rw [Vhost.byteAt, hget, Option.map_some]

theorem At.lengthByte {data : List Byte} {pos n : Nat} {rest : List Byte} (hn : n < 256)
    (h : At data pos (be 1 n ++ rest)) : Vhost.byteAt data pos = some n := by
  rw [At.byteAt (b := UInt8.ofNat (n >>> (0 * 8))) h, shiftRight_byte, Nat.pow_zero, Nat.div_one,
    Nat.mod_eq_of_lt hn]

theorem At.wordAt {data : List Byte} {pos n : Nat} {rest : List Byte} (hn : n < 65536)
    (h : At data pos (be 2 n ++ rest)) : Vhost.wordAt data pos = some n := by
  have hhi : Vhost.byteAt data pos = some (UInt8.ofNat (n >>> (1 * 8))).toNat := h.byteAt
  have hlo : Vhost.byteAt data (pos + 1) = some (UInt8.ofNat (n >>> (0 * 8))).toNat := by
    have hrest : At data pos ([UInt8.ofNat (n >>> (1 * 8))] ++ (be 1 n ++ rest)) := h
    exact hrest.skip.byteAt
  have hvalue : n / 256 ^ 1 % 256 * 256 + n / 256 ^ 0 % 256 = n := by omega
  simp only [Vhost.wordAt, hhi, hlo, Option.bind_eq_bind, Option.bind_some, Option.pure_def]
  rw [shiftLeft_or, shiftRight_byte, shiftRight_byte, hvalue]

theorem At.bytesAt {data : List Byte} {pos : Nat} {xs rest : List Byte}
    (h : At data pos (xs ++ rest)) : Vhost.bytesAt data pos xs.length = some xs := by
  have hlen := h.length
  rw [List.length_append] at hlen
  rw [Vhost.bytesAt, if_pos (by omega), h.2, List.take_left]

/-! ## The name that was written -/

theorem serverName_at {data rest name : List Byte} {others : List ServerName} {pos : Nat}
    (hwf : (Extension.serverName name others).WellFormed)
    (h : At data pos (Extension.body (.serverName name others) ++ rest)) :
    serverName data pos = some name := by
  have hlist : At data pos (be 2 (Extension.names name others).length ++
      ([0x00] ++ (be 2 name.length ++ (name ++ (others.flatMap ServerName.bytes ++ rest))))) := by
    simpa [Extension.body, Extension.names, ServerName.bytes] using h
  have hnames : (Extension.names name others).length < 65534 := by
    have hbody := hwf
    simp only [Extension.WellFormed, Extension.body, List.length_append, length_be] at hbody
    omega
  have hname : name.length < 65536 := by
    simp only [Extension.names, List.flatMap_cons, List.length_append, ServerName.bytes,
      List.length_cons] at hnames
    omega
  have hentry : At data (pos + 2) _ := hlist.skip
  have hlen : At data (pos + 2 + 1) _ := hentry.skip
  have hbytes : At data (pos + 2 + 3) _ := hlen.skip
  have hsize := hbytes.length
  rw [List.length_append] at hsize
  unfold serverName
  rw [if_pos (by omega), hlist.wordAt (by omega)]
  simp only [Option.bind_eq_bind, Option.bind_some]
  rw [if_pos (by omega), hentry.byteAt]
  simp only [Option.bind_some]
  rw [if_pos (by decide), hlen.wordAt hname]
  simp only [Option.bind_some]
  rw [if_pos (by omega)]
  exact hbytes.bytesAt

theorem extensionLoop_at {data rest : List Byte} :
    ∀ (extensions : List Extension) (turns pos endExt : Nat), (∀ e ∈ extensions, e.WellFormed) →
      At data pos (extensions.flatMap Extension.bytes ++ rest) →
      endExt = pos + (extensions.flatMap Extension.bytes).length →
      0 < turns → data.length < pos + turns →
      extensionLoop data endExt turns pos = some (hostName extensions)
  | _, 0, _, _, _, _, _, hturns, _ => absurd hturns (Nat.lt_irrefl 0)
  | [], turns + 1, pos, endExt, _, _, hend, _, _ => by
      unfold extensionLoop
      have hstop : ¬ (pos + 4 ≤ data.length ∧ pos + 4 ≤ endExt) := by
        rw [hend, List.flatMap_nil, List.length_nil]
        omega
      rw [if_neg hstop]
      rfl
  | e :: extensions, turns + 1, pos, endExt, hwf, hat, hend, _, hbound => by
      have he := hwf e List.mem_cons_self
      have htype : At data pos (be 2 e.type ++ (be 2 e.body.length ++
          (e.body ++ (extensions.flatMap Extension.bytes ++ rest)))) := by
        simpa [Extension.bytes] using hat
      have hlen : At data (pos + 2) _ := htype.skip
      have hbody : At data (pos + 4) _ := hlen.skip
      have hnext : At data (pos + 4 + e.body.length) _ := hbody.skip
      have hsize := hbody.length
      rw [List.length_append] at hsize
      have hend' : endExt = pos + 4 + e.body.length +
          (extensions.flatMap Extension.bytes).length := by
        rw [hend, List.flatMap_cons, List.length_append, Extension.bytes, List.length_append,
          List.length_append, length_be, length_be]
        omega
      unfold extensionLoop
      rw [if_pos (by omega), htype.wordAt he.type_lt, hlen.wordAt he.body_lt]
      simp only [Option.bind_eq_bind, Option.bind_some]
      cases e with
      | serverName name others =>
          exact (if_pos rfl).trans (serverName_at he hbody)
      | other type body =>
          exact (if_neg he.1).trans (extensionLoop_at extensions turns _ endExt
            (fun e he => hwf e (List.mem_cons_of_mem _ he)) hnext hend' (by omega) (by omega))

theorem helloName_at {data rest : List Byte} {hello : ClientHello} (hwf : hello.WellFormed)
    {pos : Nat} (hpos : 0 < pos) (h : At data pos
      (be 1 hello.sessionId.length ++ (hello.sessionId ++
        (be 2 hello.cipherSuites.length ++ (hello.cipherSuites ++
          (be 1 hello.compressionMethods.length ++ (hello.compressionMethods ++
            (be 2 hello.extensionBytes.length ++ (hello.extensionBytes ++ rest))))))))) :
    helloName data pos = some (hostName hello.extensions) := by
  have hcipher : At data (pos + 1 + hello.sessionId.length) _ := At.skip h.skip
  have hcomp : At data (pos + 1 + hello.sessionId.length + 2 + hello.cipherSuites.length) _ :=
    hcipher.skip.skip
  have hext : At data (pos + 1 + hello.sessionId.length + 2 + hello.cipherSuites.length + 1 +
      hello.compressionMethods.length) _ := hcomp.skip.skip
  have hexts : At data (pos + 1 + hello.sessionId.length + 2 + hello.cipherSuites.length + 1 +
      hello.compressionMethods.length + 2) _ := hext.skip
  have hsize := hexts.length
  unfold helloName
  rw [if_pos (by omega), h.lengthByte hwf.sessionId]
  simp only [Option.bind_eq_bind, Option.bind_some, ← Nat.add_assoc]
  rw [if_pos (by omega), hcipher.wordAt hwf.cipherSuites]
  simp only [Option.bind_some]
  rw [if_pos (by omega), hcomp.lengthByte hwf.compressionMethods]
  simp only [Option.bind_some]
  rw [if_pos (by omega), hext.wordAt hwf.extensionBytes]
  simp only [Option.bind_some]
  exact extensionLoop_at hello.extensions _ _ _ hwf.extensions hexts rfl (by omega) (by omega)

/-- **The server name.** Of a well-formed `ClientHello` in one record, whatever follows the
record, the domain is the host name its `server_name` extension begins with, and empty if it
has none. On any bytes the parser reads nothing outside the buffer and comes to an end. -/
theorem sniDomain_exact (data : List Byte) {hello : ClientHello} (hwf : hello.WellFormed)
    {recordVersion : List Byte} (hversion : recordVersion.length = 2) (rest : List Byte) :
    (∃ domain, sniDomain data = some domain) ∧
    sniDomain (hello.record recordVersion ++ rest) = some (hostName hello.extensions) := by
  refine ⟨sniDomain_total data, ?_⟩
  have hstart : At (hello.record recordVersion ++ rest) 0
      ([0x16] ++ (recordVersion ++ (be 2 hello.handshake.length ++ ([0x01] ++
        (be 3 hello.body.length ++ (hello.version ++ (hello.random ++
          (be 1 hello.sessionId.length ++ (hello.sessionId ++
            (be 2 hello.cipherSuites.length ++ (hello.cipherSuites ++
              (be 1 hello.compressionMethods.length ++ (hello.compressionMethods ++
                (be 2 hello.extensionBytes.length ++
                  (hello.extensionBytes ++ rest))))))))))))))) := by
    refine ⟨Nat.zero_le _, ?_⟩
    simp [ClientHello.record, ClientHello.handshake, ClientHello.body]
  generalize hello.record recordVersion ++ rest = buffer at hstart
  have hrecord : At buffer 1 _ := hstart.skip
  have hlen : At buffer 3 _ := hversion ▸ hrecord.skip
  have hkind : At buffer 5 _ := hlen.skip
  have hbody : At buffer 9 _ := At.skip hkind.skip
  have hrandom : At buffer 11 _ := hwf.version ▸ hbody.skip
  have hhello : At buffer 43 _ := hwf.random ▸ hrandom.skip
  have hsize := hkind.length
  simp only [List.length_append, List.length_cons, List.length_nil, length_be] at hsize
  have hhandshake : hello.handshake.length + 5 ≤ buffer.length := by
    simp only [ClientHello.handshake, ClientHello.body, List.length_append, List.length_cons,
      length_be]
    omega
  unfold sniDomain
  rw [if_pos (by omega), hstart.byteAt]
  simp only [Option.bind_eq_bind, Option.bind_some]
  rw [if_pos (by decide), hlen.wordAt hwf.handshake]
  simp only [Option.bind_some]
  rw [if_pos hhandshake, hkind.byteAt]
  simp only [Option.bind_some]
  rw [if_pos (by decide)]
  exact helloName_at hwf (by decide) hhello

/-- A name after an extension of another kind, and bytes after the record. -/
theorem sniDomain_exact_example :
    sniDomain (ClientHello.record [3, 1]
      { version := [3, 3], random := List.replicate 32 7, sessionId := [], cipherSuites := [19, 1]
        compressionMethods := [0]
        extensions := [.other 23 [], .serverName [97, 46, 98] []] } ++ [20, 3, 3]) =
      some [97, 46, 98] := by
  refine (sniDomain_exact [] ⟨rfl, rfl, by decide, by decide, by decide, ?_, by decide, by decide⟩
    rfl [20, 3, 3]).2
  intro e he
  simp only [List.mem_cons, List.not_mem_nil, or_false] at he
  rcases he with rfl | rfl
  · exact ⟨by decide, by decide, by decide⟩
  · show (Extension.body _).length < 65536
    decide

end Cfrp.Vhost
