import Cfrp.Lib.Indices
import Cfrp.Protocol.RoundTrip

/-!
# The indices `BinaryReader` forms

`ReadBytes` and `ReadString` test `pos_ + len` and then take the address of `data_[pos_]`.
For a length that is not zero the test covers the index. For an empty string at the very end
of the body it does not: the index is the size of the vector. The readers of the messages
are written down once more here, with the indices they form, and it turns out that this is
the only way in which one of them is out of bounds.
-/

namespace Cfrp.Protocol

open Lib

/-! ## Reads -/

namespace TracedReader

/-- `ReadBytes`: the address of `data_[pos_]` is taken behind the test. -/
def readBytes (len : Nat) : Traced Byte (List Byte) := fun r =>
  if h : r.pos + len ≤ r.data.length then
    (some (r.left.take len, { data := r.data, pos := r.pos + len, bound := h }), [r.pos])
  else (none, [])

def readUint16 : Traced Byte UInt16 := (fun v => UInt16.ofNat (ofBE v)) <$> readBytes 2

def readUint32 : Traced Byte UInt32 := (fun v => UInt32.ofNat (ofBE v)) <$> readBytes 4

def readInt64 : Traced Byte Int64 := do
  let high ← readUint32
  let low ← readUint32
  pure (high.toUInt64.toInt64 <<< 32 ||| low.toUInt64.toInt64)

/-- The bytes of a string are not read with `ReadBytes`, but in the same way. -/
def readString : Traced Byte String := do
  let len ← readUint16
  stringOf <$> readBytes len.toNat

def readStringVector : Traced Byte (List String) := do
  let count ← readUint16
  readString.items count.toNat

@[simp] theorem reader_readBytes (len : Nat) :
    (readBytes len).reader = BinaryReader.readBytes len := by
  funext r
  rw [Traced.reader, readBytes, BinaryReader.readBytes]
  split <;> rfl

@[simp] theorem reader_readUint16 : readUint16.reader = BinaryReader.readUint16 := by
  rw [readUint16, Traced.reader_map, reader_readBytes, BinaryReader.readUint16]

@[simp] theorem reader_readUint32 : readUint32.reader = BinaryReader.readUint32 := by
  rw [readUint32, Traced.reader_map, reader_readBytes, BinaryReader.readUint32]

@[simp] theorem reader_readInt64 : readInt64.reader = BinaryReader.readInt64 := by
  simp only [readInt64, BinaryReader.readInt64, Traced.reader_bind, Traced.reader_pure,
    reader_readUint32]

@[simp] theorem reader_readString : readString.reader = BinaryReader.readString := by
  simp only [readString, BinaryReader.readString, Traced.reader_bind, Traced.reader_map,
    reader_readUint16, reader_readBytes]

@[simp] theorem reader_readStringVector :
    readStringVector.reader = BinaryReader.readStringVector := by
  simp only [readStringVector, BinaryReader.readStringVector, Traced.reader_bind,
    Traced.reader_items, reader_readUint16, reader_readString]

/-- The address is one past the end when nothing is read where nothing is left. -/
theorem strays_bytes (len : Nat) : Strays (readBytes len) fun l => len = 0 ∧ l = [] := by
  intro c
  have hlen := c.length_left
  have hbound := c.bound
  show _ ↔ len = 0 ∧ c.left = []
  rw [Traced.indices, readBytes, ← List.length_eq_zero_iff]
  split
  · simp only [List.mem_singleton, exists_eq_left]
    omega
  · rename_i hnot
    simp only [List.not_mem_nil, false_and, exists_false, false_iff]
    omega

theorem canonical_bytes (len : Nat) :
    Canonical (readBytes len).reader id fun v => v.length = len := by
  rw [reader_readBytes]
  exact BinaryReader.canonical_bytes len

/-- A number has bytes. -/
theorem strays_number {α : Type} {k : Nat} (hk : 0 < k) (f : List Byte → α) :
    Strays (f <$> readBytes k) fun _ => False := by
  refine ((strays_bytes k).map (canonical_bytes k) f).congr fun l => ?_
  rw [iff_false]
  rintro ⟨h, -⟩
  omega

theorem strays_int64 : Strays readInt64 fun _ => False := by
  have hread : Canonical readUint32.reader (fun v => be 4 v.toNat) fun _ => True := by
    rw [reader_readUint32]
    exact BinaryReader.canonical_uint32
  refine ((strays_number (by decide) _).bind hread fun high =>
    (strays_number (by decide) _).bind hread fun low => Strays.value _).congr fun l => ?_
  simp

theorem canonical_uint16 : Canonical readUint16.reader (fun v => be 2 v.toNat) fun _ => True := by
  rw [reader_readUint16]
  exact BinaryReader.canonical_uint16

theorem canonical_string : Canonical readString.reader stringBytes Fits := by
  rw [reader_readString]
  exact BinaryReader.canonical_string

/-- An empty string at the end of the body. -/
theorem strays_string : Strays readString fun l => l = stringBytes "" := by
  have hbody : ∀ len : UInt16, Strays (stringOf <$> readBytes len.toNat)
      fun l => len.toNat = 0 ∧ l = [] := fun len => (strays_bytes _).map (canonical_bytes _) _
  refine ((strays_number (by decide) _).bind canonical_uint16 hbody).congr fun l => ?_
  constructor
  · rintro (h | ⟨len, rest, -, rfl, hlen, rfl⟩)
    · exact h.elim
    · rw [hlen]
      rfl
  · rintro rfl
    exact Or.inr ⟨0, [], trivial, rfl, rfl, rfl⟩

/-- The bytes of a vector end with an empty string, one of those that were announced. -/
def VectorEndsEmpty (l : List Byte) : Prop :=
  ∃ (count : UInt16) (before : List String), before.length < count.toNat ∧
    (∀ s ∈ before, Fits s) ∧ l = be 2 count.toNat ++ before.flatMap stringBytes ++ stringBytes ""

theorem strays_stringVector : Strays readStringVector VectorEndsEmpty := by
  refine ((strays_number (by decide) _).bind canonical_uint16 fun count =>
    strays_string.items canonical_string count.toNat).congr fun l => ?_
  constructor
  · rintro (h | ⟨count, rest, -, rfl, before, last, hlen, hfits, rfl, rfl⟩)
    · exact h.elim
    · exact ⟨count, before, hlen, hfits, by rw [List.append_assoc]⟩
  · rintro ⟨count, before, hlen, hfits, rfl⟩
    refine Or.inr ⟨count, _, trivial, List.append_assoc _ _ _, before, _, hlen, hfits, rfl, rfl⟩

/-- The bytes end with an empty string, one of the first `n` strings. -/
def StringsEndEmpty (n : Nat) (l : List Byte) : Prop :=
  ∃ before : List String, before.length < n ∧ (∀ s ∈ before, Fits s) ∧
    l = before.flatMap stringBytes ++ stringBytes ""

theorem stringsEndEmpty_succ {n : Nat} {l : List Byte} : StringsEndEmpty (n + 1) l ↔
    l = stringBytes "" ∨ ∃ s rest, Fits s ∧ l = stringBytes s ++ rest ∧ StringsEndEmpty n rest := by
  constructor
  · rintro ⟨before, hlen, hfits, rfl⟩
    cases before with
    | nil => exact Or.inl rfl
    | cons s before =>
        obtain ⟨hs, hfits⟩ := List.forall_mem_cons.mp hfits
        refine Or.inr ⟨s, _, hs, ?_, before, Nat.lt_of_succ_lt_succ hlen, hfits, rfl⟩
        rw [List.flatMap_cons, List.append_assoc]
  · rintro (rfl | ⟨s, rest, hs, rfl, before, hlen, hfits, rfl⟩)
    · exact ⟨[], Nat.succ_pos n, fun _ hs => (by cases hs), rfl⟩
    · refine ⟨s :: before, Nat.succ_lt_succ hlen, List.forall_mem_cons.mpr ⟨hs, hfits⟩, ?_⟩
      rw [List.flatMap_cons, List.append_assoc]

theorem strays_value {α : Type} (a : α) : Strays (pure a : Traced Byte α) (StringsEndEmpty 0) :=
  (Strays.value a).congr fun l => by simp [StringsEndEmpty]

/-- A string and what is read after it. -/
theorem strays_then {α : Type} {k : String → Traced Byte α} {after : List Byte → Prop}
    (hk : ∀ s, Strays (k s) after) : Strays (readString >>= k) fun l =>
      l = stringBytes "" ∨ ∃ s rest, Fits s ∧ l = stringBytes s ++ rest ∧ after rest :=
  strays_string.bind canonical_string hk

theorem strays_strings {α : Type} {n : Nat} {k : String → Traced Byte α}
    (hk : ∀ s, Strays (k s) (StringsEndEmpty n)) :
    Strays (readString >>= k) (StringsEndEmpty (n + 1)) :=
  (strays_then hk).congr fun _ => stringsEndEmpty_succ.symm

end TracedReader

/-! ## Messages -/

open TracedReader

def LoginMessage.readTraced : Traced Byte LoginMessage := do
  let token ← readString
  let name ← readString
  pure { token, name }

def LoginRespMessage.readTraced : Traced Byte LoginRespMessage := do
  let status ← readString
  let name ← readString
  let message ← readString
  pure { status, name, message }

def RegisterProxyMessage.readTraced : Traced Byte RegisterProxyMessage := do
  let name ← readString
  let type ← readString
  let remotePort ← readUint16
  let customDomains ← readStringVector
  let bandwidthLimit ← Int64.toInt <$> readInt64
  pure { name, type, remotePort, customDomains, bandwidthLimit }

def RegisterProxyRespMessage.readTraced : Traced Byte RegisterProxyRespMessage := do
  let status ← readString
  let name ← readString
  let message ← readString
  pure { status, name, message }

def NewUserConnMessage.readTraced : Traced Byte NewUserConnMessage := do
  let proxyName ← readString
  let ticket ← readString
  pure { proxyName, ticket }

def UnregisterProxyMessage.readTraced : Traced Byte UnregisterProxyMessage := do
  let name ← readString
  pure { name }

/-- `Message::Decode`: the type and the body, and the indices formed. -/
def decodeMessage : List Byte → Option (Byte × List Byte) × List Nat
  | [] => (none, [])
  | type :: body => (some (type, body), [0])

/-- The domains of a registration end with an empty string. -/
def DomainsEndEmpty (l : List Byte) : Prop :=
  ∃ (name type : String) (remotePort : UInt16) (rest : List Byte), Fits name ∧ Fits type ∧
    l = stringBytes name ++ (stringBytes type ++ (be 2 remotePort.toNat ++ rest)) ∧
      VectorEndsEmpty rest

namespace Struct

/-- The reader of a struct, with the indices it forms. -/
def tracedReader : (t : Struct) → Traced Byte t.Value
  | login => LoginMessage.readTraced
  | loginResp => LoginRespMessage.readTraced
  | registerProxy => RegisterProxyMessage.readTraced
  | registerProxyResp => RegisterProxyRespMessage.readTraced
  | newUserConn => NewUserConnMessage.readTraced
  | unregisterProxy => UnregisterProxyMessage.readTraced

/-- The body ends with an empty string, and the reader of the struct comes to it. -/
def EndsEmpty : Struct → List Byte → Prop
  | login => StringsEndEmpty 2
  | loginResp => StringsEndEmpty 3
  | registerProxy => fun body => StringsEndEmpty 2 body ∨ DomainsEndEmpty body
  | registerProxyResp => StringsEndEmpty 3
  | newUserConn => StringsEndEmpty 2
  | unregisterProxy => StringsEndEmpty 1

/-- The indices aside it is the reader of the struct. -/
theorem reader_tracedReader (t : Struct) : t.tracedReader.reader = t.reader := by
  cases t with
  | login =>
      show LoginMessage.readTraced.reader = LoginMessage.read
      simp only [LoginMessage.readTraced, LoginMessage.read, Traced.reader_bind,
        Traced.reader_pure, reader_readString]
  | loginResp =>
      show LoginRespMessage.readTraced.reader = LoginRespMessage.read
      simp only [LoginRespMessage.readTraced, LoginRespMessage.read, Traced.reader_bind,
        Traced.reader_pure, reader_readString]
  | registerProxy =>
      show RegisterProxyMessage.readTraced.reader = RegisterProxyMessage.read
      simp only [RegisterProxyMessage.readTraced, RegisterProxyMessage.read, Traced.reader_bind,
        Traced.reader_pure, reader_readString, reader_readUint16, reader_readStringVector,
        Traced.reader_map, reader_readInt64]
  | registerProxyResp =>
      show RegisterProxyRespMessage.readTraced.reader = RegisterProxyRespMessage.read
      simp only [RegisterProxyRespMessage.readTraced, RegisterProxyRespMessage.read,
        Traced.reader_bind, Traced.reader_pure, reader_readString]
  | newUserConn =>
      show NewUserConnMessage.readTraced.reader = NewUserConnMessage.read
      simp only [NewUserConnMessage.readTraced, NewUserConnMessage.read, Traced.reader_bind,
        Traced.reader_pure, reader_readString]
  | unregisterProxy =>
      show UnregisterProxyMessage.readTraced.reader = UnregisterProxyMessage.read
      simp only [UnregisterProxyMessage.readTraced, UnregisterProxyMessage.read, Traced.reader_bind,
        Traced.reader_pure, reader_readString]

theorem strays_registerProxy : Strays RegisterProxyMessage.readTraced registerProxy.EndsEmpty := by
  have hint64 : Canonical readInt64.reader int64Bytes fun _ => True := by
    rw [reader_readInt64]
    exact BinaryReader.canonical_int64
  have hint : Canonical (Int64.toInt <$> readInt64).reader (fun x => int64Bytes (Int64.ofInt x))
      fun x => -2 ^ 63 ≤ x ∧ x < 2 ^ 63 := by
    rw [Traced.reader_map, reader_readInt64]
    exact RegisterProxyMessage.canonical_int
  have hvector : Canonical readStringVector.reader vectorBytes
      fun v => (∀ s ∈ v, IsBytes s ∧ s.length < 65536) ∧ v.length < 65536 := by
    rw [reader_readStringVector]
    exact BinaryReader.canonical_stringVector
  -- the limit is there or the reader throws
  have hlimit := fun name type port domains => (strays_int64.map hint64 Int64.toInt).bind hint
    fun limit => Strays.value (RegisterProxyMessage.mk name type port domains limit)
  have hdomains := fun name type port =>
    strays_stringVector.bind hvector fun domains => hlimit name type port domains
  have hport := fun name type =>
    (strays_number (by decide) _).bind canonical_uint16 fun port => hdomains name type port
  refine (strays_then fun name => strays_then fun type => hport name type).congr fun l => ?_
  constructor
  · rintro (hname | ⟨name, rest, hname, rfl, htype | ⟨type, rest, htype, rfl, hrest⟩⟩)
    · exact Or.inl (stringsEndEmpty_succ.mpr (Or.inl hname))
    · refine Or.inl (stringsEndEmpty_succ.mpr (Or.inr ⟨name, rest, hname, rfl, ?_⟩))
      exact stringsEndEmpty_succ.mpr (Or.inl htype)
    · obtain h | ⟨port, rest, -, rfl, hvec | h⟩ := hrest
      · exact h.elim
      · exact Or.inr ⟨name, type, port, rest, hname, htype, rfl, hvec⟩
      · simp at h
  · rintro (hstrings | ⟨name, type, port, rest, hname, htype, rfl, hvec⟩)
    · obtain hname | ⟨name, rest, hname, rfl, hrest⟩ := stringsEndEmpty_succ.mp hstrings
      · exact Or.inl hname
      · obtain htype | ⟨type, rest, -, -, before, hnone, -⟩ := stringsEndEmpty_succ.mp hrest
        · exact Or.inr ⟨name, rest, hname, rfl, Or.inl htype⟩
        · exact absurd hnone (Nat.not_lt_zero _)
    · exact Or.inr ⟨name, _, hname, rfl, Or.inr ⟨type, _, htype, rfl,
        Or.inr ⟨port, rest, trivial, rfl, Or.inl hvec⟩⟩⟩

theorem strays (t : Struct) : Strays t.tracedReader t.EndsEmpty := by
  cases t with
  | login => exact strays_strings fun _ => strays_strings fun _ => strays_value _
  | loginResp =>
      exact strays_strings fun _ => strays_strings fun _ => strays_strings fun _ => strays_value _
  | registerProxy => exact strays_registerProxy
  | registerProxyResp =>
      exact strays_strings fun _ => strays_strings fun _ => strays_strings fun _ => strays_value _
  | newUserConn => exact strays_strings fun _ => strays_strings fun _ => strays_value _
  | unregisterProxy => exact strays_strings fun _ => strays_value _

end Struct

/-- **When every index is in bounds.** A `Deserialize` forms one that is not exactly if the
body ends with an empty string that it comes to. `Decode` forms none. -/
theorem deserialize_inBounds_iff (t : Struct) (body : List Byte) :
    decode t.tracedReader.reader body = t.deserialize body ∧
      (t.tracedReader.InBounds (Cursor.start body) ↔ ¬ t.EndsEmpty body) ∧
      ∀ i ∈ (decodeMessage body).2, i < body.length := by
  refine ⟨?_, t.strays.inBounds_iff (Cursor.start body), ?_⟩
  · rw [t.reader_tracedReader, t.deserialize_eq]
  · intro i hi
    cases body with
    | nil => cases hi
    | cons type body =>
        rw [List.mem_singleton.mp hi]
        exact Nat.succ_pos _

/-- The reply to a login that succeeds has an empty message. -/
theorem loginResp_not_inBounds : ¬ Struct.loginResp.tracedReader.InBounds
    (Cursor.start (LoginRespMessage.serialize { status := "ok", name := "a" })) := by
  rw [Struct.loginResp.strays.inBounds_iff, not_not]
  refine ⟨["ok", "a"], by decide, ?_, ?_⟩
  · intro s hs
    have hboth : ∀ s ∈ ["ok", "a"], IsBytes s ∧ s.length < 65536 := by decide
    exact hboth s hs
  · show LoginRespMessage.serialize { status := "ok", name := "a" } = _
    simp [LoginRespMessage.serialize]

end Cfrp.Protocol
