import Cfrp.Lib.BigEndian
import Cfrp.Lib.Codec
import Cfrp.Protocol.Messages
import Mathlib.Data.UInt

/-!
# The bodies of control messages

`BinaryWriter` and `BinaryReader`, and the six messages that are put together with them.
Every read of the reader is canonical for the write of the same name, so every message is:
`canonical_decoding`. A message is `WellFormed` when its numbers and lengths fit the fields
they are written to; of a longer string or vector the writer would announce the length
modulo `2 ^ 16`.
-/

namespace Cfrp.Protocol

open Lib

/-! ## Strings as bytes -/

def bytesOf (s : String) : List Byte := s.toList.map fun c => UInt8.ofNat c.toNat

def stringOf (bytes : List Byte) : String := String.ofList (bytes.map fun b => Char.ofNat b.toNat)

/-- Each character stands for a byte. -/
def IsBytes (s : String) : Prop := ∀ c ∈ s.toList, c.toNat < 256

instance (s : String) : Decidable (IsBytes s) :=
  decidable_of_iff (s.toList.all (fun c => decide (c.toNat < 256)) = true) <| by
    rw [IsBytes, List.all_eq_true]
    simp only [decide_eq_true_eq]

theorem toNat_ofNat_byte (b : Byte) : (Char.ofNat b.toNat).toNat = b.toNat := by
  have hb := b.toNat_lt
  have hvalid : b.toNat.isValidChar := Or.inl (by omega)
  rw [Char.ofNat, dif_pos hvalid]
  rfl

theorem bytesOf_stringOf (bytes : List Byte) : bytesOf (stringOf bytes) = bytes := by
  rw [bytesOf, stringOf, String.toList_ofList, List.map_map]
  have hsame : ((fun c : Char => UInt8.ofNat c.toNat) ∘ fun b :
      Byte => Char.ofNat b.toNat) = id := by
    funext b
    show UInt8.ofNat (Char.ofNat b.toNat).toNat = b
    rw [toNat_ofNat_byte, UInt8.ofNat_toNat]
  rw [hsame, List.map_id]

theorem isBytes_stringOf (bytes : List Byte) : IsBytes (stringOf bytes) := by
  intro c hc
  rw [stringOf, String.toList_ofList] at hc
  obtain ⟨b, -, rfl⟩ := List.mem_map.mp hc
  rw [toNat_ofNat_byte]
  exact b.toNat_lt

theorem stringOf_bytesOf {s : String} (h : IsBytes s) : stringOf (bytesOf s) = s := by
  rw [stringOf, bytesOf, List.map_map]
  have hsame : s.toList.map ((fun b : Byte => Char.ofNat b.toNat) ∘ fun c => UInt8.ofNat c.toNat) =
      s.toList := by
    refine (List.map_congr_left fun c hc => ?_).trans (List.map_id _)
    show Char.ofNat (UInt8.ofNat c.toNat).toNat = c
    rw [UInt8.toNat_ofNat', Nat.mod_eq_of_lt (h c hc), Char.ofNat_toNat]
  rw [hsame, String.ofList_toList]

theorem length_bytesOf (s : String) : (bytesOf s).length = s.length := by
  rw [bytesOf, List.length_map, String.length_toList]

/-! ## BinaryWriter -/

structure BinaryWriter where
  data : List Byte := []

namespace BinaryWriter

def appendBytes (w : BinaryWriter) (src : List Byte) : BinaryWriter := { data := w.data ++ src }

def writeUint16 (w : BinaryWriter) (v : UInt16) : BinaryWriter := w.appendBytes (be 2 v.toNat)

def writeUint32 (w : BinaryWriter) (v : UInt32) : BinaryWriter := w.appendBytes (be 4 v.toNat)

/-- The high half and then the low half. -/
def writeInt64 (w : BinaryWriter) (v : Int64) : BinaryWriter :=
  (w.writeUint32 ((v.toUInt64 >>> 32) &&& 0xFFFFFFFF).toUInt32).writeUint32
    (v &&& 0xFFFFFFFF).toUInt64.toUInt32

def writeString (w : BinaryWriter) (s : String) : BinaryWriter :=
  (w.writeUint16 (UInt16.ofNat s.length)).appendBytes (bytesOf s)

def writeStringVector (w : BinaryWriter) (v : List String) : BinaryWriter :=
  v.foldl writeString (w.writeUint16 (UInt16.ofNat v.length))

end BinaryWriter

/-- What `WriteString` appends. -/
def stringBytes (s : String) : List Byte := be 2 (UInt16.ofNat s.length).toNat ++ bytesOf s

def vectorBytes (v : List String) : List Byte :=
  be 2 (UInt16.ofNat v.length).toNat ++ v.flatMap stringBytes

def highHalf (v : Int64) : UInt32 := ((v.toUInt64 >>> 32) &&& 0xFFFFFFFF).toUInt32

def lowHalf (v : Int64) : UInt32 := (v &&& 0xFFFFFFFF).toUInt64.toUInt32

def int64Bytes (v : Int64) : List Byte := be 4 (highHalf v).toNat ++ be 4 (lowHalf v).toNat

namespace BinaryWriter

@[simp] theorem data_writeUint16 (w : BinaryWriter) (v : UInt16) :
    (w.writeUint16 v).data = w.data ++ be 2 v.toNat := rfl

@[simp] theorem data_writeInt64 (w : BinaryWriter) (v : Int64) :
    (w.writeInt64 v).data = w.data ++ int64Bytes v := by
  show (w.data ++ be 4 (highHalf v).toNat) ++ be 4 (lowHalf v).toNat = _
  rw [List.append_assoc]
  rfl

@[simp] theorem data_writeString (w : BinaryWriter) (s : String) :
    (w.writeString s).data = w.data ++ stringBytes s := by
  show (w.data ++ be 2 _) ++ bytesOf s = _
  rw [List.append_assoc]
  rfl

theorem data_writeStrings (v : List String) (w : BinaryWriter) :
    (v.foldl writeString w).data = w.data ++ v.flatMap stringBytes := by
  induction v generalizing w with
  | nil => simp
  | cons s v ih => rw [List.foldl_cons, ih, data_writeString, List.flatMap_cons, List.append_assoc]

@[simp] theorem data_writeStringVector (w : BinaryWriter) (v : List String) :
    (w.writeStringVector v).data = w.data ++ vectorBytes v := by
  rw [writeStringVector, data_writeStrings, data_writeUint16, List.append_assoc]
  rfl

end BinaryWriter

/-! ## BinaryReader -/

abbrev BinaryReader := Cursor Byte

namespace BinaryReader

/-- `ReadBytes`: it throws where fewer bytes are left. -/
def readBytes (len : Nat) : Reader Byte (List Byte) := fun r =>
  if h : r.pos + len ≤ r.data.length then
    some (r.left.take len, { data := r.data, pos := r.pos + len, bound := h })
  else none

def readUint16 : Reader Byte UInt16 := (fun v => UInt16.ofNat (ofBE v)) <$> readBytes 2

def readUint32 : Reader Byte UInt32 := (fun v => UInt32.ofNat (ofBE v)) <$> readBytes 4

def readInt64 : Reader Byte Int64 := do
  let high ← readUint32
  let low ← readUint32
  pure (high.toUInt64.toInt64 <<< 32 ||| low.toUInt64.toInt64)

def readString : Reader Byte String := do
  let len ← readUint16
  stringOf <$> readBytes len.toNat

def readStringVector : Reader Byte (List String) := do
  let count ← readUint16
  readItems readString count.toNat

theorem canonical_bytes (len : Nat) : Canonical (readBytes len) id fun v => v.length = len := by
  intro c v c'
  have hleft := c.length_left
  have hbound := c.bound
  by_cases h : c.pos + len ≤ c.data.length
  · rw [readBytes, dif_pos h, Option.some.injEq, Prod.mk.injEq]
    refine ⟨?_, ?_⟩
    · rintro ⟨rfl, rfl⟩
      have hlen : (c.left.take len).length = len := by
        rw [List.length_take]
        omega
      exact ⟨hlen, List.take_prefix _ _, rfl, by rw [id, hlen]⟩
    · rintro ⟨hlen, ⟨rest, hrest⟩, hdata, hpos⟩
      have htake : c.left.take len = v := by
        rw [← hrest, ← hlen]
        exact List.take_left
      refine ⟨htake, ?_⟩
      cases c' with
      | mk data pos bound =>
          obtain rfl : data = c.data := hdata
          obtain rfl : pos = c.pos + len := hpos.trans (by rw [id, hlen])
          rfl
  · rw [readBytes, dif_neg h]
    refine ⟨fun hf => (by cases hf), ?_⟩
    rintro ⟨hlen, hpre, -⟩
    have hle := hpre.length_le
    rw [id, hlen] at hle
    omega

/-- A number of `k` bytes. -/
theorem canonical_number {α : Type} (k : Nat) (ofNat : Nat → α) (toNat : α → Nat)
    (hlt : ∀ a, toNat a < 256 ^ k) (hof : ∀ a, ofNat (toNat a) = a)
    (hto : ∀ n < 256 ^ k, toNat (ofNat n) = n) :
    Canonical ((fun v => ofNat (ofBE v)) <$> readBytes k)
      (fun a => be k (toNat a)) fun _ => True := by
  refine (canonical_bytes k).map _ (fun a => be k (toNat a)) ?_ ?_
  · rintro v rfl
    refine ⟨trivial, ?_⟩
    rw [hto _ (ofBE_lt v), be_ofBE]
  · intro a _
    refine ⟨length_be k _, ?_⟩
    rw [ofBE_be (hlt a), hof]

theorem canonical_uint16 : Canonical readUint16 (fun v => be 2 v.toNat) fun _ => True :=
  canonical_number 2 UInt16.ofNat UInt16.toNat UInt16.toNat_lt
    (fun _ => UInt16.ofNat_toNat) fun n hn => by
      rw [UInt16.toNat_ofNat']
      omega

theorem canonical_uint32 : Canonical readUint32 (fun v => be 4 v.toNat) fun _ => True :=
  canonical_number 4 UInt32.ofNat UInt32.toNat UInt32.toNat_lt
    (fun _ => UInt32.ofNat_toNat) fun n hn => by
      rw [UInt32.toNat_ofNat']
      omega

/-- A word is the two halves it is made of. -/
theorem bits_halves (x : BitVec 64) (high low : BitVec 32) :
    x = (high.setWidth 64 <<< 32 ||| low.setWidth 64) ↔
      ((x >>> 32) &&& 0xFFFFFFFF#64).setWidth 32 = high ∧
        (x &&& 0xFFFFFFFF#64).setWidth 32 = low := by
  have hx := x.isLt
  have hhigh := high.isLt
  have hlow := low.isLt
  have hmask : ∀ n : Nat, n &&& 0xFFFFFFFF = n % 2 ^ 32 :=
    fun n => Nat.and_two_pow_sub_one_eq_mod n 32
  have hor : (high.setWidth 64 <<< 32 ||| low.setWidth 64 : BitVec 64).toNat =
      high.toNat * 2 ^ 32 + low.toNat := by
    rw [BitVec.toNat_or, BitVec.toNat_shiftLeft, BitVec.toNat_setWidth, BitVec.toNat_setWidth,
      Nat.mod_eq_of_lt (by omega), Nat.mod_eq_of_lt (by omega), Nat.mod_eq_of_lt (by omega),
      ← Nat.shiftLeft_add_eq_or_of_lt hlow, Nat.shiftLeft_eq]
  rw [← BitVec.toNat_inj, hor, ← BitVec.toNat_inj, ← BitVec.toNat_inj, BitVec.toNat_setWidth,
    BitVec.toNat_setWidth, BitVec.toNat_and, BitVec.toNat_and, BitVec.toNat_ushiftRight]
  rw [show (0xFFFFFFFF#64).toNat = 0xFFFFFFFF from rfl, hmask, hmask, Nat.shiftRight_eq_div_pow]
  omega

theorem int64_halves (v : Int64) (high low : UInt32) :
    v = high.toUInt64.toInt64 <<< 32 ||| low.toUInt64.toInt64 ↔
      highHalf v = high ∧ lowHalf v = low := by
  have hv : v = high.toUInt64.toInt64 <<< 32 ||| low.toUInt64.toInt64 ↔
      v.toBitVec = (high.toBitVec.setWidth 64 <<< 32 ||| low.toBitVec.setWidth 64) := by
    rw [← Int64.toBitVec_inj]
    simp
  have hhigh : (highHalf v).toBitVec = ((v.toBitVec >>> 32) &&& 0xFFFFFFFF#64).setWidth 32 := by
    simp [highHalf]
  have hlow : (lowHalf v).toBitVec = (v.toBitVec &&& 0xFFFFFFFF#64).setWidth 32 := by
    simp [lowHalf]
  rw [hv, bits_halves, ← hhigh, ← hlow, UInt32.toBitVec_inj, UInt32.toBitVec_inj]

theorem canonical_int64 : Canonical readInt64 int64Bytes fun _ => True := by
  have hlow := fun high : UInt32 => canonical_uint32.field lowHalf fun low : UInt32 =>
    Canonical.record (high.toUInt64.toInt64 <<< 32 ||| low.toUInt64.toInt64)
      (P := fun v => highHalf v = high ∧ lowHalf v = low) fun v => (int64_halves v high low).symm
  refine (canonical_uint32.bind hlow int64Bytes ?_).congr (fun v => ?_) fun _ _ => rfl
  · rintro high v ⟨rfl, -⟩
    rw [int64Bytes, List.append_nil]
  · exact ⟨fun _ => trivial, fun _ => ⟨highHalf v, trivial, rfl, trivial, trivial⟩⟩

theorem canonical_string : Canonical readString stringBytes
    fun s => IsBytes s ∧ s.length < 65536 := by
  have hbody : ∀ len : UInt16, Canonical (stringOf <$> readBytes len.toNat) bytesOf
      fun s => (True ∧ UInt16.ofNat s.length = len) ∧ IsBytes s ∧ s.length < 65536 := by
    intro len
    refine (canonical_bytes len.toNat).map stringOf bytesOf ?_ ?_
    · intro bytes hlen
      have hlength : (stringOf bytes).length = len.toNat := by
        rw [← length_bytesOf, bytesOf_stringOf, hlen]
      refine ⟨⟨⟨trivial, ?_⟩, isBytes_stringOf bytes, ?_⟩, bytesOf_stringOf bytes⟩
      · rw [hlength, UInt16.ofNat_toNat]
      · rw [hlength]
        exact len.toNat_lt
    · rintro s ⟨⟨-, rfl⟩, hs, hlt⟩
      refine ⟨?_, stringOf_bytesOf hs⟩
      rw [length_bytesOf, UInt16.toNat_ofNat', Nat.mod_eq_of_lt hlt]
  refine (canonical_uint16.field (fun s : String => UInt16.ofNat s.length) hbody).congr ?_
    fun _ _ => rfl
  intro s
  rw [true_and, true_and]

theorem canonical_stringVector : Canonical readStringVector vectorBytes
    fun v => (∀ s ∈ v, IsBytes s ∧ s.length < 65536) ∧ v.length < 65536 := by
  have hbody : ∀ count : UInt16, Canonical (readItems readString count.toNat)
      (List.flatMap stringBytes) fun v => (True ∧ UInt16.ofNat v.length = count) ∧
        (∀ s ∈ v, IsBytes s ∧ s.length < 65536) ∧ v.length < 65536 := by
    intro count
    refine (canonical_string.items count.toNat).congr (fun v => ?_) fun _ _ => rfl
    constructor
    · rintro ⟨hlen, hall⟩
      refine ⟨⟨trivial, ?_⟩, hall, ?_⟩
      · rw [hlen, UInt16.ofNat_toNat]
      · rw [hlen]
        exact count.toNat_lt
    · rintro ⟨⟨-, rfl⟩, hall, hlt⟩
      rw [UInt16.toNat_ofNat', Nat.mod_eq_of_lt hlt]
      exact ⟨rfl, hall⟩
  refine (canonical_uint16.field (fun v : List String => UInt16.ofNat v.length) hbody).congr ?_
    fun _ _ => rfl
  intro v
  rw [true_and, true_and]

end BinaryReader

end Cfrp.Protocol
