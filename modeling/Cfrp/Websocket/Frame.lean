import Cfrp.Lib.BigEndian
import Cfrp.Mux.Header
import Cfrp.Protocol.Messages

/-!
# WebSocket frames

The format, apart from the code that writes and reads it. A frame is its first byte, its
length in one of three forms, an optional mask and the payload. A length need not be in
the shortest form. `Acceptable` are the frames a peer may send: data frames, whole or
fragments, up to `MAX_MESSAGE_SIZE`, and pings and pongs.
-/

namespace Cfrp.Websocket

open Lib
open Mux (maxMessageSize)

/-! ## Masks -/

structure Mask where
  b₀ : Byte
  b₁ : Byte
  b₂ : Byte
  b₃ : Byte
  deriving DecidableEq

namespace Mask

def bytes (m : Mask) : List Byte := [m.b₀, m.b₁, m.b₂, m.b₃]

/-- The mask at the front of a payload buffer. -/
def ofBytes (l : List Byte) : Mask := ⟨l.getD 0 0, l.getD 1 0, l.getD 2 0, l.getD 3 0⟩

/-- `data[i] ^= mask[i % 4]`. -/
def apply (m : Mask) (data : List Byte) : List Byte :=
  data.mapIdx fun i b => b ^^^ m.bytes.getD (i % 4) 0

@[simp] theorem length_apply (m : Mask) (data : List Byte) : (m.apply data).length = data.length :=
  List.length_mapIdx

@[simp] theorem apply_apply (m : Mask) (data : List Byte) : m.apply (m.apply data) = data := by
  refine List.ext_getElem (by simp) fun i _ _ => ?_
  simp only [apply, List.getElem_mapIdx, UInt8.xor_assoc, UInt8.xor_self, UInt8.xor_zero]

theorem ofBytes_append (m : Mask) (l : List Byte) : ofBytes (m.bytes ++ l) = m := rfl

end Mask

/-! ## Frames -/

inductive LengthForm where
  | short
  | ext16
  | ext64
  deriving DecidableEq

structure Frame where
  /-- FIN, the reserved bits and the opcode. -/
  first : Byte
  form : LengthForm
  mask : Option Mask
  payload : List Byte
  deriving DecidableEq

namespace Frame

def opcode (f : Frame) : Byte := f.first &&& 0x0F

def fin (f : Frame) : Bool := f.first &&& 0x80 ≠ 0

def lengthCode (f : Frame) : Byte :=
  match f.form with
  | .short => UInt8.ofNat f.payload.length
  | .ext16 => 126
  | .ext64 => 127

def extended (f : Frame) : List Byte :=
  match f.form with
  | .short => []
  | .ext16 => be 2 f.payload.length
  | .ext64 => be 8 f.payload.length

def maskBit (f : Frame) : Byte := if f.mask.isSome then 0x80 else 0

def second (f : Frame) : Byte := f.maskBit ||| f.lengthCode

def maskBytes (f : Frame) : List Byte :=
  match f.mask with
  | none => []
  | some m => m.bytes

/-- The payload as it is sent. -/
def masked (f : Frame) : List Byte :=
  match f.mask with
  | none => f.payload
  | some m => m.apply f.payload

def body (f : Frame) : List Byte := f.maskBytes ++ f.masked

def bytes (f : Frame) : List Byte := [f.first, f.second] ++ (f.extended ++ f.body)

def isData (f : Frame) : Bool := f.opcode < 8

/-- The length fits its form. -/
def Fits (f : Frame) : Prop :=
  match f.form with
  | .short => f.payload.length ≤ 125
  | .ext16 => f.payload.length ≤ 65535
  | .ext64 => f.payload.length < 2 ^ 64

structure Acceptable (f : Frame) : Prop where
  fits : f.Fits
  size : f.payload.length ≤ maxMessageSize
  /-- A control frame is a ping or a pong, in one piece and short. -/
  control : f.isData = false → (f.opcode = 0x09 ∨ f.opcode = 0x0A) ∧ f.fin = true ∧ f.form = .short

@[simp] theorem length_body (f : Frame) :
    f.body.length = f.payload.length + if f.mask.isSome then 4 else 0 := by
  unfold body maskBytes masked
  cases f.mask with
  | none => simp
  | some m => simp [Mask.bytes]

theorem byte_of_lt {P : Byte → Prop} (h : ∀ c : Fin 128, P (UInt8.ofNat c.val)) {c : Byte}
    (hc : c < 128) : P c := by
  have hlt : c.toNat < 128 := hc
  have hp := h ⟨c.toNat, hlt⟩
  rwa [UInt8.ofNat_toNat] at hp

/-- The second byte says whether there is a mask, -/
theorem second_and_mask (f : Frame) (hcode : f.lengthCode < 128) :
    f.second &&& 0x80 ≠ 0 ↔ f.mask.isSome = true := by
  have hset : (0x80 ||| f.lengthCode) &&& 0x80 ≠ 0 :=
    byte_of_lt (P := fun c => (0x80 ||| c) &&& 0x80 ≠ 0) (by decide +kernel) hcode
  have hclear : (0 ||| f.lengthCode) &&& 0x80 = 0 :=
    byte_of_lt (P := fun c => (0 ||| c) &&& 0x80 = 0) (by decide +kernel) hcode
  unfold second maskBit
  cases f.mask.isSome with
  | true => exact iff_of_true hset rfl
  | false => exact iff_of_false (not_not_intro hclear) Bool.false_ne_true

/-- and the length code. -/
theorem second_and_code (f : Frame) (hcode : f.lengthCode < 128) :
    f.second &&& 0x7F = f.lengthCode := by
  unfold second maskBit
  cases f.mask.isSome with
  | true => exact byte_of_lt (P := fun c => (0x80 ||| c) &&& 0x7F = c) (by decide +kernel) hcode
  | false => exact byte_of_lt (P := fun c => (0 ||| c) &&& 0x7F = c) (by decide +kernel) hcode

end Frame

/-! ## Sequences of frames -/

def wire (fs : List Frame) : List Byte := fs.flatMap Frame.bytes

/-- The data payloads, concatenated. -/
def payloads (fs : List Frame) : List Byte := (fs.filter Frame.isData).flatMap Frame.payload

def pings (fs : List Frame) : List (List Byte) :=
  (fs.filter fun f => f.opcode == 0x09).map Frame.payload

@[simp] theorem wire_append (fs gs : List Frame) : wire (fs ++ gs) = wire fs ++ wire gs :=
  List.flatMap_append

@[simp] theorem wire_cons (f : Frame) (fs : List Frame) : wire (f :: fs) = f.bytes ++ wire fs :=
  List.flatMap_cons

end Cfrp.Websocket
