import Cfrp.Bridge.Framing
import Cfrp.Lib.Packets
import Cfrp.Protocol.RoundTrip

/-!
# Messages on a control stream

`SendMessage` puts a type in front of the body of a message, compresses the two when it is
told to, and writes a header of four bytes before the result. Unlike the bridges it sends
what zstd gives back even if that is longer. `DoReadHeader` and `DoReadBody` take the packets
apart again. They refuse a packet of more than 4 MiB and a message of more than 16 MiB, but
nothing keeps a sender from writing one.
-/

namespace Cfrp.Control

open Lib Bridge Protocol

/-- `Message` of `protocol.h`: a type and a body nobody has looked into. -/
structure RawMessage where
  type : Byte
  body : List Byte
  deriving DecidableEq

namespace RawMessage

def encode (m : RawMessage) : List Byte := m.type :: m.body

def decode : List Byte → Option RawMessage
  | [] => none
  | type :: body => some { type, body }

theorem decode_encode (m : RawMessage) : decode m.encode = some m := rfl

end RawMessage

/-! ## What the bodies hold -/

/-- `MessageType`, as far as a handler has a case for it. -/
def typeOf : Struct → Byte
  | .login => 0
  | .loginResp => 1
  | .registerProxy => 2
  | .registerProxyResp => 3
  | .newUserConn => 4
  | .unregisterProxy => 7

/-- The struct a handler decodes the body of a message of this type to. -/
def structOf (type : Byte) : Option Struct :=
  if type = 0 then some .login
  else if type = 1 then some .loginResp
  else if type = 2 then some .registerProxy
  else if type = 3 then some .registerProxyResp
  else if type = 4 then some .newUserConn
  else if type = 7 then some .unregisterProxy
  else none

theorem structOf_typeOf (t : Struct) : structOf (typeOf t) = some t := by
  cases t <;> rfl

/-- A struct as a message. -/
def messageOf : (t : Struct) → t.Value → Message
  | .login => .login
  | .loginResp => .loginResp
  | .registerProxy => .registerProxy
  | .registerProxyResp => .registerProxyResp
  | .newUserConn => .newUserConn
  | .unregisterProxy => .unregisterProxy

/-- The type of a message and its `Deserialize`. -/
def parse (m : RawMessage) : Message :=
  match structOf m.type with
  | none => .other
  | some t =>
      match t.deserialize m.body with
      | none => .malformed
      | some v => messageOf t v

/-- The arguments of `SendMessage`: a type and what `Serialize` gives. -/
def rawOf (t : Struct) (v : t.Value) : RawMessage := { type := typeOf t, body := t.serialize v }

/-- What is sent for a message of the model. -/
def unparse : Message → Option RawMessage
  | .login m => some (rawOf .login m)
  | .loginResp m => some (rawOf .loginResp m)
  | .registerProxy m => some (rawOf .registerProxy m)
  | .registerProxyResp m => some (rawOf .registerProxyResp m)
  | .newUserConn m => some (rawOf .newUserConn m)
  | .unregisterProxy m => some (rawOf .unregisterProxy m)
  | .other => none
  | .malformed => none

/-- A message whose lengths fit their prefixes is parsed as what it was. -/
theorem parse_rawOf {t : Struct} {v : t.Value} (hv : t.IsValue v) (hshort : t.Short v) :
    parse (rawOf t v) = messageOf t v := by
  have hback : t.deserialize (t.serialize v) = some v := by
    rw [Struct.deserialize_eq, t.canonical_reader.decode_write, Struct.wellFormed_iff hv]
    exact hshort
  rw [parse, rawOf, structOf_typeOf]
  simp only [hback]

/-! ## Packets -/

/-- The header of a control message, `MAX_CONTROL_MESSAGE_SIZE` and `MAX_DECOMPRESSED_SIZE`. -/
def controlFraming : Framing where
  width := 4
  width_pos := Nat.succ_pos 3
  maxLength := 4 * 1024 * 1024
  maxDecoded := 16 * 1024 * 1024

def controlFramer : Framer Bool Byte where
  width := controlFraming.width
  width_pos := controlFraming.width_pos
  limit := controlFraming.flag
  header compressed length := be controlFraming.width (controlFraming.header compressed length)
  split bytes := (controlFraming.splitHeader bytes).swap
  length_header _ _ := length_be _ _
  split_header compressed length hlength := by
    rw [Framing.splitHeader_be, Framing.header_flag _ hlength, Nat.mod_eq_of_lt hlength]
    rfl

/-- The header's flag and the body that `SendMessage` writes. -/
def packetOf (z : Zstd) (compression : Bool) (level : Int) (m : RawMessage) : Packet Bool Byte :=
  if compression then
    match z.compress level m.encode with
    | some compressed => ⟨true, compressed⟩
    | none => ⟨false, m.encode⟩
  else ⟨false, m.encode⟩

/-- The packet is one that `SendMessage` may write for the message. -/
inductive Carries (z : Zstd) (m : RawMessage) : Packet Bool Byte → Prop where
  | plain : Carries z m ⟨false, m.encode⟩
  | compressed {level c} (h : z.compress level m.encode = some c) : Carries z m ⟨true, c⟩

theorem carries_packetOf (z : Zstd) (compression : Bool) (level : Int) (m : RawMessage) :
    Carries z m (packetOf z compression level m) := by
  rw [packetOf]
  split
  · split
    · exact Carries.compressed ‹_›
    · exact Carries.plain
  · exact Carries.plain

/-- **Round trip of a packet.** The bytes of a message come out of its packet, or nothing does
because there are too many of them. -/
theorem Carries.contents {z : Zstd} (hz : z.Lawful) {m : RawMessage} {p : Packet Bool Byte}
    (h : Carries z m p) :
    controlFraming.contents z p.tag p.payload =
      if p.tag ∧ controlFraming.maxDecoded < m.encode.length then none else some m.encode := by
  cases h with
  | plain => simp [Framing.contents]
  | compressed hc =>
      simp only [Framing.contents, if_true, hz.contentSize hc, true_and]
      split
      · rfl
      · exact hz.decompress hc

end Cfrp.Control
