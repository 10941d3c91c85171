import Cfrp.Protocol.Messages
import Mathlib.Algebra.GroupWithZero.Nat
import Mathlib.Data.List.Basic

/-!
# Frames

A frame is a 12 byte header in network byte order and, for a data frame, `length`
bytes of body. `Header.decode` undoes `Header.encode` whatever follows it.
-/

namespace Cfrp.Mux

/-- `enum class Type`. -/
def FrameType.data : UInt8 := 0
def FrameType.windowUpdate : UInt8 := 1
def FrameType.ping : UInt8 := 2

/-- `struct Flags`. -/
def Flags.syn : UInt16 := 1
def Flags.ack : UInt16 := 2
def Flags.fin : UInt16 := 4

/-- `protocol::MAX_MESSAGE_SIZE`. -/
def maxMessageSize : Nat := 1048576

/-- `protocol::MAX_CONTROL_MESSAGE_SIZE`. -/
def maxControlMessageSize : Nat := 4194304

structure Header where
  version : UInt8 := 0
  type : UInt8 := 0
  flags : UInt16 := 0
  streamId : UInt32 := 0
  length : UInt32 := 0
  deriving DecidableEq, Repr

/-- `htons`. -/
def be16 (x : UInt16) : List Byte :=
  [UInt8.ofNat (x.toNat / 256), UInt8.ofNat x.toNat]

/-- `htonl`. -/
def be32 (x : UInt32) : List Byte :=
  [UInt8.ofNat (x.toNat / 16777216), UInt8.ofNat (x.toNat / 65536),
    UInt8.ofNat (x.toNat / 256), UInt8.ofNat x.toNat]

/-- `ntohs`. -/
def ofBe16 (b₀ b₁ : Byte) : UInt16 := UInt16.ofNat (b₀.toNat * 256 + b₁.toNat)

/-- `ntohl`. -/
def ofBe32 (b₀ b₁ b₂ b₃ : Byte) : UInt32 :=
  UInt32.ofNat (b₀.toNat * 16777216 + b₁.toNat * 65536 + b₂.toNat * 256 + b₃.toNat)

namespace Header

/-- `Header::size`. -/
def size : Nat := 12

def encode (h : Header) : List Byte :=
  [h.version, h.type] ++ be16 h.flags ++ be32 h.streamId ++ be32 h.length

def decode (buf : List Byte) : Header where
  version := buf.getD 0 0
  type := buf.getD 1 0
  flags := ofBe16 (buf.getD 2 0) (buf.getD 3 0)
  streamId := ofBe32 (buf.getD 4 0) (buf.getD 5 0) (buf.getD 6 0) (buf.getD 7 0)
  length := ofBe32 (buf.getD 8 0) (buf.getD 9 0) (buf.getD 10 0) (buf.getD 11 0)

@[simp] theorem length_encode (h : Header) : h.encode.length = size := rfl

theorem ofBe16_be16 (x : UInt16) :
    ofBe16 (UInt8.ofNat (x.toNat / 256)) (UInt8.ofNat x.toNat) = x := by
  have hx := x.toNat_lt
  apply UInt16.toNat.inj
  rw [ofBe16, UInt16.toNat_ofNat', UInt8.toNat_ofNat', UInt8.toNat_ofNat']
  omega

theorem ofBe32_be32 (x : UInt32) :
    ofBe32 (UInt8.ofNat (x.toNat / 16777216)) (UInt8.ofNat (x.toNat / 65536))
      (UInt8.ofNat (x.toNat / 256)) (UInt8.ofNat x.toNat) = x := by
  have hx := x.toNat_lt
  apply UInt32.toNat.inj
  rw [ofBe32, UInt32.toNat_ofNat', UInt8.toNat_ofNat', UInt8.toNat_ofNat',
    UInt8.toNat_ofNat', UInt8.toNat_ofNat']
  omega

/-- The receiver reads back the header that was sent. -/
theorem decode_encode (h : Header) : decode h.encode = h := by
  have hdecode : decode h.encode =
      ⟨h.version, h.type, ofBe16 (UInt8.ofNat (h.flags.toNat / 256)) (UInt8.ofNat h.flags.toNat),
        ofBe32 (UInt8.ofNat (h.streamId.toNat / 16777216)) (UInt8.ofNat (h.streamId.toNat / 65536))
          (UInt8.ofNat (h.streamId.toNat / 256)) (UInt8.ofNat h.streamId.toNat),
        ofBe32 (UInt8.ofNat (h.length.toNat / 16777216)) (UInt8.ofNat (h.length.toNat / 65536))
          (UInt8.ofNat (h.length.toNat / 256)) (UInt8.ofNat h.length.toNat)⟩ := rfl
  rw [hdecode, ofBe16_be16, ofBe32_be32, ofBe32_be32]

end Header

/-! ## What a frame tells a stream -/

/-- What `handle_frame` passes to a stream of the session. -/
inductive Arrival where
  | data (bytes : List Byte)
  | windowUpdate (delta : UInt32)
  | close
  deriving DecidableEq, Repr

/-- The calls that `handle_frame` makes on the stream a frame names. -/
def arrivals (h : Header) (body : List Byte) : List Arrival :=
  if h.type = FrameType.data then
    (if body.length > 0 then [.data body] else []) ++
      if h.flags &&& Flags.fin ≠ 0 then [.close] else []
  else if h.type = FrameType.windowUpdate then [.windowUpdate h.length]
  else []

/-- The payload bytes among what arrives. -/
def dataOf (l : List Arrival) : List Byte :=
  l.flatMap fun | .data b => b | _ => []

/-- The credit among what arrives. -/
def creditOf (l : List Arrival) : Nat :=
  (l.map fun | .windowUpdate d => d.toNat | _ => 0).sum

@[simp] theorem dataOf_nil : dataOf [] = [] := rfl
@[simp] theorem creditOf_nil : creditOf [] = 0 := rfl

@[simp] theorem dataOf_append (l l' : List Arrival) :
    dataOf (l ++ l') = dataOf l ++ dataOf l' := List.flatMap_append

@[simp] theorem creditOf_append (l l' : List Arrival) :
    creditOf (l ++ l') = creditOf l + creditOf l' := by
  simp [creditOf]

@[simp] theorem dataOf_data (b : List Byte) (l : List Arrival) :
    dataOf (.data b :: l) = b ++ dataOf l := rfl
@[simp] theorem dataOf_windowUpdate (d : UInt32) (l : List Arrival) :
    dataOf (.windowUpdate d :: l) = dataOf l := rfl
@[simp] theorem dataOf_close (l : List Arrival) : dataOf (.close :: l) = dataOf l := rfl

@[simp] theorem creditOf_data (b : List Byte) (l : List Arrival) :
    creditOf (.data b :: l) = creditOf l := by simp [creditOf]
@[simp] theorem creditOf_windowUpdate (d : UInt32) (l : List Arrival) :
    creditOf (.windowUpdate d :: l) = d.toNat + creditOf l := by simp [creditOf]
@[simp] theorem creditOf_close (l : List Arrival) : creditOf (.close :: l) = creditOf l := by
  simp [creditOf]

/-- A writer that leaves out the empty buffers sends the same bytes. -/
theorem flatten_filter_length (buffers : List (List Byte)) :
    (buffers.filter fun b => b.length > 0).flatten = buffers.flatten := by
  have hsame : (fun b : List Byte => decide (b.length > 0)) = fun b => !b.isEmpty := by
    funext b
    cases b <;> rfl
  rw [hsame, List.flatten_filter_not_isEmpty]

/-- A frame handed to `async_send_frame`: its header and the buffers of its body. -/
structure Frame where
  header : Header
  bodies : List (List Byte) := []
  deriving DecidableEq, Repr

namespace Frame

def body (f : Frame) : List Byte := f.bodies.flatten

def arrivals (f : Frame) : List Arrival := Mux.arrivals f.header f.body

/-- The buffers `async_send_frame` prepares: the header, then what is not empty. -/
def writeBuffers (f : Frame) : List (List Byte) :=
  f.header.encode :: f.bodies.filter fun b => b.length > 0

theorem flatten_writeBuffers (f : Frame) :
    f.writeBuffers.flatten = f.header.encode ++ f.body := by
  rw [writeBuffers, List.flatten_cons, flatten_filter_length]
  rfl

end Frame

end Cfrp.Mux
