import Cfrp.Protocol.Binary

/-!
# The six control messages

`Serialize` and `Deserialize` of each message, field by field in the order of the source.
A `Deserialize` is a reader that starts at the first byte; what it leaves behind the last
field it does not look at.
-/

namespace Cfrp.Protocol

open Lib BinaryReader

/-- A string that `WriteString` announces with its own length. -/
def Fits (s : String) : Prop := IsBytes s ∧ s.length < 65536

/-- What is read is what is written: the bytes that were consumed are the value written
again, they are read back as the same value, and the reader throws exactly at a string
that does not begin with the bytes of any well-formed value. -/
def DecodesCanonically {α : Type} (read : Reader Byte α) (serialize : α → List Byte)
    (wellFormed : α → Prop) : Prop :=
  ∀ data : List Byte,
    (∀ v (r : BinaryReader), read (Cursor.start data) = some (v, r) →
      wellFormed v ∧ serialize v = data.take r.pos ∧ decode read (serialize v) = some v) ∧
    (decode read data = none ↔ ¬∃ v, wellFormed v ∧ serialize v <+: data)

theorem decodesCanonically {α : Type} {read : Reader Byte α} {serialize : α → List Byte}
    {wellFormed : α → Prop} (h : Canonical read serialize wellFormed) :
    DecodesCanonically read serialize wellFormed :=
  fun data => ⟨fun _ _ hread => h.decode_some hread, h.decode_none data⟩

/-! ## Login -/

namespace LoginMessage

def serialize (m : LoginMessage) : List Byte :=
  (BinaryWriter.writeString {} m.token |>.writeString m.name).data

def read : Reader Byte LoginMessage := do
  let token ← readString
  let name ← readString
  pure { token, name }

def deserialize (data : List Byte) : Option LoginMessage := decode read data

def WellFormed (m : LoginMessage) : Prop := Fits m.token ∧ Fits m.name

theorem canonical_read : Canonical read serialize WellFormed := by
  refine (canonical_string.field token (P := fun _ => True) fun _ =>
    canonical_string.field name fun _ =>
    Canonical.record _ ?_).congr ?_ ?_
  · intro m
    cases m
    simp
  · intro m
    simp [WellFormed, Fits]
  · intro m _
    simp [serialize]

end LoginMessage

/-! ## The two replies -/

/-- A message of three strings. -/
theorem canonical_threeStrings {α : Type} (mk : String → String → String → α)
    (status name message : α → String)
    (hmk : ∀ a s n m, status a = s ∧ name a = n ∧ message a = m ↔ a = mk s n m) :
    Canonical (do
        let s ← readString
        let n ← readString
        let m ← readString
        pure (mk s n m))
      (fun a => (BinaryWriter.writeString {} (status a) |>.writeString (name a)
        |>.writeString (message a)).data)
      fun a => Fits (status a) ∧ Fits (name a) ∧ Fits (message a) := by
  refine (canonical_string.field status (P := fun _ => True) fun s =>
    canonical_string.field name fun n =>
    canonical_string.field message fun m =>
    Canonical.record (mk s n m) ?_).congr ?_ ?_
  · intro a
    rw [true_and, and_assoc, hmk]
  · intro a
    simp [Fits]
  · intro a _
    simp

namespace LoginRespMessage

def serialize (m : LoginRespMessage) : List Byte :=
  (BinaryWriter.writeString {} m.status |>.writeString m.name |>.writeString m.message).data

def read : Reader Byte LoginRespMessage := do
  let status ← readString
  let name ← readString
  let message ← readString
  pure { status, name, message }

def deserialize (data : List Byte) : Option LoginRespMessage := decode read data

def WellFormed (m : LoginRespMessage) : Prop := Fits m.status ∧ Fits m.name ∧ Fits m.message

theorem canonical_read : Canonical read serialize WellFormed :=
  canonical_threeStrings LoginRespMessage.mk status name message fun a s n m => by
    cases a
    simp

end LoginRespMessage

namespace RegisterProxyRespMessage

def serialize (m : RegisterProxyRespMessage) : List Byte :=
  (BinaryWriter.writeString {} m.status |>.writeString m.name |>.writeString m.message).data

def read : Reader Byte RegisterProxyRespMessage := do
  let status ← readString
  let name ← readString
  let message ← readString
  pure { status, name, message }

def deserialize (data : List Byte) : Option RegisterProxyRespMessage := decode read data

def WellFormed (m : RegisterProxyRespMessage) : Prop :=
  Fits m.status ∧ Fits m.name ∧ Fits m.message

theorem canonical_read : Canonical read serialize WellFormed :=
  canonical_threeStrings RegisterProxyRespMessage.mk status name message fun a s n m => by
    cases a
    simp

end RegisterProxyRespMessage

/-! ## Proxies and users -/

namespace RegisterProxyMessage

def serialize (m : RegisterProxyMessage) : List Byte :=
  (BinaryWriter.writeString {} m.name |>.writeString m.type |>.writeUint16 m.remotePort
    |>.writeStringVector m.customDomains |>.writeInt64 (Int64.ofInt m.bandwidthLimit)).data

def read : Reader Byte RegisterProxyMessage := do
  let name ← readString
  let type ← readString
  let remotePort ← readUint16
  let customDomains ← readStringVector
  let bandwidthLimit ← Int64.toInt <$> readInt64
  pure { name, type, remotePort, customDomains, bandwidthLimit }

def deserialize (data : List Byte) : Option RegisterProxyMessage := decode read data

structure WellFormed (m : RegisterProxyMessage) : Prop where
  name : Fits m.name
  type : Fits m.type
  domains : ∀ s ∈ m.customDomains, Fits s
  count : m.customDomains.length < 65536
  bandwidth : -2 ^ 63 ≤ m.bandwidthLimit ∧ m.bandwidthLimit < 2 ^ 63

/-- An `int64_t` that is kept as an integer. -/
theorem canonical_int : Canonical (Int64.toInt <$> readInt64)
    (fun x => int64Bytes (Int64.ofInt x)) fun x => -2 ^ 63 ≤ x ∧ x < 2 ^ 63 := by
  refine canonical_int64.map Int64.toInt Int64.ofInt ?_ ?_
  · intro v _
    exact ⟨⟨v.le_toInt, v.toInt_lt⟩, Int64.ofInt_toInt v⟩
  · rintro x ⟨hlo, hhi⟩
    exact ⟨trivial, Int64.toInt_ofInt_of_le hlo hhi⟩

theorem canonical_read : Canonical read serialize WellFormed := by
  refine (canonical_string.field name (P := fun _ => True) fun _ =>
    canonical_string.field type fun _ =>
    canonical_uint16.field remotePort fun _ =>
    canonical_stringVector.field customDomains fun _ =>
    canonical_int.field bandwidthLimit fun _ =>
    Canonical.record _ ?_).congr ?_ ?_
  · intro m
    cases m
    simp [and_assoc]
  · intro m
    constructor
    · rintro ⟨-, hname, htype, -, ⟨hdomains, hcount⟩, hbandwidth, -⟩
      exact ⟨hname, htype, hdomains, hcount, hbandwidth⟩
    · rintro ⟨hname, htype, hdomains, hcount, hbandwidth⟩
      exact ⟨trivial, hname, htype, trivial, ⟨hdomains, hcount⟩, hbandwidth, trivial⟩
  · intro m _
    simp [serialize]

end RegisterProxyMessage

namespace NewUserConnMessage

def serialize (m : NewUserConnMessage) : List Byte :=
  (BinaryWriter.writeString {} m.proxyName |>.writeString m.ticket).data

def read : Reader Byte NewUserConnMessage := do
  let proxyName ← readString
  let ticket ← readString
  pure { proxyName, ticket }

def deserialize (data : List Byte) : Option NewUserConnMessage := decode read data

def WellFormed (m : NewUserConnMessage) : Prop := Fits m.proxyName ∧ Fits m.ticket

theorem canonical_read : Canonical read serialize WellFormed := by
  refine (canonical_string.field proxyName (P := fun _ => True) fun _ =>
    canonical_string.field ticket fun _ =>
    Canonical.record _ ?_).congr ?_ ?_
  · intro m
    cases m
    simp
  · intro m
    simp [WellFormed, Fits]
  · intro m _
    simp [serialize]

end NewUserConnMessage

namespace UnregisterProxyMessage

def serialize (m : UnregisterProxyMessage) : List Byte :=
  (BinaryWriter.writeString {} m.name).data

def read : Reader Byte UnregisterProxyMessage := do
  let name ← readString
  pure { name }

def deserialize (data : List Byte) : Option UnregisterProxyMessage := decode read data

def WellFormed (m : UnregisterProxyMessage) : Prop := Fits m.name

theorem canonical_read : Canonical read serialize WellFormed := by
  refine (canonical_string.field name (P := fun _ => True) fun _ =>
    Canonical.record _ ?_).congr ?_ ?_
  · intro m
    cases m
    simp
  · intro m
    simp [WellFormed, Fits]
  · intro m _
    simp [serialize]

end UnregisterProxyMessage

/-- **Canonical decoding** of the six messages. -/
theorem canonical_decoding :
    DecodesCanonically LoginMessage.read LoginMessage.serialize LoginMessage.WellFormed ∧
    DecodesCanonically LoginRespMessage.read LoginRespMessage.serialize
      LoginRespMessage.WellFormed ∧
    DecodesCanonically RegisterProxyMessage.read RegisterProxyMessage.serialize
      RegisterProxyMessage.WellFormed ∧
    DecodesCanonically RegisterProxyRespMessage.read RegisterProxyRespMessage.serialize
      RegisterProxyRespMessage.WellFormed ∧
    DecodesCanonically NewUserConnMessage.read NewUserConnMessage.serialize
      NewUserConnMessage.WellFormed ∧
    DecodesCanonically UnregisterProxyMessage.read UnregisterProxyMessage.serialize
      UnregisterProxyMessage.WellFormed :=
  ⟨decodesCanonically LoginMessage.canonical_read,
    decodesCanonically LoginRespMessage.canonical_read,
    decodesCanonically RegisterProxyMessage.canonical_read,
    decodesCanonically RegisterProxyRespMessage.canonical_read,
    decodesCanonically NewUserConnMessage.canonical_read,
    decodesCanonically UnregisterProxyMessage.canonical_read⟩

end Cfrp.Protocol
