import Cfrp.Protocol.Codec
import Cfrp.Server.Names

/-!
# Control messages that arrive as they were sent

`WriteString` announces the length of a string modulo `2 ^ 16` and then appends all of it,
and nothing checks a message before it is sent. So a message arrives as it was sent if
and only if its strings are short and its vectors few; what a longer one is taken for is
decided by the bytes that stand where the next length is expected.
-/

namespace Cfrp.Protocol

open Lib

/-- The structs a control message is made of. -/
inductive Struct where
  | login
  | loginResp
  | registerProxy
  | registerProxyResp
  | newUserConn
  | unregisterProxy

namespace Struct

def Value : Struct → Type
  | login => LoginMessage
  | loginResp => LoginRespMessage
  | registerProxy => RegisterProxyMessage
  | registerProxyResp => RegisterProxyRespMessage
  | newUserConn => NewUserConnMessage
  | unregisterProxy => UnregisterProxyMessage

def serialize : (t : Struct) → t.Value → List Byte
  | login => LoginMessage.serialize
  | loginResp => LoginRespMessage.serialize
  | registerProxy => RegisterProxyMessage.serialize
  | registerProxyResp => RegisterProxyRespMessage.serialize
  | newUserConn => NewUserConnMessage.serialize
  | unregisterProxy => UnregisterProxyMessage.serialize

def deserialize : (t : Struct) → List Byte → Option t.Value
  | login => LoginMessage.deserialize
  | loginResp => LoginRespMessage.deserialize
  | registerProxy => RegisterProxyMessage.deserialize
  | registerProxyResp => RegisterProxyRespMessage.deserialize
  | newUserConn => NewUserConnMessage.deserialize
  | unregisterProxy => UnregisterProxyMessage.deserialize

/-- The strings of a message, those of its vector included. -/
def strings : (t : Struct) → t.Value → List String
  | login, (m : LoginMessage) => [m.token, m.name]
  | loginResp, (m : LoginRespMessage) => [m.status, m.name, m.message]
  | registerProxy, (m : RegisterProxyMessage) => m.name :: m.type :: m.customDomains
  | registerProxyResp, (m : RegisterProxyRespMessage) => [m.status, m.name, m.message]
  | newUserConn, (m : NewUserConnMessage) => [m.proxyName, m.ticket]
  | unregisterProxy, (m : UnregisterProxyMessage) => [m.name]

/-- The length of the one vector there is. -/
def vectorLength : (t : Struct) → t.Value → Nat
  | registerProxy, (m : RegisterProxyMessage) => m.customDomains.length
  | _, _ => 0

/-- The value of a C++ struct: strings of bytes, and a limit that is an `int64_t`. -/
structure IsValue (t : Struct) (m : t.Value) : Prop where
  strings : ∀ s ∈ t.strings m, IsBytes s
  limit : match t, m with
    | registerProxy, (m : RegisterProxyMessage) =>
        -2 ^ 63 ≤ m.bandwidthLimit ∧ m.bandwidthLimit < 2 ^ 63
    | _, _ => True

/-- Every length fits its prefix. -/
structure Short (t : Struct) (m : t.Value) : Prop where
  strings : ∀ s ∈ t.strings m, s.length < 65536
  vector : t.vectorLength m < 65536

/-- The reader of a struct. -/
def reader : (t : Struct) → Reader Byte t.Value
  | login => LoginMessage.read
  | loginResp => LoginRespMessage.read
  | registerProxy => RegisterProxyMessage.read
  | registerProxyResp => RegisterProxyRespMessage.read
  | newUserConn => NewUserConnMessage.read
  | unregisterProxy => UnregisterProxyMessage.read

def WellFormed : (t : Struct) → t.Value → Prop
  | login => LoginMessage.WellFormed
  | loginResp => LoginRespMessage.WellFormed
  | registerProxy => RegisterProxyMessage.WellFormed
  | registerProxyResp => RegisterProxyRespMessage.WellFormed
  | newUserConn => NewUserConnMessage.WellFormed
  | unregisterProxy => UnregisterProxyMessage.WellFormed

theorem deserialize_eq (t : Struct) (data : List Byte) :
    t.deserialize data = decode t.reader data := by
  cases t <;> rfl

theorem canonical_reader (t : Struct) : Canonical t.reader t.serialize t.WellFormed := by
  cases t with
  | login => exact LoginMessage.canonical_read
  | loginResp => exact LoginRespMessage.canonical_read
  | registerProxy => exact RegisterProxyMessage.canonical_read
  | registerProxyResp => exact RegisterProxyRespMessage.canonical_read
  | newUserConn => exact NewUserConnMessage.canonical_read
  | unregisterProxy => exact UnregisterProxyMessage.canonical_read

theorem wellFormed_iff {t : Struct} {m : t.Value} (h : t.IsValue m) :
    t.WellFormed m ↔ t.Short m := by
  obtain ⟨hstrings, hlimit⟩ := h
  have hshort : t.Short m ↔ (∀ s ∈ t.strings m, Fits s) ∧ t.vectorLength m < 65536 := by
    constructor
    · rintro ⟨hlength, hvector⟩
      exact ⟨fun s hs => ⟨hstrings s hs, hlength s hs⟩, hvector⟩
    · rintro ⟨hfits, hvector⟩
      exact ⟨fun s hs => (hfits s hs).2, hvector⟩
  rw [hshort]
  cases t with
  | login => simp [WellFormed, LoginMessage.WellFormed, strings, vectorLength]
  | loginResp => simp [WellFormed, LoginRespMessage.WellFormed, strings, vectorLength]
  | registerProxyResp =>
      simp [WellFormed, RegisterProxyRespMessage.WellFormed, strings, vectorLength]
  | newUserConn => simp [WellFormed, NewUserConnMessage.WellFormed, strings, vectorLength]
  | unregisterProxy => simp [WellFormed, UnregisterProxyMessage.WellFormed, strings, vectorLength]
  | registerProxy =>
      constructor
      · rintro ⟨hname, htype, hdomains, hcount, -⟩
        refine ⟨fun s hs => ?_, hcount⟩
        rcases List.mem_cons.mp hs with rfl | hs
        · exact hname
        · rcases List.mem_cons.mp hs with rfl | hs
          · exact htype
          · exact hdomains s hs
      · rintro ⟨hall, hcount⟩
        refine ⟨hall _ List.mem_cons_self, hall _ (List.mem_cons_of_mem _ List.mem_cons_self), ?_,
          hcount, hlimit⟩
        exact fun s hs => hall s (List.mem_cons_of_mem _ (List.mem_cons_of_mem _ hs))

end Struct

/-! ## The reply to a login -/

theorem isBytes_append {s s' : String} (h : IsBytes s) (h' : IsBytes s') : IsBytes (s ++ s') := by
  intro c hc
  rw [String.toList_append] at hc
  exact (List.mem_append.mp hc).elim (h c) (h' c)

theorem isBytes_toString (n : Nat) : IsBytes (toString n) := by
  intro c hc
  have hdigits : c ∈ Nat.toDigits 10 n := by
    rw [← Nat.toList_repr]
    exact hc
  have hdigit := Nat.isDigit_of_mem_toDigits (by decide) (by decide) hdigits
  rw [Char.isDigit, Bool.and_eq_true, decide_eq_true_eq, decide_eq_true_eq] at hdigit
  have hle : c.toNat ≤ '9'.toNat := hdigit.2
  exact Nat.lt_of_le_of_lt hle (by decide)

/-- The name of a session, with or without a suffix. -/
theorem isBytes_freeClientName {active : Finset String} {requestedName : String}
    (h : IsBytes requestedName) : IsBytes (Server.freeClientName active requestedName) := by
  obtain ⟨j, -, heq, -⟩ := Server.freeClientName_spec active requestedName
  have hbase : IsBytes (Server.baseName requestedName) := by
    rw [Server.baseName]
    split
    · decide
    · exact h
  rw [heq, Server.candidate]
  split
  · exact hbase
  · refine isBytes_append (isBytes_append hbase ?_) (isBytes_toString j)
    decide

/-- **A message arrives as it was sent exactly if every length fits its prefix**, and no two
such messages are written alike. The reply to a login is one of them exactly if the
name that has been allocated is short, whatever the length of the name that was requested. -/
theorem arrives_iff_short (t : Struct) (m : t.Value) (hm : t.IsValue m) (active : Finset String)
    (requestedName : String) (hname : IsBytes requestedName) :
    (t.deserialize (t.serialize m) = some m ↔ t.Short m) ∧
      (∀ m' : t.Value, t.IsValue m' → t.Short m → t.Short m' → t.serialize m = t.serialize m' →
        m = m') ∧
      (LoginRespMessage.deserialize (LoginRespMessage.serialize
          { status := "ok", name := Server.freeClientName active requestedName }) =
          some { status := "ok", name := Server.freeClientName active requestedName } ↔
        (Server.freeClientName active requestedName).length < 65536) := by
  have hcanonical := t.canonical_reader
  refine ⟨?_, fun m' hm' hs hs' heq => ?_, ?_⟩
  · rw [Struct.deserialize_eq, hcanonical.decode_write, Struct.wellFormed_iff hm]
  · exact hcanonical.injective ((Struct.wellFormed_iff hm).mpr hs)
      ((Struct.wellFormed_iff hm').mpr hs')
      heq
  · have hok : Fits "ok" := ⟨by decide, by decide⟩
    have hempty : Fits "" := ⟨by decide, by decide⟩
    refine (LoginRespMessage.canonical_read.decode_write _).trans ⟨fun h => h.2.1.2, fun hlen => ?_⟩
    exact ⟨hok, ⟨isBytes_freeClientName hname, hlen⟩, hempty⟩

/-- A registration with two domains, and the reply to a second session that asks for a name. -/
theorem arrives_iff_short_example :
    RegisterProxyMessage.deserialize (RegisterProxyMessage.serialize
        ⟨"web", "http", 0, ["a.example", "b.example"], 5000⟩) =
      some ⟨"web", "http", 0, ["a.example", "b.example"], 5000⟩ := by
  refine (arrives_iff_short .registerProxy ⟨"web", "http", 0, ["a.example", "b.example"], 5000⟩
    ⟨?_, ?_⟩ {"web"} "web" ?_).1.mpr ⟨?_, ?_⟩
  · decide
  · exact ⟨by decide, by decide⟩
  · decide
  · decide
  · decide

/-! ## Longer messages -/

/-- A string whose length is announced as zero is read as the empty string. -/
theorem unregister_long {name : String} (hlength : name.length = 65536) :
    UnregisterProxyMessage.deserialize (UnregisterProxyMessage.serialize ⟨name⟩) = some ⟨""⟩ := by
  have hbytes : UnregisterProxyMessage.serialize ⟨name⟩ = stringBytes "" ++ bytesOf name := by
    show [] ++ (be 2 _ ++ bytesOf name) = _
    rw [List.nil_append, hlength]
    rfl
  let after : Cursor Byte :=
    { data := UnregisterProxyMessage.serialize ⟨name⟩, pos := 2, bound := by
        rw [hbytes, List.length_append]
        exact Nat.le_add_right 2 _ }
  have hread :
      UnregisterProxyMessage.read (Cursor.start (UnregisterProxyMessage.serialize ⟨name⟩)) =
      some (⟨""⟩, after) := by
    refine (UnregisterProxyMessage.canonical_read _ _ _).mpr ⟨⟨?_, by decide⟩, ?_, rfl, rfl⟩
    · decide
    · show UnregisterProxyMessage.serialize ⟨""⟩ <+: UnregisterProxyMessage.serialize ⟨name⟩
      rw [hbytes]
      exact List.prefix_append _ _
  rw [UnregisterProxyMessage.deserialize, decode, hread]
  rfl

/-- A name of `65536` letters is taken for the empty name. -/
theorem arrives_corrupted : ¬ ∀ (t : Struct) (m m' : t.Value), t.IsValue m →
    t.deserialize (t.serialize m) = some m' → m' = m := by
  intro hall
  obtain ⟨name, hbytes, hlength⟩ : ∃ name : String, IsBytes name ∧ name.length = 65536 := by
    refine ⟨String.ofList (List.replicate 65536 'a'), fun c hc => ?_, ?_⟩
    · rw [String.toList_ofList] at hc
      rw [List.eq_of_mem_replicate hc]
      decide
    · rw [String.length_ofList, List.length_replicate]
  have hvalue : Struct.unregisterProxy.IsValue (⟨name⟩ : UnregisterProxyMessage) := by
    refine ⟨fun s hs => ?_, trivial⟩
    rw [List.mem_singleton.mp hs]
    exact hbytes
  have heq := hall .unregisterProxy (⟨name⟩ : UnregisterProxyMessage)
    (⟨""⟩ : UnregisterProxyMessage) hvalue (unregister_long hlength)
  have hempty : "" = name := congrArg UnregisterProxyMessage.name heq
  rw [← hempty] at hlength
  exact absurd hlength (by decide)

end Cfrp.Protocol
