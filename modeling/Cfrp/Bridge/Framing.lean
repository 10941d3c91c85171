import Cfrp.Bridge.Zstd

/-!
# Frames on a work stream

What `Bridge` and the two `UdpBridge`s write to a work stream is a sequence of frames: a
header of a fixed number of bytes, the highest bit of which says whether the payload is
compressed, the others its length, and the payload. They differ in the width of the header
and in what a reader accepts, so these are the parameters of a `Framing`.

A reader is in one of two places, in front of a header or in front of a payload it knows the
length of. `Unframer.InStep` says that it and its writer agree on the frames between them.
-/

namespace Cfrp.Bridge

open Lib

structure Framing where
  /-- The number of bytes of a header. -/
  width : Nat
  width_pos : 0 < width
  maxLength : Nat
  maxDecoded : Nat

/-- The payload for some bytes, and whether it is compressed: it is when that makes it
smaller. -/
def payloadOf (z : Zstd) (useCompression : Bool) (level : Int) (data : List Byte) :
    Bool × List Byte :=
  if useCompression then
    match z.compress level data with
    | some compressed =>
        if compressed.length < data.length then (true, compressed) else (false, data)
    | none => (false, data)
  else (false, data)

namespace Framing

variable (F : Framing)

/-- The highest bit of a header. -/
def flag : Nat := 2 ^ (8 * F.width - 1)

/-- The conversion of a length to the type of the header, and the flag. -/
def header (compressed : Bool) (length : Nat) : Nat :=
  if compressed then length % 256 ^ F.width ||| F.flag else length % 256 ^ F.width

def frame (z : Zstd) (useCompression : Bool) (level : Int) (data : List Byte) : List Byte :=
  let (compressed, payload) := payloadOf z useCompression level data
  be F.width (F.header compressed payload.length) ++ payload

/-- The length and the flag of a header. -/
def splitHeader (bytes : List Byte) : Nat × Bool :=
  (ofBE bytes % F.flag, ofBE bytes &&& F.flag ≠ 0)

/-- What a reader makes of a payload; with `none` it closes the stream. -/
def contents (z : Zstd) (compressed : Bool) (payload : List Byte) : Option (List Byte) :=
  if compressed then
    match z.contentSize payload with
    | none => none
    | some decodedSize =>
        if decodedSize > F.maxDecoded then none else z.decompress decodedSize payload
  else some payload

/-- The bytes that have to be on a stream for the read of a payload to complete: the read of an
empty one waits for something behind it, as the stream looks at its queue first. -/
def needed (length : Nat) : Nat := max 1 length

/-- One frame off a stream, and what is left of the stream. -/
def unframe (z : Zstd) (stream : List Byte) : Option (List Byte × List Byte) :=
  if stream.length < F.width then none
  else
    let (length, compressed) := F.splitHeader (stream.take F.width)
    let rest := stream.drop F.width
    if length > F.maxLength then none
    -- the read of a payload, which waits for one byte at least
    else if rest.length < needed length then none
    else (F.contents z compressed (rest.take length)).map fun data => (data, rest.drop length)

variable {F}

theorem two_mul_flag : 2 * F.flag = 256 ^ F.width := by
  have hwidth := F.width_pos
  have hexp : 8 * F.width = 8 * F.width - 1 + 1 := by omega
  have hpow : 256 ^ F.width = 2 ^ (8 * F.width) := by
    rw [Nat.pow_mul]
  rw [hpow, hexp, Nat.pow_succ, flag, Nat.mul_comm]

theorem flag_pos : 0 < F.flag := Nat.two_pow_pos _

theorem header_lt (compressed : Bool) (length : Nat) :
    F.header compressed length < 256 ^ F.width := by
  have hmod : length % 256 ^ F.width < 256 ^ F.width := Nat.mod_lt _ (Nat.pow_pos (by omega))
  cases compressed with
  | false => exact hmod
  | true =>
      have hpow : 256 ^ F.width = 2 ^ (8 * F.width) := by
        rw [Nat.pow_mul]
      show length % 256 ^ F.width ||| F.flag < 256 ^ F.width
      rw [hpow] at hmod ⊢
      -- the flag is a bit of the header
      refine Nat.or_lt_two_pow hmod ?_
      exact Nat.pow_lt_pow_right (by omega) (by have := F.width_pos; omega)

/-- The length is cut at the flag. -/
theorem header_mod (compressed : Bool) (length : Nat) :
    F.header compressed length % F.flag = length % F.flag := by
  have hmod : length % 256 ^ F.width % F.flag = length % F.flag :=
    Nat.mod_mod_of_dvd _ ⟨2, by rw [← two_mul_flag, Nat.mul_comm]⟩
  cases compressed with
  | false => exact hmod
  | true =>
      show (length % 256 ^ F.width ||| 2 ^ _) % 2 ^ _ = _
      rw [low_flag]
      exact hmod

/-- A length below the flag leaves it as it was set. -/
theorem header_flag (compressed : Bool) {length : Nat} (h : length < F.flag) :
    decide (F.header compressed length &&& F.flag ≠ 0) = compressed := by
  have hlen : length % 256 ^ F.width = length := by
    refine Nat.mod_eq_of_lt ?_
    rw [← two_mul_flag]
    omega
  cases compressed with
  | false =>
      rw [header, if_neg Bool.false_ne_true, hlen, flag, and_flag_eq_zero h]
      rfl
  | true =>
      rw [header, if_pos rfl]
      exact decide_eq_true (and_flag_ne_zero _ _)

theorem splitHeader_be (compressed : Bool) (length : Nat) :
    F.splitHeader (be F.width (F.header compressed length)) =
      (length % F.flag, decide (F.header compressed length &&& F.flag ≠ 0)) := by
  rw [splitHeader, ofBE_be (header_lt compressed length), header_mod]

theorem take_drop_be (n : Nat) (rest : List Byte) :
    (be F.width n ++ rest).take F.width = be F.width n ∧
      (be F.width n ++ rest).drop F.width = rest :=
  ⟨List.take_left' (length_be _ n), List.drop_left' (length_be _ n)⟩

/-- What is read off a stream that begins with a header of this framing. -/
theorem unframe_header (z : Zstd) (compressed : Bool) (length : Nat) (rest : List Byte) :
    F.unframe z (be F.width (F.header compressed length) ++ rest) =
      if length % F.flag > F.maxLength then none
      else if rest.length < needed (length % F.flag) then none
      else (F.contents z (F.header compressed length &&& F.flag ≠ 0)
        (rest.take (length % F.flag))).map fun data => (data, rest.drop (length % F.flag)) := by
  obtain ⟨htake, hdrop⟩ := take_drop_be (F := F) (F.header compressed length) rest
  have hlen : ¬(be F.width (F.header compressed length) ++ rest).length < F.width := by
    rw [List.length_append, length_be]
    omega
  rw [unframe, if_neg hlen, htake, hdrop, splitHeader_be]

/-- A length that is cut leaves a part of the payload on the stream. -/
theorem unframe_cut {z : Zstd} {compressed : Bool} {payload data : List Byte}
    (h : F.flag ≤ payload.length) :
    F.unframe z (be F.width (F.header compressed payload.length) ++ payload) ≠ some (data, []) := by
  have hcut : payload.length % F.flag < payload.length :=
    Nat.lt_of_lt_of_le (Nat.mod_lt _ flag_pos) h
  rw [unframe_header]
  intro heq
  -- the reader stops, waits, or leaves bytes behind
  by_cases hmax : payload.length % F.flag > F.maxLength
  · rw [if_pos hmax] at heq
    cases heq
  · rw [if_neg hmax] at heq
    split at heq
    · cases heq
    · obtain ⟨d, -, hd⟩ := Option.map_eq_some_iff.mp heq
      have hlen := congrArg List.length (congrArg Prod.snd hd)
      rw [List.length_drop, List.length_nil] at hlen
      omega

end Framing

/-- The two forms a payload can have. -/
theorem payloadOf_cases (z : Zstd) (useCompression : Bool) (level : Int) (data : List Byte) :
    (∃ c, useCompression = true ∧ z.compress level data = some c ∧ c.length < data.length ∧
        payloadOf z useCompression level data = (true, c)) ∨
      payloadOf z useCompression level data = (false, data) := by
  rw [payloadOf]
  cases useCompression with
  | false => exact Or.inr rfl
  | true =>
      cases hc : z.compress level data with
      | none => exact Or.inr rfl
      | some c =>
          -- compressed only if that is shorter
          by_cases hlt : c.length < data.length
          · exact Or.inl ⟨c, rfl, rfl, hlt, by simp [hlt]⟩
          · exact Or.inr (by simp [hlt])

theorem length_payloadOf (z : Zstd) (useCompression : Bool) (level : Int) (data : List Byte) :
    (payloadOf z useCompression level data).2.length ≤ data.length := by
  rcases payloadOf_cases z useCompression level data with ⟨c, -, -, hlt, hpayload⟩ | hpayload
  · rw [hpayload]
    exact Nat.le_of_lt hlt
  · rw [hpayload]

namespace Framing

variable {F : Framing} {z : Zstd} {useCompression : Bool} {level : Int} {data : List Byte}

theorem contents_payloadOf (hz : z.Lawful) (hdata : data.length ≤ F.maxDecoded) :
    F.contents z (payloadOf z useCompression level data).1
      (payloadOf z useCompression level data).2 = some data := by
  rcases payloadOf_cases z useCompression level data with ⟨c, -, hc, -, hpayload⟩ | hpayload
  · rw [hpayload]
    show (match z.contentSize c with
      | none => none
      | some n => if n > F.maxDecoded then none else z.decompress n c) = some data
    rw [hz.contentSize hc]
    show (if data.length > F.maxDecoded then none else z.decompress data.length c) = some data
    rw [if_neg (by omega), hz.decompress hc]
  · rw [hpayload]
    rfl

theorem frame_eq (F : Framing) (z : Zstd) (useCompression : Bool) (level : Int) (data : List Byte) :
    F.frame z useCompression level data =
      be F.width (F.header (payloadOf z useCompression level data).1
        (payloadOf z useCompression level data).2.length) ++
        (payloadOf z useCompression level data).2 := rfl

/-- The reader of this framing gets these bytes back: their payload leaves the flag alone and
is not too long, nor are they. -/
structure Carries (F : Framing) (z : Zstd) (useCompression : Bool) (level : Int)
    (data : List Byte) : Prop where
  flag : (payloadOf z useCompression level data).2.length < F.flag
  length : (payloadOf z useCompression level data).2.length ≤ F.maxLength
  decoded : data.length ≤ F.maxDecoded

/-- **Round trip of a frame** whose payload is not empty. -/
theorem Carries.unframe (h : F.Carries z useCompression level data) (hz : z.Lawful)
    (hpos : 0 < (payloadOf z useCompression level data).2.length) (rest : List Byte) :
    F.unframe z (F.frame z useCompression level data ++ rest) = some (data, rest) := by
  have hlen := Nat.mod_eq_of_lt h.flag
  have hmax := h.length
  have hneeded : needed (payloadOf z useCompression level data).2.length =
      (payloadOf z useCompression level data).2.length := Nat.max_eq_right hpos
  rw [frame_eq, List.append_assoc, unframe_header, hlen, header_flag _ h.flag, List.take_left,
    List.drop_left, if_neg (by omega), hneeded, if_neg (by rw [List.length_append]; omega),
    contents_payloadOf hz h.decoded]
  rfl

/-- An empty payload at the end of a stream is not read. -/
theorem unframe_empty (hpayload : (payloadOf z useCompression level data).2 = []) :
    F.unframe z (F.frame z useCompression level data) = none := by
  have hframe := frame_eq F z useCompression level data
  rw [hpayload, List.append_nil] at hframe
  rw [hframe, ← List.append_nil (be _ _), unframe_header, List.length_nil, Nat.zero_mod,
    if_neg (Nat.not_lt_zero _)]
  exact if_pos (Nat.lt_of_lt_of_le Nat.zero_lt_one (Nat.le_max_left 1 0))

end Framing

/-! ## A reader of frames -/

/-- Where the reader is. -/
inductive Awaiting where
  | header
  | payload (length : Nat) (compressed : Bool)
  | closed
  deriving DecidableEq

/-- A stream of frames with its reader, and what the reader has got of them. -/
structure Unframer where
  stream : List Byte := []
  awaiting : Awaiting := .header
  got : List (List Byte) := []
  deriving DecidableEq

namespace Unframer

def write (u : Unframer) (bytes : List Byte) : Unframer := { u with stream := u.stream ++ bytes }

/-- The read of a header completes. -/
def readHeader (F : Framing) (u : Unframer) : Option Unframer :=
  if u.awaiting = .header ∧ F.width ≤ u.stream.length then
    let (length, compressed) := F.splitHeader (u.stream.take F.width)
    let stream := u.stream.drop F.width
    if length > F.maxLength then some { u with stream, awaiting := .closed }
    else some { u with stream, awaiting := .payload length compressed }
  else none

/-- The read of a payload completes. -/
def readPayload (F : Framing) (z : Zstd) (u : Unframer) : Option Unframer :=
  match u.awaiting with
  | .payload length compressed =>
      if Framing.needed length ≤ u.stream.length then
        let stream := u.stream.drop length
        match F.contents z compressed (u.stream.take length) with
        | none => some { u with stream, awaiting := .closed }
        | some data => some { stream, awaiting := .header, got := u.got ++ [data] }
      else none
  | _ => none

/-- The frames of some pieces of data. -/
def frames (F : Framing) (z : Zstd) (useCompression : Bool) (level : Int) (ds : List (List Byte)) :
    List Byte := ds.flatMap (F.frame z useCompression level)

variable {F : Framing} {z : Zstd} {useCompression : Bool} {level : Int} {u u' : Unframer}
  {pending : List (List Byte)}

/-- The reader has still to get `pending`, and the stream holds exactly their frames, but for
the header of the first when that was read. -/
structure InStep (F : Framing) (z : Zstd) (useCompression : Bool) (level : Int) (u : Unframer)
    (pending : List (List Byte)) : Prop where
  carried : ∀ data ∈ pending, F.Carries z useCompression level data
  stream : match u.awaiting with
    | .header => u.stream = frames F z useCompression level pending
    | .payload length compressed => ∃ data ds payload, pending = data :: ds ∧
        payload.length = length ∧ F.contents z compressed payload = some data ∧
        u.stream = payload ++ frames F z useCompression level ds
    | .closed => False

theorem inStep_nil (F : Framing) (z : Zstd) (useCompression : Bool) (level : Int) :
    InStep F z useCompression level {} [] :=
  ⟨fun _ hd => (by cases hd), rfl⟩

/-- One more frame is written. -/
theorem InStep.write (h : InStep F z useCompression level u pending) {data : List Byte}
    (hdata : F.Carries z useCompression level data) :
    InStep F z useCompression level (u.write (F.frame z useCompression level data))
      (pending ++ [data]) := by
  have hframes : ∀ ds, frames F z useCompression level (ds ++ [data]) =
      frames F z useCompression level ds ++ F.frame z useCompression level data := by
    intro ds
    simp [frames]
  refine ⟨fun d hd => ?_, ?_⟩
  · rcases List.mem_append.mp hd with hd | hd
    · exact h.carried d hd
    · exact List.mem_singleton.mp hd ▸ hdata
  · have hstream := h.stream
    rw [Unframer.write]
    cases hawaiting : u.awaiting with
    | header =>
        rw [hawaiting] at hstream
        show u.stream ++ _ = _
        rw [show u.stream = _ from hstream, hframes]
    | payload length compressed =>
        rw [hawaiting] at hstream
        obtain ⟨d, ds, payload, rfl, hlen, hd, hpayload⟩ := hstream
        refine ⟨d, ds ++ [data], payload, rfl, hlen, hd, ?_⟩
        rw [hframes, hpayload, List.append_assoc]
    | closed =>
        rw [hawaiting] at hstream
        exact hstream.elim

/-- A header that is read announces the payload of the next frame. -/
theorem InStep.readHeader (h : InStep F z useCompression level u pending) (hz : z.Lawful)
    (hread : u.readHeader F = some u') :
    InStep F z useCompression level u' pending ∧ u'.got = u.got ∧ ∃ data ∈ pending,
      u'.awaiting = .payload (payloadOf z useCompression level data).2.length
        (payloadOf z useCompression level data).1 := by
  have hstream := h.stream
  rw [Unframer.readHeader, Option.ite_none_right_eq_some] at hread
  obtain ⟨⟨hawaiting, hsize⟩, hread⟩ := hread
  rw [hawaiting] at hstream
  cases hpending : pending with
  -- no frame is pending, so there is no header to read
  | nil =>
      have hwidth := F.width_pos
      rw [show u.stream = _ from hstream, hpending] at hsize
      exact absurd hsize (Nat.not_le_of_lt hwidth)
  | cons data ds =>
      have hdata := h.carried data (by rw [hpending]; exact List.mem_cons_self)
      have hmax := hdata.length
      have hbytes : u.stream = be F.width (F.header (payloadOf z useCompression level data).1
          (payloadOf z useCompression level data).2.length) ++
          ((payloadOf z useCompression level data).2 ++ frames F z useCompression level ds) := by
        rw [show u.stream = _ from hstream, hpending, frames, List.flatMap_cons, Framing.frame_eq,
          List.append_assoc]
        rfl
      obtain ⟨htake, hdrop⟩ := Framing.take_drop_be (F := F) (F.header
        (payloadOf z useCompression level data).1 (payloadOf z useCompression level data).2.length)
        ((payloadOf z useCompression level data).2 ++ frames F z useCompression level ds)
      -- the header says how long the payload is, and what it is
      rw [← hbytes] at htake hdrop
      rw [htake, hdrop, Framing.splitHeader_be, Framing.header_flag _ hdata.flag,
        Nat.mod_eq_of_lt hdata.flag] at hread
      simp only [if_neg (Nat.not_lt_of_le hmax), Option.some.injEq] at hread
      subst hread
      refine ⟨⟨by rw [← hpending]; exact h.carried, ?_⟩, rfl, data, List.mem_cons_self, rfl⟩
      exact ⟨data, ds, _, rfl, rfl, Framing.contents_payloadOf hz hdata.decoded, rfl⟩

/-- A header can be read as soon as something is pending. -/
theorem InStep.header_isSome (h : InStep F z useCompression level u pending)
    (hawaiting : u.awaiting = .header) (hne : pending ≠ []) : (u.readHeader F).isSome := by
  have hstream := h.stream
  rw [hawaiting] at hstream
  obtain ⟨data, ds, rfl⟩ := List.exists_cons_of_ne_nil hne
  have hsize : F.width ≤ u.stream.length := by
    rw [show u.stream = _ from hstream, frames, List.flatMap_cons, Framing.frame_eq,
      List.length_append, List.length_append, length_be]
    omega
  rw [Unframer.readHeader, if_pos ⟨hawaiting, hsize⟩]
  dsimp only
  split
  · rfl
  · rfl

/-- The payload in front of the reader is the next of those that are pending, and behind it
comes the rest. -/
theorem InStep.payload (h : InStep F z useCompression level u pending) {length : Nat}
    {compressed : Bool} (hawaiting : u.awaiting = .payload length compressed) :
    ∃ data ds, pending = data :: ds ∧ length ≤ u.stream.length ∧
      F.contents z compressed (u.stream.take length) = some data ∧ ∀ got,
      InStep F z useCompression level
        { stream := u.stream.drop length, awaiting := .header, got } ds := by
  have hstream := h.stream
  rw [hawaiting] at hstream
  obtain ⟨data, ds, payload, rfl, rfl, hdata, hbytes⟩ := hstream
  have htake : u.stream.take payload.length = payload := by
    rw [hbytes, List.take_left]
  have hdrop : u.stream.drop payload.length = frames F z useCompression level ds := by
    rw [hbytes, List.drop_left]
  have hlen : payload.length ≤ u.stream.length := by
    rw [hbytes, List.length_append]
    omega
  refine ⟨data, ds, rfl, hlen, by rw [htake]; exact hdata, fun got => ?_⟩
  exact ⟨fun d hd => h.carried d (List.mem_cons_of_mem _ hd), hdrop⟩

/-- A payload that is read is the next of those that are pending. -/
theorem InStep.readPayload (h : InStep F z useCompression level u pending)
    (hread : u.readPayload F z = some u') :
    ∃ data ds, pending = data :: ds ∧ InStep F z useCompression level u' ds ∧
      u'.got = u.got ++ [data] ∧ u'.awaiting = .header := by
  rw [Unframer.readPayload] at hread
  cases hawaiting : u.awaiting with
  | header =>
      rw [hawaiting] at hread
      cases hread
  | closed =>
      rw [hawaiting] at hread
      cases hread
  | payload length compressed =>
      obtain ⟨data, ds, hpending, -, hdata, hrest⟩ := h.payload hawaiting
      simp only [hawaiting, Option.ite_none_right_eq_some, hdata, Option.some.injEq] at hread
      obtain ⟨-, rfl⟩ := hread
      exact ⟨data, ds, hpending, hrest _, rfl, rfl⟩

end Unframer

end Cfrp.Bridge
