import Cfrp.Bridge.Vhost

/-!
# From chunks to frames and back

`DoRead(1)` frames the chunks it reads and `DoRead(2)` takes the frames apart. Each has one
scratch buffer for zstd, which only grows: what is in it behind the result of a call is left
from earlier chunks, or was put there by zstd. The frames arrive in segments that have
nothing to do with them, and the reads of a header and of a body wait until all of it is
there. Where the reader stands among the frames is the invariant, `Aligned`.
-/

namespace Cfrp.Bridge

open Lib

/-! ## Scratch buffers -/

/-- The calls of zstd and the memory they write to. -/
structure ZstdCalls where
  zstd : Zstd
  /-- `ZSTD_compressBound`. -/
  compressBound : Nat → Nat
  /-- What `dst` holds after `ZSTD_compressCCtx`: level, capacity, `dst` before, source. -/
  compressInto : Int → Nat → List Byte → List Byte → List Byte
  /-- What `dst` holds after `ZSTD_decompressDCtx`: capacity, `dst` before, source. -/
  decompressInto : Nat → List Byte → List Byte → List Byte

/-- A call that succeeds in a buffer that is large enough puts its result in front. What it
does to the rest of the buffer is not said. -/
structure ZstdCalls.Lawful (z : ZstdCalls) : Prop where
  zstd : z.zstd.Lawful
  compressInto : ∀ {level data c dst}, z.zstd.compress level data = some c →
    z.compressBound data.length ≤ dst.length →
    c <+: z.compressInto level (z.compressBound data.length) dst data
  decompressInto : ∀ {n c data dst}, z.zstd.decompress n c = some data → n ≤ dst.length →
    data <+: z.decompressInto n dst c

/-- `get_compress_buf` and `get_decompress_buf`. -/
def getBuf (buf : List Byte) (size : Nat) : List Byte :=
  if buf.length < size then buf ++ List.replicate (size - buf.length) 0 else buf

theorem le_length_getBuf (buf : List Byte) (size : Nat) : size ≤ (getBuf buf size).length := by
  rw [getBuf]
  split
  · rw [List.length_append, List.length_replicate]
    omega
  · omega

/-- The packet of a chunk, and the scratch buffer afterwards. -/
def compressAndFrame (z : ZstdCalls) (level : Int) (compressBuf chunk : List Byte) :
    List Byte × List Byte :=
  let cSizeBound := z.compressBound chunk.length
  let compressBuf := z.compressInto level cSizeBound (getBuf compressBuf cSizeBound) chunk
  let asItIs := be 4 (bridgeFraming.header false chunk.length) ++ chunk
  match (z.zstd.compress level chunk).map List.length with
  | some cSize =>
      if cSize < chunk.length then
        (be 4 (bridgeFraming.header true cSize) ++ compressBuf.take cSize, compressBuf)
      else (asItIs, compressBuf)
  | none => (asItIs, compressBuf)

/-- The packets of the chunks that are read one after the other. -/
def packets (z : ZstdCalls) (level : Int) : List Byte → List (List Byte) → List (List Byte)
  | _, [] => []
  | compressBuf, chunk :: chunks =>
      let (packet, compressBuf) := compressAndFrame z level compressBuf chunk
      packet :: packets z level compressBuf chunks

/-- The bytes of a compressed body, and the scratch buffer afterwards; with `none` the bridge
stops. -/
def decompressBody (z : ZstdCalls) (decompressBuf body : List Byte) :
    Option (List Byte × List Byte) :=
  match z.zstd.contentSize body with
  | none => none
  | some decodedSize =>
      if decodedSize > bridgeFraming.maxDecoded then none
      else
        let decompressBuf := z.decompressInto decodedSize (getBuf decompressBuf decodedSize) body
        match (z.zstd.decompress decodedSize body).map List.length with
        | none => none
        | some dSize => some (decompressBuf.take dSize, decompressBuf)

variable {z : ZstdCalls} {level : Int}

/-- The packet does not depend on what was in the scratch buffer. -/
theorem compressAndFrame_fst (hz : z.Lawful) (compressBuf chunk : List Byte) :
    (compressAndFrame z level compressBuf chunk).1 =
      bridgeFraming.frame z.zstd true level chunk := by
  rw [compressAndFrame, Framing.frame_eq, payloadOf, if_pos rfl]
  cases hc : z.zstd.compress level chunk with
  | none => rfl
  | some c =>
      have hfront := hz.compressInto hc (le_length_getBuf compressBuf _)
      rw [List.prefix_iff_eq_take] at hfront
      simp only [Option.map_some, ← hfront]
      split <;> rfl

theorem packets_cons (hz : z.Lawful) (compressBuf chunk : List Byte) (chunks : List (List Byte)) :
    packets z level compressBuf (chunk :: chunks) = bridgeFraming.frame z.zstd true level chunk ::
      packets z level (compressAndFrame z level compressBuf chunk).2 chunks := by
  rw [← compressAndFrame_fst hz compressBuf chunk]
  rfl

theorem flatten_packets (hz : z.Lawful) (chunks : List (List Byte)) (compressBuf : List Byte) :
    (packets z level compressBuf chunks).flatten =
      Unframer.frames bridgeFraming z.zstd true level chunks := by
  induction chunks generalizing compressBuf with
  | nil => rfl
  | cons chunk chunks ih =>
      rw [packets_cons hz, List.flatten_cons, ih]
      rfl

/-- Nor does what is taken out of a body. -/
theorem decompressBody_fst (hz : z.Lawful) (decompressBuf body : List Byte) :
    (decompressBody z decompressBuf body).map Prod.fst =
      bridgeFraming.contents z.zstd true body := by
  rw [decompressBody, Framing.contents, if_pos rfl]
  cases z.zstd.contentSize body with
  | none => rfl
  | some decodedSize =>
      simp only
      split
      · rfl
      · cases hd : z.zstd.decompress decodedSize body with
        | none => rfl
        | some data =>
            have hfront := hz.decompressInto hd (le_length_getBuf decompressBuf _)
            rw [List.prefix_iff_eq_take] at hfront
            simp only [Option.map_some, ← hfront]

/-! ## Reading from segments -/

/-- A bridge that unframes and decompresses. What it has written to the raw socket is kept
write by write. -/
structure Decoder where
  /-- What of the work stream has still to arrive. -/
  segments : List (List Byte)
  stream : List Byte := []
  awaiting : Awaiting := .header
  decompressBuf : List Byte := []
  written : List (List Byte) := []
  deriving DecidableEq

namespace Decoder

inductive Event where
  /-- The next segment arrives. -/
  | arrive
  /-- The read of a header completes. -/
  | readHeader
  /-- The read of a body completes, and what is in it is written. -/
  | readBody
  deriving DecidableEq

def step (z : ZstdCalls) (d : Decoder) : Event → Option Decoder
  | .arrive =>
      match d.segments with
      | [] => none
      | segment :: segments => some { d with segments, stream := d.stream ++ segment }
  | .readHeader =>
      if d.awaiting = .header ∧ bridgeFraming.width ≤ d.stream.length then
        let (length, compressed) := bridgeFraming.splitHeader (d.stream.take bridgeFraming.width)
        let stream := d.stream.drop bridgeFraming.width
        if length > bridgeFraming.maxLength then some { d with stream, awaiting := .closed }
        else some { d with stream, awaiting := .payload length compressed }
      else none
  | .readBody =>
      match d.awaiting with
      | .payload length compressed =>
          if length ≤ d.stream.length then
            let body := d.stream.take length
            let stream := d.stream.drop length
            if compressed then
              match decompressBody z d.decompressBuf body with
              | none => some { d with stream, awaiting := .closed }
              | some (data, decompressBuf) =>
                  some { d with
                    stream, awaiting := .header, decompressBuf, written := d.written ++ [data] }
            else some { d with stream, awaiting := .header, written := d.written ++ [body] }
          else none
      | _ => none

/-- The frames that are to be read are those of `pending`, and of the first of them the header
may have been read. Everything before them has been written. -/
structure Aligned (z : Zstd) (level : Int) (chunks : List (List Byte)) (d : Decoder)
    (pending : List (List Byte)) : Prop where
  written : d.written ++ pending = chunks
  ahead : match d.awaiting with
    | .header =>
        d.stream ++ d.segments.flatten = Unframer.frames bridgeFraming z true level pending
    | .payload length compressed => ∃ chunk chunks payload, pending = chunk :: chunks ∧
        payloadOf z true level chunk = (compressed, payload) ∧ payload.length = length ∧
        d.stream ++ d.segments.flatten =
          payload ++ Unframer.frames bridgeFraming z true level chunks
    | .closed => False

/-- The steps that are left. -/
def remaining (d : Decoder) (pending : List (List Byte)) : Nat :=
  match d.awaiting with
  | .header => d.segments.length + 2 * pending.length
  | _ => d.segments.length + 2 * pending.length - 1

variable {chunks pending : List (List Byte)} {d d' : Decoder}

/-- What is read in full is the front of what is to come. -/
theorem take_drop_of_append_eq {a b x y : List Byte} (h : a ++ b = x ++ y)
    (hlen : x.length ≤ a.length) : a.take x.length = x ∧ a.drop x.length ++ b = y := by
  have hx : x <+: a :=
    List.prefix_of_prefix_length_le (h ▸ List.prefix_append x y) (List.prefix_append a b) hlen
  obtain ⟨rest, rfl⟩ := hx
  rw [List.append_assoc] at h
  exact ⟨List.take_left, by rw [List.drop_left, List.append_cancel_left h]⟩

theorem frames_cons (chunk : List Byte) (chunks : List (List Byte)) :
    Unframer.frames bridgeFraming z.zstd true level (chunk :: chunks) =
      bridgeFraming.frame z.zstd true level chunk ++
        Unframer.frames bridgeFraming z.zstd true level chunks := List.flatMap_cons

theorem Aligned.arrive (h : Aligned z.zstd level chunks d pending)
    (hstep : d.step z .arrive = some d') :
    Aligned z.zstd level chunks d' pending ∧ d'.remaining pending + 1 = d.remaining pending := by
  cases hsegments : d.segments with
  | nil =>
      simp only [step, hsegments] at hstep
      cases hstep
  | cons segment segments =>
      simp only [step, hsegments, Option.some.injEq] at hstep
      subst hstep
      have hbytes : d.stream ++ segment ++ segments.flatten = d.stream ++ d.segments.flatten := by
        rw [hsegments, List.flatten_cons, List.append_assoc]
      have hahead := h.ahead
      refine ⟨⟨h.written, ?_⟩, ?_⟩
      · simp only [hbytes]
        exact hahead
      · rw [remaining, remaining, hsegments]
        cases hawaiting : d.awaiting with
        | header =>
            simp only [List.length_cons]
            omega
        | closed =>
            rw [hawaiting] at hahead
            exact hahead.elim
        | payload length compressed =>
            rw [hawaiting] at hahead
            obtain ⟨chunk, chunks', payload, rfl, -⟩ := hahead
            simp only [List.length_cons]
            omega

/-- The header that is read is the one of the next frame, and it passes the test. -/
theorem Aligned.readHeader (h : Aligned z.zstd level chunks d pending)
    (hchunks : ∀ chunk ∈ chunks, chunk.length ≤ chunkSize)
    (hstep : d.step z .readHeader = some d') :
    Aligned z.zstd level chunks d' pending ∧ d'.remaining pending + 1 = d.remaining pending := by
  simp only [step, Option.ite_none_right_eq_some] at hstep
  obtain ⟨⟨hawaiting, hsize⟩, hstep⟩ := hstep
  have hahead := h.ahead
  rw [hawaiting] at hahead
  cases pending with
  | nil =>
      have hlen := congrArg List.length (show d.stream ++ d.segments.flatten = [] from hahead)
      have hwidth := bridgeFraming.width_pos
      rw [List.length_append, List.length_nil] at hlen
      omega
  | cons chunk pending =>
      have hchunk : chunk.length ≤ chunkSize := hchunks chunk <| by
        rw [← h.written]
        exact List.mem_append_right _ List.mem_cons_self
      have hcarries : bridgeFraming.Carries z.zstd true level chunk := carries_chunk hchunk
      have hbytes : d.stream ++ d.segments.flatten =
          be bridgeFraming.width (bridgeFraming.header (payloadOf z.zstd true level chunk).1
            (payloadOf z.zstd true level chunk).2.length) ++
          ((payloadOf z.zstd true level chunk).2 ++
            Unframer.frames bridgeFraming z.zstd true level pending) := by
        rw [show d.stream ++ _ = _ from hahead, frames_cons, Framing.frame_eq, List.append_assoc]
      obtain ⟨htake, hdrop⟩ := take_drop_of_append_eq hbytes (by rwa [length_be])
      rw [length_be] at htake hdrop
      rw [htake, Framing.splitHeader_be, Framing.header_flag _ hcarries.flag,
        Nat.mod_eq_of_lt hcarries.flag] at hstep
      simp only [if_neg (Nat.not_lt_of_le hcarries.length), Option.some.injEq] at hstep
      subst hstep
      refine ⟨⟨h.written, chunk, pending, _, rfl, rfl, rfl, hdrop⟩, ?_⟩
      rw [remaining, remaining, hawaiting]
      simp only [List.length_cons]
      omega

/-- The body that is read is the one of the next frame, and the chunk comes out of it. -/
theorem Aligned.readBody (hz : z.Lawful) (h : Aligned z.zstd level chunks d pending)
    (hchunks : ∀ chunk ∈ chunks, chunk.length ≤ chunkSize) (hstep : d.step z .readBody = some d') :
    ∃ chunk pending', pending = chunk :: pending' ∧ Aligned z.zstd level chunks d' pending' ∧
      d'.remaining pending' + 1 = d.remaining pending := by
  have hahead := h.ahead
  cases hawaiting : d.awaiting with
  | header =>
      simp only [step, hawaiting] at hstep
      cases hstep
  | closed =>
      rw [hawaiting] at hahead
      exact hahead.elim
  | payload length compressed =>
      rw [hawaiting] at hahead
      obtain ⟨chunk, pending, payload, rfl, hpayload, rfl, hbytes⟩ := hahead
      have hchunk : chunk.length ≤ chunkSize := hchunks chunk <| by
        rw [← h.written]
        exact List.mem_append_right _ List.mem_cons_self
      have hcarries : bridgeFraming.Carries z.zstd true level chunk := carries_chunk hchunk
      have hcontents : bridgeFraming.contents z.zstd compressed payload = some chunk := by
        -- what the sender framed, the receiver gets back
        have hback : bridgeFraming.contents z.zstd (payloadOf z.zstd true level chunk).1
            (payloadOf z.zstd true level chunk).2 = some chunk :=
          Framing.contents_payloadOf hz.zstd hcarries.decoded
        rwa [hpayload] at hback
      simp only [step, hawaiting, Option.ite_none_right_eq_some] at hstep
      obtain ⟨hsize, hstep⟩ := hstep
      obtain ⟨htake, hdrop⟩ := take_drop_of_append_eq hbytes hsize
      rw [htake] at hstep
      have hwritten : d.written ++ [chunk] ++ pending = chunks := by
        rw [List.append_assoc]
        exact h.written
      refine ⟨chunk, pending, rfl, ?_⟩
      cases compressed with
      | false =>
          obtain rfl : payload = chunk := Option.some.inj hcontents
          simp only [Bool.false_eq_true, if_false, Option.some.injEq] at hstep
          subst hstep
          refine ⟨⟨hwritten, hdrop⟩, ?_⟩
          rw [remaining, remaining, hawaiting]
          simp only [List.length_cons]
          omega
      | true =>
          rw [← decompressBody_fst hz d.decompressBuf, Option.map_eq_some_iff] at hcontents
          obtain ⟨r, hr, rfl⟩ := hcontents
          simp only [if_true, hr, Option.some.injEq] at hstep
          subst hstep
          refine ⟨⟨hwritten, hdrop⟩, ?_⟩
          rw [remaining, remaining, hawaiting]
          simp only [List.length_cons]
          omega

theorem Aligned.step (hz : z.Lawful) (h : Aligned z.zstd level chunks d pending)
    (hchunks : ∀ chunk ∈ chunks, chunk.length ≤ chunkSize) {e : Event}
    (hstep : d.step z e = some d') :
    ∃ pending', Aligned z.zstd level chunks d' pending' ∧
      d'.remaining pending' + 1 = d.remaining pending := by
  cases e with
  | arrive => exact ⟨pending, h.arrive hstep⟩
  | readHeader => exact ⟨pending, h.readHeader hchunks hstep⟩
  | readBody =>
      obtain ⟨chunk, pending', -, h'⟩ := h.readBody hz hchunks hstep
      exact ⟨pending', h'⟩

/-- Every step of a run is one of those that were left. -/
theorem Aligned.run (hz : z.Lawful) (hchunks : ∀ chunk ∈ chunks, chunk.length ≤ chunkSize)
    (es : List Event) : ∀ {d pending}, Aligned z.zstd level chunks d pending →
      runAll (Decoder.step z) d es = some d' →
      ∃ pending', Aligned z.zstd level chunks d' pending' ∧
        d'.remaining pending' + es.length = d.remaining pending := by
  induction es with
  | nil =>
      intro d pending h hrun
      obtain rfl := Option.some.inj hrun
      exact ⟨pending, h, rfl⟩
  | cons e es ih =>
      intro d pending h hrun
      rw [runAll, Option.bind_eq_some_iff] at hrun
      obtain ⟨d₁, hstep, hrest⟩ := hrun
      obtain ⟨pending₁, h₁, hleft₁⟩ := h.step hz hchunks hstep
      obtain ⟨pending', h', hleft⟩ := ih h₁ hrest
      refine ⟨pending', h', ?_⟩
      rw [List.length_cons]
      omega

/-- A read that all bytes are there for completes. -/
theorem readHeader_ne_none (hawaiting : d.awaiting = .header)
    (hsize : bridgeFraming.width ≤ d.stream.length) : d.step z .readHeader ≠ none := by
  simp only [Decoder.step, if_pos (And.intro hawaiting hsize)]
  split <;> simp

theorem readBody_ne_none {length : Nat} {compressed : Bool}
    (hawaiting : d.awaiting = .payload length compressed) (hsize : length ≤ d.stream.length) :
    d.step z .readBody ≠ none := by
  simp only [Decoder.step, hawaiting, if_pos hsize]
  split
  · split <;> simp
  · simp

/-- The reader rests only when nothing is to come. -/
theorem Aligned.done (h : Aligned z.zstd level chunks d pending) (hrest : ∀ e, d.step z e = none) :
    pending = [] ∧ d.awaiting = .header ∧ d.stream = [] ∧ d.segments = [] := by
  have hsegments : d.segments = [] := by
    have harrive := hrest .arrive
    cases hd : d.segments with
    | nil => rfl
    | cons segment segments =>
        simp only [Decoder.step, hd] at harrive
        cases harrive
  have hahead := h.ahead
  rw [hsegments, List.flatten_nil, List.append_nil] at hahead
  cases hawaiting : d.awaiting with
  | closed =>
      rw [hawaiting] at hahead
      exact hahead.elim
  | payload length compressed =>
      rw [hawaiting] at hahead
      obtain ⟨chunk, chunks', payload, -, -, rfl, hbytes⟩ := hahead
      refine absurd (hrest .readBody) (readBody_ne_none hawaiting ?_)
      rw [hbytes, List.length_append]
      exact Nat.le_add_right _ _
  | header =>
      rw [hawaiting] at hahead
      cases pending with
      | nil => exact ⟨rfl, rfl, hahead, hsegments⟩
      | cons chunk pending =>
          refine absurd (hrest .readHeader) (readHeader_ne_none hawaiting ?_)
          rw [show d.stream = _ from hahead, frames_cons, Framing.frame_eq, List.append_assoc,
            List.length_append, length_be]
          exact Nat.le_add_right _ _

def start (segments : List (List Byte)) (decompressBuf : List Byte) : Decoder :=
  { segments, decompressBuf }

theorem aligned_start {segments : List (List Byte)} (decompressBuf : List Byte)
    (h : segments.flatten = Unframer.frames bridgeFraming z.zstd true level chunks) :
    Aligned z.zstd level chunks (start segments decompressBuf) chunks := ⟨rfl, h⟩

end Decoder

/-- What the reader relies on in a packet: the length in the header is that of the body, leaves
the flag alone and passes the test; and the flag says what the body is. -/
structure FrameOf (z : Zstd) (level : Int) (chunk packet : List Byte) : Prop where
  length : (bridgeFraming.splitHeader (packet.take bridgeFraming.width)).1 =
    (packet.drop bridgeFraming.width).length
  noCollision : (packet.drop bridgeFraming.width).length < bridgeFraming.flag
  accepted : (packet.drop bridgeFraming.width).length ≤ bridgeFraming.maxLength
  compressed : (bridgeFraming.splitHeader (packet.take bridgeFraming.width)).2 = true →
    z.compress level chunk = some (packet.drop bridgeFraming.width) ∧
      (packet.drop bridgeFraming.width).length < chunk.length ∧
      z.contentSize (packet.drop bridgeFraming.width) = some chunk.length ∧
      chunk.length ≤ bridgeFraming.maxDecoded
  raw : (bridgeFraming.splitHeader (packet.take bridgeFraming.width)).2 = false →
    packet.drop bridgeFraming.width = chunk

theorem frameOf_frame (hz : z.zstd.Lawful) {chunk : List Byte} (hchunk : chunk.length ≤ chunkSize) :
    FrameOf z.zstd level chunk (bridgeFraming.frame z.zstd true level chunk) := by
  have hcarries : bridgeFraming.Carries z.zstd true level chunk := carries_chunk hchunk
  obtain ⟨htake, hdrop⟩ := Framing.take_drop_be (F := bridgeFraming)
    (bridgeFraming.header (payloadOf z.zstd true level chunk).1
      (payloadOf z.zstd true level chunk).2.length) (payloadOf z.zstd true level chunk).2
  have hsplit : bridgeFraming.splitHeader (be bridgeFraming.width (bridgeFraming.header
      (payloadOf z.zstd true level chunk).1 (payloadOf z.zstd true level chunk).2.length)) =
        ((payloadOf z.zstd true level chunk).2.length, (payloadOf z.zstd true level chunk).1) := by
    rw [Framing.splitHeader_be, Framing.header_flag _ hcarries.flag, Nat.mod_eq_of_lt hcarries.flag]
  rw [Framing.frame_eq]
  obtain ⟨c, -, hc, hlt, hpayload⟩ | hpayload := payloadOf_cases z.zstd true level chunk
  · refine ⟨?_, ?_, ?_, fun _ => ?_, fun hflag => ?_⟩
    · rw [htake, hdrop, hsplit]
    · rw [hdrop]
      exact hcarries.flag
    · rw [hdrop]
      exact hcarries.length
    · rw [hdrop, hpayload]
      exact ⟨hc, hlt, hz.contentSize hc, hcarries.decoded⟩
    · rw [htake, hsplit, hpayload] at hflag
      cases hflag
  · refine ⟨?_, ?_, ?_, fun hflag => ?_, fun _ => ?_⟩
    · rw [htake, hdrop, hsplit]
    · rw [hdrop]
      exact hcarries.flag
    · rw [hdrop]
      exact hcarries.length
    · rw [htake, hsplit, hpayload] at hflag
      cases hflag
    · rw [hdrop, hpayload]

theorem frameOf_packets (hz : z.Lawful) {chunks : List (List Byte)}
    (hchunks : ∀ chunk ∈ chunks, chunk.length ≤ chunkSize) (compressBuf : List Byte) :
    List.Forall₂ (FrameOf z.zstd level) chunks (packets z level compressBuf chunks) := by
  induction chunks generalizing compressBuf with
  | nil => exact List.Forall₂.nil
  | cons chunk chunks ih =>
      obtain ⟨hchunk, hchunks⟩ := List.forall_mem_cons.mp hchunks
      rw [packets_cons hz]
      exact List.Forall₂.cons (frameOf_frame hz.zstd hchunk) (ih hchunks _)

/-- **The chunks come through.** Whatever is in the scratch buffers and however the packets are
cut into segments: every packet is one the reader can read; a run of the reader writes the
chunks in order, knows at every moment where in the packets it is, and is over after so many
steps; and when there is nothing more to be done, all of the chunks have been written. -/
theorem chunks_through (hz : z.Lawful) (level : Int) (chunks : List (List Byte))
    (hchunks : ∀ chunk ∈ chunks, 1 ≤ chunk.length ∧ chunk.length ≤ chunkSize)
    (compressBuf decompressBuf : List Byte) (segments : List (List Byte))
    (hsegments : segments.flatten = (packets z level compressBuf chunks).flatten) :
    List.Forall₂ (FrameOf z.zstd level) chunks (packets z level compressBuf chunks) ∧
      ∀ es d, runAll (Decoder.step z) (Decoder.start segments decompressBuf) es = some d →
        (∃ pending, Decoder.Aligned z.zstd level chunks d pending) ∧
          d.written <+: chunks ∧ d.awaiting ≠ .closed ∧
          es.length ≤ segments.length + 2 * chunks.length ∧
          ((∀ e, d.step z e = none) →
            d.written = chunks ∧ d.awaiting = .header ∧ d.stream = [] ∧ d.segments = []) := by
  have hsize : ∀ chunk ∈ chunks, chunk.length ≤ chunkSize := fun chunk hchunk =>
    (hchunks chunk hchunk).2
  refine ⟨frameOf_packets hz hsize compressBuf, fun es d hrun => ?_⟩
  have hstart : Decoder.Aligned z.zstd level chunks (Decoder.start segments decompressBuf) chunks :=
    Decoder.aligned_start decompressBuf (hsegments.trans (flatten_packets hz chunks compressBuf))
  obtain ⟨pending, h, hleft⟩ := hstart.run hz hsize es hrun
  refine ⟨⟨pending, h⟩, ⟨pending, h.written⟩, fun hclosed => ?_, ?_, fun hrest => ?_⟩
  · have hahead := h.ahead
    rw [hclosed] at hahead
    exact hahead
  · show es.length ≤ (Decoder.start segments decompressBuf).remaining chunks
    omega
  · obtain ⟨rfl, hdone⟩ := h.done hrest
    have hwritten := h.written
    rw [List.append_nil] at hwritten
    exact ⟨hwritten, hdone⟩

/-! ## A library that writes its result and nothing else -/

/-- `ZSTD_COMPRESSBOUND`, and calls that leave the rest of the buffer as it was. -/
def ZstdCalls.plain (zstd : Zstd) : ZstdCalls where
  zstd := zstd
  compressBound n := n + n / 256 + if n < 131072 then (131072 - n) / 2048 else 0
  compressInto level _ dst src :=
    match zstd.compress level src with
    | some c => c ++ dst.drop c.length
    | none => dst
  decompressInto n dst src :=
    match zstd.decompress n src with
    | some data => data ++ dst.drop data.length
    | none => dst

theorem ZstdCalls.plain_lawful {zstd : Zstd} (hz : zstd.Lawful) : (plain zstd).Lawful where
  zstd := hz
  compressInto := by
    intro level data c dst hc _
    simp only [plain] at hc ⊢
    rw [hc]
    exact List.prefix_append _ _
  decompressInto := by
    intro n c data dst hd _
    simp only [plain] at hd ⊢
    rw [hd]
    exact List.prefix_append _ _

/-- A chunk as it is and one that becomes shorter, in five segments. -/
def smallSegments : List (List Byte) :=
  [[0, 0], [0, 3, 1], [2, 3, 0x80, 0, 0, 17, 0x28, 0xB5], ((Zstd.runFrame 5).drop 2).take 9,
    (Zstd.runFrame 5).drop 11]

theorem chunks_through_small :
    ∃ d, runAll (Decoder.step (ZstdCalls.plain Zstd.run)) (Decoder.start smallSegments [9, 9])
        [.arrive, .arrive, .readHeader, .arrive, .readBody, .readHeader, .arrive, .arrive,
          .readBody] = some d ∧
      d.written = [[1, 2, 3], List.replicate 24 5] := by
  have hrun : runAll (Decoder.step (ZstdCalls.plain Zstd.run))
      (Decoder.start smallSegments [9, 9])
      [.arrive, .arrive, .readHeader, .arrive, .readBody, .readHeader, .arrive, .arrive,
        .readBody] =
        some { segments := [], decompressBuf := List.replicate 24 5,
               written := [[1, 2, 3], List.replicate 24 5] } := by
    decide +kernel
  have hthrough := (chunks_through (ZstdCalls.plain_lawful Zstd.run_lawful) 1
    [[1, 2, 3], List.replicate 24 5] (by decide) [7] [9, 9] smallSegments
    (by decide +kernel)).2 _ _ hrun
  obtain ⟨-, -, -, -, hall⟩ := hthrough
  refine ⟨_, hrun, (hall fun e => ?_).1⟩
  cases e <;> rfl

end Cfrp.Bridge
