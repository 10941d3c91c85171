import Cfrp.Bridge.Framing
import Cfrp.Lib.Transition

/-!
# Datagrams on a work stream

The client's `UdpBridge` puts each datagram of its local socket into a frame, and the
server's takes it out again. The header is a `uint16_t`, so a payload of 32768 bytes or more
does not fit the length: its upper bit is taken for the flag, and the reader looks for the
next frame in the middle of this one. An empty payload is read only when something comes
behind it, so an empty datagram waits for the next one, and is lost if there is none. `fits`
is exactly when neither happens.
-/

namespace Cfrp.Bridge

open Lib

/-- The frames of `UdpBridge`: `DoReadFromLocal` writes them, `DoReadFromStream` reads them
into `read_buf_`. -/
def udpFraming : Framing where
  width := 2
  width_pos := by decide
  maxLength := 65535
  maxDecoded := 65535

/-- The size of the payload: that of the datagram, or of its compressed form if that is
smaller. -/
def sentLength (z : Zstd) (useCompression : Bool) (level : Int) (data : List Byte) : Nat :=
  if useCompression then
    match z.compress level data with
    | some compressed => min compressed.length data.length
    | none => data.length
  else data.length

/-- The payload leaves the flag alone, and there is one. -/
def fits (z : Zstd) (useCompression : Bool) (level : Int) (data : List Byte) : Bool :=
  0 < sentLength z useCompression level data && sentLength z useCompression level data ≤ 32767

variable {z : Zstd} {useCompression : Bool} {level : Int} {data : List Byte}

theorem sentLength_eq : sentLength z useCompression level data =
    (payloadOf z useCompression level data).2.length := by
  rw [sentLength, payloadOf]
  cases useCompression with
  | false => rfl
  | true =>
      cases z.compress level data with
      | none => rfl
      | some c =>
          by_cases hlt : c.length < data.length
          · simp [hlt, Nat.le_of_lt hlt]
          · simp [hlt, Nat.le_of_not_lt hlt]

theorem fits_iff : fits z useCompression level data = true ↔
    0 < (payloadOf z useCompression level data).2.length ∧
      (payloadOf z useCompression level data).2.length ≤ 32767 := by
  rw [fits, sentLength_eq, Bool.and_eq_true, decide_eq_true_eq, decide_eq_true_eq]

theorem carries_of_fits (hdata : data.length ≤ 65507)
    (h : fits z useCompression level data = true) :
    udpFraming.Carries z useCompression level data := by
  have hshort := (fits_iff.mp h).2
  refine ⟨?_, ?_, ?_⟩
  · show _ < 32768
    omega
  · show _ ≤ 65535
    omega
  · show _ ≤ 65535
    omega

/-- **Round trip of a datagram.** A datagram of at most 65507 bytes comes out of its frame,
and the stream is at the next frame then, exactly when it `fits`. -/
theorem udp_unframe_iff (hz : z.Lawful) (hdata : data.length ≤ 65507) :
    (∀ rest, udpFraming.unframe z (udpFraming.frame z useCompression level data ++ rest) =
      some (data, rest)) ↔ fits z useCompression level data = true := by
  refine ⟨fun hall => ?_, fun h rest =>
    (carries_of_fits hdata h).unframe hz (fits_iff.mp h).1 rest⟩
  have hnil := hall []
  rw [List.append_nil] at hnil
  rw [fits_iff]
  constructor
  · -- an empty payload is not read when nothing comes behind it
    rw [List.length_pos_iff]
    intro hempty
    rw [Framing.unframe_empty hempty] at hnil
    cases hnil
  -- one from 2^15 on is cut
  · by_contra hlong
    have hcut : udpFraming.flag ≤ (payloadOf z useCompression level data).2.length := by
      show 32768 ≤ _
      omega
    rw [Framing.frame_eq] at hnil
    exact Framing.unframe_cut hcut hnil

/-! ## The two loops -/

/-- The client's bridge and the server's, with the work stream between them. What the server
has got of it, it has sent to the user. The datagrams the client has received from its local
socket are history. -/
structure UdpTunnel where
  useCompression : Bool
  level : Int
  work : Unframer := {}
  received : List (List Byte) := []

namespace UdpTunnel

inductive Event where
  /-- The client receives a datagram and writes its frame. -/
  | datagram (data : List Byte)
  | readHeader
  | readPayload

def step (z : Zstd) (t : UdpTunnel) : Event → Option UdpTunnel
  | .datagram data =>
      some { t with
        work := t.work.write (udpFraming.frame z t.useCompression t.level data)
        received := t.received ++ [data] }
  | .readHeader => (t.work.readHeader udpFraming).map fun work => { t with work }
  | .readPayload => (t.work.readPayload udpFraming z).map fun work => { t with work }

/-- A datagram of UDP that fits its frame. -/
def Fitting (z : Zstd) (t : UdpTunnel) : Event → Prop
  | .datagram data => data.length ≤ 65507 ∧ fits z t.useCompression t.level data = true
  | _ => True

/-- What was received is what the server has sent and what is still on the stream, frame by
frame. -/
structure InStep (z : Zstd) (t : UdpTunnel) (pending : List (List Byte)) : Prop where
  received : t.received = t.work.got ++ pending
  work : t.work.InStep udpFraming z t.useCompression t.level pending
  fits : ∀ data ∈ pending, fits z t.useCompression t.level data = true
  payload : ∀ length compressed, t.work.awaiting = .payload length compressed → 0 < length

/-- One of the server's reads completes. -/
def Reads (z : Zstd) (t : UdpTunnel) : Prop :=
  (t.step z .readHeader).isSome ∨ (t.step z .readPayload).isSome

variable {t t' : UdpTunnel} {pending : List (List Byte)}

theorem inStep_step (hz : z.Lawful) {e : Event} (h : InStep z t pending) (hok : t.Fitting z e)
    (hstep : t.step z e = some t') : ∃ pending', InStep z t' pending' := by
  cases e with
  | datagram data =>
      obtain rfl := Option.some.inj hstep
      refine ⟨pending ++ [data], ?_, h.work.write (carries_of_fits hok.1 hok.2), ?_, h.payload⟩
      · show t.received ++ [data] = t.work.got ++ (pending ++ [data])
        rw [h.received, List.append_assoc]
      · intro d hd
        rcases List.mem_append.mp hd with hd | hd
        · exact h.fits d hd
        · exact List.mem_singleton.mp hd ▸ hok.2
  | readHeader =>
      obtain ⟨work, hread, rfl⟩ := Option.map_eq_some_iff.mp hstep
      obtain ⟨hwork', hgot, data, hdata, hawaiting⟩ := h.work.readHeader hz hread
      refine ⟨pending, ?_, hwork', h.fits, fun length compressed heq => ?_⟩
      · show t.received = work.got ++ pending
        rw [h.received, hgot]
      · obtain ⟨rfl, -⟩ := Awaiting.payload.inj (hawaiting.symm.trans heq)
        exact (fits_iff.mp (h.fits data hdata)).1
  | readPayload =>
      obtain ⟨work, hread, rfl⟩ := Option.map_eq_some_iff.mp hstep
      obtain ⟨data, ds, rfl, hwork', hgot, hheader⟩ := h.work.readPayload hread
      refine ⟨ds, ?_, hwork', fun d hd => h.fits d (List.mem_cons_of_mem _ hd), ?_⟩
      · show t.received = work.got ++ ds
        rw [h.received, hgot, List.append_assoc]
        rfl
      · -- the next read is that of a header
        intro length compressed heq
        rw [show work.awaiting = .header from hheader] at heq
        cases heq

/-- **In step.** As long as the datagrams fit, every run of the two loops keeps to the
frames. -/
theorem inStep_of_reach (hz : z.Lawful)
    (h : Reach (step z) (Fitting z) { useCompression, level } t) : ∃ pending, InStep z t pending :=
  h.invariant (P := fun t => ∃ pending, InStep z t pending)
    ⟨[], rfl, Unframer.inStep_nil .., fun _ hd => (by cases hd), fun _ _ heq => (by cases heq)⟩
    fun _ _ _ ⟨_, hinv⟩ hok hstep => inStep_step hz hinv hok hstep

/-- The server goes on reading until it has got all there is. -/
theorem InStep.reads (h : InStep z t pending) (hne : pending ≠ []) : t.Reads z := by
  cases hawaiting : t.work.awaiting with
  | header =>
      refine Or.inl ?_
      rw [step, Option.isSome_map]
      exact h.work.header_isSome hawaiting hne
  | payload length compressed =>
      -- a payload of a byte or more is read without anything behind it
      have hpos := h.payload length compressed hawaiting
      obtain ⟨data, ds, -, hlen, hdata, -⟩ := h.work.payload hawaiting
      refine Or.inr ?_
      have hneeded : Framing.needed length ≤ t.work.stream.length := Nat.max_le.mpr ⟨by omega, hlen⟩
      rw [step, Option.isSome_map, Unframer.readPayload, hawaiting]
      simp only [if_pos hneeded, hdata, Option.isSome_some]
  | closed =>
      have hstream := h.work.stream
      rw [hawaiting] at hstream
      exact hstream.elim

end UdpTunnel

/-! ## Results -/

/-- **Datagrams on a work stream.** A datagram comes out of its frame and leaves the stream
at the next one exactly when it `fits`; and in every run in which the datagrams do, the
server sends the user those the client has received, in their order, what it has not
sent is on the stream in whole frames, and it goes on reading until it has sent them all. -/
theorem udp_roundTrip (hz : z.Lawful) (useCompression : Bool) (level : Int) :
    (∀ data : List Byte, data.length ≤ 65507 →
      ((∀ rest, udpFraming.unframe z (udpFraming.frame z useCompression level data ++ rest) =
        some (data, rest)) ↔ fits z useCompression level data = true)) ∧
    ∀ t, Reach (UdpTunnel.step z) (UdpTunnel.Fitting z) { useCompression, level } t →
      ∃ pending, t.InStep z pending ∧ (pending ≠ [] → t.Reads z) := by
  refine ⟨fun _ hdata => udp_unframe_iff hz hdata, fun t h => ?_⟩
  obtain ⟨pending, hin⟩ := UdpTunnel.inStep_of_reach hz h
  exact ⟨pending, hin, hin.reads⟩

/-- Three bytes, which zstd does not make smaller. -/
theorem udp_roundTrip_short :
    udpFraming.frame Zstd.raw true 1 [97, 98, 99] = [0, 3, 97, 98, 99] ∧
    udpFraming.unframe Zstd.raw (udpFraming.frame Zstd.raw true 1 [97, 98, 99] ++ [0]) =
      some ([97, 98, 99], [0]) := by
  have hlaw := (udp_roundTrip Zstd.raw_lawful true 1).1 [97, 98, 99] (by decide)
  exact ⟨by decide, hlaw.mpr (by decide) [0]⟩

/-- A datagram of 32768 bytes does not come out of its frame. -/
theorem udp_not_roundTrip :
    ¬∀ data : List Byte, data.length ≤ 65507 → ∀ rest,
      udpFraming.unframe Zstd.raw (udpFraming.frame Zstd.raw false 1 data ++ rest) =
        some (data, rest) := by
  intro hall
  have hlen : (List.replicate 32768 (0 : Byte)).length = 32768 := List.length_replicate
  have hfits := (udp_unframe_iff Zstd.raw_lawful (by omega)).mp
    (hall (List.replicate 32768 0) (by omega))
  rw [fits, show sentLength Zstd.raw false 1 (List.replicate 32768 0) = 32768 from hlen] at hfits
  cases hfits

end Cfrp.Bridge
