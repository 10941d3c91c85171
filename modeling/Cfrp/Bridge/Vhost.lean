import Cfrp.Bridge.Framing
import Cfrp.Lib.Transition

/-!
# The first bytes of a vhost connection

`DoVhostAccept` reads the first bytes of a user to find out where the connection goes, and
`HandleNewMuxStream` writes them to the work stream itself before it starts the `Bridge`. It
always puts four bytes of header in front. A `Bridge` with compression takes them for the
header of a frame; a `Bridge` without passes them on to the local service, uninitialised as
they are.
-/

namespace Cfrp.Bridge

open Lib

/-- The frames of `Bridge`. -/
def bridgeFraming : Framing where
  width := 4
  width_pos := by decide
  maxLength := 1048576
  maxDecoded := 16777216

/-- The size of the buffers that `Bridge` reads into. -/
def chunkSize : Nat := 32768

/-- The packet of `HandleNewMuxStream`. `finalHeader` is what `final_header` holds when it
was not assigned. -/
def initialPacket (z : Zstd) (useCompression : Bool) (finalHeader initial : List Byte) :
    List Byte :=
  if initial.isEmpty then []
  else if useCompression then bridgeFraming.frame z true 1 initial
  else finalHeader ++ initial

/-- The work stream between the server's `Bridge` and the client's. What the client has got
of it, it has written to the local service. What the server's has read from the user is
history. -/
structure VhostTunnel where
  useCompression : Bool
  work : Unframer
  userRead : List Byte := []

variable {z : Zstd} {finalHeader initial : List Byte}

/-- What a `Bridge` reads fits a frame. -/
theorem carries_chunk {level : Int} {chunk : List Byte} (h : chunk.length ≤ chunkSize) :
    bridgeFraming.Carries z true level chunk := by
  have hle := length_payloadOf z true level chunk
  have hsize : chunkSize = 32768 := rfl
  refine ⟨?_, ?_, ?_⟩
  · show _ < 2147483648
    omega
  · show _ ≤ 1048576
    omega
  · show _ ≤ 16777216
    omega

namespace VhostTunnel

def start (z : Zstd) (useCompression : Bool) (finalHeader initial : List Byte) : VhostTunnel where
  useCompression := useCompression
  work := { stream := initialPacket z useCompression finalHeader initial }

inductive Event where
  /-- The server's `Bridge` reads from the user and writes to the work stream. -/
  | user (chunk : List Byte)
  /-- The client's `Bridge` reads so many bytes and passes them through. -/
  | passThrough (n : Nat)
  | readHeader
  | readPayload

def step (z : Zstd) (t : VhostTunnel) : Event → Option VhostTunnel
  | .user chunk =>
      if 0 < chunk.length ∧ chunk.length ≤ chunkSize then
        some { t with
          work := t.work.write
            (if t.useCompression then bridgeFraming.frame z true 1 chunk else chunk)
          userRead := t.userRead ++ chunk }
      else none
  | .passThrough n =>
      if t.useCompression = false ∧ 0 < n ∧ n ≤ chunkSize ∧ n ≤ t.work.stream.length then
        some { t with
          work := { t.work with
            stream := t.work.stream.drop n
            got := t.work.got ++ [t.work.stream.take n] } }
      else none
  | .readHeader =>
      if t.useCompression then
        (t.work.readHeader bridgeFraming).map fun work => { t with work }
      else none
  | .readPayload =>
      if t.useCompression then
        (t.work.readPayload bridgeFraming z).map fun work => { t with work }
      else none

/-- The local service gets the first bytes and then what the user sent later. -/
structure FirstBytes (initial : List Byte) (t : VhostTunnel) : Prop where
  isPrefix : t.work.got.flatten <+: initial ++ t.userRead
  all : t.work.stream = [] → t.work.awaiting = .header →
    t.work.got.flatten = initial ++ t.userRead

variable {t t' : VhostTunnel}

/-! ## With compression -/

/-- The first bytes are one frame and the later ones are frames as well. -/
def Framed (z : Zstd) (initial : List Byte) (t : VhostTunnel) : Prop :=
  t.useCompression = true ∧ ∃ pending,
    initial ++ t.userRead = t.work.got.flatten ++ pending.flatten ∧
    t.work.InStep bridgeFraming z true 1 pending ∧ ∀ data ∈ pending, 0 < data.length

theorem framed_start (h : initial.length ≤ 4096) :
    Framed z initial (start z true finalHeader initial) := by
  have hnil := Unframer.inStep_nil bridgeFraming z true 1
  refine ⟨rfl, ?_⟩
  cases initial with
  | nil => exact ⟨[], rfl, hnil, fun _ hd => by cases hd⟩
  | cons b bs =>
      have hcarries : bridgeFraming.Carries z true 1 (b :: bs) :=
        carries_chunk (Nat.le_trans h (by decide))
      have hframe := hnil.write hcarries
      refine ⟨[b :: bs], rfl, hframe, fun data hd => ?_⟩
      rw [List.mem_singleton.mp hd]
      exact Nat.succ_pos _

theorem framed_step (hz : z.Lawful) {e : Event} (h : Framed z initial t)
    (hstep : t.step z e = some t') : Framed z initial t' := by
  obtain ⟨hflag, pending, hbytes, hwork, hpos⟩ := h
  cases e with
  | user chunk =>
      rw [step, Option.ite_none_right_eq_some] at hstep
      obtain ⟨⟨hchunk, hsize⟩, hstep⟩ := hstep
      obtain rfl := Option.some.inj hstep
      refine ⟨hflag, pending ++ [chunk], ?_, ?_, ?_⟩
      · show initial ++ (t.userRead ++ chunk) = t.work.got.flatten ++ (pending ++ [chunk]).flatten
        rw [← List.append_assoc, hbytes, List.flatten_append, List.append_assoc]
        simp
      · simp only [hflag, if_true]
        exact hwork.write (carries_chunk hsize)
      · intro data hd
        rcases List.mem_append.mp hd with hd | hd
        · exact hpos data hd
        · exact List.mem_singleton.mp hd ▸ hchunk
  | passThrough n =>
      rw [step, Option.ite_none_right_eq_some, hflag] at hstep
      cases hstep.1.1
  | readHeader =>
      rw [step, if_pos hflag] at hstep
      obtain ⟨work, hread, rfl⟩ := Option.map_eq_some_iff.mp hstep
      obtain ⟨hwork', hgot, -⟩ := hwork.readHeader hz hread
      refine ⟨hflag, pending, ?_, hwork', hpos⟩
      show initial ++ t.userRead = work.got.flatten ++ _
      rw [hgot, hbytes]
  | readPayload =>
      rw [step, if_pos hflag] at hstep
      obtain ⟨work, hread, rfl⟩ := Option.map_eq_some_iff.mp hstep
      obtain ⟨data, ds, rfl, hwork', hgot, -⟩ := hwork.readPayload hread
      refine ⟨hflag, ds, ?_, hwork', fun d hd => hpos d (List.mem_cons_of_mem _ hd)⟩
      show initial ++ t.userRead = work.got.flatten ++ _
      rw [hgot, hbytes, List.flatten_append, List.flatten_cons, List.append_assoc]
      simp

theorem Framed.firstBytes (h : Framed z initial t) : FirstBytes initial t := by
  obtain ⟨-, pending, hbytes, hwork, hpos⟩ := h
  refine ⟨by rw [hbytes]; exact List.prefix_append _ _, fun hnil hheader => ?_⟩
  have hstream := hwork.stream
  rw [hheader, hnil] at hstream
  rw [hbytes]
  cases pending with
  | nil => simp
  | cons data ds =>
      -- a frame is not empty
      have hlen := congrArg List.length hstream
      rw [Unframer.frames, List.flatMap_cons, Framing.frame_eq, List.length_nil, List.length_append,
        List.length_append, length_be] at hlen
      have hwidth := bridgeFraming.width_pos
      omega

/-! ## Without -/

/-- What is passed on is what was read, and nothing else was put on the stream. -/
def Passed (t : VhostTunnel) : Prop :=
  t.useCompression = false ∧ t.work.got.flatten ++ t.work.stream = t.userRead

theorem passed_step {e : Event} (h : Passed t) (hstep : t.step z e = some t') : Passed t' := by
  obtain ⟨hflag, hbytes⟩ := h
  cases e with
  | user chunk =>
      rw [step, Option.ite_none_right_eq_some] at hstep
      obtain rfl := Option.some.inj hstep.2
      refine ⟨hflag, ?_⟩
      simp only [hflag, Bool.false_eq_true, if_false]
      show t.work.got.flatten ++ (t.work.stream ++ chunk) = t.userRead ++ chunk
      rw [← List.append_assoc, hbytes]
  | passThrough n =>
      rw [step, Option.ite_none_right_eq_some] at hstep
      obtain rfl := Option.some.inj hstep.2
      refine ⟨hflag, ?_⟩
      show (t.work.got ++ [t.work.stream.take n]).flatten ++ t.work.stream.drop n = t.userRead
      rw [List.flatten_append, List.flatten_singleton, List.append_assoc, List.take_append_drop,
        hbytes]
  | readHeader =>
      rw [step, hflag] at hstep
      cases hstep
  | readPayload =>
      rw [step, hflag] at hstep
      cases hstep

theorem Passed.firstBytes (h : Passed t) : FirstBytes [] t := by
  refine ⟨⟨t.work.stream, h.2⟩, fun hnil _ => ?_⟩
  have hbytes := h.2
  rw [hnil, List.append_nil] at hbytes
  exact hbytes

/-- One read takes all there is, when that is not too much. -/
theorem step_passThrough (z : Zstd) (hflag : t.useCompression = false)
    (hpos : 0 < t.work.stream.length) (hsize : t.work.stream.length ≤ chunkSize) :
    t.step z (.passThrough t.work.stream.length) =
      some { t with
        work := { t.work with stream := [], got := t.work.got ++ [t.work.stream] } } := by
  rw [step, if_pos ⟨hflag, hpos, hsize, Nat.le_refl _⟩, List.take_length, List.drop_length]

/-- The header goes to the service. -/
theorem passes_header (hheader : finalHeader.length = 4) (hsize : initial.length ≤ 4096)
    (hne : initial ≠ []) : ∃ t, Reach (step z) anyStep (start z false finalHeader initial) t ∧
      ¬FirstBytes initial t := by
  have hpacket : (start z false finalHeader initial).work.stream = finalHeader ++ initial := by
    cases initial with
    | nil => exact absurd rfl hne
    | cons b bs => rfl
  have hlen : (start z false finalHeader initial).work.stream.length = initial.length + 4 := by
    rw [hpacket, List.length_append, hheader, Nat.add_comm]
  have hchunk : chunkSize = 32768 := rfl
  have hstep := step_passThrough (t := start z false finalHeader initial) z rfl
    (by omega) (by omega)
  refine ⟨_, Reach.init.next _ trivial hstep, fun hfirst => ?_⟩
  -- four bytes too many
  have hle := hfirst.isPrefix.length_le
  have hgot : ((start z false finalHeader initial).work.got ++
      [(start z false finalHeader initial).work.stream]).flatten.length = initial.length + 4 := by
    show [(start z false finalHeader initial).work.stream].flatten.length = _
    rw [List.flatten_singleton, hlen]
  have hread : (start z false finalHeader initial).userRead = [] := rfl
  rw [hgot, hread, List.append_nil] at hle
  omega

end VhostTunnel

open VhostTunnel in
/-- **The first bytes of a vhost connection.** With the first bytes of a user and whatever
the user sends later, the local service gets just these bytes in every run exactly when the
work stream is compressed, or when there were no first bytes. -/
theorem vhost_firstBytes (hz : z.Lawful) (hheader : finalHeader.length = 4)
    (hsize : initial.length ≤ 4096) (useCompression : Bool) :
    (∀ t, Reach (step z) anyStep (start z useCompression finalHeader initial) t →
      FirstBytes initial t) ↔ useCompression = true ∨ initial = [] := by
  constructor
  · intro hall
    cases useCompression with
    | true => exact Or.inl rfl
    | false =>
        by_contra hne
        rw [not_or] at hne
        obtain ⟨t, ht, hnot⟩ := passes_header (z := z) hheader hsize hne.2
        exact hnot (hall t ht)
  · rintro hwhen t ht
    cases useCompression with
    | true =>
        have hframed : Framed z initial t :=
          ht.invariant (framed_start hsize) fun _ _ _ hinv _ hstep => framed_step hz hinv hstep
        exact hframed.firstBytes
    | false =>
        rcases hwhen with hflag | rfl
        · cases hflag
        · have hpassed : Passed t :=
            ht.invariant ⟨rfl, rfl⟩ fun _ _ _ hinv _ hstep => passed_step hinv hstep
          exact hpassed.firstBytes

open VhostTunnel in
/-- `GET` over a compressed work stream, and a byte after it. -/
theorem vhost_firstBytes_compressed :
    ∃ t, Reach (step Zstd.raw) anyStep (start Zstd.raw true [0, 0, 0, 0] [71, 69, 84]) t ∧
      t.work.got = [[71, 69, 84], [32]] ∧ FirstBytes [71, 69, 84] t := by
  obtain ⟨t, ht, hgot⟩ := exists_of_runAll (step Zstd.raw)
    [.readHeader, .user [32], .readPayload, .readHeader, .readPayload] (fun t => t.work.got)
    (s := start Zstd.raw true [0, 0, 0, 0] [71, 69, 84]) (a := [[71, 69, 84], [32]])
    (by decide)
  exact ⟨t, ht, hgot, (vhost_firstBytes Zstd.raw_lawful rfl (by decide) true).mpr (Or.inl rfl) t ht⟩

open VhostTunnel in
/-- Without compression the service gets the header first. -/
theorem vhost_header_first :
    ¬∀ (useCompression : Bool) (initial : List Byte), initial.length ≤ 4096 →
      ∀ t, Reach (step Zstd.raw) anyStep (start Zstd.raw useCompression [0, 0, 0, 12] initial) t →
        FirstBytes initial t := by
  intro hall
  obtain ⟨t, ht, hnot⟩ :
      ∃ t, Reach (step Zstd.raw) anyStep (start Zstd.raw false [0, 0, 0, 12] [71, 69, 84]) t ∧
        ¬FirstBytes [71, 69, 84] t := passes_header rfl (by decide) (by decide)
  exact hnot (hall false _ (by decide) t ht)

end Cfrp.Bridge
