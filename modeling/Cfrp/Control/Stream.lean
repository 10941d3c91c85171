import Cfrp.Control.Message

/-!
# One direction of a control stream

Both ends read in the same way and differ in what ends the reading: the server stops at a
message it cannot make sense of, the client only logs it. So there is one `readBody`, which is
told what becomes of the reader after a message.

What has been handled is a first part of what has been sent. How long it is depends on the
first message the reader refuses, and `Inv` says that nothing but such a message, a handler or
the stream itself ends the reading.
-/

namespace Cfrp.Control

open Lib Bridge Protocol

/-- Why a reader has stopped. -/
inductive Ending where
  /-- The stream is closed or broken. -/
  | failed
  /-- A packet is too long, or does not decompress. -/
  | refused
  /-- `Decode` or a handler threw. -/
  | threw
  deriving DecidableEq

structure Direction where
  stream : PacketStream Bool Byte := {}
  ended : Option Ending := none
  /-- The messages passed to `SendMessage` so far. -/
  sent : List RawMessage := []
  /-- The messages passed to `HandleMessage` so far. -/
  handled : List RawMessage := []

namespace Direction

/-- `SendMessage`. -/
def send (z : Zstd) (compression : Bool) (level : Int) (m : RawMessage) (d : Direction) :
    Direction :=
  { d with
    stream := d.stream.write controlFramer (packetOf z compression level m)
    sent := d.sent ++ [m] }

def arrive (n : Nat) (d : Direction) : Direction := { d with stream := d.stream.arrive n }

/-- The reader goes on, or it does not. -/
def stopIf (ending : Option Ending) (d : Direction) : Direction :=
  match ending with
  | none => d
  | some _ => { d with stream := d.stream.close, ended := ending }

/-- A read fails. -/
def fail (d : Direction) : Option Direction :=
  match d.stream.wanted with
  | .closed => none
  | _ => some (d.stopIf (some .failed))

/-- `DoReadHeader`. -/
def readHeader (d : Direction) : Option Direction :=
  (d.stream.nextHeader controlFramer).map fun (compressed, length) =>
    if length > controlFraming.maxLength then d.stopIf (some .refused)
    else { d with stream := d.stream.afterHeader controlFramer compressed length }

/-- `DoReadBody`: the message that is handled, if there is one. `onEmpty` and `after` tell what
becomes of the reader after no bytes at all and after a message. -/
def readBody (z : Zstd) (onEmpty : Option Ending) (after : RawMessage → Option Ending)
    (d : Direction) : Option (Option RawMessage × Direction) :=
  d.stream.nextPayload.map fun p =>
    let d := { d with stream := d.stream.afterPayload p }
    match controlFraming.contents z p.tag p.payload with
    | none => (none, d.stopIf (some .refused))
    | some data =>
        match RawMessage.decode data with
        | none => (none, d.stopIf onEmpty)
        | some m => (some m, { d with handled := d.handled ++ [m] }.stopIf (after m))

/-- The reader refuses this packet with this message in it. -/
def Refuses (p : Packet Bool Byte) (m : RawMessage) : Prop :=
  controlFraming.maxLength < p.payload.length ∨
    p.tag = true ∧ controlFraming.maxDecoded < m.encode.length

instance (p : Packet Bool Byte) (m : RawMessage) : Decidable (Refuses p m) :=
  inferInstanceAs (Decidable (_ ∨ _ ∧ _))

/-- The packet of message number `i` is refused. -/
def RefusedAt (d : Direction) (i : Nat) : Prop :=
  ∃ p m, d.stream.written[i]? = some p ∧ d.sent[i]? = some m ∧ Refuses p m

/-- No packet is longer than a header can tell. -/
def Short (d : Direction) : Prop :=
  ∀ p ∈ d.stream.written, p.payload.length < controlFraming.flag

instance (d : Direction) : Decidable d.Short :=
  inferInstanceAs (Decidable (∀ p ∈ d.stream.written, p.payload.length < controlFraming.flag))

/-- What the packets of a direction say, and how far the reader has got. -/
structure Inv (z : Zstd) (d : Direction) : Prop where
  carries : List.Forall₂ (Carries z) d.sent d.stream.written
  inStep : ∃ pending, d.stream.InStep controlFramer pending
  closed : d.stream.wanted = .closed ↔ d.ended ≠ none
  wanted : ∀ {compressed length}, d.stream.wanted = .payload compressed length →
    length ≤ controlFraming.maxLength
  /-- The reader took the packets of the messages that were handled, and one more if it
  refused what was in it. -/
  taken : d.ended ≠ some .refused → d.stream.taken.length = d.handled.length
  handled : d.handled <+: d.sent
  accepted : ∀ i < d.handled.length, ¬d.RefusedAt i
  refused : d.ended = some .refused → d.RefusedAt d.handled.length

variable {z : Zstd} {d d' : Direction}

theorem inv_new (z : Zstd) : Inv z {} where
  carries := List.Forall₂.nil
  inStep := ⟨[], PacketStream.inStep_new⟩
  closed := by simp
  wanted h := by cases h
  taken _ := rfl
  handled := List.nil_prefix
  accepted i h := absurd h (Nat.not_lt_zero i)
  refused h := by cases h

/-! ## What reading leaves alone -/

theorem stopIf_same (ending : Option Ending) (d : Direction) :
    (d.stopIf ending).sent = d.sent ∧ (d.stopIf ending).stream.written = d.stream.written ∧
      (d.stopIf ending).handled = d.handled := by
  cases ending with
  | none => exact ⟨rfl, rfl, rfl⟩
  | some e => exact ⟨rfl, rfl, rfl⟩

theorem fail_same (h : d.fail = some d') :
    d'.sent = d.sent ∧ d'.stream.written = d.stream.written ∧ d'.handled = d.handled := by
  rw [fail] at h
  split at h
  · cases h
  · rw [← Option.some.inj h]
    exact stopIf_same _ d

theorem readHeader_same (h : d.readHeader = some d') :
    d'.sent = d.sent ∧ d'.stream.written = d.stream.written ∧ d'.handled = d.handled := by
  rw [readHeader, Option.map_eq_some_iff] at h
  obtain ⟨⟨compressed, length⟩, -, rfl⟩ := h
  simp only
  split
  · exact stopIf_same _ d
  · exact ⟨rfl, rfl, rfl⟩

theorem readBody_same {onEmpty : Option Ending} {after : RawMessage → Option Ending}
    {m? : Option RawMessage} (h : d.readBody z onEmpty after = some (m?, d')) :
    d'.sent = d.sent ∧ d'.stream.written = d.stream.written ∧
      d'.handled = d.handled ++ m?.toList := by
  rw [readBody, Option.map_eq_some_iff] at h
  obtain ⟨p, -, h⟩ := h
  simp only at h
  split at h
  · obtain ⟨rfl, rfl⟩ := Prod.mk.inj h
    rw [Option.toList_none, List.append_nil]
    exact stopIf_same _ { d with stream := d.stream.afterPayload p }
  · split at h
    · obtain ⟨rfl, rfl⟩ := Prod.mk.inj h
      rw [Option.toList_none, List.append_nil]
      exact stopIf_same _ { d with stream := d.stream.afterPayload p }
    · rename_i m _
      obtain ⟨rfl, rfl⟩ := Prod.mk.inj h
      exact stopIf_same _
        { d with stream := d.stream.afterPayload p, handled := d.handled ++ [m] }

theorem fail_ended (h : d.fail = some d') : d'.ended = some .failed := by
  rw [fail] at h
  split at h
  · cases h
  · rw [← Option.some.inj h]
    rfl

theorem readHeader_ended (h : d.readHeader = some d') :
    d'.ended = d.ended ∨ d'.ended = some .refused := by
  rw [readHeader, Option.map_eq_some_iff] at h
  obtain ⟨⟨compressed, length⟩, -, rfl⟩ := h
  simp only
  split
  · exact Or.inr rfl
  · exact Or.inl rfl

/-! ## The next message -/

theorem Short.mono (h : d'.Short) {more : List (Packet Bool Byte)}
    (hwritten : d'.stream.written = d.stream.written ++ more) : d.Short := fun p hp =>
  h p (hwritten ▸ List.mem_append_left _ hp)

theorem Short.of_eq (h : d'.Short) (hwritten : d'.stream.written = d.stream.written) : d.Short :=
  h.mono (hwritten.trans (List.append_nil _).symm)

/-- One packet more does not change what becomes of those before it. -/
theorem refusedAt_append {p : Packet Bool Byte} {m : RawMessage} {i : Nat}
    (hwritten : d'.stream.written = d.stream.written ++ [p]) (hsent : d'.sent = d.sent ++ [m])
    (hlen : d.sent.length = d.stream.written.length) (hi : i < d.sent.length) :
    d'.RefusedAt i ↔ d.RefusedAt i := by
  unfold RefusedAt
  rw [hwritten, hsent, List.getElem?_append_left hi, List.getElem?_append_left (hlen ▸ hi)]

theorem RefusedAt.lt {i : Nat} (h : d.RefusedAt i) : i < d.sent.length := by
  obtain ⟨_, _, _, hm, _⟩ := h
  exact (List.getElem?_eq_some_iff.mp hm).1

/-- The packet of the next message, when the reader is still reading. -/
theorem Inv.next (h : Inv z d) {p : Packet Bool Byte} {rest : List (Packet Bool Byte)}
    (hwritten : d.stream.written = d.stream.taken ++ p :: rest) (hopen : d.ended = none) :
    ∃ m, d.stream.written[d.handled.length]? = some p ∧ d.sent[d.handled.length]? = some m ∧
      Carries z m p := by
  have htaken := h.taken (by simp [hopen])
  have hp : d.stream.written[d.handled.length]? = some p := by
    rw [hwritten, ← htaken, List.getElem?_append_right (Nat.le_refl _), Nat.sub_self]
    rfl
  have hlt := (List.getElem?_eq_some_iff.mp hp).1
  rw [← h.carries.length_eq] at hlt
  refine ⟨d.sent[d.handled.length], hp, List.getElem?_eq_getElem hlt, ?_⟩
  obtain ⟨hlt', rfl⟩ := List.getElem?_eq_some_iff.mp hp
  exact h.carries.get hlt hlt'

theorem Inv.ended_eq_none (h : Inv z d) (hopen : d.stream.wanted ≠ .closed) : d.ended = none := by
  by_contra hended
  exact hopen (h.closed.mpr hended)

/-! ## One step -/

theorem Inv.send (h : Inv z d) {compression : Bool} {level : Int} {m : RawMessage}
    (hm : (packetOf z compression level m).payload.length < controlFraming.flag) :
    Inv z (d.send z compression level m) := by
  have hlen := h.carries.length_eq
  have hhandled := h.handled.length_le
  have hsame : ∀ {i}, i < d.sent.length →
      ((d.send z compression level m).RefusedAt i ↔ d.RefusedAt i) := fun hi =>
    refusedAt_append rfl rfl hlen hi
  refine ⟨?_, ?_, h.closed, h.wanted, h.taken, h.handled.trans (List.prefix_append _ _),
    fun i hi => ?_, fun hended => ?_⟩
  · exact List.rel_append h.carries
      (List.Forall₂.cons (carries_packetOf z compression level m) List.Forall₂.nil)
  · obtain ⟨pending, hpending⟩ := h.inStep
    exact ⟨_, hpending.write hm⟩
  · have hi : i < d.handled.length := hi
    rw [hsame (by omega)]
    exact h.accepted i hi
  · have hrefused := h.refused hended
    exact (hsame hrefused.lt).mpr hrefused

theorem Inv.arrive (h : Inv z d) (n : Nat) : Inv z (d.arrive n) := by
  obtain ⟨pending, hpending⟩ := h.inStep
  exact ⟨h.carries, ⟨pending, hpending.arrive n⟩, h.closed, h.wanted, h.taken, h.handled,
    h.accepted, h.refused⟩

/-- Stopping for another reason than a message that is refused. -/
theorem Inv.stopIf (h : Inv z d) {ending : Option Ending} (hending : ending ≠ some .refused)
    (hopen : d.ended = none) : Inv z (d.stopIf ending) := by
  cases ending with
  | none => exact h
  | some e =>
      obtain ⟨pending, hpending⟩ := h.inStep
      refine ⟨h.carries, ⟨pending, hpending.close⟩, ?_, ?_, ?_, h.handled, h.accepted, ?_⟩
      · simp [Direction.stopIf, PacketStream.close]
      · intro compressed length hw
        cases hw
      · exact fun _ => h.taken (by simp [hopen])
      · exact fun hended => absurd hended hending

theorem Inv.fail (h : Inv z d) (hfail : d.fail = some d') : Inv z d' := by
  rw [Direction.fail] at hfail
  split at hfail
  · cases hfail
  · rename_i hwanted
    obtain rfl := Option.some.inj hfail
    exact h.stopIf (by decide) (h.ended_eq_none hwanted)

theorem Inv.readHeader (h : Inv z d) (hread : d.readHeader = some d') : Inv z d' := by
  rw [Direction.readHeader, Option.map_eq_some_iff] at hread
  obtain ⟨⟨compressed, length⟩, hnext, rfl⟩ := hread
  obtain ⟨pending, hpending⟩ := h.inStep
  have hopen : d.ended = none := by
    refine h.ended_eq_none fun hclosed => ?_
    simp [PacketStream.nextHeader, hclosed] at hnext
  obtain ⟨p, rest, rfl, rfl, rfl, hafter⟩ := hpending.nextHeader hnext
  by_cases hmax : p.payload.length > controlFraming.maxLength
  · simp only [if_pos hmax]
    obtain ⟨m, hp, hm, -⟩ := h.next hpending.written hopen
    refine ⟨h.carries, ⟨_, hpending.close⟩, ?_, ?_, ?_, h.handled, h.accepted, ?_⟩
    · simp [Direction.stopIf, PacketStream.close]
    · intro compressed length hw
      cases hw
    · exact fun hended => absurd rfl hended
    · exact fun _ => ⟨p, m, hp, hm, Or.inl hmax⟩
  · simp only [if_neg hmax]
    refine ⟨h.carries, ⟨_, hafter⟩, ?_, ?_, h.taken, h.handled, h.accepted, h.refused⟩
    · simp [PacketStream.afterHeader, hopen]
    · intro compressed length hw
      cases hw
      omega

/-- A message was handled that is not refused. -/
theorem Inv.handle (h : Inv z d) {p : Packet Bool Byte} {m : RawMessage}
    {rest : List (Packet Bool Byte)} (hopen : d.ended = none)
    (hafter : (d.stream.afterPayload p).InStep controlFramer rest)
    (hp : d.stream.written[d.handled.length]? = some p)
    (hm : d.sent[d.handled.length]? = some m) (haccepted : ¬Refuses p m) :
    Inv z { d with stream := d.stream.afterPayload p, handled := d.handled ++ [m] } where
  carries := h.carries
  inStep := ⟨rest, hafter⟩
  closed := by simp [PacketStream.afterPayload, hopen]
  wanted hw := by cases hw
  taken _ := by
    have htaken := h.taken (by simp [hopen])
    simp [PacketStream.afterPayload, htaken]
  handled := by
    obtain ⟨t, ht⟩ := h.handled
    rw [← ht, List.getElem?_append_right (Nat.le_refl _), Nat.sub_self] at hm
    obtain ⟨t', rfl⟩ : ∃ t', t = m :: t' := by
      cases t with
      | nil => cases hm
      | cons a t' => exact ⟨t', by rw [Option.some.inj hm]⟩
    exact ⟨t', by rw [← ht, List.append_assoc, List.singleton_append]⟩
  accepted i hi := by
    rw [List.length_append, List.length_singleton] at hi
    rcases Nat.lt_or_ge i d.handled.length with hlt | hge
    · exact h.accepted i hlt
    · obtain rfl : i = d.handled.length := by omega
      rintro ⟨p', m', hp', hm', hrefuses⟩
      obtain rfl : p = p' := Option.some.inj (hp.symm.trans hp')
      obtain rfl : m = m' := Option.some.inj (hm.symm.trans hm')
      exact haccepted hrefuses
  refused hended := by
    rw [show d.ended = _ from hended] at hopen
    cases hopen

/-- A body that is read is that of the next message, which is handled or refused. -/
theorem Inv.readBody (hz : z.Lawful) (h : Inv z d) {onEmpty : Option Ending}
    {after : RawMessage → Option Ending} (hafter : ∀ m, after m ≠ some .refused)
    {m? : Option RawMessage} (hread : d.readBody z onEmpty after = some (m?, d')) :
    Inv z d' ∧ d'.ended = m?.elim (some .refused) after := by
  rw [Direction.readBody, Option.map_eq_some_iff] at hread
  obtain ⟨p, hnext, hread⟩ := hread
  have hwanted := PacketStream.wanted_of_nextPayload hnext
  have hmax := h.wanted hwanted
  have hopen : d.ended = none := h.ended_eq_none (by simp [hwanted])
  obtain ⟨pending, hpending⟩ := h.inStep
  obtain ⟨rest, rfl, hstep⟩ := hpending.nextPayload hnext
  obtain ⟨m, hp, hm, hcarries⟩ := h.next hpending.written hopen
  simp only [hcarries.contents hz] at hread
  by_cases hlong : p.tag ∧ controlFraming.maxDecoded < m.encode.length
  · simp only [if_pos hlong, Prod.mk.injEq] at hread
    obtain ⟨rfl, rfl⟩ := hread
    refine ⟨⟨h.carries, ⟨rest, hstep.close⟩, ?_, ?_, ?_, h.handled, h.accepted, ?_⟩, rfl⟩
    · simp [Direction.stopIf, PacketStream.close]
    · intro compressed length hw
      cases hw
    · exact fun hended => absurd rfl hended
    · exact fun _ => ⟨p, m, hp, hm, Or.inr hlong⟩
  · simp only [if_neg hlong, RawMessage.decode_encode, Prod.mk.injEq] at hread
    obtain ⟨rfl, rfl⟩ := hread
    have hhandle := h.handle hopen hstep hp hm fun hrefuses =>
      hrefuses.elim (fun hgt => absurd hgt (by omega)) hlong
    refine ⟨hhandle.stopIf (hafter m) hopen, ?_⟩
    simp only [Option.elim_some]
    cases after m with
    | none => exact hopen
    | some e => rfl

/-- **A reader that rests has handled everything**, unless it has stopped. -/
theorem Inv.rest (h : Inv z d) (hflight : d.stream.inFlight = [])
    (hheader : d.readHeader = none) (hpayload : d.stream.nextPayload = none)
    (hopen : d.ended = none) : d.handled = d.sent := by
  obtain ⟨pending, hpending⟩ := h.inStep
  have hnext : d.stream.nextHeader controlFramer = none := Option.map_eq_none_iff.mp hheader
  have hwanted : d.stream.wanted ≠ .closed := fun hw => absurd hopen (h.closed.mp hw)
  obtain ⟨htaken, -⟩ := hpending.rest hflight hnext hpayload hwanted
  refine h.handled.eq_of_length ?_
  rw [← h.taken (by simp [hopen]), htaken, h.carries.length_eq]

end Direction

end Cfrp.Control
