import Mathlib.Data.List.Basic

/-!
# Packets on a stream

A writer puts packets on a stream of symbols, each a header of a fixed width and a payload
whose length the header tells. The stream keeps the order and nothing else: symbols arrive
in portions that have nothing to do with the packets. The reader waits for a header and then
for as many symbols as it announces, and it may refuse an announcement.

`written` and `taken` are history. `InStep` ties them to the symbols between the two ends;
every operation keeps it, so what was taken is always a first part of what was written.
-/

namespace Cfrp.Lib

universe u v

/-- A payload, and what its header tells beside the length. -/
structure Packet (κ : Type u) (β : Type v) where
  tag : κ
  payload : List β
  deriving DecidableEq

/-- How a header is written and read. It holds the lengths below `limit`. -/
structure Framer (κ : Type u) (β : Type v) where
  width : Nat
  width_pos : 0 < width
  limit : Nat
  header : κ → Nat → List β
  split : List β → κ × Nat
  length_header : ∀ tag n, (header tag n).length = width
  split_header : ∀ tag {n}, n < limit → split (header tag n) = (tag, n)

/-- The symbols of a packet. -/
def Framer.bytes {κ : Type u} {β : Type v} (F : Framer κ β) (p : Packet κ β) : List β :=
  F.header p.tag p.payload.length ++ p.payload

/-- What the reader waits for. -/
inductive Wanted (κ : Type u) where
  | header
  | payload (tag : κ) (length : Nat)
  /-- It does not read any more. -/
  | closed
  deriving DecidableEq

structure PacketStream (κ : Type u) (β : Type v) where
  inFlight : List β := []
  arrived : List β := []
  wanted : Wanted κ := .header
  written : List (Packet κ β) := []
  taken : List (Packet κ β) := []

namespace PacketStream

variable {κ : Type u} {β : Type v} (F : Framer κ β)

def write (s : PacketStream κ β) (p : Packet κ β) : PacketStream κ β :=
  { s with inFlight := s.inFlight ++ F.bytes p, written := s.written ++ [p] }

/-- The next symbols arrive, at most `n` of them. -/
def arrive (s : PacketStream κ β) (n : Nat) : PacketStream κ β :=
  { s with inFlight := s.inFlight.drop n, arrived := s.arrived ++ s.inFlight.take n }

def close (s : PacketStream κ β) : PacketStream κ β := { s with wanted := .closed }

/-- A header that was waited for, and what is behind it. -/
def nextHeader (s : PacketStream κ β) : Option (κ × Nat) :=
  match s.wanted with
  | .header =>
      if F.width ≤ s.arrived.length then some (F.split (s.arrived.take F.width)) else none
  | _ => none

/-- The reader has a header and goes on to the payload. -/
def afterHeader (s : PacketStream κ β) (tag : κ) (length : Nat) : PacketStream κ β :=
  { s with arrived := s.arrived.drop F.width, wanted := .payload tag length }

/-- A payload that was waited for. -/
def nextPayload (s : PacketStream κ β) : Option (Packet κ β) :=
  match s.wanted with
  | .payload tag length =>
      if length ≤ s.arrived.length then some ⟨tag, s.arrived.take length⟩ else none
  | _ => none

/-- The reader has a payload and goes on to the next header. -/
def afterPayload (s : PacketStream κ β) (p : Packet κ β) : PacketStream κ β :=
  { s with
    arrived := s.arrived.drop p.payload.length, wanted := .header, taken := s.taken ++ [p] }

/-- The symbols ahead of a reader that has still to take `pending`. -/
def Ahead (symbols : List β) (pending : List (Packet κ β)) : Wanted κ → Prop
  | .header => symbols = pending.flatMap F.bytes
  | .payload tag length => ∃ p rest, pending = p :: rest ∧ p.tag = tag ∧
      p.payload.length = length ∧ symbols = p.payload ++ rest.flatMap F.bytes
  | .closed => True

structure InStep (s : PacketStream κ β) (pending : List (Packet κ β)) : Prop where
  written : s.written = s.taken ++ pending
  short : ∀ p ∈ s.written, p.payload.length < F.limit
  ahead : Ahead F (s.arrived ++ s.inFlight) pending s.wanted

variable {F} {s : PacketStream κ β} {pending : List (Packet κ β)}

theorem inStep_new : InStep F {} [] := ⟨rfl, fun _ h => absurd h List.not_mem_nil, rfl⟩

theorem flatMap_bytes_concat (ps : List (Packet κ β)) (p : Packet κ β) :
    (ps ++ [p]).flatMap F.bytes = ps.flatMap F.bytes ++ F.bytes p := by
  rw [List.flatMap_append, List.flatMap_singleton]

theorem InStep.write (h : InStep F s pending) {p : Packet κ β} (hp : p.payload.length < F.limit) :
    InStep F (s.write F p) (pending ++ [p]) where
  written := by
    show s.written ++ [p] = s.taken ++ (pending ++ [p])
    rw [h.written, List.append_assoc]
  short q hq := by
    rcases List.mem_append.mp hq with hq | hq
    · exact h.short q hq
    · exact List.mem_singleton.mp hq ▸ hp
  ahead := by
    have hat := h.ahead
    show Ahead F (s.arrived ++ (s.inFlight ++ F.bytes p)) (pending ++ [p]) s.wanted
    cases hw : s.wanted with
    | header =>
        rw [hw] at hat
        show s.arrived ++ (s.inFlight ++ F.bytes p) = _
        rw [← List.append_assoc, show s.arrived ++ s.inFlight = _ from hat, flatMap_bytes_concat]
    | payload tag length =>
        rw [hw] at hat
        obtain ⟨q, rest, rfl, htag, hlen, hbytes⟩ := hat
        refine ⟨q, rest ++ [p], rfl, htag, hlen, ?_⟩
        rw [← List.append_assoc, hbytes, flatMap_bytes_concat, List.append_assoc]
    | closed => trivial

theorem InStep.arrive (h : InStep F s pending) (n : Nat) : InStep F (s.arrive n) pending where
  written := h.written
  short := h.short
  ahead := by
    have hsame : (s.arrive n).arrived ++ (s.arrive n).inFlight = s.arrived ++ s.inFlight := by
      show (s.arrived ++ s.inFlight.take n) ++ s.inFlight.drop n = _
      rw [List.append_assoc, List.take_append_drop]
    rw [hsame]
    exact h.ahead

theorem InStep.close (h : InStep F s pending) : InStep F s.close pending :=
  ⟨h.written, h.short, trivial⟩

/-- A header that is read is that of the next packet. -/
theorem InStep.nextHeader (h : InStep F s pending) {tag : κ} {length : Nat}
    (hnext : s.nextHeader F = some (tag, length)) :
    ∃ p rest, pending = p :: rest ∧ p.tag = tag ∧ p.payload.length = length ∧
      InStep F (s.afterHeader F tag length) pending := by
  have hheader : s.wanted = .header := by
    rw [PacketStream.nextHeader] at hnext
    cases hw : s.wanted with
    | header => rfl
    | payload tag length => simp [hw] at hnext
    | closed => simp [hw] at hnext
  simp only [PacketStream.nextHeader, hheader, Option.ite_none_right_eq_some] at hnext
  obtain ⟨hsize, hnext⟩ := hnext
  have hat := h.ahead
  rw [hheader] at hat
  cases pending with
  | nil =>
      have hlen := congrArg List.length (show s.arrived ++ s.inFlight = [] from hat)
      have hwidth := F.width_pos
      rw [List.length_append, List.length_nil] at hlen
      omega
  | cons p rest =>
      have hp : p.payload.length < F.limit := by
        refine h.short p ?_
        rw [h.written]
        exact List.mem_append_right _ List.mem_cons_self
      have hbytes : s.arrived ++ s.inFlight =
          F.header p.tag p.payload.length ++ (p.payload ++ rest.flatMap F.bytes) := by
        rw [show s.arrived ++ s.inFlight = _ from hat, List.flatMap_cons, Framer.bytes,
          List.append_assoc]
      have hlen := F.length_header p.tag p.payload.length
      have htake : s.arrived.take F.width = F.header p.tag p.payload.length := by
        have hfirst : (s.arrived ++ s.inFlight).take F.width = s.arrived.take F.width :=
          List.take_append_of_le_length hsize
        rw [← hfirst, hbytes, ← hlen, List.take_left]
      have hdrop : s.arrived.drop F.width ++ s.inFlight =
          p.payload ++ rest.flatMap F.bytes := by
        rw [← List.drop_append_of_le_length hsize, hbytes, ← hlen, List.drop_left]
      rw [htake, F.split_header p.tag hp] at hnext
      obtain ⟨rfl, rfl⟩ := Prod.mk.inj (Option.some.inj hnext)
      exact ⟨p, rest, rfl, rfl, rfl, h.written, h.short, p, rest, rfl, rfl, rfl, hdrop⟩

theorem wanted_of_nextPayload {p : Packet κ β} (h : s.nextPayload = some p) :
    s.wanted = .payload p.tag p.payload.length := by
  rw [PacketStream.nextPayload] at h
  cases hw : s.wanted with
  | header => simp [hw] at h
  | closed => simp [hw] at h
  | payload tag length =>
      simp only [hw, Option.ite_none_right_eq_some, Option.some.injEq] at h
      obtain ⟨hsize, rfl⟩ := h
      rw [List.length_take, Nat.min_eq_left hsize]

/-- A payload that is read is the next packet. -/
theorem InStep.nextPayload (h : InStep F s pending) {p : Packet κ β}
    (hnext : s.nextPayload = some p) :
    ∃ rest, pending = p :: rest ∧ InStep F (s.afterPayload p) rest := by
  have hat := h.ahead
  rw [PacketStream.nextPayload] at hnext
  cases hw : s.wanted with
  | header => simp [hw] at hnext
  | closed => simp [hw] at hnext
  | payload tag length =>
      rw [hw] at hat
      simp only [hw, Option.ite_none_right_eq_some, Option.some.injEq] at hnext
      obtain ⟨hsize, rfl⟩ := hnext
      obtain ⟨q, rest, rfl, rfl, rfl, hbytes⟩ := hat
      have htake : s.arrived.take q.payload.length = q.payload := by
        have hfirst : (s.arrived ++ s.inFlight).take q.payload.length =
            s.arrived.take q.payload.length := List.take_append_of_le_length hsize
        rw [← hfirst, hbytes, List.take_left]
      have hdrop : s.arrived.drop q.payload.length ++ s.inFlight = rest.flatMap F.bytes := by
        rw [← List.drop_append_of_le_length hsize, hbytes, List.drop_left]
      have hq : (⟨q.tag, s.arrived.take q.payload.length⟩ : Packet κ β) = q := by rw [htake]
      refine ⟨rest, by rw [hq], ?_⟩
      rw [hq]
      refine ⟨?_, h.short, hdrop⟩
      show s.written = (s.taken ++ [q]) ++ rest
      rw [h.written, List.append_assoc, List.singleton_append]

/-- **A reader that rests has taken everything.** When all symbols have arrived and neither a
header nor a payload is there to be read, nothing was left unread, unless it stopped reading. -/
theorem InStep.rest (h : InStep F s pending) (hflight : s.inFlight = [])
    (hheader : s.nextHeader F = none) (hpayload : s.nextPayload = none)
    (hopen : s.wanted ≠ .closed) : s.taken = s.written ∧ s.wanted = .header := by
  have hat := h.ahead
  rw [hflight, List.append_nil] at hat
  cases hw : s.wanted with
  | closed => exact absurd hw hopen
  | payload tag length =>
      rw [hw] at hat
      obtain ⟨p, rest, -, -, rfl, hbytes⟩ := hat
      rw [PacketStream.nextPayload, hw] at hpayload
      simp only [hbytes, List.length_append, Nat.le_add_right, if_true] at hpayload
      cases hpayload
  | header =>
      rw [hw] at hat
      cases pending with
      | nil => exact ⟨by rw [h.written, List.append_nil], rfl⟩
      | cons p rest =>
          have hsize : F.width ≤ s.arrived.length := by
            rw [show s.arrived = _ from hat, List.flatMap_cons, Framer.bytes, List.append_assoc, List.length_append,
              F.length_header]
            exact Nat.le_add_right _ _
          simp only [PacketStream.nextHeader, hw, if_pos hsize] at hheader
          cases hheader

end PacketStream

end Cfrp.Lib
