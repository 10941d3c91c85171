import Cfrp.Lib.BigEndian
import Cfrp.Protocol.Messages
import Mathlib.Data.Nat.Bitwise

/-!
# Compression

zstd is a library the bridges call. It is a parameter of the model, and `Lawful` is what is
relied on: what was compressed is decompressed to itself, and the frame records its size.
Every call gives `ZSTD_compress` a buffer of `ZSTD_compressBound` bytes.

The bridges put a flag for it into the top bit of a length: `low_flag` and the lemmas next
to it say what becomes of the two.
-/

namespace Cfrp.Bridge

open Lib

structure Zstd where
  /-- `ZSTD_compressCCtx`, at a level; `none` is an error. -/
  compress : Int → List Byte → Option (List Byte)
  /-- `ZSTD_getFrameContentSize`; `none` is an error or an unknown size. -/
  contentSize : List Byte → Option Nat
  /-- `ZSTD_decompressDCtx` into a buffer of this size. -/
  decompress : Nat → List Byte → Option (List Byte)

structure Zstd.Lawful (z : Zstd) : Prop where
  contentSize : ∀ {level data c}, z.compress level data = some c →
    z.contentSize c = some data.length
  decompress : ∀ {level data c}, z.compress level data = some c →
    z.decompress data.length c = some data

/-! ## One raw block -/

namespace Zstd

/-- The frame around one raw block: the magic number, a descriptor, one byte of content
size, and the header of the last block. -/
def rawFront (n : Nat) : List Byte :=
  [0x28, 0xB5, 0x2F, 0xFD, 0x20, UInt8.ofNat n, UInt8.ofNat (8 * n + 1), UInt8.ofNat (n / 32), 0]

/-- The part of zstd that is exercised by short strings without a repetition: they become
one raw block. -/
def raw : Zstd where
  compress _ data := if data.length < 256 then some (rawFront data.length ++ data) else none
  contentSize z := if z.length < 9 then none else (z[5]?).map UInt8.toNat
  decompress n z := if (z.drop 9).length = n then some (z.drop 9) else none

theorem raw_lawful : raw.Lawful := by
  have hshape : ∀ {level data c}, raw.compress level data = some c →
      data.length < 256 ∧ c = rawFront data.length ++ data := by
    intro level data c hc
    have hif : (if data.length < 256 then some (rawFront data.length ++ data) else none) =
        some c := hc
    rw [Option.ite_none_right_eq_some] at hif
    exact ⟨hif.1, (Option.some.inj hif.2).symm⟩
  constructor
  · intro level data c hc
    obtain ⟨hlt, rfl⟩ := hshape hc
    show (if (rawFront data.length ++ data).length < 9 then none else
      some (UInt8.ofNat data.length).toNat) = _
    have hlen : ¬(rawFront data.length ++ data).length < 9 := by
      rw [List.length_append, show (rawFront data.length).length = 9 from rfl]
      omega
    rw [if_neg hlen, UInt8.toNat_ofNat', Nat.mod_eq_of_lt hlt]
  · intro level data c hc
    obtain ⟨-, rfl⟩ := hshape hc
    show (if data.length = data.length then some data else none) = some data
    rw [if_pos rfl]

/-! ## A run of one byte -/

/-- Twenty-four times one byte, as zstd writes it: two literals and one match. -/
def runFrame (b : Byte) : List Byte :=
  [0x28, 0xB5, 0x2F, 0xFD, 0x20, 24, 69, 0, 0, 16, b, b, 1, 0, 10, 192, 2]

/-- `raw`, with a string that becomes shorter. -/
def run : Zstd where
  compress level data :=
    if data = List.replicate 24 (data.headD 0) then some (runFrame (data.headD 0))
    else raw.compress level data
  contentSize := raw.contentSize
  decompress n z :=
    -- The low bits of the block header are the type of the block.
    if z[6]? = some 69 then
      if n = 24 then (z[10]?).map (List.replicate 24) else none
    else raw.decompress n z

theorem run_lawful : run.Lawful := by
  have hshape : ∀ {level data c}, run.compress level data = some c →
      (∃ b, data = List.replicate 24 b ∧ c = runFrame b) ∨ raw.compress level data = some c := by
    intro level data c hc
    have hif : (if data = List.replicate 24 (data.headD 0) then some (runFrame (data.headD 0))
        else raw.compress level data) = some c := hc
    split at hif
    · rename_i heq
      exact Or.inl ⟨_, heq, (Option.some.inj hif).symm⟩
    · exact Or.inr hif
  constructor
  · intro level data c hc
    obtain ⟨b, rfl, rfl⟩ | hraw := hshape hc
    · rfl
    · exact raw_lawful.contentSize hraw
  · intro level data z hz
    obtain ⟨b, rfl, rfl⟩ | hraw := hshape hz
    · rfl
    · have htype : ¬z[6]? = some 69 := by
        have hif : (if data.length < 256 then some (rawFront data.length ++ data) else none) =
            some z := hraw
        rw [Option.ite_none_right_eq_some] at hif
        obtain ⟨-, hz⟩ := hif
        rw [← Option.some.inj hz]
        show ¬some (UInt8.ofNat (8 * data.length + 1)) = some 69
        intro heq
        have hmod := congrArg UInt8.toNat (Option.some.inj heq)
        rw [UInt8.toNat_ofNat'] at hmod
        have hnumber : (69 : UInt8).toNat = 69 := rfl
        omega
      show (if z[6]? = some 69 then _ else _) = _
      rw [if_neg htype]
      exact raw_lawful.decompress hraw

end Zstd

/-! ## A flag in the top bit -/

/-- The length below the flag. -/
theorem low_flag (k n : Nat) : (n ||| 2 ^ k) % 2 ^ k = n % 2 ^ k := by
  rw [Nat.or_mod_two_pow, Nat.mod_self, Nat.or_zero]

theorem and_flag_eq_zero {k n : Nat} (h : n < 2 ^ k) : n &&& 2 ^ k = 0 := by
  rw [Nat.and_two_pow, Nat.testBit_lt_two_pow h]
  simp

theorem and_flag_ne_zero (k n : Nat) : (n ||| 2 ^ k) &&& 2 ^ k ≠ 0 := by
  rw [Nat.and_two_pow, Nat.testBit_or, Nat.testBit_two_pow_self]
  simp

end Cfrp.Bridge
