import Mathlib.Algebra.GroupWithZero.Nat
import Mathlib.Data.List.Basic

/-!
# Numbers in network byte order

`be k n` writes the last `k` bytes of `n`, the highest first, and `ofBE` reads a number
back. `ofBE_be` is the round trip of the numbers that fit, `be_ofBE` that of the bytes.
-/

namespace Cfrp.Lib

def be : Nat → Nat → List UInt8
  | 0, _ => []
  | k + 1, n => UInt8.ofNat (n >>> (k * 8)) :: be k n

def ofBE (l : List UInt8) : Nat := l.foldl (fun n b => n <<< 8 ||| b.toNat) 0

@[simp] theorem length_be (k n : Nat) : (be k n).length = k := by
  induction k with
  | zero => rfl
  | succ k ih => rw [be, List.length_cons, ih]

theorem shiftLeft_or (n : Nat) (b : UInt8) : n <<< 8 ||| b.toNat = n * 256 + b.toNat := by
  rw [← Nat.shiftLeft_add_eq_or_of_lt b.toNat_lt, Nat.shiftLeft_eq]

theorem shiftRight_byte (n k : Nat) : (UInt8.ofNat (n >>> (k * 8))).toNat = n / 256 ^ k % 256 := by
  have hpow : 2 ^ (k * 8) = 256 ^ k := by
    rw [Nat.mul_comm, Nat.pow_mul]
  rw [UInt8.toNat_ofNat', Nat.shiftRight_eq_div_pow, hpow]

theorem foldl_be (k n acc : Nat) :
    (be k n).foldl (fun n b => n <<< 8 ||| b.toNat) acc = acc * 256 ^ k + n % 256 ^ k := by
  induction k generalizing acc with
  | zero => simp [be, Nat.mod_one]
  | succ k ih =>
      have hsplit : n % 256 ^ (k + 1) = n / 256 ^ k % 256 * 256 ^ k + n % 256 ^ k := by
        rw [Nat.pow_succ, Nat.mod_mul, Nat.mul_comm (256 ^ k), Nat.add_comm]
      rw [be, List.foldl_cons, ih, shiftLeft_or, shiftRight_byte, hsplit, Nat.pow_succ,
        Nat.add_mul, Nat.mul_assoc, Nat.mul_comm 256 (256 ^ k), Nat.add_assoc]

theorem ofBE_be {k n : Nat} (h : n < 256 ^ k) : ofBE (be k n) = n := by
  rw [ofBE, foldl_be, Nat.zero_mul, Nat.zero_add, Nat.mod_eq_of_lt h]

theorem foldl_eq (l : List UInt8) (acc : Nat) :
    l.foldl (fun n b => n <<< 8 ||| b.toNat) acc = acc * 256 ^ l.length + ofBE l := by
  induction l generalizing acc with
  | nil => simp [ofBE]
  | cons b l ih =>
      have hone : ofBE (b :: l) = b.toNat * 256 ^ l.length + ofBE l := by
        rw [ofBE, List.foldl_cons, Nat.zero_shiftLeft, Nat.zero_or, ih]
      rw [List.foldl_cons, ih, hone, shiftLeft_or, List.length_cons, Nat.pow_succ, Nat.add_mul,
        Nat.mul_assoc, Nat.mul_comm 256, Nat.add_assoc]

theorem ofBE_cons (b : UInt8) (l : List UInt8) :
    ofBE (b :: l) = b.toNat * 256 ^ l.length + ofBE l := by
  rw [ofBE, List.foldl_cons, foldl_eq, Nat.zero_shiftLeft, Nat.zero_or]

theorem ofBE_lt (l : List UInt8) : ofBE l < 256 ^ l.length := by
  induction l with
  | nil => decide
  | cons b l ih =>
      have hb := b.toNat_lt
      have hmul : b.toNat * 256 ^ l.length ≤ 255 * 256 ^ l.length :=
        Nat.mul_le_mul_right _ (by omega)
      rw [ofBE_cons, List.length_cons, Nat.pow_succ]
      omega

/-- Only the last bytes of a number are written. -/
theorem be_add_mul (k n m : Nat) : be k (m * 256 ^ k + n) = be k n := by
  have hbyte : ∀ j < k, UInt8.ofNat ((m * 256 ^ k + n) >>> (j * 8)) =
      UInt8.ofNat (n >>> (j * 8)) := by
    intro j hj
    obtain ⟨d, rfl⟩ : ∃ d, k = j + 1 + d := ⟨k - (j + 1), by omega⟩
    apply UInt8.toNat.inj
    have hsplit : m * 256 ^ (j + 1 + d) + n = 256 ^ j * (256 * (m * 256 ^ d)) + n := by
      rw [Nat.pow_add, Nat.pow_succ]
      ac_rfl
    rw [shiftRight_byte, shiftRight_byte, hsplit, Nat.mul_add_div (Nat.pow_pos (by omega)),
      Nat.mul_add_mod]
  have hbe : ∀ j ≤ k, be j (m * 256 ^ k + n) = be j n := by
    intro j
    induction j with
    | zero => exact fun _ => rfl
    | succ j ih =>
        intro hj
        rw [be, be, hbyte j (by omega), ih (by omega)]
  exact hbe k (Nat.le_refl k)

theorem be_ofBE (l : List UInt8) : be l.length (ofBE l) = l := by
  induction l with
  | nil => rfl
  | cons b l ih =>
      have hpos : 0 < 256 ^ l.length := Nat.pow_pos (by omega)
      have hfirst : UInt8.ofNat (ofBE (b :: l) >>> (l.length * 8)) = b := by
        apply UInt8.toNat.inj
        have hb := b.toNat_lt
        rw [shiftRight_byte, ofBE_cons, Nat.mul_comm, Nat.mul_add_div hpos,
          Nat.div_eq_of_lt (ofBE_lt l), Nat.add_zero, Nat.mod_eq_of_lt (by omega)]
      rw [List.length_cons, be, hfirst, ofBE_cons, be_add_mul, ih]

end Cfrp.Lib
