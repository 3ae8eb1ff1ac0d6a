import Mathlib.Data.List.Induction
import Mathlib.Algebra.Order.Ring.Int
import Mathlib.Tactic.Common
import Mathlib.Tactic.Ring

/-!
# Numbers in big-endian bytes

The last bytes of a number, the most significant one first, and the number that bytes
stand for.
-/

namespace MatrixOdbc.Foundations

/-- The last `width` bytes of a number, the most significant one first. -/
def bigEndian : ℕ → ℕ → List UInt8
  | 0, _ => []
  | width + 1, n => bigEndian width (n / 256) ++ [UInt8.ofNat n]

/-- The number that bytes stand for, the most significant one first. -/
def bigEndianValue (bytes : List UInt8) : ℕ :=
  bytes.foldl (fun n byte => 256 * n + byte.toNat) 0

@[simp] theorem length_bigEndian (width n : ℕ) : (bigEndian width n).length = width := by
  induction width generalizing n with
  | zero => rfl
  | succ width ih => rw [bigEndian, List.length_append, ih, List.length_singleton]

theorem bigEndianValue_append_singleton (bytes : List UInt8) (byte : UInt8) :
    bigEndianValue (bytes ++ [byte]) = 256 * bigEndianValue bytes + byte.toNat := by
  simp [bigEndianValue, List.foldl_append]

/-- The first byte counts most. -/
theorem bigEndianValue_cons (byte : UInt8) (bytes : List UInt8) :
    bigEndianValue (byte :: bytes) = byte.toNat * 256 ^ bytes.length + bigEndianValue bytes := by
  induction bytes using List.reverseRecOn with
  | nil => simp [bigEndianValue]
  | append_singleton bytes last ih =>
    rw [← List.cons_append, bigEndianValue_append_singleton, ih, bigEndianValue_append_singleton,
      List.length_append, List.length_singleton, pow_succ]
    ring

/-- Bytes stand for a number that fits in them. -/
theorem bigEndianValue_lt (bytes : List UInt8) : bigEndianValue bytes < 256 ^ bytes.length := by
  induction bytes using List.reverseRecOn with
  | nil => simp [bigEndianValue]
  | append_singleton bytes last ih =>
    have hbyte := last.toNat_lt
    rw [bigEndianValue_append_singleton, List.length_append, List.length_singleton, pow_succ]
    omega

/-- The bytes of the number that bytes stand for are these bytes. -/
theorem bigEndian_bigEndianValue (bytes : List UInt8) :
    bigEndian bytes.length (bigEndianValue bytes) = bytes := by
  induction bytes using List.reverseRecOn with
  | nil => rfl
  | append_singleton bytes last ih =>
    have hbyte := last.toNat_lt
    have hhigh : (256 * bigEndianValue bytes + last.toNat) / 256 = bigEndianValue bytes := by omega
    have hlow : UInt8.ofNat (256 * bigEndianValue bytes + last.toNat) = last := by
      apply UInt8.toNat_inj.mp
      rw [UInt8.toNat_ofNat']
      omega
    rw [List.length_append, List.length_singleton, bigEndianValue_append_singleton, bigEndian,
      hhigh, hlow, ih]

/-- The bytes keep the number up to their width. -/
theorem bigEndianValue_bigEndian (width n : ℕ) :
    bigEndianValue (bigEndian width n) = n % 256 ^ width := by
  induction width generalizing n with
  | zero => simp [bigEndian, bigEndianValue, Nat.mod_one]
  | succ width ih =>
    have hsplit : n % 256 ^ (width + 1) = n % 256 + 256 * (n / 256 % 256 ^ width) := by
      rw [pow_succ', Nat.mod_mul]
    rw [bigEndian, bigEndianValue_append_singleton, ih, UInt8.toNat_ofNat', hsplit]
    omega

/-- Bytes agree exactly when the numbers do up to the width. -/
theorem bigEndian_inj {width n m : ℕ} :
    bigEndian width n = bigEndian width m ↔ n % 256 ^ width = m % 256 ^ width := by
  constructor
  · intro h
    rw [← bigEndianValue_bigEndian, h, bigEndianValue_bigEndian]
  · intro h
    induction width generalizing n m with
    | zero => rfl
    | succ width ih =>
      rw [pow_succ', Nat.mod_mul, Nat.mod_mul] at h
      have hlow : n % 256 = m % 256 := by omega
      have hhigh : n / 256 % 256 ^ width = m / 256 % 256 ^ width := by omega
      rw [bigEndian, bigEndian, ih hhigh]
      have hbyte : UInt8.ofNat n = UInt8.ofNat m := by
        apply UInt8.toNat_inj.mp
        rw [UInt8.toNat_ofNat', UInt8.toNat_ofNat']
        exact hlow
      rw [hbyte]

/-- The first of the bytes. -/
theorem bigEndian_succ (width n : ℕ) :
    bigEndian (width + 1) n = UInt8.ofNat (n / 256 ^ width) :: bigEndian width n := by
  induction width generalizing n with
  | zero => simp [bigEndian]
  | succ width ih =>
    rw [bigEndian, ih, Nat.div_div_eq_div_mul, ← pow_succ']
    rfl

/-- The bytes of a number that is zero up to the width are all zero. -/
theorem bigEndian_zero (width : ℕ) : bigEndian width 0 = List.replicate width 0 := by
  induction width with
  | zero => rfl
  | succ width ih =>
    rw [bigEndian_succ, ih]
    simp [List.replicate_succ]

end MatrixOdbc.Foundations
