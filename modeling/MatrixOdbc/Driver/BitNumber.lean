import MatrixOdbc.Driver.BitColumn
import MatrixOdbc.Driver.ColumnNumber
import MatrixOdbc.Foundations.Loop

/-!
# The bytes of a number and back

The loop of `binary2numeric` of `driver/my_prepared_stmt.cc`, for a type of eight bytes. The
comment in it says that only the last bytes of a longer string count, but the loop goes
round there without counting them down.
-/

namespace MatrixOdbc.Driver

open MatrixOdbc.Foundations WhileLoop

/-- One round of `binary2numeric` with `dst` and the bytes that are left, `srcLen` of them. -/
def binary2numericBody : BitVec 64 × List UInt8 → Step (BitVec 64 × List UInt8) (BitVec 64)
  | (dst, []) => .done dst
  | (dst, byte :: src) =>
    -- `continue` in front of everything that changes a variable
    if 8 < src.length + 1 then .next (dst, byte :: src)
    else .next (dst + byte.toBitVec.setWidth 64 <<< (src.length * 8), src)

/-- The number that the last eight of the bytes stand for. -/
def lastBytesValue (s : List UInt8) : ℕ := bigEndianValue (s.drop (s.length - 8))

/-- The bytes are read as they are meant to be: the loop ends with the value of the last eight of
them, as `unsigned long long` and as `long long`, and `numeric2binary` puts them back if there
are not more. -/
structure ReadsBytes (s : List UInt8) : Prop where
  value : ∃ dst, Returns binary2numericBody (0, s) dst ∧ dst.toNat = lastBytesValue s ∧
    dst.toInt = (lastBytesValue s : ℤ).bmod (2 ^ 64) ∧
    (s.length ≤ 8 → ∀ buffer : List UInt8, s.length ≤ buffer.length →
      numeric2binary buffer dst s.length = s ++ buffer.drop s.length)

/-- Up to eight bytes the loop counts them down. -/
theorem binary2numericBody_returns {dst : BitVec 64} {s : List UInt8} (h : s.length ≤ 8) :
    Returns binary2numericBody (dst, s) (binary2numericLoop dst s) := by
  induction s generalizing dst with
  | nil => exact returns_of_done rfl
  | cons byte src ih =>
    rw [List.length_cons] at h
    have hnext : binary2numericBody (dst, byte :: src) =
        .next (dst + byte.toBitVec.setWidth 64 <<< (src.length * 8), src) := by
      rw [binary2numericBody, if_neg (by omega)]
    rw [returns_next_iff hnext, binary2numericLoop]
    exact ih (by omega)

/-- With more bytes the loop goes round without a change. -/
theorem binary2numericBody_stuck {dst : BitVec 64} {s : List UInt8} (h : 8 < s.length) :
    ¬ Terminates binary2numericBody (dst, s) := by
  refine not_terminates_of_trap (fun t => t = (dst, s)) ?_ .refl rfl
  rintro t rfl
  refine ⟨(dst, s), ?_, rfl⟩
  obtain ⟨byte, src, rfl⟩ := List.exists_cons_of_length_pos (by omega : 0 < s.length)
  rw [List.length_cons] at h
  rw [binary2numericBody, if_pos h]

/-- The loop is `binary2numeric`. -/
theorem binary2numeric_eq_some_iff {s : List UInt8} {dst : BitVec 64} :
    binary2numeric s = some dst ↔ Returns binary2numericBody (0, s) dst := by
  rw [binary2numeric]
  by_cases h : s.length ≤ 8
  · have hreturns : Returns binary2numericBody (0, s) (binary2numericLoop 0 s) :=
      binary2numericBody_returns h
    rw [if_pos h, Option.some_inj]
    constructor
    · rintro rfl
      exact hreturns
    · exact hreturns.unique
  · rw [if_neg h]
    refine iff_of_false (by simp) fun hreturns => ?_
    exact binary2numericBody_stuck (by omega) ⟨dst, hreturns⟩

/-- Bytes are read as they are meant to be exactly if there are eight of them at most. -/
theorem readsBytes_iff (s : List UInt8) : ReadsBytes s ↔ s.length ≤ 8 := by
  constructor
  · rintro ⟨dst, hreturns, -⟩
    by_contra hlong
    exact binary2numericBody_stuck (by omega) ⟨dst, hreturns⟩
  · intro h
    have hlast : lastBytesValue s = bigEndianValue s := by
      rw [lastBytesValue, Nat.sub_eq_zero_of_le h, List.drop_zero]
    have hlt : bigEndianValue s < 2 ^ 64 := by
      have hpow : 256 ^ s.length ≤ 256 ^ 8 := Nat.pow_le_pow_right (by decide) h
      exact (bigEndianValue_lt s).trans_le hpow
    have htoNat : (BitVec.ofNat 64 (bigEndianValue s)).toNat = bigEndianValue s := by
      rw [BitVec.toNat_ofNat, Nat.mod_eq_of_lt hlt]
    refine ⟨BitVec.ofNat 64 (bigEndianValue s), ?_, ?_, ?_, fun _ buffer hbuffer => ?_⟩
    · exact binary2numeric_eq_some_iff.mp (binary2numeric_eq h)
    · rw [htoNat, hlast]
    · rw [BitVec.toInt_ofNat', hlast]
    · rw [numeric2binary_eq _ _ hbuffer h, htoNat, bigEndian_bigEndianValue]

/-- Nine bytes are not read to an end. -/
theorem binary2numeric_nineBytes : ¬ ReadsBytes (List.replicate 9 0) ∧
    ¬ Terminates binary2numericBody (0, List.replicate 9 0) := by
  have hstuck : ¬ Terminates binary2numericBody (0, List.replicate 9 0) :=
    binary2numericBody_stuck (by decide)
  refine ⟨?_, hstuck⟩
  rintro ⟨dst, hreturns, -⟩
  exact hstuck ⟨dst, hreturns⟩

end MatrixOdbc.Driver
