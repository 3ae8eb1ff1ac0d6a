import Mathlib.Data.Nat.Digits.Lemmas
import Mathlib.Data.List.Induction
import Mathlib.Tactic.Ring

/-!
# Decimal text

A number as the text of its decimal digits, the value of such a text, and a text that is
filled up with blanks from the left.
-/

namespace Decimal

/-- The byte of a digit. -/
def digitByte (d : ℕ) : UInt8 := UInt8.ofNat (0x30 + d)

/-- The decimal digits of a number; zero has one. -/
def text (n : ℕ) : List UInt8 :=
  if n = 0 then [0x30] else (Nat.digits 10 n).reverse.map digitByte

/-- The value of decimal digits. -/
def value (digits : List UInt8) : ℕ := digits.foldl (fun n c => 10 * n + (c.toNat - 0x30)) 0

/-- The byte is a decimal digit. -/
def IsDigit (c : UInt8) : Prop := 0x30 ≤ c.toNat ∧ c.toNat ≤ 0x39

theorem toNat_digitByte {d : ℕ} (h : d < 10) : (digitByte d).toNat = 0x30 + d := by
  rw [digitByte, UInt8.toNat_ofNat']
  omega

/-- The text has digits only. -/
theorem isDigit_text {n : ℕ} {c : UInt8} (h : c ∈ text n) : IsDigit c := by
  unfold text at h
  split at h
  · obtain rfl : c = 0x30 := by simpa using h
    exact ⟨le_refl _, by decide⟩
  · obtain ⟨d, hd, rfl⟩ := List.mem_map.mp h
    have hlt : d < 10 := Nat.digits_lt_base (by decide) (List.mem_reverse.mp hd)
    unfold IsDigit
    rw [toNat_digitByte hlt]
    omega

/-- The text is not empty. -/
theorem text_ne_nil (n : ℕ) : text n ≠ [] := by
  unfold text
  split
  · exact List.cons_ne_nil _ _
  · next h => simpa [Nat.digits_ne_nil_iff_ne_zero] using h

/-- The length of the text. -/
theorem length_text_le {n k : ℕ} (hk : 0 < k) (h : n < 10 ^ k) : (text n).length ≤ k := by
  unfold text
  split
  · exact hk
  · rw [List.length_map, List.length_reverse]
    exact (Nat.digits_length_le_iff (by decide) n).mpr h

/-- The text has the value of the number. -/
theorem value_text (n : ℕ) : value (text n) = n := by
  unfold text
  split
  · next h => rw [h]; rfl
  · have hfold : ∀ digits : List ℕ, (∀ d ∈ digits, d < 10) →
        value (digits.reverse.map digitByte) = Nat.ofDigits 10 digits := by
      intro digits hdigits
      induction digits with
      | nil => rfl
      | cons d digits ih =>
        have hd := hdigits d List.mem_cons_self
        have hrest := ih fun d' hd' => hdigits d' (List.mem_cons_of_mem d hd')
        rw [List.reverse_cons, List.map_append, value, List.foldl_append]
        change 10 * value (digits.reverse.map digitByte) + ((digitByte d).toNat - 0x30) = _
        rw [hrest, toNat_digitByte hd, Nat.ofDigits_cons]
        omega
    rw [hfold _ fun d hd => Nat.digits_lt_base (by decide) hd, Nat.ofDigits_digits]

/-- The text of a number with its sign. -/
def signedText (z : ℤ) : List UInt8 :=
  if z < 0 then 0x2d :: text z.natAbs else text z.natAbs

/-- Zeros in front do not change the value. -/
theorem value_replicate_append (count : ℕ) (digits : List UInt8) :
    value (List.replicate count 0x30 ++ digits) = value digits := by
  induction count with
  | zero => rfl
  | succ count ih =>
    rw [List.replicate_succ, List.cons_append]
    exact ih

/-- One more digit. -/
theorem value_append_singleton (digits : List UInt8) (c : UInt8) :
    value (digits ++ [c]) = 10 * value digits + (c.toNat - 0x30) := by
  rw [value, List.foldl_append]
  rfl

/-- The value of digits behind digits. -/
theorem value_append (front back : List UInt8) :
    value (front ++ back) = value front * 10 ^ back.length + value back := by
  induction back using List.reverseRecOn with
  | nil => simp [value]
  | append_singleton back c ih =>
    rw [← List.append_assoc, value_append_singleton, ih, value_append_singleton,
      List.length_append, List.length_singleton, pow_succ]
    ring

/-- The value of digits is below the power of their number. -/
theorem value_lt {digits : List UInt8} (h : ∀ c ∈ digits, IsDigit c) :
    value digits < 10 ^ digits.length := by
  induction digits using List.reverseRecOn with
  | nil => decide
  | append_singleton digits c ih =>
    have hprev := ih fun d hd => h d (List.mem_append_left _ hd)
    have hc : IsDigit c := h c (by simp)
    rw [value_append_singleton, List.length_append, List.length_singleton, pow_succ]
    unfold IsDigit at hc
    omega

/-- The length of the text tells the power above the number. -/
theorem length_text_le_iff {n k : ℕ} (hk : 0 < k) : (text n).length ≤ k ↔ n < 10 ^ k := by
  refine ⟨fun h => ?_, length_text_le hk⟩
  calc n = value (text n) := (value_text n).symm
    _ < 10 ^ (text n).length := value_lt fun c => isDigit_text
    _ ≤ 10 ^ k := Nat.pow_le_pow_right (by decide) h

/-- A text filled up with blanks from the left. -/
def padLeft (width : ℕ) (s : List UInt8) : List UInt8 :=
  List.replicate (width - s.length) 0x20 ++ s

/-- A text that is not longer than the width fills it. -/
theorem length_padLeft {width : ℕ} {s : List UInt8} (h : s.length ≤ width) :
    (padLeft width s).length = width := by
  rw [padLeft, List.length_append, List.length_replicate]
  omega

/-- The padding of a number has no byte that is zero. -/
theorem zero_notMem_padLeft (width n : ℕ) : 0 ∉ padLeft width (text n) := by
  intro h
  obtain hblank | hdigit := List.mem_append.mp h
  · exact absurd (List.eq_of_mem_replicate hblank) (by decide)
  · exact absurd (isDigit_text hdigit).1 (by decide)

/-- The last so many digits of a number. -/
@[grind =] def fixed : ℕ → ℕ → List UInt8
  | 0, _ => []
  | count + 1, n => fixed count (n / 10) ++ [digitByte (n % 10)]

@[simp] theorem length_fixed (count n : ℕ) : (fixed count n).length = count := by
  induction count generalizing n with
  | zero => rfl
  | succ count ih => rw [fixed, List.length_append, ih, List.length_singleton]

/-- They are digits. -/
theorem isDigit_fixed {count n : ℕ} {c : UInt8} (h : c ∈ fixed count n) : IsDigit c := by
  induction count generalizing n with
  | zero => simp [fixed] at h
  | succ count ih =>
    rcases List.mem_append.mp h with h | h
    · exact ih h
    · obtain rfl := List.mem_singleton.mp h
      unfold IsDigit
      rw [toNat_digitByte (Nat.mod_lt _ (by decide))]
      omega

/-- A number with no more digits is their value. -/
theorem value_fixed {count n : ℕ} (h : n < 10 ^ count) : value (fixed count n) = n := by
  induction count generalizing n with
  | zero =>
    rw [pow_zero, Nat.lt_one_iff] at h
    rw [h]
    rfl
  | succ count ih =>
    rw [fixed, value_append_singleton, ih (by rw [pow_succ] at h; omega),
      toNat_digitByte (Nat.mod_lt _ (by decide))]
    omega

/-- The digits in front and the last ones. -/
theorem fixed_add (front back n : ℕ) :
    fixed (front + back) n = fixed front (n / 10 ^ back) ++ fixed back n := by
  induction back generalizing n with
  | zero => simp [fixed]
  | succ back ih =>
    rw [← Nat.add_assoc, fixed, ih, fixed, Nat.div_div_eq_div_mul, ← pow_succ',
      List.append_assoc]

/-- Zero has zeros only. -/
theorem fixed_zero (count : ℕ) : fixed count 0 = List.replicate count 0x30 := by
  induction count with
  | zero => rfl
  | succ count ih =>
    rw [fixed, Nat.zero_div, ih, List.replicate_succ']
    rfl

/-- Zeros in front of a number with less digits. -/
theorem fixed_of_lt {front back n : ℕ} (h : n < 10 ^ back) :
    fixed (front + back) n = List.replicate front 0x30 ++ fixed back n := by
  rw [fixed_add, Nat.div_eq_of_lt h, fixed_zero]

end Decimal
