import Mathlib.Data.List.Basic
import Mathlib.Data.List.TakeDrop
import Mathlib.Tactic.Common
import Mathlib.Tactic.IntervalCases

/-!
# UTF-8 and UTF-16 texts

Both encodings of a list of characters, the shape of an encoded character and
the way a bounded buffer cuts the UTF-16 form. A cut falls between two
characters or inside the two units of one character.
-/

namespace Utf

variable {c : Char} {cs : List Char} {n : ℕ}

/-- The UTF-8 form of a text. -/
def utf8 (cs : List Char) : List UInt8 := cs.flatMap String.utf8EncodeChar

/-- The character needs a surrogate pair. -/
def IsPair (c : Char) : Prop := 0xFFFF < c.toNat

instance : DecidablePred IsPair := fun _ => inferInstanceAs (Decidable (_ < _))

/-- The first of two surrogates. -/
def highUnit (c : Char) : UInt16 := UInt16.ofNat (0xD800 + (c.toNat - 0x10000) / 0x400)

/-- The second of two surrogates. -/
def lowUnit (c : Char) : UInt16 := UInt16.ofNat (0xDC00 + (c.toNat - 0x10000) % 0x400)

/-- The UTF-16 form of a character. -/
def utf16Char (c : Char) : List UInt16 :=
  if IsPair c then [highUnit c, lowUnit c] else [UInt16.ofNat c.toNat]

/-- The UTF-16 form of a text. -/
def utf16 (cs : List Char) : List UInt16 := cs.flatMap utf16Char

@[simp] theorem utf8_nil : utf8 [] = [] := rfl

@[simp] theorem utf8_cons : utf8 (c :: cs) = String.utf8EncodeChar c ++ utf8 cs := rfl

@[simp] theorem utf8_append {cs cs' : List Char} : utf8 (cs ++ cs') = utf8 cs ++ utf8 cs' :=
  List.flatMap_append

@[simp] theorem utf16_nil : utf16 [] = [] := rfl

@[simp] theorem utf16_cons : utf16 (c :: cs) = utf16Char c ++ utf16 cs := rfl

@[simp] theorem utf16_append {cs cs' : List Char} : utf16 (cs ++ cs') = utf16 cs ++ utf16 cs' :=
  List.flatMap_append

theorem utf16Char_of_isPair (h : IsPair c) : utf16Char c = [highUnit c, lowUnit c] := if_pos h

theorem utf16Char_of_not_isPair (h : ¬ IsPair c) : utf16Char c = [UInt16.ofNat c.toNat] := if_neg h

/-- A character value is in one of the two ranges of scalar values. -/
theorem toNat_scalar (c : Char) : c.toNat < 0xD800 ∨ 0xDFFF < c.toNat ∧ c.toNat < 0x110000 := by
  rcases c.valid with h | h
  · exact Or.inl (by simpa using h)
  · exact Or.inr (by simpa using h)

/-- A high surrogate is not the terminator. -/
theorem highUnit_ne_zero (c : Char) : highUnit c ≠ 0 := by
  have hlt : c.toNat < 0x110000 := by
    have := toNat_scalar c
    omega
  intro h
  have hnat := congrArg UInt16.toNat h
  rw [highUnit, UInt16.toNat_ofNat'] at hnat
  simp at hnat
  omega

theorem utf16Char_length_pos (c : Char) : 0 < (utf16Char c).length := by
  by_cases hc : IsPair c
  · simp [utf16Char_of_isPair hc]
  · simp [utf16Char_of_not_isPair hc]

theorem utf8EncodeChar_length_pos (c : Char) : 0 < (String.utf8EncodeChar c).length := by
  rw [String.length_utf8EncodeChar]
  exact c.utf8Size_pos

/-- The low ten bits of a surrogate. -/
theorem and_low_bits (n : ℕ) : n &&& 0x3ff = n % 0x400 := Nat.and_two_pow_sub_one_eq_mod n 10

/-- Ten low bits next to higher ones. -/
theorem or_low_bits (a : ℕ) {b : ℕ} (hb : b < 0x400) : 0x400 * a ||| b = 0x400 * a + b :=
  (Nat.two_pow_add_eq_or_of_lt (i := 10) hb a).symm

/-- The bits that a continuation byte adds and those it carries. -/
theorem continuation_bits : ∀ x < 64, (x + 0x80) &&& 0xc0 = 0x80 ∧ (x + 0x80) &&& 0x3f = x := by
  decide

/-- The bits that the first byte of two, three or four carries. -/
theorem lead_bits :
    (∀ x < 32, (x + 0xc0) &&& 0x1f = x) ∧ (∀ x < 16, (x + 0xe0) &&& 0x0f = x) ∧
      ∀ x < 8, (x + 0xf0) &&& 0x07 = x ∧ (x + 0xf0) &&& 0xf8 = 0xf0 := by
  decide

/-- A number below 256 is read back from its byte. -/
theorem toNat_ofNat_byte {n : ℕ} (h : n < 256) : (UInt8.ofNat n).toNat = n := by
  simpa using h

theorem ofNat_lt_byte {n m : ℕ} (hn : n < 256) (hm : m < 256) :
    UInt8.ofNat n < UInt8.ofNat m ↔ n < m := by
  rw [UInt8.lt_iff_toNat_lt, toNat_ofNat_byte hn, toNat_ofNat_byte hm]

/-- A buffer of `n` units ends between the two units of some character. -/
def SplitsPair (cs : List Char) (n : ℕ) : Prop :=
  ∃ pre c post, cs = pre ++ c :: post ∧ IsPair c ∧ n = (utf16 pre).length + 1

/-- A buffer ends behind complete characters, or it splits one. -/
theorem cut_cases (cs : List Char) (n : ℕ) (hn : n ≤ (utf16 cs).length) :
    (∃ pre post, cs = pre ++ post ∧ (utf16 pre).length = n) ∨ SplitsPair cs n := by
  induction cs generalizing n with
  | nil => exact Or.inl ⟨[], [], rfl, by simpa using hn.antisymm (Nat.zero_le n) |>.symm⟩
  | cons c cs ih =>
    rcases Nat.eq_zero_or_pos n with rfl | hpos
    · exact Or.inl ⟨[], c :: cs, rfl, rfl⟩
    have hlen : (utf16Char c).length = 1 ∨ IsPair c ∧ (utf16Char c).length = 2 := by
      by_cases hc : IsPair c
      · exact Or.inr ⟨hc, by simp [utf16Char_of_isPair hc]⟩
      · exact Or.inl (by simp [utf16Char_of_not_isPair hc])
    simp only [utf16_cons, List.length_append] at hn
    by_cases hfits : (utf16Char c).length ≤ n
    · rcases ih (n - (utf16Char c).length) (by omega) with ⟨pre, post, rfl, hpre⟩ | hsplit
      · refine Or.inl ⟨c :: pre, post, rfl, ?_⟩
        simp only [utf16_cons, List.length_append]
        omega
      · obtain ⟨pre, c', post, rfl, hpair, hpre⟩ := hsplit
        refine Or.inr ⟨c :: pre, c', post, rfl, hpair, ?_⟩
        simp only [utf16_cons, List.length_append]
        omega
    · rcases hlen with hlen | ⟨hpair, hlen⟩
      · omega
      · exact Or.inr ⟨[], c, cs, rfl, hpair, by simp; omega⟩

end Utf
