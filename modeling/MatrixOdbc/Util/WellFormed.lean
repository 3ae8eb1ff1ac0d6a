import MatrixOdbc.Util.UtfRoundTrip

/-!
# Well-formed UTF-8

`utf8toutf32` chooses the length of a sequence by three comparisons of its first byte and looks
only at the marks of the bytes behind it. It reads every well-formed sequence, but also those
whose first byte or second byte no character has.
-/

namespace MatrixOdbc.Util

open Utf

variable {bytes i : List UInt8} {lead second : UInt8} {c : Char} {n : ℕ}

/-- The text begins with a character. There is a terminator behind the bytes. -/
def StartsWith (bytes : List UInt8) (c : Char) : Prop :=
  ∃ rest, bytes ++ [0] = String.utf8EncodeChar c ++ rest

/-- A character is read where there is one, and nothing where there is none. -/
def ReadsWellFormed (bytes : List UInt8) : Prop :=
  (∀ c, StartsWith bytes c →
    utf8toutf32 bytes = ((String.utf8EncodeChar c).length, c.toNat)) ∧
  ((∀ c, ¬ StartsWith bytes c) → (utf8toutf32 bytes).1 = 0)

/-- The first two bytes are those of no character: a continuation byte or the beginning of an
overlong form, a surrogate, or a number above the last character. -/
def IllFormed (lead second : UInt8) : Prop :=
  lead.toNat < 0xc2 ∨ lead.toNat = 0xe0 ∧ second.toNat < 0xa0 ∨
    lead.toNat = 0xed ∧ 0xa0 ≤ second.toNat ∨ lead.toNat = 0xf0 ∧ second.toNat < 0x90 ∨
    lead.toNat = 0xf4 ∧ 0x90 ≤ second.toNat ∨ 0xf5 ≤ lead.toNat

instance (lead second : UInt8) : Decidable (IllFormed lead second) :=
  inferInstanceAs (Decidable (_ ∨ _))

/-- The text goes on with so many continuation bytes. -/
def Continued (n : ℕ) (i : List UInt8) : Prop :=
  n ≤ i.length ∧ ∀ b ∈ i.take n, 0x80 ≤ b.toNat ∧ b.toNat < 0xc0

instance (n : ℕ) (i : List UInt8) : Decidable (Continued n i) :=
  inferInstanceAs (Decidable (_ ∧ _))

/-- How many bytes follow the first one, as the function has it. -/
def tailLength (lead : UInt8) : ℕ :=
  if lead.toNat < 0x80 then 0 else if lead.toNat < 0xe0 then 1
  else if lead.toNat < 0xf0 then 2 else 3

/-- An ill-formed sequence that has its continuation bytes. -/
def Misread : List UInt8 → Prop
  | lead :: second :: i =>
    0x80 ≤ lead.toNat ∧ IllFormed lead second ∧ Continued (tailLength lead) (second :: i)
  | _ => False

instance : DecidablePred Misread
  | _ :: _ :: _ => inferInstanceAs (Decidable (_ ∧ _))
  | [] | [_] => inferInstanceAs (Decidable False)

/-- The terminator is no continuation byte. -/
theorem utf8toutf32Tail_append (x : ℕ) (i : List UInt8) (u : ℕ) :
    utf8toutf32Tail x (i ++ [0]) u = utf8toutf32Tail x i u := by
  induction x generalizing i u with
  | zero => rfl
  | succ x ih =>
    cases i with
    | nil => rfl
    | cons b i =>
      rw [List.cons_append, utf8toutf32Tail, utf8toutf32Tail]
      simp only [List.headD_cons, List.tail_cons, ih]
      rfl

/-- The terminator is read as what is behind the text. -/
theorem utf8toutf32_append (bytes : List UInt8) : utf8toutf32 (bytes ++ [0]) = utf8toutf32 bytes := by
  cases bytes with
  | nil => rfl
  | cons lead i =>
    unfold utf8toutf32
    simp only [List.cons_append, List.headD_cons, List.tail_cons, utf8toutf32Tail_append]
    rfl

/-- A well-formed sequence is read. -/
theorem utf8toutf32_of_startsWith (h : StartsWith bytes c) :
    utf8toutf32 bytes = ((String.utf8EncodeChar c).length, c.toNat) := by
  obtain ⟨rest, h⟩ := h
  rw [← utf8toutf32_append, h, utf8toutf32_utf8EncodeChar]

/-- The loop accepts continuation bytes. -/
theorem utf8toutf32Tail_iff {x : ℕ} {i : List UInt8} {u : ℕ} :
    (utf8toutf32Tail x i u).1 = true ↔ Continued x i := by
  have hmark : ∀ b : UInt8, b.toNat >>> 6 = 2 ↔ 0x80 ≤ b.toNat ∧ b.toNat < 0xc0 := by
    intro b
    rw [Nat.shiftRight_eq_div_pow]
    omega
  induction x generalizing i u with
  | zero => simp [utf8toutf32Tail, Continued]
  | succ x ih =>
    cases i with
    | nil => simp [utf8toutf32Tail, Continued]
    | cons b i =>
      rw [utf8toutf32Tail]
      simp only [List.headD_cons, List.tail_cons, ne_eq, hmark]
      split_ifs with hb
      · apply Iff.trans ih
        simp [Continued, hb]
      · exact iff_of_false id fun h => hb (h.2 b (by simp))

/-- What the function takes for a sequence. -/
theorem utf8toutf32_ne_zero_iff :
    (utf8toutf32 (lead :: i)).1 ≠ 0 ↔ Continued (tailLength lead) i := by
  unfold tailLength
  by_cases h₁ : lead.toNat < 0x80
  · rw [utf8toutf32, List.headD_cons, if_pos h₁, if_pos h₁]
    simp [Continued]
  rw [if_neg h₁]
  by_cases h₂ : lead.toNat < 0xe0
  · rw [utf8toutf32, List.headD_cons, if_neg h₁, if_pos h₂, if_pos h₂]
    simp [utf8toutf32Tail_iff]
  rw [if_neg h₂]
  by_cases h₃ : lead.toNat < 0xf0
  · rw [utf8toutf32, List.headD_cons, if_neg h₁, if_neg h₂, if_pos h₃, if_pos h₃]
    simp [utf8toutf32Tail_iff]
  · rw [utf8toutf32, List.headD_cons, if_neg h₁, if_neg h₂, if_neg h₃, if_neg h₃]
    simp [utf8toutf32Tail_iff]

/-- The first two bytes of a character are not ill-formed. -/
theorem not_illFormed_of_encode {rest : List UInt8}
    (h : String.utf8EncodeChar c ++ rest = lead :: second :: i) (hlead : 0x80 ≤ lead.toNat) :
    ¬ IllFormed lead second := by
  have hscalar := toNat_scalar c
  have hval : c.val.toNat = c.toNat := rfl
  simp only [String.utf8EncodeChar, hval] at h
  generalize c.toNat = v at *
  have hbyte : ∀ n < 256, (UInt8.ofNat n).toNat = n := fun n => toNat_ofNat_byte
  unfold IllFormed
  split_ifs at h with h₁ h₂ h₃
  · obtain ⟨rfl, -⟩ := List.cons.inj h
    rw [hbyte _ (by omega)] at hlead
    omega
  · obtain ⟨rfl, htail⟩ := List.cons.inj h
    obtain ⟨rfl, -⟩ := List.cons.inj htail
    rw [hbyte _ (by omega), hbyte _ (by omega)]
    omega
  · obtain ⟨rfl, htail⟩ := List.cons.inj h
    obtain ⟨rfl, -⟩ := List.cons.inj htail
    rw [hbyte _ (by omega), hbyte _ (by omega)]
    omega
  · obtain ⟨rfl, htail⟩ := List.cons.inj h
    obtain ⟨rfl, -⟩ := List.cons.inj htail
    rw [hbyte _ (by omega), hbyte _ (by omega)]
    omega

/-- The character with a number that is one. -/
theorem exists_char {v : ℕ} (h : v < 0xd800 ∨ 0xdfff < v ∧ v < 0x110000) :
    ∃ c : Char, c.toNat = v := by
  have hvalid : v.isValidChar := h
  have hchar : Char.ofNat v = Char.ofNatAux v hvalid := dif_pos hvalid
  exact ⟨Char.ofNat v, by rw [hchar]; rfl⟩

/-- A byte by its number. -/
theorem eq_ofNat {b : UInt8} {n : ℕ} (h : b.toNat = n) : b = UInt8.ofNat n := by
  rw [← h, UInt8.ofNat_toNat]

/-- A continuation byte and the bits it carries. -/
theorem continuation_eq {b : UInt8} (h : 0x80 ≤ b.toNat ∧ b.toNat < 0xc0) :
    ∃ y < 64, b = UInt8.ofNat (y + 0x80) :=
  ⟨b.toNat - 0x80, by omega, eq_ofNat (by omega)⟩

/-- A sequence that is not ill-formed is that of a character. -/
theorem exists_encode (hcontinued : Continued (tailLength lead) i) (hill : ¬ Misread (lead :: i)) :
    ∃ c rest, lead :: i = String.utf8EncodeChar c ++ rest := by
  have hlt := lead.toNat_lt
  have hwell : ∀ second i', i = second :: i' → 0x80 ≤ lead.toNat → ¬ IllFormed lead second := by
    rintro second i' rfl hlead h
    exact hill ⟨hlead, h, hcontinued⟩
  obtain ⟨hlength, hbytes⟩ := hcontinued
  unfold tailLength at hlength hbytes
  by_cases h₁ : lead.toNat < 0x80
  · obtain ⟨c, hc⟩ := @exists_char lead.toNat (by omega)
    have hval : c.val.toNat = lead.toNat := hc
    refine ⟨c, i, ?_⟩
    rw [String.utf8EncodeChar, hval, if_pos (by omega), ← eq_ofNat rfl]
    rfl
  rw [if_neg h₁] at hlength hbytes
  by_cases h₂ : lead.toNat < 0xe0
  · rw [if_pos h₂] at hlength hbytes
    obtain ⟨b, i, rfl⟩ := List.exists_cons_of_length_pos (by omega : 0 < i.length)
    obtain ⟨y, hy, rfl⟩ := continuation_eq (hbytes b (by simp))
    have hwell := hwell _ _ rfl (by omega)
    unfold IllFormed at hwell
    obtain ⟨x, hx⟩ : ∃ x, lead.toNat = x + 0xc0 := ⟨lead.toNat - 0xc0, by omega⟩
    obtain ⟨c, hc⟩ := @exists_char (x * 64 + y) (by omega)
    have hval : c.val.toNat = x * 64 + y := hc
    refine ⟨c, i, ?_⟩
    rw [String.utf8EncodeChar, hval, if_neg (by omega), if_pos (by omega), eq_ofNat hx]
    have hhigh : (x * 64 + y) / 64 % 32 = x := by omega
    have hlow : (x * 64 + y) % 64 = y := by omega
    rw [hhigh, hlow]
    rfl
  rw [if_neg h₂] at hlength hbytes
  by_cases h₃ : lead.toNat < 0xf0
  · rw [if_pos h₃] at hlength hbytes
    obtain ⟨b, i, rfl⟩ := List.exists_cons_of_length_pos (by omega : 0 < i.length)
    rw [List.length_cons] at hlength
    obtain ⟨b', i, rfl⟩ := List.exists_cons_of_length_pos (by omega : 0 < i.length)
    obtain ⟨y, hy, rfl⟩ := continuation_eq (hbytes b (by simp))
    obtain ⟨z, hz, rfl⟩ := continuation_eq (hbytes b' (by simp))
    have hwell := hwell _ _ rfl (by omega)
    unfold IllFormed at hwell
    rw [toNat_ofNat_byte (by omega)] at hwell
    obtain ⟨x, hx⟩ : ∃ x, lead.toNat = x + 0xe0 := ⟨lead.toNat - 0xe0, by omega⟩
    obtain ⟨c, hc⟩ := @exists_char (x * 4096 + y * 64 + z) (by omega)
    have hval : c.val.toNat = x * 4096 + y * 64 + z := hc
    refine ⟨c, i, ?_⟩
    rw [String.utf8EncodeChar, hval, if_neg (by omega), if_neg (by omega), if_pos (by omega),
      eq_ofNat hx]
    have hhigh : (x * 4096 + y * 64 + z) / 4096 % 16 = x := by omega
    have hmid : (x * 4096 + y * 64 + z) / 64 % 64 = y := by omega
    have hlow : (x * 4096 + y * 64 + z) % 64 = z := by omega
    rw [hhigh, hmid, hlow]
    rfl
  · rw [if_neg h₃] at hlength hbytes
    obtain ⟨b, i, rfl⟩ := List.exists_cons_of_length_pos (by omega : 0 < i.length)
    rw [List.length_cons] at hlength
    obtain ⟨b', i, rfl⟩ := List.exists_cons_of_length_pos (by omega : 0 < i.length)
    rw [List.length_cons] at hlength
    obtain ⟨b'', i, rfl⟩ := List.exists_cons_of_length_pos (by omega : 0 < i.length)
    obtain ⟨y, hy, rfl⟩ := continuation_eq (hbytes b (by simp))
    obtain ⟨z, hz, rfl⟩ := continuation_eq (hbytes b' (by simp))
    obtain ⟨w, hw, rfl⟩ := continuation_eq (hbytes b'' (by simp))
    have hwell := hwell _ _ rfl (by omega)
    unfold IllFormed at hwell
    rw [toNat_ofNat_byte (by omega)] at hwell
    obtain ⟨x, hx⟩ : ∃ x, lead.toNat = x + 0xf0 := ⟨lead.toNat - 0xf0, by omega⟩
    obtain ⟨c, hc⟩ := @exists_char (x * 262144 + y * 4096 + z * 64 + w) (by omega)
    have hval : c.val.toNat = x * 262144 + y * 4096 + z * 64 + w := hc
    refine ⟨c, i, ?_⟩
    rw [String.utf8EncodeChar, hval, if_neg (by omega), if_neg (by omega), if_neg (by omega),
      eq_ofNat hx]
    have htop : (x * 262144 + y * 4096 + z * 64 + w) / 262144 % 8 = x := by omega
    have hhigh : (x * 262144 + y * 4096 + z * 64 + w) / 4096 % 64 = y := by omega
    have hmid : (x * 262144 + y * 4096 + z * 64 + w) / 64 % 64 = z := by omega
    have hlow : (x * 262144 + y * 4096 + z * 64 + w) % 64 = w := by omega
    rw [htop, hhigh, hmid, hlow]
    rfl

/-- An ill-formed sequence is that of no character. -/
theorem not_startsWith_of_misread (h : Misread bytes) : ¬ StartsWith bytes c := by
  rintro ⟨rest, hrest⟩
  match bytes, h with
  | lead :: second :: i, ⟨hlead, hill, _⟩ => exact not_illFormed_of_encode hrest.symm hlead hill

/-- `utf8toutf32` reads well-formed UTF-8 only, unless there is an ill-formed sequence with its
continuation bytes. -/
theorem utf8toutf32_readsWellFormed_iff (bytes : List UInt8) :
    ReadsWellFormed bytes ↔ ¬ Misread bytes := by
  constructor
  · rintro ⟨-, hnone⟩ hill
    have hzero := hnone fun c => not_startsWith_of_misread hill
    match bytes, hill with
    | lead :: second :: i, ⟨_, _, hcontinued⟩ =>
      exact utf8toutf32_ne_zero_iff.mpr hcontinued hzero
  · intro hill
    refine ⟨fun c h => utf8toutf32_of_startsWith h, fun hnone => ?_⟩
    by_contra hne
    cases bytes with
    | nil => exact hnone '\x00' ⟨[], rfl⟩
    | cons lead i =>
      obtain ⟨c, rest, h⟩ := exists_encode (utf8toutf32_ne_zero_iff.mp hne) hill
      exact hnone c ⟨rest ++ [0], by rw [h, List.append_assoc]⟩

/-- Two continuation bytes are read as a character of the first block. -/
theorem utf8toutf32_strayContinuation : ¬ ReadsWellFormed [0x81, 0x81] := by
  intro h
  have hread : (utf8toutf32 [0x81, 0x81]).1 = 2 := by decide
  have hill : Misread [0x81, 0x81] := by
    refine ⟨by decide, .inl (by decide), ?_⟩
    simp [Continued, tailLength]
  have hzero := h.2 fun c => not_startsWith_of_misread hill
  rw [hread] at hzero
  cases hzero

end MatrixOdbc.Util
