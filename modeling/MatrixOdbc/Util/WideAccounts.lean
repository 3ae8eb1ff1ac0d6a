import MatrixOdbc.Util.TranscodeBounds

/-!
# Texts that account for every unit

A value is any sequence of UTF-16 units. A text accounts for it if it has the UTF-8 form of
every character and something in the place of every unpaired surrogate. What the encoder makes of
the characters at the front of a value accounts for the value exactly if there is nothing
behind them and it reads each of them as it is.
-/

namespace MatrixOdbc.Util

open Splitting Utf

variable {v str : List SQLWCHAR} {t t' : List UInt8} {u : SQLWCHAR} {c c' : Char} {own : Bool}

/-- The three bytes that the form of UTF-8 without its exceptions has for a surrogate. -/
def surrogateBytes (u : SQLWCHAR) : List UInt8 :=
  [0xED, UInt8.ofNat (u.toNat / 64 % 64 + 0x80), UInt8.ofNat (u.toNat % 64 + 0x80)]

/-- What may stand for an unpaired surrogate: a character and, if `own` is set, its own bytes. -/
def Replacement (own : Bool) (u : SQLWCHAR) (r : List UInt8) : Prop :=
  (∃ c, r = String.utf8EncodeChar c) ∨ own = true ∧ r = surrogateBytes u

/-- The text accounts for every unit of the value. -/
inductive Accounts (own : Bool) : List SQLWCHAR → List UInt8 → Prop
  | nil : Accounts own [] []
  | char (c : Char) {v : List SQLWCHAR} {t : List UInt8} : Accounts own v t →
      Accounts own (utf16Char c ++ v) (String.utf8EncodeChar c ++ t)
  | unpaired {u : SQLWCHAR} {r : List UInt8} {v : List SQLWCHAR} {t : List UInt8} :
      IsHigh u ∧ ¬ IsLow (charAt v 0) ∨ IsLow u → Replacement own u r → Accounts own v t →
      Accounts own (u :: v) (r ++ t)

/-- The encoder reads what it finds at the front as it is: a character outside the even
planes, or a second surrogate whose own bytes may stand for it. -/
def Readable (own : Bool) (q : List SQLWCHAR) : Prop :=
  (∀ c, q = utf16Char c → ¬ InEvenPlane c) ∧ (own = false → ∀ u, q = [u] → ¬ IsLow u)

/-- Every first surrogate is followed by a second one, there is no character of an even plane and,
unless the bytes of a surrogate may stand for it, no second surrogate stands alone. -/
def WellRead (own : Bool) (v : List SQLWCHAR) : Prop :=
  unpaired v = [] ∧ ∀ q ∈ (split characterLength v).1, Readable own q

theorem characterLength_eq (hne : str ≠ []) : characterLength str = (utf16toutf32 str).1 := by
  obtain ⟨u, str, rfl⟩ := List.exists_cons_of_ne_nil hne
  exact (utf16toutf32_consumed u str).symm

theorem utf16Char_append_ne_nil (c : Char) (v : List SQLWCHAR) : utf16Char c ++ v ≠ [] := by
  have := utf16Char_length_pos c
  intro h
  rw [(List.append_eq_nil_iff.mp h).1, List.length_nil] at this
  omega

/-- A character takes its units. -/
theorem characterLength_utf16Char (c : Char) (v : List SQLWCHAR) :
    characterLength (utf16Char c ++ v) = (utf16Char c).length := by
  rw [characterLength_eq (utf16Char_append_ne_nil c v), utf16toutf32_utf16Char]

/-- The first unit of a character is no second surrogate. -/
theorem not_isLow_of_utf16Char (h : u :: str = utf16Char c ++ v) : ¬ IsLow u := by
  have hscalar := toNat_scalar c
  by_cases hpair : IsPair c
  · have hlarge : 0xFFFF < c.toNat := hpair
    have hhigh := (toNat_units hpair).1
    rw [utf16Char_of_isPair hpair] at h
    obtain ⟨rfl, -⟩ := List.cons.inj h
    unfold IsLow
    omega
  · have hunit := toNat_unit hpair
    rw [utf16Char_of_not_isPair hpair] at h
    obtain ⟨rfl, -⟩ := List.cons.inj h
    unfold IsLow
    omega

/-- A first surrogate begins a character only if a second one follows. -/
theorem isLow_of_utf16Char (h : u :: str = utf16Char c ++ v) (hhigh : IsHigh u) :
    IsLow (charAt str 0) := by
  have hscalar := toNat_scalar c
  by_cases hpair : IsPair c
  · have hlow := (toNat_units hpair).2
    rw [utf16Char_of_isPair hpair] at h
    obtain ⟨-, rfl⟩ := List.cons.inj h
    change IsLow (lowUnit c)
    unfold IsLow
    omega
  · have hunit := toNat_unit hpair
    rw [utf16Char_of_not_isPair hpair] at h
    obtain ⟨rfl, -⟩ := List.cons.inj h
    unfold IsHigh at hhigh
    omega

/-- The units of a text of one character belong to that character only. -/
theorem utf16Char_injective (h : utf16Char c = utf16Char c') : c = c' := by
  have hscalar := toNat_scalar c
  have hscalar' := toNat_scalar c'
  apply Char.toNat_inj.mp
  by_cases hpair : IsPair c
  · by_cases hpair' : IsPair c'
    · have hlarge : 0xFFFF < c.toNat ∧ 0xFFFF < c'.toNat := ⟨hpair, hpair'⟩
      obtain ⟨hhigh, hlow⟩ := toNat_units hpair
      obtain ⟨hhigh', hlow'⟩ := toNat_units hpair'
      rw [utf16Char_of_isPair hpair, utf16Char_of_isPair hpair'] at h
      obtain ⟨h₁, h₂⟩ := List.cons.inj h
      obtain ⟨h₂, -⟩ := List.cons.inj h₂
      rw [h₁] at hhigh
      rw [h₂] at hlow
      omega
    · rw [utf16Char_of_isPair hpair, utf16Char_of_not_isPair hpair'] at h
      exact absurd (congrArg List.length h) (by simp)
  · by_cases hpair' : IsPair c'
    · rw [utf16Char_of_not_isPair hpair, utf16Char_of_isPair hpair'] at h
      exact absurd (congrArg List.length h) (by simp)
    · rw [utf16Char_of_not_isPair hpair, utf16Char_of_not_isPair hpair'] at h
      rw [← toNat_unit hpair, ← toNat_unit hpair', (List.cons.inj h).1]

/-- A value begins with one character. -/
theorem utf16Char_append_inj (h : utf16Char c ++ v = utf16Char c' ++ str) : c = c' ∧ v = str := by
  have hlength : (utf16Char c).length = (utf16Char c').length := by
    rw [← characterLength_utf16Char c v, h, characterLength_utf16Char]
  obtain ⟨hchar, hrest⟩ := List.append_inj h hlength
  exact ⟨utf16Char_injective hchar, hrest⟩

/-- What the encoder takes at the front is a character or a second surrogate. -/
theorem piece_cases (h : 0 < characterLength v) :
    (∃ c, v.take (characterLength v) = utf16Char c) ∨
      ∃ u, IsLow u ∧ v.take (characterLength v) = [u] := by
  cases v with
  | nil => exact absurd h (Nat.lt_irrefl 0)
  | cons u v =>
    rw [characterLength] at h ⊢
    by_cases hhigh : IsHigh u
    · rw [if_pos hhigh] at h ⊢
      by_cases hlow : IsLow (charAt v 0)
      · rw [if_pos hlow]
        cases v with
        | nil => simp [IsLow] at hlow
        | cons w v =>
          rw [charAt_cons_zero] at hlow
          unfold IsHigh at hhigh
          unfold IsLow at hlow
          obtain ⟨c, hc⟩ := @exists_char (0x10000 + (u.toNat - 0xD800) * 0x400 +
            (w.toNat - 0xDC00)) (by omega)
          have hpair : IsPair c := by
            unfold IsPair
            omega
          obtain ⟨hfirst, hsecond⟩ := toNat_units hpair
          refine Or.inl ⟨c, ?_⟩
          rw [utf16Char_of_isPair hpair]
          have hu : u = highUnit c := UInt16.toNat_inj.mp (by omega)
          have hw : w = lowUnit c := UInt16.toNat_inj.mp (by omega)
          rw [← hu, ← hw]
          rfl
      · rw [if_neg hlow] at h
        omega
    · rw [if_neg hhigh, List.take_succ_cons, List.take_zero]
      have hlt := u.toNat_lt
      by_cases hlow : IsLow u
      · exact Or.inr ⟨u, hlow, rfl⟩
      · unfold IsHigh at hhigh
        unfold IsLow at hlow
        obtain ⟨c, hc⟩ := @exists_char u.toNat (by omega)
        have hpair : ¬ IsPair c := by
          unfold IsPair
          omega
        refine Or.inl ⟨c, ?_⟩
        rw [utf16Char_of_not_isPair hpair, hc, UInt16.ofNat_toNat]

/-- A second surrogate gets the bytes of its number. -/
theorem utf32toutf8_low (h : IsLow u) : utf32toutf8 u.toNat = surrogateBytes u := by
  unfold IsLow at h
  rw [utf32toutf8, if_neg (by omega), if_neg (by omega), if_pos (by omega), utf32toutf8Tail_succ,
    utf32toutf8Tail_succ, Nat.shiftRight_eq_div_pow, byte_bits.2.1 _ (by omega), surrogateBytes]
  have hlead : UInt8.ofNat (u.toNat / 2 ^ 12 + 0xe0) = 0xED := by
    rw [show u.toNat / 2 ^ 12 = 13 by omega]
    rfl
  rw [hlead]
  simp [utf32toutf8Tail]

/-- The bytes of what the encoder takes for a character. -/
theorem bytesOf_char (c : Char) : bytesOf (utf16Char c) = String.utf8EncodeChar (readAs c) := by
  have hread := utf16toutf32_utf16Char c []
  rw [List.append_nil] at hread
  rw [bytesOf, hread, utf32toutf8_toNat (toNat_readAs_lt c)]

theorem bytesOf_low (h : IsLow u) : bytesOf [u] = surrogateBytes u := by
  have hrange : ¬ (0xd800 ≤ u.toNat ∧ u.toNat ≤ 0xdbff) := by
    unfold IsLow at h
    omega
  rw [bytesOf, utf16toutf32, charAt_cons_zero, if_neg hrange]
  exact utf32toutf8_low h

/-- A text begins with one character. -/
theorem utf8EncodeChar_append_inj
    (h : String.utf8EncodeChar c ++ t = String.utf8EncodeChar c' ++ t') : c = c' ∧ t = t' := by
  have hread := congrArg utf8toutf32 h
  rw [utf8toutf32_utf8EncodeChar, utf8toutf32_utf8EncodeChar] at hread
  obtain rfl : c = c' := Char.toNat_inj.mp (Prod.ext_iff.mp hread).2
  exact ⟨rfl, List.append_cancel_left h⟩

/-- The bytes of a surrogate are those of no character. -/
theorem surrogateBytes_append_ne (h : IsLow u) :
    surrogateBytes u ++ t ≠ String.utf8EncodeChar c ++ t' := by
  intro heq
  have hscalar := toNat_scalar c
  have hread := congrArg utf8toutf32 heq
  unfold IsLow at h
  have hlead : (0xED : UInt8) = UInt8.ofNat (u.toNat / 4096 % 16 + 0xe0) := by
    rw [show u.toNat / 4096 % 16 = 13 by omega]
    rfl
  have hvalue : (utf8toutf32 (surrogateBytes u ++ t)).2 = u.toNat := by
    rw [surrogateBytes, hlead, utf8toutf32, List.cons_append, List.headD_cons,
      toNat_ofNat_byte (by omega), if_neg (by omega), if_neg (by omega), if_pos (by omega),
      lead_bits.2.1 _ (by omega)]
    simp only [List.tail_cons, List.cons_append,
      utf8toutf32Tail_succ (show u.toNat % 64 < 64 by omega),
      utf8toutf32Tail_succ (show u.toNat / 64 % 64 < 64 by omega)]
    simp only [utf8toutf32Tail]
    omega
  rw [utf8toutf32_utf8EncodeChar] at hread
  have hsame := (Prod.ext_iff.mp hread).2
  rw [hvalue] at hsame
  dsimp only at hsame
  omega

/-- What accounts for a value that begins with a character begins with its UTF-8 form. -/
theorem accounts_char_iff :
    Accounts own (utf16Char c ++ v) t ↔
      ∃ t', t = String.utf8EncodeChar c ++ t' ∧ Accounts own v t' := by
  constructor
  · intro h
    generalize hvalue : utf16Char c ++ v = value at h
    cases h with
    | nil => exact absurd hvalue (utf16Char_append_ne_nil c v)
    | char c' h =>
      obtain ⟨rfl, rfl⟩ := utf16Char_append_inj hvalue
      exact ⟨_, rfl, h⟩
    | unpaired hsurrogate _ _ =>
      rcases hsurrogate with ⟨hhigh, hnot⟩ | hlow
      · exact absurd (isLow_of_utf16Char hvalue.symm hhigh) hnot
      · exact absurd hlow (not_isLow_of_utf16Char hvalue.symm)
  · rintro ⟨t', rfl, h⟩
    exact .char c h

/-- What accounts for a value that begins with a second surrogate begins with a replacement. -/
theorem accounts_low_iff (hlow : IsLow u) :
    Accounts own (u :: v) t ↔ ∃ r t', t = r ++ t' ∧ Replacement own u r ∧ Accounts own v t' := by
  constructor
  · intro h
    generalize hvalue : u :: v = value at h
    cases h with
    | nil => cases hvalue
    | char c' h => exact absurd hlow (not_isLow_of_utf16Char hvalue)
    | unpaired hsurrogate hr h =>
      obtain ⟨rfl, rfl⟩ := List.cons.inj hvalue
      exact ⟨_, _, rfl, hr, h⟩
  · rintro ⟨r, t', rfl, hr, h⟩
    exact .unpaired (Or.inr hlow) hr h

/-- A replacement is not empty. -/
theorem replacement_length_pos {r : List UInt8} (h : Replacement own u r) : 0 < r.length := by
  obtain ⟨c, rfl⟩ | ⟨-, rfl⟩ := h
  · exact utf8EncodeChar_length_pos c
  · exact Nat.succ_pos _

/-- Every unit takes a byte at least. -/
theorem Accounts.length_le (h : Accounts own v t) : v.length ≤ t.length := by
  induction h with
  | nil => exact Nat.le_refl _
  | char c h ih =>
    have hsize : (utf16Char c).length ≤ (String.utf8EncodeChar c).length := by
      have := utf8EncodeChar_length_pos c
      by_cases hpair : IsPair c
      · have hlarge : ¬ c.toNat ≤ 0xFFFF := by
          unfold IsPair at hpair
          omega
        have hval : c.val.toNat = c.toNat := rfl
        rw [utf16Char_of_isPair hpair, String.utf8EncodeChar, hval, if_neg (by omega),
          if_neg (by omega), if_neg hlarge]
        simp
      · rw [utf16Char_of_not_isPair hpair, List.length_singleton]
        exact this
    rw [List.length_append, List.length_append]
    omega
  | unpaired hsurrogate hr h ih =>
    have := replacement_length_pos hr
    rw [List.length_cons, List.length_append]
    omega

theorem wellRead_of_zero (h : characterLength v = 0) : WellRead own v ↔ v = [] := by
  rw [WellRead, unpaired_of_zero h, split_of_zero h]
  simp

theorem wellRead_of_pos (h : 0 < characterLength v) :
    WellRead own v ↔ Readable own (v.take (characterLength v)) ∧
      WellRead own (v.drop (characterLength v)) := by
  rw [WellRead, unpaired_of_pos h, split_of_pos characterLength_fits h, List.forall_mem_cons,
    WellRead, and_left_comm]

/-- The bytes of the characters at the front account for a value exactly if the encoder reads
all of it as it is. -/
theorem accounts_encoded_iff (v : List SQLWCHAR) : Accounts own v (encoded v) ↔ WellRead own v := by
  induction v using induction_on characterLength_fits with
  | rest v h =>
    rw [encoded_of_zero h, wellRead_of_zero h]
    constructor
    · intro haccounts
      have hle := haccounts.length_le
      rw [List.length_nil] at hle
      exact List.eq_nil_of_length_eq_zero (Nat.eq_zero_of_le_zero hle)
    · rintro rfl
      exact .nil
  | piece v h ih =>
    have hencoded : encoded v = bytesOf (v.take (characterLength v)) ++
        encoded (v.drop (characterLength v)) := by
      rw [encoded_of_pos h, bytesOf, utf16toutf32_take h]
    have hv : v = v.take (characterLength v) ++ v.drop (characterLength v) :=
      (List.take_append_drop _ _).symm
    rw [hencoded, wellRead_of_pos h, ← ih]
    obtain ⟨c, hc⟩ | ⟨u, hlow, hu⟩ := piece_cases h
    · rw [hc] at hv ⊢
      rw [bytesOf_char]
      have hreadable : Readable own (utf16Char c) ↔ ¬ InEvenPlane c := by
        constructor
        · intro hread
          exact hread.1 c rfl
        · intro hodd
          refine ⟨fun c' hc' => by rwa [← utf16Char_injective hc'], fun _ u hu => ?_⟩
          exact not_isLow_of_utf16Char (v := []) (by rw [List.append_nil, hu])
      rw [hreadable]
      nth_rewrite 1 [hv]
      rw [accounts_char_iff]
      constructor
      · rintro ⟨t', heq, haccounts⟩
        obtain ⟨hsame, rfl⟩ := utf8EncodeChar_append_inj heq
        exact ⟨fun heven => readAs_ne heven hsame, haccounts⟩
      · rintro ⟨hodd, haccounts⟩
        exact ⟨_, by rw [readAs_of_not_inEvenPlane hodd], haccounts⟩
    · rw [hu] at hv ⊢
      rw [bytesOf_low hlow]
      have hreadable : Readable own [u] ↔ own = true := by
        constructor
        · intro hread
          by_contra hown
          exact hread.2 (Bool.not_eq_true _ ▸ hown) u rfl hlow
        · intro hown
          refine ⟨fun c hc => ?_, fun hnot => absurd (hown.symm.trans hnot) (by decide)⟩
          exact absurd hlow (not_isLow_of_utf16Char (v := []) (by rw [List.append_nil, ← hc]))
      rw [hreadable]
      nth_rewrite 1 [hv]
      rw [List.singleton_append, accounts_low_iff hlow]
      constructor
      · rintro ⟨r, t', heq, ⟨c, rfl⟩ | ⟨hown, rfl⟩, haccounts⟩
        · exact absurd heq (surrogateBytes_append_ne hlow)
        · exact ⟨hown, by rwa [List.append_cancel_left heq]⟩
      · rintro ⟨hown, haccounts⟩
        exact ⟨_, _, rfl, Or.inr ⟨hown, rfl⟩, haccounts⟩

end MatrixOdbc.Util
