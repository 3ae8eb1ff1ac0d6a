import MatrixOdbc.Util.UnicodeTranscode

/-!
# The way through UTF-8 and back

The encoder reads a supplementary character of an even plane as the character one
plane below, because it sets the bit of plane 1 where it has to be added. The
decoder writes the last character of the basic plane as two units. Every other
character gets its standard form in both directions, so a text survives exactly
if it has no character of these two kinds.
-/

namespace MatrixOdbc.Util

open WhileLoop Utf

variable {c : Char} {cs : List Char}

/-- The supplementary characters whose plane is even. -/
def InEvenPlane (c : Char) : Prop := IsPair c ∧ c.toNat / 0x10000 % 2 = 0

instance : DecidablePred InEvenPlane := fun _ => inferInstanceAs (Decidable (_ ∧ _))

/-- The character as which the encoder reads `c`. -/
def readAs (c : Char) : Char := if InEvenPlane c then Char.ofNat (c.toNat - 0x10000) else c

theorem readAs_of_not_inEvenPlane (h : ¬ InEvenPlane c) : readAs c = c := if_neg h

/-- In an even plane the encoder ends up one plane below. -/
theorem toNat_readAs (h : InEvenPlane c) : (readAs c).toNat = c.toNat - 0x10000 := by
  have hscalar := toNat_scalar c
  obtain ⟨hpair, heven⟩ := h
  have hlarge : 0xFFFF < c.toNat := hpair
  have hvalid : (c.toNat - 0x10000).isValidChar := Or.inr (by omega)
  have hchar : Char.ofNat (c.toNat - 0x10000) = Char.ofNatAux _ hvalid := dif_pos hvalid
  rw [readAs, if_pos ⟨hpair, heven⟩, hchar]
  rfl

theorem readAs_ne (h : InEvenPlane c) : readAs c ≠ c := by
  intro heq
  have hlarge : 0xFFFF < c.toNat := h.1
  have hnat := toNat_readAs h
  rw [heq] at hnat
  omega

/-- The encoder reads a text as it is if no character is in an even plane. -/
theorem map_readAs_eq_iff : cs.map readAs = cs ↔ ∀ c ∈ cs, ¬ InEvenPlane c := by
  have hself : cs.map readAs = cs ↔ cs.map readAs = cs.map id := by rw [List.map_id]
  rw [hself, List.map_inj_left]
  refine forall₂_congr fun c _ => ⟨fun h heven => readAs_ne heven h, fun h => ?_⟩
  exact readAs_of_not_inEvenPlane h

/-- The encoder never meets the one character that it cannot write. -/
theorem toNat_readAs_lt (c : Char) : (readAs c).toNat < 0x10ffff := by
  have hscalar := toNat_scalar c
  by_cases h : InEvenPlane c
  · rw [toNat_readAs h]
    omega
  · rw [readAs_of_not_inEvenPlane h]
    by_contra hge
    have hlast : c.toNat = 0x10FFFF := by omega
    exact h ⟨show 0xFFFF < c.toNat by omega, by rw [hlast]⟩

/-- Setting the bit of plane 1 adds a plane unless the bit is set already. -/
theorem plane_bit {h : ℕ} (hlt : h < 0x400) :
    0x10000 ||| (h <<< 10) = if h / 64 % 2 = 0 then 0x10000 + h * 0x400 else h * 0x400 := by
  have hbit : ∀ h < 0x400, 64 ||| h = if h / 64 % 2 = 0 then 64 + h else h := by decide +kernel
  have hshift : 0x10000 ||| (h <<< 10) = (64 ||| h) <<< 10 := by
    rw [Nat.shiftLeft_or_distrib]
    rfl
  rw [hshift, hbit h hlt, Nat.shiftLeft_eq]
  split_ifs <;> omega

/-- The units of a pair as numbers. -/
theorem toNat_units (h : IsPair c) :
    (highUnit c).toNat = 0xD800 + (c.toNat - 0x10000) / 0x400 ∧
      (lowUnit c).toNat = 0xDC00 + (c.toNat - 0x10000) % 0x400 := by
  have hscalar := toNat_scalar c
  have hlarge : 0xFFFF < c.toNat := h
  rw [highUnit, lowUnit, UInt16.toNat_ofNat', UInt16.toNat_ofNat']
  constructor <;> omega

/-- The unit of a character of the basic plane as a number. -/
theorem toNat_unit (h : ¬ IsPair c) : (UInt16.ofNat c.toNat).toNat = c.toNat := by
  have hsmall : ¬ 0xFFFF < c.toNat := h
  rw [UInt16.toNat_ofNat']
  omega

/-- All units of a character are consumed. -/
theorem utf16toutf32_utf16Char (c : Char) (rest : List SQLWCHAR) :
    utf16toutf32 (utf16Char c ++ rest) = ((utf16Char c).length, (readAs c).toNat) := by
  have hscalar := toNat_scalar c
  by_cases hpair : IsPair c
  · have hlarge : 0xFFFF < c.toNat := hpair
    obtain ⟨hhigh, hlow⟩ := toNat_units hpair
    have hvalue : (readAs c).toNat =
        (0x10000 ||| ((c.toNat - 0x10000) / 0x400) <<< 10) ||| (c.toNat - 0x10000) % 0x400 := by
      rw [plane_bit (by omega)]
      by_cases heven : c.toNat / 0x10000 % 2 = 0
      · rw [toNat_readAs ⟨hpair, heven⟩, if_neg (by omega), Nat.mul_comm, or_low_bits _ (by omega)]
        omega
      · rw [readAs_of_not_inEvenPlane fun h => heven h.2, if_pos (by omega)]
        have hmul (h : ℕ) : 0x10000 + h * 0x400 = 0x400 * (64 + h) := by omega
        rw [hmul, or_low_bits _ (by omega)]
        omega
    have hmod : (0xD800 + (c.toNat - 0x10000) / 0x400) % 0x400 = (c.toNat - 0x10000) / 0x400 ∧
        (0xDC00 + (c.toNat - 0x10000) % 0x400) % 0x400 = (c.toNat - 0x10000) % 0x400 := by omega
    rw [utf16Char_of_isPair hpair, utf16toutf32, List.cons_append, List.cons_append,
      charAt_cons_zero, charAt_cons_succ, charAt_cons_zero, hhigh, hlow, if_pos (by omega)]
    simp only [and_low_bits, hmod.1, hmod.2, ← hvalue]
    rw [if_neg (by omega)]
    rfl
  · have hodd : ¬ InEvenPlane c := fun h => hpair h.1
    rw [utf16Char_of_not_isPair hpair, utf16toutf32, List.cons_append, charAt_cons_zero,
      toNat_unit hpair, readAs_of_not_inEvenPlane hodd, if_neg (by omega)]
    rfl

/-- A byte of the encoder is its marker plus the bits it carries. -/
theorem byte_bits :
    (∀ x < 32, (3 <<< 6) ||| x = x + 0xc0) ∧ (∀ x < 16, (7 <<< 5) ||| x = x + 0xe0) ∧
      (∀ x < 8, (0xf <<< 4) ||| x = x + 0xf0) ∧ ∀ x < 64, (1 <<< 7) ||| x = x + 0x80 := by
  decide

/-- The continuation byte for the bits from `6 * x` on. -/
theorem utf32toutf8Tail_succ (v x : ℕ) :
    utf32toutf8Tail v (x + 1) =
      UInt8.ofNat (v / 2 ^ (6 * x) % 64 + 0x80) :: utf32toutf8Tail v x := by
  have hmask (n : ℕ) : n &&& 0x3f = n % 64 := Nat.and_two_pow_sub_one_eq_mod n 6
  rw [utf32toutf8Tail, Nat.shiftRight_eq_div_pow, hmask, byte_bits.2.2.2 _ (by omega)]

/-- The encoder writes the standard form. -/
theorem utf32toutf8_toNat (h : c.toNat < 0x10ffff) :
    utf32toutf8 c.toNat = String.utf8EncodeChar c := by
  have hval : c.val.toNat = c.toNat := rfl
  simp only [String.utf8EncodeChar, hval]
  generalize c.toNat = v at *
  have hmask : v &&& 0x7f = v % 128 := Nat.and_two_pow_sub_one_eq_mod v 7
  rw [utf32toutf8]
  by_cases h₁ : v < 0x80
  · rw [if_pos h₁, if_pos (show v ≤ 0x7f by omega), hmask, Nat.mod_eq_of_lt (by omega)]
  rw [if_neg h₁, if_neg (show ¬ v ≤ 0x7f by omega)]
  by_cases h₂ : v < 0x800
  · rw [if_pos h₂, if_pos (show v ≤ 0x7ff by omega), utf32toutf8Tail_succ,
      Nat.shiftRight_eq_div_pow, byte_bits.1 _ (by omega), show v / 64 % 0x20 = v / 2 ^ 6 by omega]
    simp [utf32toutf8Tail]
  rw [if_neg h₂, if_neg (show ¬ v ≤ 0x7ff by omega)]
  by_cases h₃ : v < 0x10000
  · rw [if_pos h₃, if_pos (show v ≤ 0xffff by omega), utf32toutf8Tail_succ, utf32toutf8Tail_succ,
      Nat.shiftRight_eq_div_pow, byte_bits.2.1 _ (by omega),
      show v / 4096 % 0x10 = v / 2 ^ 12 by omega]
    simp [utf32toutf8Tail]
  · rw [if_neg h₃, if_neg (show ¬ v ≤ 0xffff by omega), if_pos h, utf32toutf8Tail_succ,
      utf32toutf8Tail_succ, utf32toutf8Tail_succ, Nat.shiftRight_eq_div_pow,
      byte_bits.2.2.1 _ (by omega), show v / 262144 % 0x08 = v / 2 ^ 18 by omega]
    simp [utf32toutf8Tail]

/-- A continuation byte adds six bits. -/
theorem utf8toutf32Tail_succ {y : ℕ} (hy : y < 64) (x : ℕ) (i : List UInt8) (u : ℕ) :
    utf8toutf32Tail (x + 1) (UInt8.ofNat (y + 0x80) :: i) u =
      utf8toutf32Tail x i (u * 64 + y) := by
  have hmark : ∀ y < 64, (y + 0x80) >>> 6 = 2 := by decide
  have hor : u <<< 6 ||| y = u * 64 + y := by
    rw [Nat.shiftLeft_eq, Nat.mul_comm]
    exact (Nat.two_pow_add_eq_or_of_lt (i := 6) hy u).symm
  rw [utf8toutf32Tail, List.headD_cons, toNat_ofNat_byte (by omega), (continuation_bits y hy).2,
    hmark y hy, hor]
  rfl

/-- The decoder reads an encoded character back. -/
theorem utf8toutf32_utf8EncodeChar (c : Char) (rest : List UInt8) :
    utf8toutf32 (String.utf8EncodeChar c ++ rest) =
      ((String.utf8EncodeChar c).length, c.toNat) := by
  have hscalar := toNat_scalar c
  have hval : c.val.toNat = c.toNat := rfl
  simp only [String.utf8EncodeChar, hval]
  generalize c.toNat = v at *
  split_ifs with h₁ h₂ h₃
  · rw [utf8toutf32, List.cons_append, List.headD_cons, toNat_ofNat_byte (by omega),
      if_pos (by omega)]
    rfl
  · rw [utf8toutf32, List.cons_append, List.headD_cons, toNat_ofNat_byte (by omega),
      if_neg (by omega), if_pos (by omega), lead_bits.1 _ (by omega)]
    simp only [List.tail_cons, List.cons_append, utf8toutf32Tail_succ (show v % 64 < 64 by omega)]
    refine Prod.ext rfl ?_
    simp only [utf8toutf32Tail]
    omega
  · rw [utf8toutf32, List.cons_append, List.headD_cons, toNat_ofNat_byte (by omega),
      if_neg (by omega), if_neg (by omega), if_pos (by omega), lead_bits.2.1 _ (by omega)]
    simp only [List.tail_cons, List.cons_append, utf8toutf32Tail_succ (show v % 64 < 64 by omega),
      utf8toutf32Tail_succ (show v / 64 % 64 < 64 by omega)]
    refine Prod.ext rfl ?_
    simp only [utf8toutf32Tail]
    omega
  · rw [utf8toutf32, List.cons_append, List.headD_cons, toNat_ofNat_byte (by omega),
      if_neg (by omega), if_neg (by omega), if_neg (by omega), (lead_bits.2.2 _ (by omega)).1]
    simp only [List.tail_cons, List.cons_append, utf8toutf32Tail_succ (show v % 64 < 64 by omega),
      utf8toutf32Tail_succ (show v / 64 % 64 < 64 by omega),
      utf8toutf32Tail_succ (show v / 4096 % 64 < 64 by omega)]
    refine Prod.ext rfl ?_
    simp only [utf8toutf32Tail]
    omega

/-- A UTF-8 text has one reading. -/
theorem utf8_injective : Function.Injective utf8 := by
  intro cs
  induction cs with
  | nil =>
    rintro (- | ⟨c, cs'⟩) h
    · rfl
    · have := utf8EncodeChar_length_pos c
      have hlen := congrArg List.length h
      simp only [utf8_nil, utf8_cons, List.length_append, List.length_nil] at hlen
      omega
  | cons c cs ih =>
    rintro (- | ⟨c', cs'⟩) h
    · have := utf8EncodeChar_length_pos c
      have hlen := congrArg List.length h
      simp only [utf8_nil, utf8_cons, List.length_append, List.length_nil] at hlen
      omega
    · have hread := congrArg utf8toutf32 h
      rw [utf8_cons, utf8_cons, utf8toutf32_utf8EncodeChar, utf8toutf32_utf8EncodeChar] at hread
      have hc : c = c' := Char.toNat_inj.mp (Prod.ext_iff.mp hread).2
      subst hc
      rw [ih (List.append_cancel_left h)]

/-- The last character of the basic plane becomes two units. -/
theorem utf32toutf16_last : utf32toutf16 0xFFFF = [0xFFFF, 0xDFFF] := by decide

/-- Two characters apart, the decoder writes the standard form. -/
theorem utf32toutf16_toNat (h : c.toNat ≠ 0xFFFF) (hlast : c.toNat < 0x10ffff) :
    utf32toutf16 c.toNat = utf16Char c := by
  by_cases hpair : IsPair c
  · have hlarge : 0xFFFF < c.toNat := hpair
    rw [utf16Char_of_isPair hpair, highUnit, lowUnit]
    generalize c.toNat = v at *
    have hsub : (v + utf32Size - 0x10000) % utf32Size = v - 0x10000 := by
      unfold utf32Size
      omega
    rw [utf32toutf16, if_neg (by omega), if_pos hlast]
    simp only [hsub, and_low_bits, Nat.shiftRight_eq_div_pow]
    rw [or_low_bits 54 (by omega), or_low_bits 55 (by omega)]
  · have hsmall : ¬ 0xFFFF < c.toNat := hpair
    have hmask : c.toNat &&& 0xffff = c.toNat % 0x10000 := Nat.and_two_pow_sub_one_eq_mod _ 16
    rw [utf16Char_of_not_isPair hpair, utf32toutf16, if_pos (by omega), hmask,
      Nat.mod_eq_of_lt (by omega)]

variable {str rest : List SQLWCHAR} {bytes behind : List UInt8} {p fuel : ℕ}

/-- One round of the encoder converts one character. -/
theorem encodeBody_char {written free : List UInt8} {used : Bool} {strEnd : ℕ}
    (h : str.drop p = utf16Char c ++ rest) (hend : p < strEnd) :
    encodeBody str strEnd ⟨p, written.length, written ++ free, used⟩ =
      .next ⟨p + (utf16Char c).length,
        (written ++ String.utf8EncodeChar (readAs c)).length,
        written ++ String.utf8EncodeChar (readAs c) ++
          free.drop (String.utf8EncodeChar (readAs c)).length,
        used || (String.utf8EncodeChar (readAs c)).length == 4⟩ := by
  have hconsumed : (utf16Char c).length ≠ 0 := (utf16Char_length_pos c).ne'
  rw [encodeBody, if_neg (by dsimp only; omega), h, utf16toutf32_utf16Char]
  simp only [if_neg hconsumed, utf32toutf8_toNat (toNat_readAs_lt c), Buffer.store_append rfl,
    List.length_append]

/-- The encoder converts a text character by character. -/
theorem run_encodeBody (cs : List Char) (written free : List UInt8) (used : Bool) {strEnd : ℕ}
    (h : str.drop p = utf16 cs ++ rest) (hend : p + (utf16 cs).length = strEnd)
    (hfuel : (utf16 cs).length < fuel) :
    run (encodeBody str strEnd) fuel ⟨p, written.length, written ++ free, used⟩ =
      some ⟨strEnd, (written ++ utf8 (cs.map readAs)).length,
        written ++ utf8 (cs.map readAs) ++ free.drop (utf8 (cs.map readAs)).length,
        used || cs.any fun c => (String.utf8EncodeChar (readAs c)).length == 4⟩ := by
  induction cs generalizing p written free used fuel with
  | nil =>
    obtain ⟨fuel, rfl⟩ : ∃ n, fuel = n + 1 := ⟨fuel - 1, by simp at hfuel; omega⟩
    have hdone : strEnd ≤ p := by simp at hend; omega
    have hpos : p = strEnd := by simp at hend; omega
    rw [run_succ_done (by rw [encodeBody, if_pos hdone])]
    simp [hpos]
  | cons c cs ih =>
    have hchar := utf16Char_length_pos c
    simp only [utf16_cons, List.length_append, List.append_assoc] at h hend hfuel
    obtain ⟨fuel, rfl⟩ : ∃ n, fuel = n + 1 := ⟨fuel - 1, by omega⟩
    have hdrop : str.drop (p + (utf16Char c).length) = utf16 cs ++ rest := by
      rw [← List.drop_drop, h, List.drop_left]
    rw [run_succ_next (encodeBody_char h (by omega)), ih _ _ _ hdrop (by omega) (by omega)]
    simp [List.drop_drop, Bool.or_assoc]

/-- What the decoder makes of a text. -/
def decoded (cs : List Char) : List SQLWCHAR := cs.flatMap fun c => utf32toutf16 c.toNat

@[simp] theorem decoded_cons : decoded (c :: cs) = utf32toutf16 c.toNat ++ decoded cs := rfl

/-- Only the very last code point is dropped by the decoder. -/
theorem utf32toutf16_length_pos {i : ℕ} (h : i < 0x10ffff) : 0 < (utf32toutf16 i).length := by
  rw [utf32toutf16]
  split_ifs
  · simp
  · simp

/-- The decoder converts a text character by character while there is room. -/
theorem run_decodeBody (cs : List Char) (written free : List SQLWCHAR) {outEnd inLen : ℕ}
    (hlast : ∀ c ∈ cs, c.toNat < 0x10ffff) (h : bytes.drop p = utf8 cs ++ behind)
    (hend : p + (utf8 cs).length = inLen) (hroom : written.length + (decoded cs).length ≤ outEnd)
    (hfuel : (utf8 cs).length < fuel) :
    run (decodeBody outEnd bytes inLen) fuel ⟨p, written.length, written ++ free⟩ =
      some ⟨inLen, (written ++ decoded cs).length,
        written ++ decoded cs ++ free.drop (decoded cs).length⟩ := by
  induction cs generalizing p fuel written free with
  | nil =>
    obtain ⟨fuel, rfl⟩ : ∃ n, fuel = n + 1 := ⟨fuel - 1, by simp at hfuel; omega⟩
    have hpos : p = inLen := by simp at hend; omega
    rw [run_succ_done (by rw [decodeBody, if_pos (Or.inl hpos.ge)])]
    simp [hpos, decoded]
  | cons c cs ih =>
    have hchar := utf8EncodeChar_length_pos c
    have hunits := utf32toutf16_length_pos (hlast c List.mem_cons_self)
    simp only [utf8_cons, decoded_cons, List.length_append, List.append_assoc] at h hend hroom hfuel
    obtain ⟨fuel, rfl⟩ : ∃ n, fuel = n + 1 := ⟨fuel - 1, by omega⟩
    have hstep : decodeBody outEnd bytes inLen ⟨p, written.length, written ++ free⟩ =
        .next ⟨p + (String.utf8EncodeChar c).length,
          (written ++ utf32toutf16 c.toNat).length,
          written ++ utf32toutf16 c.toNat ++ free.drop (utf32toutf16 c.toNat).length⟩ := by
      rw [decodeBody, if_neg (by dsimp only; omega), h, utf8toutf32_utf8EncodeChar]
      simp only [if_neg hchar.ne', Buffer.store_append rfl, List.length_append]
    have hdrop : bytes.drop (p + (String.utf8EncodeChar c).length) = utf8 cs ++ behind := by
      rw [← List.drop_drop, h, List.drop_left]
    have hrest := ih (written ++ utf32toutf16 c.toNat)
      (free.drop (utf32toutf16 c.toNat).length)
      (fun c hc => hlast c (List.mem_cons_of_mem _ hc)) hdrop (by omega)
      (by rw [List.length_append]; omega) (show (utf8 cs).length < fuel by omega)
    rw [run_succ_next hstep, hrest]
    simp [List.drop_drop]

/-- What a call of `sqlwchar_as_utf8_ext` finds besides the string: the blocks that
can be allocated, the buffer it is offered, the flag and the memory behind the
string. -/
structure EncodeCall where
  malloc : ℕ → List UInt8
  malloc_length : ∀ n, (malloc n).length = n
  buff : Option (List UInt8)
  buffMax : ℕ
  buffMax_le : ∀ b, buff = some b → buffMax ≤ b.length
  utf8mb4Used : Bool
  behind : List SQLWCHAR

/-- Encode the UTF-16 form of a text. -/
def EncodeCall.encode (m : EncodeCall) (cs : List Char) : Option EncodeResult :=
  sqlwcharAsUtf8Ext (fun n => some (m.malloc n)) (some (utf16 cs ++ m.behind))
    (some (utf16 cs).length) m.buff m.buffMax m.utf8mb4Used

/-- Every unit of a text gets at most four bytes. -/
theorem length_utf8_le (cs : List Char) :
    (utf8 (cs.map readAs)).length ≤ (utf16 cs).length * MAX_BYTES_PER_UTF8_CP := by
  induction cs with
  | nil => simp
  | cons c cs ih =>
    have hchar := utf16Char_length_pos c
    have hsize : (String.utf8EncodeChar (readAs c)).length ≤ 4 := by
      rw [String.length_utf8EncodeChar]
      exact (readAs c).utf8Size_le_four
    simp only [MAX_BYTES_PER_UTF8_CP, List.map_cons, utf8_cons, utf16_cons,
      List.length_append] at ih ⊢
    omega

variable (m : EncodeCall)

/-- The encoder writes the text as it reads it into the block it has chosen. -/
theorem EncodeCall.encode_into {block : List UInt8} (h : 0 < (utf16 cs).length)
    (hblock : (if m.buff.isNone ∨ m.buffMax < (utf16 cs).length * MAX_BYTES_PER_UTF8_CP then
      some (m.malloc (MAX_BYTES_PER_UTF8_CP * (utf16 cs).length + 1)) else m.buff) = some block) :
    m.encode cs = some ⟨some (utf8 (cs.map readAs) ++
      block.drop (utf8 (cs.map readAs)).length), (utf8 (cs.map readAs)).length,
        m.utf8mb4Used || cs.any fun c => (String.utf8EncodeChar (readAs c)).length == 4⟩ := by
  have hstr : (utf16 cs ++ m.behind).drop 0 = utf16 cs ++ m.behind := rfl
  have hrun := run_encodeBody cs [] block m.utf8mb4Used hstr rfl (Nat.lt_succ_self _)
  simp only [List.length_nil, List.nil_append, Nat.zero_add] at hrun
  have hnonempty : ¬ ((utf16 cs).length : ℤ) ≤ 0 := by omega
  simp only [encode, sqlwcharAsUtf8Ext, Option.getD_some, if_neg hnonempty, Int.toNat_natCast,
    hblock, hrun, Option.map_some]

/-- The block has room for the text. -/
theorem EncodeCall.encode_eq (h : cs ≠ []) :
    ∃ block : List UInt8, (utf8 (cs.map readAs)).length ≤ block.length ∧
      m.encode cs = some ⟨some (utf8 (cs.map readAs) ++
        block.drop (utf8 (cs.map readAs)).length), (utf8 (cs.map readAs)).length,
          m.utf8mb4Used || cs.any fun c => (String.utf8EncodeChar (readAs c)).length == 4⟩ := by
  have hpos : 0 < (utf16 cs).length := by
    obtain ⟨c, cs, rfl⟩ := List.exists_cons_of_ne_nil h
    have := utf16Char_length_pos c
    rw [utf16_cons, List.length_append]
    omega
  have hbytes := length_utf8_le cs
  by_cases hmalloc : m.buff.isNone ∨ m.buffMax < (utf16 cs).length * MAX_BYTES_PER_UTF8_CP
  · refine ⟨_, ?_, m.encode_into hpos (if_pos hmalloc)⟩
    rw [m.malloc_length, Nat.mul_comm]
    omega
  · obtain ⟨hsome, hmax⟩ := not_or.mp hmalloc
    obtain ⟨block, hblock⟩ := Option.ne_none_iff_exists'.mp (by simpa using hsome)
    refine ⟨block, ?_, m.encode_into hpos ((if_neg hmalloc).trans hblock)⟩
    have := m.buffMax_le block hblock
    omega

/-- The encoder announces the text as it reads it. -/
theorem EncodeCall.exists_encode (cs : List Char) :
    ∃ r after, m.encode cs = some r ∧ r.u8.getD [] = utf8 (cs.map readAs) ++ after ∧
      r.len = (utf8 (cs.map readAs)).length := by
  by_cases h : cs = []
  · subst h
    exact ⟨⟨m.buff, 0, m.utf8mb4Used⟩, m.buff.getD [], rfl, rfl, rfl⟩
  · obtain ⟨block, -, hencode⟩ := m.encode_eq h
    exact ⟨_, _, hencode, rfl, rfl⟩

/-- With room for what it writes, the decoder leaves it in the buffer, terminated. -/
theorem utf8AsSqlwchar_utf8 {out : List SQLWCHAR} {outMax : ℕ}
    (hlast : ∀ c ∈ cs, c.toNat < 0x10ffff) (hroom : (decoded cs).length ≤ outMax) :
    utf8AsSqlwchar out outMax (utf8 cs ++ behind) (utf8 cs).length =
      some (decoded cs ++ 0 :: out.drop ((decoded cs).length + 1),
        toSmallint (decoded cs).length) := by
  have hbytes : (utf8 cs ++ behind).drop 0 = utf8 cs ++ behind := rfl
  have hrun := run_decodeBody cs [] out hlast hbytes (Nat.zero_add _)
    (show [].length + (decoded cs).length ≤ outMax by simpa using hroom) (Nat.lt_succ_self _)
  rw [List.length_nil, List.nil_append] at hrun
  rw [utf8AsSqlwchar, hrun, Option.map_some]
  simp [Buffer.store_append rfl]

/-- The encoding is the standard one, and decoding it into any buffer with room
for the text and its terminator restores the units. -/
def TextRoundTrips (cs : List Char) : Prop :=
  ∃ r, m.encode cs = some r ∧ r.text = utf8 cs ∧
    ∀ (out : List SQLWCHAR) (outMax : ℕ), (utf16 cs).length ≤ outMax → outMax < out.length →
      ∃ n, utf8AsSqlwchar out outMax (r.u8.getD []) r.len.toNat =
        some (utf16 cs ++ 0 :: out.drop ((utf16 cs).length + 1), n)

/-- Texts without the last character of the basic plane are decoded as they are. -/
theorem decoded_eq (h : ∀ c ∈ cs, c.toNat ≠ 0xFFFF ∧ c.toNat < 0x10ffff) :
    decoded cs = utf16 cs := by
  induction cs with
  | nil => rfl
  | cons c cs ih =>
    obtain ⟨hc, hlast⟩ := h c List.mem_cons_self
    rw [decoded_cons, utf16_cons, utf32toutf16_toNat hc hlast,
      ih fun c hc => h c (List.mem_cons_of_mem _ hc)]

/-- A terminated text does not begin with a second surrogate. -/
theorem head_ne_low (cs : List Char) (rest : List SQLWCHAR) :
    (utf16 cs ++ 0 :: rest).head? ≠ some 0xDFFF := by
  cases cs with
  | nil => simp
  | cons c cs =>
    have hscalar := toNat_scalar c
    by_cases hpair : IsPair c
    · have hhigh := (toNat_units hpair).1
      rw [utf16_cons, utf16Char_of_isPair hpair]
      intro h
      have heq : highUnit c = 0xDFFF := by simpa using h
      rw [heq, show (0xDFFF : UInt16).toNat = 0xDFFF by rfl] at hhigh
      omega
    · have hunit := toNat_unit hpair
      rw [utf16_cons, utf16Char_of_not_isPair hpair]
      intro h
      have heq : UInt16.ofNat c.toNat = 0xDFFF := by simpa using h
      rw [heq, show (0xDFFF : UInt16).toNat = 0xDFFF by rfl] at hunit
      omega

/-- The last character of the basic plane shows in the decoded text. -/
theorem toNat_ne_of_decoded {rest rest' : List SQLWCHAR} (hlast : ∀ c ∈ cs, c.toNat < 0x10ffff)
    (h : decoded cs ++ 0 :: rest = utf16 cs ++ 0 :: rest') : ∀ c ∈ cs, c.toNat ≠ 0xFFFF := by
  induction cs with
  | nil => simp
  | cons c cs ih =>
    rw [decoded_cons, utf16_cons, List.append_assoc, List.append_assoc] at h
    have hc : c.toNat ≠ 0xFFFF := by
      intro heq
      have hpair : ¬ IsPair c := by
        unfold IsPair
        omega
      rw [heq, utf32toutf16_last, utf16Char_of_not_isPair hpair] at h
      have htail := congrArg (fun l : List SQLWCHAR => l.tail.head?) h
      exact head_ne_low cs rest' (by simpa using htail.symm)
    rw [utf32toutf16_toNat hc (hlast c List.mem_cons_self)] at h
    have hrest := ih (fun c hc => hlast c (List.mem_cons_of_mem _ hc)) (List.append_cancel_left h)
    exact List.forall_mem_cons.mpr ⟨hc, hrest⟩

/-- A text survives the way to UTF-8 and back exactly if it has neither the last
character of the basic plane nor a supplementary character of an even plane. -/
theorem utf_roundTrips_iff (cs : List Char) :
    TextRoundTrips m cs ↔
      ∀ c ∈ cs, c.toNat ≠ 0xFFFF ∧ ¬ (0x10000 ≤ c.toNat ∧ c.toNat / 0x10000 % 2 = 0) := by
  obtain ⟨r, after, hencode, hmemory, hlen⟩ := m.exists_encode cs
  have htext : r.text = utf8 (cs.map readAs) := by
    rw [EncodeResult.text, hmemory, hlen, Int.toNat_natCast, List.take_left]
  constructor
  · rintro ⟨r', hr', hstandard, hdecode⟩
    obtain rfl : r' = r := Option.some.inj (hr'.symm.trans hencode)
    have hmap : cs.map readAs = cs := utf8_injective (htext.symm.trans hstandard)
    have hodd := map_readAs_eq_iff.mp hmap
    have hlast : ∀ c ∈ cs, c.toNat < 0x10ffff := by
      intro c hc
      rw [← readAs_of_not_inEvenPlane (hodd c hc)]
      exact toNat_readAs_lt c
    let outMax := (decoded cs).length + (utf16 cs).length
    obtain ⟨n, hout⟩ := hdecode (List.replicate (outMax + 1) 0) outMax (Nat.le_add_left _ _)
      (by simp)
    rw [hmemory, hlen, Int.toNat_natCast, hmap,
      utf8AsSqlwchar_utf8 hlast (Nat.le_add_right _ _)] at hout
    have hne := toNat_ne_of_decoded hlast (Prod.ext_iff.mp (Option.some.inj hout)).1
    exact fun c hc => ⟨hne c hc, fun heven => hodd c hc heven⟩
  · intro h
    have hodd : ∀ c ∈ cs, ¬ InEvenPlane c := fun c hc => (h c hc).2
    have hmap := map_readAs_eq_iff.mpr hodd
    have hchars : ∀ c ∈ cs, c.toNat ≠ 0xFFFF ∧ c.toNat < 0x10ffff := by
      intro c hc
      rw [← readAs_of_not_inEvenPlane (hodd c hc)]
      refine ⟨?_, toNat_readAs_lt c⟩
      rw [readAs_of_not_inEvenPlane (hodd c hc)]
      exact (h c hc).1
    refine ⟨r, hencode, htext.trans (by rw [hmap]), ?_⟩
    intro out outMax hroom hout
    have hdecoded := decoded_eq hchars
    rw [hmemory, hlen, Int.toNat_natCast, hmap]
    refine ⟨toSmallint (utf16 cs).length, ?_⟩
    rw [utf8AsSqlwchar_utf8 (fun c hc => (hchars c hc).2) (by rwa [hdecoded]), hdecoded]

/-- A call with blocks of zeros. -/
def zeroBlocks : EncodeCall where
  malloc n := List.replicate n 0
  malloc_length n := List.length_replicate
  buff := none
  buffMax := 0
  buffMax_le := by simp
  utf8mb4Used := false
  behind := []

/-- The first character of plane 2 is encoded as the first of plane 1. -/
theorem utf_failingText_not_roundTrips :
    utf16 [Char.ofNat 0x20000] = [0xD840, 0xDC00] ∧
      (zeroBlocks.encode [Char.ofNat 0x20000]).map (·.text) = some [0xF0, 0x90, 0x80, 0x80] ∧
        utf8 [Char.ofNat 0x20000] = [0xF0, 0xA0, 0x80, 0x80] ∧
          ¬ TextRoundTrips zeroBlocks [Char.ofNat 0x20000] := by
  have hencode : (zeroBlocks.encode [Char.ofNat 0x20000]).map (·.text) =
      some [0xF0, 0x90, 0x80, 0x80] := by decide +kernel
  have hstandard : utf8 [Char.ofNat 0x20000] = [0xF0, 0xA0, 0x80, 0x80] := by decide +kernel
  refine ⟨by decide +kernel, hencode, hstandard, ?_⟩
  rintro ⟨r, hr, htext, -⟩
  rw [hr, Option.map_some, htext, hstandard] at hencode
  exact absurd hencode (by decide)

end MatrixOdbc.Util
