import MatrixOdbc.MysqlStrings.Charset
import MatrixOdbc.Util.DecodeBounds

/-!
# The bounds of `sqlchar_as_sqlwchar`

A text in another character set is first converted to UTF-8 by `copy_and_convert`, which
writes complete sequences only. A UTF-8 text is decoded as it is. The loop that
decodes stops at a NUL, counts an error where no sequence is, and has a block with one unit more
than there are bytes.
-/

namespace MatrixOdbc.Util

open WhileLoop Splitting MysqlStrings

variable {bytes xs : List UInt8} {out : List SQLWCHAR} {p i fuel wc : ℕ} {errors : Option ℕ}

/-- What `myodbc_malloc` returns for a size in bytes: a block of that size, or a null pointer. -/
structure Allocator where
  bytes : ℕ → Option (List UInt8)
  units : ℕ → Option (List SQLWCHAR)
  bytes_length : ∀ n block, bytes n = some block → block.length = n
  units_length : ∀ n block, units n = some block → block.length = n / 2

/-- What is used of a `CHARSET_INFO`. The handler `mb_wc` gets the bytes up to the end of the text,
returns the number of bytes of a character or its negative, and needs at least one byte. -/
structure CharsetInfo where
  number : ℕ
  mbminlen : ℕ
  mbWc : List UInt8 → ℤ × ℕ
  mbminlen_pos : 0 < mbminlen
  mbWc_le : ∀ s, MY_CS_TOOSMALL < (mbWc s).1 → (mbWc s).1.natAbs ≤ s.length
  mbWc_nil : (mbWc []).1 ≤ MY_CS_TOOSMALL

/-- `is_utf8_charset`. -/
def isUtf8Charset (number : ℕ) : Bool :=
  number = 33 || number = 83 || (192 ≤ number && number ≤ 215) || number = 253 || number = 45 ||
    number = 46 || number = 76 || (224 ≤ number && number ≤ 247) || (255 ≤ number && number ≤ 309)

/-- `count` of `my_wc_mb_utf8mb4`, or 0 if the character cannot be encoded. -/
def utf8mb4Count (wc : ℕ) : ℕ :=
  if wc < 0x80 then 1 else if wc < 0x800 then 2 else if wc < 0x10000 then 3
  else if wc < 0x200000 then 4 else 0

/-- The bytes that `my_wc_mb_utf8mb4` writes, from the last to the first. -/
def utf8mb4Bytes : ℕ → ℕ → List UInt8
  | 4, wc => utf8mb4Bytes 3 ((wc >>> 6) ||| 0x10000) ++ [UInt8.ofNat (0x80 ||| (wc &&& 0x3f))]
  | 3, wc => utf8mb4Bytes 2 ((wc >>> 6) ||| 0x800) ++ [UInt8.ofNat (0x80 ||| (wc &&& 0x3f))]
  | 2, wc => utf8mb4Bytes 1 ((wc >>> 6) ||| 0xc0) ++ [UInt8.ofNat (0x80 ||| (wc &&& 0x3f))]
  | 1, wc => [UInt8.ofNat wc]
  | _, _ => []

/-- `my_wc_mb_utf8mb4` with so many places up to the end of the buffer: the result and the
bytes written. -/
def myWcMbUtf8mb4 (wc room : ℕ) : ℤ × List UInt8 :=
  if room = 0 then (MY_CS_TOOSMALL, [])
  else if utf8mb4Count wc = 0 then (MY_CS_ILUNI, [])
  else if room < utf8mb4Count wc then (-100 - utf8mb4Count wc, [])
  else (utf8mb4Count wc, utf8mb4Bytes (utf8mb4Count wc) wc)

/-- A first byte with the continuation bytes it asks for is a piece. -/
theorem isPiece_sequence {lead : UInt8} {tail : List UInt8} (hlength : tail.length = tailLength lead)
    (htail : ∀ b ∈ tail, 0x80 ≤ b.toNat ∧ b.toNat < 0xc0) :
    IsPiece sequenceLength (lead :: tail) := by
  refine ⟨Nat.succ_pos _, fun ys => ?_⟩
  have hcontinued : Continued (tailLength lead) (tail ++ ys) := by
    rw [← hlength]
    refine ⟨by rw [List.length_append]; omega, ?_⟩
    rw [List.take_left]
    exact htail
  rw [List.cons_append, sequenceLength, if_pos hcontinued, List.length_cons, hlength]

/-- A byte behind the first one. -/
theorem continuation_byte (w : ℕ) :
    0x80 ≤ (UInt8.ofNat (0x80 ||| (w &&& 0x3f))).toNat ∧
      (UInt8.ofNat (0x80 ||| (w &&& 0x3f))).toNat < 0xc0 := by
  have hmask : w &&& 0x3f = w % 64 := Nat.and_two_pow_sub_one_eq_mod w 6
  have hbits : 0x80 ||| w % 64 = w % 64 + 0x80 := byte_bits.2.2.2 _ (Nat.mod_lt _ (by decide))
  rw [hmask, hbits, Utf.toNat_ofNat_byte (by omega)]
  omega

/-- The first of two, three or four bytes. -/
theorem lead_marks : (∀ x < 32, x ||| 0xc0 = x + 0xc0) ∧
    (∀ x < 16, (x ||| 0x20) ||| 0xc0 = x + 0xe0) ∧
      ∀ x < 8, ((x ||| 0x10) ||| 0x20) ||| 0xc0 = x + 0xf0 := by decide

/-- A character is written as one sequence. -/
theorem isPiece_utf8mb4Bytes (h : utf8mb4Count wc ≠ 0) :
    IsPiece sequenceLength (utf8mb4Bytes (utf8mb4Count wc) wc) ∧
      (utf8mb4Bytes (utf8mb4Count wc) wc).length = utf8mb4Count wc := by
  unfold utf8mb4Count at h ⊢
  split_ifs at h ⊢ with h₁ h₂ h₃ h₄
  · simp only [utf8mb4Bytes]
    refine ⟨isPiece_sequence ?_ (by simp), rfl⟩
    rw [tailLength, Utf.toNat_ofNat_byte (by omega), if_pos h₁]
    rfl
  · have hlead : (wc >>> 6) ||| 0xc0 = wc / 64 + 0xc0 := by
      rw [Nat.shiftRight_eq_div_pow]
      exact lead_marks.1 _ (by omega)
    simp only [utf8mb4Bytes, List.cons_append, List.nil_append]
    refine ⟨isPiece_sequence ?_ ?_, rfl⟩
    · rw [hlead, tailLength, Utf.toNat_ofNat_byte (by omega), if_neg (by omega), if_pos (by omega)]
      rfl
    · simp only [List.mem_singleton, forall_eq]
      exact continuation_byte _
  · have hlead : (((wc >>> 6) ||| 0x800) >>> 6) ||| 0xc0 = wc / 64 / 64 + 0xe0 := by
      rw [Nat.shiftRight_or_distrib]
      simp only [Nat.shiftRight_eq_div_pow]
      exact lead_marks.2.1 _ (by omega)
    simp only [utf8mb4Bytes, List.cons_append, List.nil_append]
    refine ⟨isPiece_sequence ?_ ?_, rfl⟩
    · rw [hlead, tailLength, Utf.toNat_ofNat_byte (by omega), if_neg (by omega), if_neg (by omega),
        if_pos (by omega)]
      rfl
    · simp only [List.mem_cons, List.not_mem_nil, or_false,
        forall_eq_or_imp, forall_eq]
      exact ⟨continuation_byte _, continuation_byte _⟩
  · have hlead : (((((wc >>> 6) ||| 0x10000) >>> 6) ||| 0x800) >>> 6) ||| 0xc0 =
        wc / 64 / 64 / 64 + 0xf0 := by
      rw [Nat.shiftRight_or_distrib, Nat.shiftRight_or_distrib, Nat.shiftRight_or_distrib]
      simp only [Nat.shiftRight_eq_div_pow]
      exact lead_marks.2.2 _ (by omega)
    simp only [utf8mb4Bytes, List.cons_append, List.nil_append]
    refine ⟨isPiece_sequence ?_ ?_, rfl⟩
    · rw [hlead, tailLength, Utf.toNat_ofNat_byte (by omega), if_neg (by omega), if_neg (by omega),
        if_neg (by omega)]
      rfl
    · simp only [List.mem_cons, List.not_mem_nil, or_false,
        forall_eq_or_imp, forall_eq]
      exact ⟨continuation_byte _, continuation_byte _, continuation_byte _⟩
  · exact absurd rfl h

/-- The local variables of `copy_and_convert`, with the block that it fills. -/
structure ConversionState where
  source : ℕ
  written : ℕ
  u8 : List UInt8
  errorCount : ℕ
  usedBytes : ℕ
  usedChars : ℕ

/-- `?`, which stands for what cannot be converted. -/
def questionMark : ℕ := 0x3f

/-- The part of the loop of `copy_and_convert` behind `outp`, when `wc_mb` is not called again. -/
def putWithin (s : ConversionState) (cnvres : ℤ) (wc : ℕ) :
    Step ConversionState (Option ConversionState) :=
  let (res, c) := myWcMbUtf8mb4 wc (s.u8.length - s.written)
  if 0 < res then
    match Buffer.storeWithin s.u8 s.written c with
    | none => .done none
    | some u8 =>
      .next { s with
        written := s.written + res.toNat
        u8 := u8
        usedBytes := ((s.usedBytes + cnvres) % 2 ^ 32).toNat
        usedChars := (s.usedChars + 1) % 2 ^ 32 }
  else .done (some s)

/-- One evaluation of the loop of `copy_and_convert`, with checked accesses. -/
def convertWithin (mbWc : List UInt8 → ℤ × ℕ) (str : List UInt8) (s : ConversionState) :
    Step ConversionState (Option ConversionState) :=
  let (cnvres, wc) := mbWc (str.drop s.source)
  if cnvres ≤ MY_CS_TOOSMALL then .done (some s)
  else
    let advance := if cnvres = MY_CS_ILSEQ then 1 else cnvres.natAbs
    let bad := cnvres ≤ 0
    let wc := if bad then questionMark else wc
    let s := { s with
      source := s.source + advance
      errorCount := if bad then s.errorCount + 1 else s.errorCount }
    if (myWcMbUtf8mb4 wc (s.u8.length - s.written)).1 = MY_CS_ILUNI ∧ wc ≠ questionMark then
      putWithin { s with errorCount := s.errorCount + 1 } cnvres questionMark
    else putWithin s cnvres wc

/-- Add to a counter of type `uint`, if there is one. -/
def addErrors (errors : Option ℕ) (count : ℕ) : Option ℕ :=
  errors.map fun n => (n + count) % 2 ^ 32

/-- `copy_and_convert` from a character set to UTF-8 with checked accesses: the variables at the
end, or nothing if an access was out of bounds. -/
def copyAndConvertWithin (mbWc : List UInt8 → ℤ × ℕ) (u8 str : List UInt8) :
    Option ConversionState :=
  (run (convertWithin mbWc str) (str.length + 1) ⟨0, 0, u8, 0, 0, 0⟩).join

/-- The text is made of whole sequences. -/
def IsComplete (text : List UInt8) : Prop :=
  ∃ pieces : List (List UInt8), (∀ q ∈ pieces, IsPiece sequenceLength q) ∧ text = pieces.flatten

/-- The text written so far is made of whole sequences, and it is in the block. -/
structure Converting (length : ℕ) (s : ConversionState) : Prop where
  length_eq : s.u8.length = length
  written_le : s.written ≤ length
  complete : IsComplete (s.u8.take s.written)

/-- Writing a character keeps the text made of sequences. -/
theorem putWithin_cases {length : ℕ} {s : ConversionState} (h : Converting length s) (cnvres : ℤ)
    (wc : ℕ) : putWithin s cnvres wc = .done (some s) ∨
      ∃ s', putWithin s cnvres wc = .next s' ∧ s'.source = s.source ∧ Converting length s' := by
  have hle := h.written_le
  obtain ⟨pieces, hpieces, hflat⟩ := h.complete
  by_cases hroom : s.u8.length - s.written = 0
  · exact Or.inl (by simp [putWithin, myWcMbUtf8mb4, hroom, MY_CS_TOOSMALL])
  by_cases hcount : utf8mb4Count wc = 0
  · exact Or.inl (by simp [putWithin, myWcMbUtf8mb4, hroom, hcount, MY_CS_ILUNI])
  by_cases hsmall : s.u8.length - s.written < utf8mb4Count wc
  · have hneg : ¬ (0 : ℤ) < -100 - utf8mb4Count wc := by omega
    exact Or.inl (by simp only [putWithin, myWcMbUtf8mb4, if_neg hroom, if_neg hcount,
      if_pos hsmall, if_neg hneg])
  obtain ⟨hpiece, hlength⟩ := isPiece_utf8mb4Bytes hcount
  have hpos : (0 : ℤ) < utf8mb4Count wc := by omega
  have hfits : s.written + (utf8mb4Bytes (utf8mb4Count wc) wc).length ≤ s.u8.length := by
    rw [hlength]
    omega
  have hput : putWithin s cnvres wc = .next { s with
      written := s.written + (utf8mb4Count wc : ℤ).toNat
      u8 := Buffer.store s.u8 s.written (utf8mb4Bytes (utf8mb4Count wc) wc)
      usedBytes := ((s.usedBytes + cnvres) % 2 ^ 32).toNat
      usedChars := (s.usedChars + 1) % 2 ^ 32 } := by
    simp only [putWithin, myWcMbUtf8mb4, if_neg hroom, if_neg hcount, if_neg hsmall, if_pos hpos,
      Buffer.storeWithin_of_le hfits]
  refine Or.inr ⟨_, hput, rfl, ?_⟩
  refine ⟨(Buffer.length_store hfits).trans h.length_eq, ?_,
    pieces ++ [utf8mb4Bytes (utf8mb4Count wc) wc], ?_, ?_⟩
  · simp only [Int.toNat_natCast]
    have := h.length_eq
    omega
  · intro q hq
    rcases List.mem_append.mp hq with hq | hq
    · exact hpieces q hq
    · rwa [List.mem_singleton.mp hq]
  · rw [Int.toNat_natCast, List.flatten_append, List.flatten_singleton, ← hflat]
    have htake := Buffer.take_store hfits
    rwa [hlength] at htake

/-- A round of the conversion ends the loop or goes on in the text. -/
theorem convertWithin_cases (cs : CharsetInfo) (str : List UInt8) {length : ℕ} {s : ConversionState}
    (h : Converting length s) :
    (∃ s', convertWithin cs.mbWc str s = .done (some s') ∧ Converting length s') ∨
      ∃ s', convertWithin cs.mbWc str s = .next s' ∧ Converting length s' ∧
        s.source < s'.source ∧ s'.source ≤ str.length := by
  generalize hread : cs.mbWc (str.drop s.source) = read
  obtain ⟨cnvres, wc⟩ := read
  by_cases hsmall : cnvres ≤ MY_CS_TOOSMALL
  · exact Or.inl ⟨s, by simp only [convertWithin, hread, if_pos hsmall], h⟩
  have hinside := cs.mbWc_le (str.drop s.source) (by rw [hread]; exact Int.not_le.mp hsmall)
  have hne : str.drop s.source ≠ [] := by
    intro hnil
    have hend := cs.mbWc_nil
    rw [← hnil, hread] at hend
    exact hsmall hend
  have hsource : s.source < str.length := by
    rw [ne_eq, List.drop_eq_nil_iff] at hne
    omega
  rw [hread, List.length_drop] at hinside
  dsimp only at hinside
  have hput : ∀ advance errorCount wc, 0 < advance → s.source + advance ≤ str.length →
      (∃ s', putWithin { s with source := s.source + advance, errorCount := errorCount } cnvres wc =
        .done (some s') ∧ Converting length s') ∨
      ∃ s', putWithin { s with source := s.source + advance, errorCount := errorCount } cnvres wc =
        .next s' ∧ Converting length s' ∧ s.source < s'.source ∧ s'.source ≤ str.length := by
    intro advance errorCount wc hpos hle
    have hmoved : Converting length
        { s with source := s.source + advance, errorCount := errorCount } :=
      ⟨h.length_eq, h.written_le, h.complete⟩
    rcases putWithin_cases hmoved cnvres wc with hdone | ⟨s', hnext, hsame, hkept⟩
    · exact Or.inl ⟨_, hdone, hmoved⟩
    · refine Or.inr ⟨s', hnext, hkept, ?_, ?_⟩
      · rw [hsame]
        exact Nat.lt_add_of_pos_right hpos
      · rw [hsame]
        exact hle
  by_cases hzero : cnvres = MY_CS_ILSEQ
  · simp only [convertWithin, hread, if_neg hsmall, if_pos hzero]
    split_ifs
    all_goals exact hput 1 _ _ Nat.one_pos hsource
  · have hpos : 0 < cnvres.natAbs := Int.natAbs_pos.mpr hzero
    simp only [convertWithin, hread, if_neg hsmall, if_neg hzero]
    split_ifs
    all_goals exact hput cnvres.natAbs _ _ hpos (by omega)

/-- The conversion writes sequences into the block. -/
theorem copyAndConvertWithin_spec (cs : CharsetInfo) (u8 str : List UInt8) :
    ∃ s, copyAndConvertWithin cs.mbWc u8 str = some s ∧ Converting u8.length s := by
  have hstart : Converting u8.length ⟨0, 0, u8, 0, 0, 0⟩ :=
    ⟨rfl, Nat.zero_le _, [], by simp, by simp⟩
  have hkeep : ∀ t t', Converting u8.length t → convertWithin cs.mbWc str t = .next t' →
      Converting u8.length t' := by
    intro t t' ht hnext
    rcases convertWithin_cases cs str ht with ⟨s', hdone, -⟩ | ⟨s', hnext', hkept, -⟩
    · rw [hdone] at hnext
      cases hnext
    · rw [hnext'] at hnext
      cases hnext
      exact hkept
  have hless : ∀ t t', Reaches (convertWithin cs.mbWc str) ⟨0, 0, u8, 0, 0, 0⟩ t →
      convertWithin cs.mbWc str t = .next t' →
      str.length - t'.source < str.length - t.source := by
    intro t t' hreach hnext
    rcases convertWithin_cases cs str (hreach.invariant _ hkeep hstart) with
      ⟨s', hdone, -⟩ | ⟨s', hnext', -, hlt, hle⟩
    · rw [hdone] at hnext
      cases hnext
    · rw [hnext'] at hnext
      cases hnext
      omega
  obtain ⟨r, hrun⟩ := run_eq_some_of_measure (fun t : ConversionState => str.length - t.source) hless
    (show str.length - 0 < str.length + 1 by omega)
  obtain ⟨t, hreach, hdone⟩ := Returns.exists_done ⟨_, hrun⟩
  rcases convertWithin_cases cs str (hreach.invariant _ hkeep hstart) with
    ⟨s', hdone', hkept⟩ | ⟨s', hnext, -⟩
  · rw [hdone'] at hdone
    cases hdone
    exact ⟨s', by rw [copyAndConvertWithin, hrun, Option.join_some], hkept⟩
  · rw [hnext] at hdone
    cases hdone

/-- The local variables of `sqlchar_as_sqlwchar` in its loop, with the block that it fills and the
counter of errors, if there is one. -/
structure WidenState where
  pos : ℕ
  i : ℕ
  out : List SQLWCHAR
  errors : Option ℕ

/-- One evaluation of the loop of `sqlchar_as_sqlwchar`, with checked accesses. -/
def widenBodyWithin (text : List UInt8) (s : WidenState) : Step WidenState (Option WidenState) :=
  if text.length ≤ s.pos ∨ (text.drop s.pos).headD 0 = 0 then .done (some s)
  else
    match utf8toutf32Within (text.drop s.pos) with
    | none => .done none
    | some (consumed, u32) =>
      if consumed = 0 then
        -- the counter is written without a look at the pointer
        .done (s.errors.map fun n => { s with errors := some ((n + 1) % 2 ^ 32) })
      else
        let units := utf32toutf16 u32
        match Buffer.storeWithin s.out s.i units with
        | none => .done none
        | some out => .next { s with pos := s.pos + consumed, i := s.i + units.length, out := out }

/-- The loop ends before a rest that it cannot decode: there is a NUL, the rest is empty, or
it is not cut off and there is a counter for the error. -/
def Decodable (text : List UInt8) (errors : Option ℕ) : Prop :=
  [0] ∈ (split sequenceLength text).1 ∨ (split sequenceLength text).2 = [] ∨
    ¬ EndsInside text ∧ errors ≠ none

theorem decodable_of_zero (h : sequenceLength xs = 0) :
    Decodable xs errors ↔ xs = [] ∨ ¬ Truncated xs ∧ errors ≠ none := by
  rw [Decodable, endsInside_of_zero h, split_of_zero h]
  simp

theorem decodable_of_pos (h : 0 < sequenceLength xs) :
    Decodable xs errors ↔ xs.headD 0 = 0 ∨ Decodable (xs.drop (sequenceLength xs)) errors := by
  have hfirst : [0] = xs.take (sequenceLength xs) ↔ xs.headD 0 = 0 := by
    cases xs with
    | nil => exact absurd h (Nat.lt_irrefl 0)
    | cons lead i =>
      rw [sequenceLength] at h ⊢
      split_ifs at h ⊢
      · rw [List.take_succ_cons, List.headD_cons, List.cons.injEq, eq_comm]
        apply and_iff_left_of_imp
        rintro rfl
        rfl
      · omega
  rw [Decodable, endsInside_of_pos h, split_of_pos sequenceLength_fits h, List.mem_cons, hfirst,
    Decodable, or_assoc]

/-- A sequence has room for its units: one byte becomes one unit, and no sequence more than two. -/
theorem units_length_le (h : 0 < sequenceLength xs) :
    (utf32toutf16 (utf8toutf32 xs).2).length ≤ sequenceLength xs := by
  have htwo : ∀ v, (utf32toutf16 v).length ≤ 2 := by
    intro v
    rw [utf32toutf16]
    split_ifs
    all_goals simp
  cases xs with
  | nil => exact absurd h (Nat.lt_irrefl 0)
  | cons lead i =>
    by_cases hascii : lead.toNat < 0x80
    · have hvalue : (utf8toutf32 (lead :: i)).2 = lead.toNat := by
        rw [utf8toutf32, List.headD_cons, if_pos hascii]
      rw [hvalue, utf32toutf16, if_pos (by omega), List.length_singleton]
      exact h
    · have htail : 1 ≤ tailLength lead := by
        rw [tailLength, if_neg hascii]
        split_ifs
        all_goals omega
      apply Nat.le_trans (htwo _)
      rw [sequenceLength] at h ⊢
      split_ifs at h ⊢
      · omega
      · omega

theorem widenBodyWithin_done {s : WidenState}
    (h : bytes.length ≤ s.pos ∨ (bytes.drop s.pos).headD 0 = 0) :
    widenBodyWithin bytes s = .done (some s) := if_pos h

/-- The loop keeps its bounds exactly if the text can be decoded. -/
theorem run_widen_isSome_iff (xs : List UInt8) (hdrop : bytes.drop p = xs)
    (hroom : i + xs.length < out.length) (hfuel : xs.length < fuel) :
    ((run (widenBodyWithin bytes) fuel ⟨p, i, out, errors⟩).join.bind fun s =>
      Buffer.storeWithin s.out s.i [0]).isSome ↔ Decodable xs errors := by
  have hlast : ∀ {out : List SQLWCHAR} {i : ℕ}, i < out.length →
      (Buffer.storeWithin out i [0]).isSome := by
    intro out i hi
    rw [Buffer.storeWithin_of_le (by rw [List.length_singleton]; omega)]
    rfl
  induction xs using induction_on sequenceLength_fits generalizing p i out fuel with
  | rest xs h =>
    obtain ⟨fuel, rfl⟩ : ∃ n, fuel = n + 1 := ⟨fuel - 1, by omega⟩
    rw [decodable_of_zero h]
    rcases drop_cases p bytes with ⟨hend, hnil⟩ | ⟨hp, hne⟩
    · rw [run_succ_done (widenBodyWithin_done (Or.inl hend))]
      simp only [Option.join_some, Option.bind_some]
      refine iff_of_true (hlast (by omega)) (Or.inl ?_)
      rw [← hdrop, hnil]
    · have hhead : (bytes.drop p).headD 0 ≠ 0 := by
        rw [hdrop] at hne ⊢
        intro hzero
        obtain ⟨lead, i', rfl⟩ := List.exists_cons_of_ne_nil hne
        rw [List.headD_cons] at hzero
        subst hzero
        simp [sequenceLength, tailLength, Continued] at h
      have hstep : widenBodyWithin bytes ⟨p, i, out, errors⟩ = .done (if Truncated xs then none else
          errors.map fun n => ⟨p, i, out, some ((n + 1) % 2 ^ 32)⟩) := by
        rw [widenBodyWithin, if_neg (by dsimp only; exact not_or.mpr ⟨by omega, hhead⟩),
          utf8toutf32Within_of_rest hne (by rwa [hdrop]), hdrop]
        by_cases htruncated : Truncated xs
        · rw [if_pos htruncated, if_pos htruncated]
        · rw [if_neg htruncated, if_neg htruncated]
          exact if_pos rfl
      rw [run_succ_done hstep]
      have hxs : xs ≠ [] := by rwa [hdrop] at hne
      by_cases htruncated : Truncated xs
      · simp [htruncated, hxs]
      · cases errors with
        | none => simp [htruncated, hxs]
        | some n =>
          simp only [if_neg htruncated, Option.map_some, Option.join_some, Option.bind_some]
          exact iff_of_true (hlast (by omega)) (Or.inr ⟨htruncated, by simp⟩)
  | piece xs h ih =>
    obtain ⟨fuel, rfl⟩ : ∃ n, fuel = n + 1 := ⟨fuel - 1, by omega⟩
    have hp : p < bytes.length := by
      have hlen := congrArg List.length hdrop
      have := sequenceLength_fits xs
      rw [List.length_drop] at hlen
      omega
    rw [decodable_of_pos h]
    by_cases hhead : xs.headD 0 = 0
    · rw [run_succ_done (widenBodyWithin_done (Or.inr (by rwa [hdrop])))]
      simp only [Option.join_some, Option.bind_some]
      exact iff_of_true (hlast (by omega)) (Or.inl hhead)
    · have hfits := sequenceLength_fits xs
      have hunits := units_length_le h
      have hstore : i + (utf32toutf16 (utf8toutf32 xs).2).length ≤ out.length := by omega
      have hstep : widenBodyWithin bytes ⟨p, i, out, errors⟩ =
          .next ⟨p + sequenceLength xs, i + (utf32toutf16 (utf8toutf32 xs).2).length,
            Buffer.store out i (utf32toutf16 (utf8toutf32 xs).2), errors⟩ := by
        rw [widenBodyWithin, hdrop,
          if_neg (by dsimp only; exact not_or.mpr ⟨by omega, hhead⟩),
          utf8toutf32Within_of_sequence h]
        simp only [if_neg (Nat.ne_of_gt h), Buffer.storeWithin_of_le hstore]
      have hlater : bytes.drop (p + sequenceLength xs) = xs.drop (sequenceLength xs) := by
        rw [← List.drop_drop, hdrop]
      have hless : (xs.drop (sequenceLength xs)).length + sequenceLength xs = xs.length := by
        rw [List.length_drop]
        omega
      have hroom' : i + (utf32toutf16 (utf8toutf32 xs).2).length +
          (xs.drop (sequenceLength xs)).length <
            (Buffer.store out i (utf32toutf16 (utf8toutf32 xs).2)).length := by
        rw [Buffer.length_store hstore]
        omega
      have hfuel' : (xs.drop (sequenceLength xs)).length < fuel := by omega
      rw [run_succ_next hstep]
      apply (ih hlater hroom' hfuel').trans
      simp only [hhead, false_or]

/-- The size in bytes that `sqlchar_as_sqlwchar` allocates for its result, computed in an
`SQLINTEGER` and passed as a `size_t`. -/
def outBytes (len : ℤ) : ℕ := (((len + 1) * 2).bmod (2 ^ 32) % 2 ^ 64).toNat

/-- `u8_max`, computed in `unsigned int`. -/
def u8Max (cs : CharsetInfo) (len : ℕ) : ℕ := (len / cs.mbminlen * 4 % 2 ^ 32 + 1) % 2 ^ 32

/-- What `sqlchar_as_sqlwchar` leaves behind: the memory at the returned pointer, the length and
the counter of errors. -/
structure WidenResult where
  out : Option (List SQLWCHAR)
  len : ℤ
  errors : Option ℕ

/-- The second half of `sqlchar_as_sqlwchar`, from the UTF-8 text at the front of a block. -/
def widenWithin (mem : Allocator) (block : List UInt8) (len : ℤ) (errors : Option ℕ) :
    Option WidenResult :=
  -- `*len + 1` has to be an `SQLINTEGER`
  if len = 2 ^ 31 - 1 then none
  else
    match mem.units (outBytes len) with
    | none => some ⟨none, -1, errors⟩
    | some out =>
      let text := block.take len.toNat
      (run (widenBodyWithin text) (text.length + 1) ⟨0, 0, out, errors⟩).join.bind fun s =>
        (Buffer.storeWithin s.out s.i [0]).map fun out => ⟨some out, s.i, s.errors⟩

/-- `sqlchar_as_sqlwchar` for a text with its length, with checked accesses: nothing if
an access was out of bounds. -/
def sqlcharAsSqlwcharWithin (mem : Allocator) (cs : CharsetInfo) (str : Option (List UInt8))
    (errors : Option ℕ) : Option WidenResult :=
  match str with
  | none => some ⟨none, 0, errors⟩
  | some str =>
    if str = [] then
      -- the terminator is written without a look at the pointer
      (mem.units 2).bind fun empty =>
        (Buffer.storeWithin empty 0 [0]).map fun out => ⟨some out, 0, errors⟩
    else if isUtf8Charset cs.number then widenWithin mem str str.length errors
    else
      match mem.bytes (u8Max cs str.length) with
      | none => some ⟨none, -1, errors⟩
      | some u8 =>
        (copyAndConvertWithin cs.mbWc u8 str).bind fun s =>
          widenWithin mem s.u8 ((s.written : ℤ).bmod (2 ^ 32)) (addErrors errors s.errorCount)

/-- A text of sequences can be decoded. -/
theorem decodable_of_isComplete {text : List UInt8} (h : IsComplete text) :
    Decodable text errors := by
  obtain ⟨pieces, hpieces, rfl⟩ := h
  have hsplit := split_flatten sequenceLength_fits hpieces []
  have hnil : split sequenceLength [] = ([], []) := split_of_zero rfl
  rw [List.append_nil, hnil] at hsplit
  exact Or.inr (Or.inl (by rw [hsplit]))

/-- The block has room for the text and one unit more. -/
theorem lt_outBytes {len : ℕ} (h : len < 2 ^ 31 - 1) : len < outBytes len / 2 := by
  unfold outBytes
  simp only [Int.bmod]
  omega

/-- The part that decodes keeps its bounds exactly if the text can be decoded or nothing is
allocated, and the length is not the largest one. -/
theorem widenWithin_isSome_iff (mem : Allocator) {block : List UInt8} {len : ℕ}
    (hblock : len ≤ block.length) (hlen : len < 2 ^ 31) (errors : Option ℕ) :
    (widenWithin mem block len errors).isSome ↔ len ≠ 2 ^ 31 - 1 ∧
      (mem.units (outBytes len) = none ∨ Decodable (block.take len) errors) := by
  rw [widenWithin]
  by_cases hmax : len = 2 ^ 31 - 1
  · rw [if_pos (by omega)]
    simp [hmax]
  rw [if_neg (by omega), and_iff_right hmax]
  cases hunits : mem.units (outBytes len) with
  | none => simp
  | some out =>
    have hout := mem.units_length _ _ hunits
    have hroom := lt_outBytes (show len < 2 ^ 31 - 1 by omega)
    have htext : (block.take len).length = len := by
      rw [List.length_take]
      omega
    have hrun := @run_widen_isSome_iff (block.take len) out 0 0 (len + 1) errors (block.take len)
      rfl (by omega) (by omega)
    simp only [Int.toNat_natCast, htext]
    rw [← hrun]
    cases (run (widenBodyWithin (block.take len)) (len + 1) ⟨0, 0, out, errors⟩).join with
    | none => simp
    | some s => simp

/-- A negative length leaves the terminator only, and there is a place for it. -/
theorem widenWithin_of_neg (mem : Allocator) (block : List UInt8) {len : ℤ} (hneg : len < -1)
    (hlen : -2 ^ 31 ≤ len) (errors : Option ℕ) : (widenWithin mem block len errors).isSome := by
  rw [widenWithin, if_neg (by omega)]
  cases hunits : mem.units (outBytes len) with
  | none => rfl
  | some out =>
    have hout := mem.units_length _ _ hunits
    have hroom : 0 < outBytes len / 2 := by
      unfold outBytes
      simp only [Int.bmod]
      omega
    have hnat : len.toNat = 0 := by omega
    have hdone := @widenBodyWithin_done [] ⟨0, 0, out, errors⟩ (Or.inl (Nat.le_refl 0))
    simp only [hnat, List.take_zero, List.length_nil]
    rw [run_succ_done hdone]
    simp [Buffer.storeWithin_of_le (show 0 + [(0 : SQLWCHAR)].length ≤ out.length by
      rw [List.length_singleton]; omega)]

/-- A call of `sqlchar_as_sqlwchar` with a length, which is an `SQLINTEGER`. -/
structure SqlcharCall where
  mem : Allocator
  cs : CharsetInfo
  str : Option (List UInt8)
  errors : Option ℕ
  length_lt : ∀ s, str = some s → s.length < 2 ^ 31

/-- An empty text needs its block. A UTF-8 text has to be one that can be decoded. A text in another
character set has to be one whose conversion is shorter or longer than the largest
`SQLINTEGER`. -/
def SqlcharCall.Suffices (c : SqlcharCall) : Prop := ∀ str, c.str = some str →
  if str = [] then c.mem.units 2 ≠ none
  else if isUtf8Charset c.cs.number then str.length ≠ 2 ^ 31 - 1 ∧
    (c.mem.units (outBytes str.length) = none ∨ Decodable str c.errors)
  else ∀ u8 s, c.mem.bytes (u8Max c.cs str.length) = some u8 →
    copyAndConvertWithin c.cs.mbWc u8 str = some s → s.written ≠ 2 ^ 31 - 1

/-- `sqlchar_as_sqlwchar` keeps its bounds exactly if the call suffices. -/
theorem sqlcharAsSqlwcharWithin_isSome_iff (c : SqlcharCall) :
    (sqlcharAsSqlwcharWithin c.mem c.cs c.str c.errors).isSome ↔ c.Suffices := by
  unfold sqlcharAsSqlwcharWithin SqlcharCall.Suffices
  have hlength := c.length_lt
  cases hstr : c.str with
  | none => simp
  | some str =>
    have hlt := hlength str hstr
    simp only [Option.some.injEq, forall_eq']
    by_cases hnil : str = []
    · rw [if_pos hnil, if_pos hnil]
      cases hunits : c.mem.units 2 with
      | none => simp
      | some empty =>
        have hempty := c.mem.units_length _ _ hunits
        simp [Buffer.storeWithin_of_le (show 0 + [(0 : SQLWCHAR)].length ≤ empty.length by
          rw [List.length_singleton]; omega)]
    rw [if_neg hnil, if_neg hnil]
    by_cases hutf8 : isUtf8Charset c.cs.number = true
    · rw [if_pos hutf8, if_pos hutf8, widenWithin_isSome_iff _ (Nat.le_refl _) hlt, List.take_length]
    rw [if_neg hutf8, if_neg hutf8]
    cases hbytes : c.mem.bytes (u8Max c.cs str.length) with
    | none => simp
    | some u8 =>
      obtain ⟨s, hs, hkept⟩ := copyAndConvertWithin_spec c.cs u8 str
      have hu8 := c.mem.bytes_length _ _ hbytes
      have hle := hkept.written_le
      have hmax : u8.length < 2 ^ 32 - 1 := by
        rw [hu8, u8Max]
        omega
      have hcond : (∀ u8' s', some u8 = some u8' → copyAndConvertWithin c.cs.mbWc u8' str = some s' →
          s'.written ≠ 2 ^ 31 - 1) ↔ s.written ≠ 2 ^ 31 - 1 := by
        constructor
        · intro h
          exact h u8 s rfl hs
        · intro h u8' s' hu8' hs'
          cases hu8'
          rw [hs] at hs'
          cases hs'
          exact h
      rw [hcond]
      dsimp only
      rw [hs, Option.bind_some]
      by_cases hlarge : s.written < 2 ^ 31
      · have hlen : (s.written : ℤ).bmod (2 ^ 32) = s.written := by
          simp only [Int.bmod]
          omega
        have hblock : s.written ≤ s.u8.length := by
          rw [hkept.length_eq]
          exact hle
        rw [hlen, widenWithin_isSome_iff _ hblock hlarge]
        simp [decodable_of_isComplete hkept.complete]
      · have hneg : (s.written : ℤ).bmod (2 ^ 32) = s.written - 2 ^ 32 := by
          simp only [Int.bmod]
          omega
        rw [hneg]
        exact iff_of_true (widenWithin_of_neg _ _ (by omega) (by omega) _) (by omega)

end MatrixOdbc.Util
