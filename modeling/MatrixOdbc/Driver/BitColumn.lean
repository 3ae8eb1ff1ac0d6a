import MatrixOdbc.Driver.OutParams
import MatrixOdbc.Foundations.BigEndian
import Mathlib.Data.List.Induction
import Mathlib.Data.List.TakeWhile

/-!
# Converting a BIT column

`ssps_get_out_params` reads the text of a `BIT` column as a number and puts the bytes of the
number in its place. The bytes are no text: converting again reads another number, which is
the same only for zero.
-/

namespace MatrixOdbc.Driver

open MatrixOdbc.Foundations

/-- The low bytes of a number that is shifted with its sign. -/
theorem sshiftRight_low (src : BitVec 64) {width : ℕ} (hwidth : width ≤ 7) :
    bigEndian width (src.sshiftRight 8).toNat = bigEndian width (src.toNat / 256) := by
  rw [bigEndian_inj]
  have hlow : (src.sshiftRight 8).setWidth 56 = (src >>> 8).setWidth 56 := by
    ext i hi
    have hin : 8 + i < 64 := by omega
    simp [BitVec.getElem_setWidth, BitVec.getLsbD_sshiftRight, hin]
    omega
  have htoNat := congrArg BitVec.toNat hlow
  rw [BitVec.toNat_setWidth, BitVec.toNat_setWidth, BitVec.toNat_ushiftRight,
    Nat.shiftRight_eq_div_pow] at htoNat
  have hdvd : 256 ^ width ∣ 2 ^ 56 := by
    rw [show 2 ^ 56 = 256 ^ 7 by norm_num]
    exact pow_dvd_pow 256 hwidth
  rw [← Nat.mod_mod_of_dvd _ hdvd, htoNat, Nat.mod_mod_of_dvd _ hdvd]

/-- `numeric2binary` puts the bytes in front of what is behind them. -/
theorem numeric2binary_eq (dst : List UInt8) (src : BitVec 64) {width : ℕ}
    (hdst : width ≤ dst.length) (hwidth : width ≤ 8) :
    numeric2binary dst src width = bigEndian width src.toNat ++ dst.drop width := by
  induction width generalizing dst src with
  | zero => rfl
  | succ width ih =>
    have hbyte : UInt8.ofBitVec (src.setWidth 8) = UInt8.ofNat src.toNat := by
      apply UInt8.toNat_inj.mp
      simp
    rw [numeric2binary, ih _ _ (by rw [List.length_set]; omega) (by omega),
      sshiftRight_low src (by omega), bigEndian, hbyte, List.append_assoc]
    congr 1
    rw [List.drop_eq_getElem_cons (by rw [List.length_set]; omega), List.getElem_set_self,
      List.drop_set_of_lt (by omega)]
    rfl

/-- Digits stand for a number below the power of their length. -/
theorem decimalValue_lt (digits : List UInt8)
    (hdigits : ∀ c ∈ digits, 0x30 ≤ c ∧ c ≤ 0x39) :
    decimalValue digits < 10 ^ digits.length := by
  induction digits using List.reverseRecOn with
  | nil => simp [decimalValue]
  | append_singleton digits c ih =>
    have hprev := ih fun d hd => hdigits d (List.mem_append_left _ hd)
    have hc : c.toNat ≤ 0x39 := (hdigits c (by simp)).2
    have hstep : decimalValue (digits ++ [c]) = 10 * decimalValue digits + (c.toNat - 0x30) := by
      simp [decimalValue, List.foldl_append]
    rw [hstep, List.length_append, List.length_singleton, pow_succ]
    omega

/-- The digits that `strtoull` reads. -/
def strtoullDigits (s : List UInt8) : List UInt8 :=
  let s := s.dropWhile isspaceByte
  let s := if s.head? = some 0x2d ∨ s.head? = some 0x2b then s.drop 1 else s
  s.takeWhile fun c => 0x30 ≤ c && c ≤ 0x39

theorem decimalValue_strtoullDigits_lt (s : List UInt8) :
    decimalValue (strtoullDigits s) < 10 ^ (strtoullDigits s).length := by
  apply decimalValue_lt
  intro c hc
  have hdigit := List.mem_takeWhile_imp hc
  simpa using hdigit

/-- A short text is read without overflow. -/
theorem strtoull_of_short {s : List UInt8} (hshort : (strtoullDigits s).length ≤ 8) :
    strtoull s =
      if (s.dropWhile isspaceByte).head? = some 0x2d then
        -BitVec.ofNat 64 (decimalValue (strtoullDigits s))
      else BitVec.ofNat 64 (decimalValue (strtoullDigits s)) := by
  have hvalue := decimalValue_strtoullDigits_lt s
  have hpow : 10 ^ (strtoullDigits s).length ≤ 10 ^ 8 := Nat.pow_le_pow_right (by norm_num) hshort
  have hfits : ¬ 2 ^ 64 ≤ decimalValue (strtoullDigits s) := by omega
  unfold strtoullDigits at hfits ⊢
  simp only [strtoull]
  rw [if_neg hfits]

/-- A number that is not zero is read from a text that begins with a digit, or from the
digits behind a blank or a sign. -/
theorem strtoull_cases {c : UInt8} {rest : List UInt8} (hshort : rest.length ≤ 7) :
    strtoull (c :: rest) = 0 ∨
      (0x30 ≤ c ∧ c ≤ 0x39 ∧
        ∃ n, n < 10 ^ (rest.length + 1) ∧ strtoull (c :: rest) = BitVec.ofNat 64 n) ∨
      (0x09 ≤ c ∧ c ≤ 0x2d ∧
        ∃ n, n < 10 ^ rest.length ∧
          (strtoull (c :: rest) = BitVec.ofNat 64 n ∨ strtoull (c :: rest) = -BitVec.ofNat 64 n)) := by
  have hvalue := decimalValue_strtoullDigits_lt (c :: rest)
  by_cases hspace : isspaceByte c = true
  · -- The digits are behind the blank.
    have hdrop : (c :: rest).dropWhile isspaceByte = rest.dropWhile isspaceByte := by
      rw [List.dropWhile_cons, if_pos hspace]
    have hlength : (strtoullDigits (c :: rest)).length ≤ rest.length := by
      rw [strtoullDigits, hdrop]
      apply (List.takeWhile_prefix _).length_le.trans
      split
      · rw [List.length_drop]
        exact (Nat.sub_le _ _).trans (List.dropWhile_suffix _).length_le
      · exact (List.dropWhile_suffix _).length_le
    right; right
    have hrange : 0x09 ≤ c ∧ c ≤ 0x2d := by
      simp only [isspaceByte, Bool.or_eq_true, Bool.and_eq_true, decide_eq_true_eq] at hspace
      obtain rfl | ⟨hlow, hhigh⟩ := hspace
      · decide
      · exact ⟨hlow, UInt8.le_trans hhigh (by decide)⟩
    refine ⟨hrange.1, hrange.2, _, hvalue.trans_le (Nat.pow_le_pow_right (by norm_num) hlength), ?_⟩
    rw [strtoull_of_short (by omega)]
    split
    · exact Or.inr rfl
    · exact Or.inl rfl
  · have hdrop : (c :: rest).dropWhile isspaceByte = c :: rest := by
      rw [List.dropWhile_cons, if_neg hspace]
    by_cases hsign : c = 0x2d ∨ c = 0x2b
    · -- The digits are behind the sign.
      have hlength : (strtoullDigits (c :: rest)).length ≤ rest.length := by
        rw [strtoullDigits, hdrop, if_pos (by simpa using hsign), List.drop_one, List.tail_cons]
        exact (List.takeWhile_prefix _).length_le
      right; right
      have hrange : 0x09 ≤ c ∧ c ≤ 0x2d := by
        obtain rfl | rfl := hsign
        · decide
        · decide
      refine ⟨hrange.1, hrange.2, _,
        hvalue.trans_le (Nat.pow_le_pow_right (by norm_num) hlength), ?_⟩
      rw [strtoull_of_short (by omega)]
      split
      · exact Or.inr rfl
      · exact Or.inl rfl
    · have hhead : ((c :: rest).dropWhile isspaceByte).head? ≠ some 0x2d := by
        rw [hdrop]
        simpa using fun h => hsign (Or.inl h)
      have hdigits : strtoullDigits (c :: rest) =
          (c :: rest).takeWhile fun c => 0x30 ≤ c && c ≤ 0x39 := by
        rw [strtoullDigits, hdrop, if_neg (by simpa using hsign)]
      by_cases hdigit : 0x30 ≤ c ∧ c ≤ 0x39
      · have hlength : (strtoullDigits (c :: rest)).length ≤ rest.length + 1 := by
          rw [hdigits]
          exact (List.takeWhile_prefix _).length_le
        right; left
        refine ⟨hdigit.1, hdigit.2, _,
          hvalue.trans_le (Nat.pow_le_pow_right (by norm_num) hlength), ?_⟩
        rw [strtoull_of_short (by omega), if_neg hhead]
      · -- There is no digit at all.
        have hnone : strtoullDigits (c :: rest) = [] := by
          rw [hdigits, List.takeWhile_cons, if_neg (by simpa using hdigit)]
        left
        rw [strtoull_of_short (by simp [hnone]), if_neg hhead, hnone]
        rfl

/-- The number that is read from the bytes of a number. -/
def readAgain (width : ℕ) (number : BitVec 64) : BitVec 64 :=
  strtoull ((bigEndian width number.toNat).takeWhile (· ≠ 0))

theorem readAgain_zero {width : ℕ} {number : BitVec 64} (h : number.toNat % 256 ^ width = 0) :
    readAgain width number = 0 := by
  have hzero : bigEndian width number.toNat = List.replicate width 0 := by
    rw [← bigEndian_zero, bigEndian_inj, h, Nat.zero_mod]
  rw [readAgain, hzero]
  cases width with
  | zero => rfl
  | succ width => rfl

/-- How far a number is from zero: one that begins with `0xff` is read as zero next. -/
def bitRank (width n : ℕ) : ℕ :=
  if n = 0 then 0 else if 255 * 256 ^ (width - 1) ≤ n then 1 else n + 2

theorem bitRank_le (width n : ℕ) : bitRank width n ≤ n + 2 := by
  unfold bitRank
  split_ifs <;> omega

theorem bitRank_pos {width n : ℕ} (h : n ≠ 0) : bitRank width 0 < bitRank width n := by
  unfold bitRank
  split_ifs <;> omega

/-- A small number below the bytes of zero, counted in so many bytes. -/
theorem toNat_neg_mod {width n : ℕ} (hwidth : width ≤ 8) (hpos : 0 < n) (hn : n ≤ 256 ^ width)
    (hfits : n < 2 ^ 64) :
    (-BitVec.ofNat 64 n).toNat % 256 ^ width = (256 ^ width - n) % 256 ^ width := by
  obtain ⟨k, hk⟩ : 256 ^ width ∣ 256 ^ 8 := pow_dvd_pow 256 hwidth
  obtain ⟨k, rfl⟩ : ∃ j, k = j + 1 := by
    apply Nat.exists_eq_succ_of_ne_zero
    rintro rfl
    simp at hk
  rw [Nat.mul_add, Nat.mul_one] at hk
  have hneg : (-BitVec.ofNat 64 n).toNat = 256 ^ width * k + (256 ^ width - n) := by
    rw [BitVec.toNat_neg, BitVec.toNat_ofNat, Nat.mod_eq_of_lt hfits, Nat.mod_eq_of_lt (by omega)]
    omega
  rw [hneg, Nat.mul_add_mod]

/-- Reading again brings a number nearer to zero. -/
theorem bitRank_readAgain {width : ℕ} {number : BitVec 64} (hwidth : width ≤ 8)
    (h : number.toNat % 256 ^ width ≠ 0) :
    bitRank width ((readAgain width number).toNat % 256 ^ width) <
      bitRank width (number.toNat % 256 ^ width) := by
  cases width with
  | zero => simp [Nat.mod_one] at h
  | succ width =>
    have hpow : 256 ^ (width + 1) = 256 * 256 ^ width := pow_succ' 256 width
    have hten : 10 ^ width ≤ 256 ^ width := Nat.pow_le_pow_left (by decide) width
    have hseven : 10 ^ width ≤ 10 ^ 7 := Nat.pow_le_pow_right (by decide) (by omega)
    -- The first byte places the number.
    have hsplit : number.toNat % 256 ^ (width + 1) =
        number.toNat % 256 ^ width + 256 ^ width * (number.toNat / 256 ^ width % 256) := by
      rw [pow_succ, Nat.mod_mul]
    have hrest : number.toNat % 256 ^ width < 256 ^ width := Nat.mod_lt _ (Nat.pow_pos (by decide))
    obtain ⟨c, hc⟩ : ∃ c, c = UInt8.ofNat (number.toNat / 256 ^ width) := ⟨_, rfl⟩
    have hfirst : c.toNat = number.toNat / 256 ^ width % 256 := by rw [hc, UInt8.toNat_ofNat']
    have hread : readAgain (width + 1) number =
        strtoull ((c :: bigEndian width number.toNat).takeWhile (· ≠ 0)) := by
      rw [readAgain, bigEndian_succ, hc]
    rw [← hfirst] at hsplit
    generalize number.toNat % 256 ^ (width + 1) = value at h hsplit ⊢
    have hzero : bitRank (width + 1) ((0 : BitVec 64).toNat % 256 ^ (width + 1)) <
        bitRank (width + 1) value := by
      rw [show (0 : BitVec 64).toNat = 0 from rfl, Nat.zero_mod]
      exact bitRank_pos h
    -- A number below `0xff` in front has its value as its rank.
    have hrank : c.toNat ≤ 0x39 → bitRank (width + 1) value = value + 2 := by
      intro hle
      have hmul : 256 ^ width * c.toNat ≤ 256 ^ width * 0x39 := Nat.mul_le_mul_left _ hle
      rw [bitRank, if_neg h, if_neg (by rw [Nat.add_sub_cancel]; omega)]
    have hbelow : ∀ n, n < value → value < 256 ^ (width + 1) → n < 2 ^ 64 → c.toNat ≤ 0x39 →
        bitRank (width + 1) ((BitVec.ofNat 64 n).toNat % 256 ^ (width + 1)) <
          bitRank (width + 1) value := by
      intro n hn hvalue hn64 hle
      rw [hrank hle, BitVec.toNat_ofNat, Nat.mod_eq_of_lt hn64, Nat.mod_eq_of_lt (by omega)]
      exact (bitRank_le _ _).trans_lt (by omega)
    by_cases hnul : c = 0
    · have hempty : readAgain (width + 1) number = 0 := by
        rw [hread, hnul]
        rfl
      rw [hempty]
      exact hzero
    · rw [List.takeWhile_cons, if_pos (by simpa using hnul)] at hread
      have hlength : ((bigEndian width number.toNat).takeWhile (· ≠ 0)).length ≤ width :=
        (List.takeWhile_prefix _).length_le.trans (length_bigEndian width _).le
      have hshorter := Nat.pow_le_pow_right (n := 10) (by decide) hlength
      rw [hread]
      obtain hnone | ⟨hlow, hhigh, n, hn, hresult⟩ | ⟨hlow, hhigh, n, hn, hresult⟩ :=
        strtoull_cases (c := c) (hlength.trans (Nat.le_of_succ_le_succ hwidth))
      · rw [hnone]
        exact hzero
      · have hlow' : 0x30 ≤ c.toNat := hlow
        have hhigh' : c.toNat ≤ 0x39 := hhigh
        have hmul : 256 ^ width * 0x30 ≤ 256 ^ width * c.toNat := Nat.mul_le_mul_left _ hlow'
        have hmul' : 256 ^ width * c.toNat ≤ 256 ^ width * 0x39 := Nat.mul_le_mul_left _ hhigh'
        rw [pow_succ] at hn
        rw [hresult]
        exact hbelow n (by omega) (by omega) (by omega) hhigh'
      · have hlow' : 0x09 ≤ c.toNat := hlow
        have hhigh' : c.toNat ≤ 0x2d := hhigh
        have hmul : 256 ^ width * 0x09 ≤ 256 ^ width * c.toNat := Nat.mul_le_mul_left _ hlow'
        have hmul' : 256 ^ width * c.toNat ≤ 256 ^ width * 0x2d := Nat.mul_le_mul_left _ hhigh'
        obtain hresult | hresult := hresult
        · rw [hresult]
          exact hbelow n (by omega) (by omega) (by omega) (by omega)
        · rw [hresult]
          by_cases hn0 : n = 0
          · rw [hn0]
            exact hzero
          · -- A negative number begins with `0xff`.
            rw [toNat_neg_mod hwidth (by omega) (by omega) (by omega), Nat.mod_eq_of_lt (by omega),
              hrank (by omega), bitRank, if_neg (by omega), if_pos]
            · omega
            · rw [Nat.add_sub_cancel]
              omega

/-- A number that was read again is another one unless it is zero. -/
theorem readAgain_iterate {width : ℕ} {number : BitVec 64} (hwidth : width ≤ 8) (again : ℕ) :
    ((readAgain width)^[again + 1] number).toNat % 256 ^ width = number.toNat % 256 ^ width ↔
      number.toNat % 256 ^ width = 0 := by
  -- Zero is kept, and the rank of every other number falls.
  have hkeep : ∀ number : BitVec 64, number.toNat % 256 ^ width = 0 →
      ∀ again, ((readAgain width)^[again] number).toNat % 256 ^ width = 0 := by
    intro number hzero again
    induction again with
    | zero => exact hzero
    | succ again ih =>
      rw [Function.iterate_succ_apply', readAgain_zero ih]
      exact Nat.zero_mod _
  constructor
  · intro hsame
    by_contra hne
    have hfall : ∀ again, bitRank width (((readAgain width)^[again + 1] number).toNat % 256 ^ width) <
        bitRank width (number.toNat % 256 ^ width) := by
      intro again
      induction again with
      | zero => exact bitRank_readAgain hwidth hne
      | succ again ih =>
        by_cases hzero : ((readAgain width)^[again + 1] number).toNat % 256 ^ width = 0
        · rw [Function.iterate_succ_apply', readAgain_zero hzero,
            show (0 : BitVec 64).toNat = 0 from rfl, Nat.zero_mod]
          exact bitRank_pos hne
        · rw [Function.iterate_succ_apply']
          exact (bitRank_readAgain hwidth hzero).trans ih
    have hlt := hfall again
    rw [hsame] at hlt
    exact lt_irrefl _ hlt
  · intro hzero
    rw [hkeep number hzero, hzero]

namespace OutColumn

/-- A `BIT` column as `allocate_buffer_for_field` binds it, with a text of at most twenty
bytes. -/
def Fits (column : OutColumn) : Prop :=
  column.bit = true →
    column.buffer.length = bitOutSize ∧ column.length ≤ 20 ∧ column.fieldLength ≤ 64

/-- The number that the text of the column stands for. -/
def number (column : OutColumn) : BitVec 64 :=
  strtoull ((column.buffer.set column.length 0).takeWhile (· ≠ 0))

/-- A column as the server fills it: a `BIT` column has the digits of a number of its bits. -/
def FromServer (column : OutColumn) : Prop :=
  column.Fits ∧ (column.bit = true → column.number.toNat < 2 ^ column.fieldLength)

/-- The column as it is handed on. -/
def convert (column : OutColumn) : OutColumn := column.prepared.getD column

variable {column : OutColumn}

theorem bitBytes_le (h : column.fieldLength ≤ 64) : column.bitBytes ≤ 8 := by
  unfold bitBytes
  omega

/-- The writes stay inside the buffer. -/
theorem Fits.prepared (h : column.Fits) : column.prepared = some column.convert := by
  unfold convert OutColumn.prepared
  split_ifs with hbit
  · obtain ⟨hbuffer, hlength, hfield⟩ := h hbit
    have hbytes := bitBytes_le hfield
    have hinside : column.length < column.buffer.length ∧
        column.bitBytes ≤ column.buffer.length := by
      unfold bitOutSize at hbuffer
      omega
    rw [rewriteBit, if_pos hinside]
    rfl
  · rfl

theorem convert_of_not_bit (h : column.bit = false) : column.convert = column := by
  simp [convert, OutColumn.prepared, h]

/-- A `BIT` column that is converted. -/
theorem Fits.convert_bit (h : column.Fits) (hbit : column.bit = true) :
    column.convert =
      { column with
        buffer := bigEndian column.bitBytes column.number.toNat ++
          (column.buffer.set column.length 0).drop column.bitBytes
        length := column.bitBytes } := by
  obtain ⟨hbuffer, hlength, hfield⟩ := h hbit
  have hbytes := bitBytes_le hfield
  have hprepared := h.prepared
  rw [OutColumn.prepared, if_pos hbit, rewriteBit] at hprepared
  split_ifs at hprepared
  have hconvert := Option.some.inj hprepared
  unfold bitOutSize at hbuffer
  rw [← hconvert, numeric2binary_eq _ _ (by rw [List.length_set]; omega) hbytes]
  rfl

/-- What a conversion keeps. -/
theorem Fits.convert_fields (h : column.Fits) :
    column.convert.bit = column.bit ∧ column.convert.fieldLength = column.fieldLength ∧
      column.convert.isNull = column.isNull ∧ column.convert.Fits := by
  cases hbit : column.bit with
  | false =>
    rw [convert_of_not_bit hbit]
    exact ⟨hbit, rfl, rfl, h⟩
  | true =>
    obtain ⟨hbuffer, hlength, hfield⟩ := h hbit
    have hbytes := bitBytes_le hfield
    unfold bitOutSize at hbuffer
    rw [h.convert_bit hbit]
    refine ⟨hbit, rfl, rfl, fun _ => ⟨?_, hbytes.trans (by decide), hfield⟩⟩
    rw [List.length_append, length_bigEndian, List.length_drop, List.length_set, bitOutSize]
    omega

/-- A conversion after the first one reads the bytes again. -/
theorem Fits.convert_number (h : column.Fits) (hbit : column.bit = true) :
    column.convert.number = readAgain column.bitBytes column.number := by
  have hterminated : ∀ bytes rest : List UInt8,
      ((bytes ++ rest).set bytes.length 0).takeWhile (· ≠ 0) = bytes.takeWhile (· ≠ 0) := by
    intro bytes rest
    induction bytes with
    | nil => cases rest <;> simp
    | cons byte bytes ih =>
      rw [List.cons_append, List.length_cons, List.set_cons_succ, List.takeWhile_cons,
        List.takeWhile_cons, ih]
  rw [h.convert_bit hbit, readAgain, ← hterminated, length_bigEndian]
  rfl

/-- The value that one conversion leaves. -/
theorem Fits.convert_value (h : column.Fits) (hbit : column.bit = true) :
    column.convert.value = bigEndian column.bitBytes column.number.toNat := by
  rw [h.convert_bit hbit, value]
  exact List.take_left' (length_bigEndian _ _)

/-- What several conversions leave. -/
theorem Fits.iterate (h : column.Fits) (hbit : column.bit = true) (again : ℕ) :
    (convert^[again] column).Fits ∧ (convert^[again] column).bit = true ∧
      (convert^[again] column).isNull = column.isNull ∧
      (convert^[again] column).fieldLength = column.fieldLength ∧
      (convert^[again] column).number = (readAgain column.bitBytes)^[again] column.number := by
  induction again with
  | zero => exact ⟨h, hbit, rfl, rfl, rfl⟩
  | succ again ih =>
    obtain ⟨hfits, hbit', hnull, hfield, hnumber⟩ := ih
    obtain ⟨hkeepBit, hkeepField, hkeepNull, hkeep⟩ := hfits.convert_fields
    have hbytes : (convert^[again] column).bitBytes = column.bitBytes := by
      rw [bitBytes, hfield, bitBytes]
    rw [Function.iterate_succ_apply', Function.iterate_succ_apply']
    refine ⟨hkeep, hkeepBit.trans hbit', hkeepNull.trans hnull, hkeepField.trans hfield, ?_⟩
    rw [hfits.convert_number hbit', hbytes, hnumber]

/-- Conversions after the first one keep everything but the bytes. -/
theorem Fits.iterate_fields (h : column.Fits) (again : ℕ) :
    (convert^[again] column).Fits ∧
      (convert^[again + 1] column).isNull = column.convert.isNull ∧
      (convert^[again + 1] column).length = column.convert.length := by
  cases hbit : column.bit with
  | false =>
    have hfix : convert^[again] column = column := by
      apply Function.iterate_fixed
      exact convert_of_not_bit hbit
    rw [Function.iterate_succ_apply', hfix]
    exact ⟨h, rfl, rfl⟩
  | true =>
    obtain ⟨hfits, hbit', hnull, hfield, -⟩ := h.iterate hbit again
    rw [Function.iterate_succ_apply', hfits.convert_bit hbit', h.convert_bit hbit]
    refine ⟨hfits, hnull, ?_⟩
    show (convert^[again] column).bitBytes = column.bitBytes
    rw [bitBytes, hfield, bitBytes]

/-- Converting a column again keeps its value exactly when it is no `BIT` column, or its
number is zero. -/
theorem FromServer.iterate_value (h : column.FromServer) (again : ℕ) :
    (convert^[again + 1] column).value = column.convert.value ↔
      again = 0 ∨ column.bit = false ∨ column.number = 0 := by
  cases hbit : column.bit with
  | false =>
    have hfix : convert^[again] column = column := by
      apply Function.iterate_fixed
      exact convert_of_not_bit hbit
    rw [Function.iterate_succ_apply', hfix]
    simp
  | true =>
    cases again with
    | zero => simp
    | succ again =>
      obtain ⟨hfits, hbit', -, hfield, hnumber⟩ := h.1.iterate hbit (again + 1)
      obtain ⟨-, -, hfield64⟩ := h.1 hbit
      have hbytes : (convert^[again + 1] column).bitBytes = column.bitBytes := by
        rw [bitBytes, hfield, bitBytes]
      have hmod : column.number.toNat % 256 ^ column.bitBytes = column.number.toNat := by
        apply Nat.mod_eq_of_lt
        have hpow : 256 ^ column.bitBytes = 2 ^ (8 * column.bitBytes) := by
          rw [pow_mul]
          rfl
        rw [hpow]
        refine (h.2 hbit).trans_le (Nat.pow_le_pow_right (by decide) ?_)
        unfold bitBytes
        omega
      rw [Function.iterate_succ_apply', hfits.convert_value hbit', h.1.convert_value hbit, hbytes,
        hnumber, bigEndian_inj, readAgain_iterate (bitBytes_le hfield64), hmod]
      have hzero : column.number.toNat = 0 ↔ column.number = 0 := BitVec.toNat_inj (y := 0)
      rw [hzero]
      simp

end OutColumn

end MatrixOdbc.Driver
