import MatrixOdbc.Driver.ColumnNumber
import Mathlib.Tactic.FinCases
import Mathlib.Tactic.NormNum

/-!
# Whole numbers of prepared and of other statements

A column of whole numbers reaches `get_int64`, `get_uint64` and `get_string` in two ways: in a
buffer of the size of its type, and as a text. Both give the same numbers and texts except for
three kinds of values: those of one byte that the compiler's `char` reads with the other sign,
those that `strtoll` cuts, and those that the server fills up with zeros.
-/

namespace MatrixOdbc.Driver

open MatrixOdbc.Foundations

/-- The types of columns of whole numbers. -/
inductive IntegerType where
  | tinyInt | smallInt | mediumInt | int | bigInt | year
  deriving DecidableEq

namespace IntegerType

/-- The type of the buffer, that of the field. -/
def bufferType : IntegerType → BufferType
  | tinyInt => .tiny
  | smallInt => .short
  | mediumInt => .int24
  | int => .long
  | bigInt => .longlong
  | year => .year

/-- The size of the buffer: `allocate_buffer_for_field`. -/
def bufferSize : IntegerType → ℕ
  | tinyInt => 1
  | smallInt => 2
  | mediumInt => 4
  | int => 4
  | bigInt => 8
  | year => 2

/-- The bits of the values. -/
def bits : IntegerType → ℕ
  | tinyInt => 8
  | smallInt => 16
  | mediumInt => 24
  | int => 32
  | bigInt => 64
  | year => 16

end IntegerType

/-- A column of whole numbers as the server declares it. Only columns without a sign are filled
up with zeros, and a year always is. -/
structure IntegerColumn where
  type : IntegerType
  isUnsigned : Bool
  /-- The width to which texts are filled up with zeros; zero where they are not. -/
  zerofill : ℕ
  zerofill_unsigned : zerofill ≠ 0 → isUnsigned = true
  year_zerofill : type = .year → zerofill = 4

namespace IntegerColumn

variable (column : IntegerColumn)

/-- The values of the column. -/
def Holds (v : ℤ) : Prop :=
  match column.type with
  | .year => v = 0 ∨ 1901 ≤ v ∧ v ≤ 2155
  | type =>
    if column.isUnsigned then 0 ≤ v ∧ v < 2 ^ type.bits
    else -2 ^ (type.bits - 1) ≤ v ∧ v < 2 ^ (type.bits - 1)

/-- The text that the server sends for a value. -/
def text (v : ℤ) : List UInt8 :=
  if v < 0 then Decimal.signedText v
  else
    List.replicate (column.zerofill - (Decimal.text v.natAbs).length) 0x30 ++ Decimal.text v.natAbs

/-- The bytes that are put into the buffer for a value, the lowest first. -/
def bytes (v : ℤ) : List UInt8 :=
  (bigEndian column.type.bufferSize (v % 2 ^ (8 * column.type.bufferSize)).toNat).reverse

/-- A row with a value, fetched by a statement that is prepared on the server or by another. -/
def row (ssps : Bool) (v : ℤ) : RowColumn :=
  { ssps := ssps
    colRbind :=
      { bufferType := column.type.bufferType
        buffer := column.bytes v
        length := column.type.bufferSize
        isNull := false
        isUnsigned := column.isUnsigned }
    value := column.text v }

/-- Both ways lead to the same numbers and to the same text. -/
def PathsAgree (charSigned : Bool) (v : ℤ) : Prop :=
  getInt64 charSigned (column.row true v) = getInt64 charSigned (column.row false v) ∧
    getUint64 charSigned (column.row true v) = getUint64 charSigned (column.row false v) ∧
    getStringValue charSigned (column.row true v) = getStringValue charSigned (column.row false v)

/-- What one byte is read as by a `char`. -/
def charValue (charSigned : Bool) (v : ℤ) : ℤ := if charSigned then Int.bmod v 256 else v % 256

/-- The number that is read from the buffer. -/
def readBack (charSigned : Bool) (v : ℤ) : ℤ :=
  if column.type = .tinyInt then charValue charSigned v else v

variable {column} {v : ℤ}

theorem length_bytes : (column.bytes v).length = column.type.bufferSize := by
  rw [bytes, List.length_reverse, length_bigEndian]

/-- The bytes are the value up to their size. -/
theorem loadBytes_bytes :
    loadBytes (column.bytes v) = (v % 2 ^ (8 * column.type.bufferSize)).toNat := by
  have hpos : (0 : ℤ) < 2 ^ (8 * column.type.bufferSize) := by positivity
  have hlt := Int.emod_lt_of_pos v hpos
  have hnonneg := Int.emod_nonneg v hpos.ne'
  have hpow : (256 ^ column.type.bufferSize : ℕ) = 2 ^ (8 * column.type.bufferSize) := by
    rw [pow_mul]
    rfl
  have hpow' : ((2 ^ (8 * column.type.bufferSize) : ℕ) : ℤ) = 2 ^ (8 * column.type.bufferSize) := by
    push_cast
    rfl
  rw [loadBytes, bytes, List.reverse_reverse, bigEndianValue_bigEndian, hpow]
  apply Nat.mod_eq_of_lt
  omega

/-- A value that fits is loaded from its bytes with a sign. -/
theorem loadNumber_signed {width : ℕ} {buffer : List UInt8}
    (hbuffer : loadBytes buffer = (v % 2 ^ width).toNat) :
    loadNumber width true buffer = BitVec.ofInt 64 (Int.bmod v (2 ^ width)) := by
  have hpos : (0 : ℤ) < 2 ^ width := by positivity
  have hnonneg := Int.emod_nonneg v hpos.ne'
  have hbits : BitVec.ofNat width (loadBytes buffer) = BitVec.ofInt width v := by
    apply BitVec.eq_of_toNat_eq
    rw [hbuffer, BitVec.toNat_ofNat, BitVec.toNat_ofInt]
    have hlt := Int.emod_lt_of_pos v hpos
    have hcast : ((2 ^ width : ℕ) : ℤ) = 2 ^ width := by push_cast; rfl
    rw [hcast]
    apply Nat.mod_eq_of_lt
    omega
  rw [loadNumber, if_pos rfl, hbits, BitVec.signExtend, BitVec.toInt_ofInt]

/-- A value that fits is loaded from its bytes without a sign. -/
theorem loadNumber_unsigned {width : ℕ} {buffer : List UInt8} (hwidth : width ≤ 64)
    (hbuffer : loadBytes buffer = (v % 2 ^ width).toNat) :
    loadNumber width false buffer = BitVec.ofInt 64 (v % 2 ^ width) := by
  have hpos : (0 : ℤ) < 2 ^ width := by positivity
  have hnonneg := Int.emod_nonneg v hpos.ne'
  have hlt := Int.emod_lt_of_pos v hpos
  have hcast : ((2 ^ width : ℕ) : ℤ) = 2 ^ width := by push_cast; rfl
  have hle : (2 : ℕ) ^ width ≤ 2 ^ 64 := Nat.pow_le_pow_right (by decide) hwidth
  apply BitVec.eq_of_toNat_eq
  rw [loadNumber, if_neg Bool.false_ne_true, BitVec.toNat_setWidth, BitVec.toNat_ofNat,
    BitVec.toNat_ofInt, hbuffer]
  have hsame : ((v % 2 ^ width).toNat : ℤ) = v % 2 ^ width := Int.toNat_of_nonneg hnonneg
  rw [Nat.mod_eq_of_lt (a := (v % 2 ^ width).toNat) (by omega), Nat.mod_eq_of_lt (by omega),
    Int.emod_eq_of_lt hnonneg (by push_cast; omega)]

/-- A value fits into its buffer. -/
theorem Holds.fits (h : column.Holds v) :
    if column.isUnsigned then 0 ≤ v ∧ v < 2 ^ (8 * column.type.bufferSize)
    else -2 ^ (8 * column.type.bufferSize - 1) ≤ v ∧ v < 2 ^ (8 * column.type.bufferSize - 1) := by
  unfold Holds at h
  cases htype : column.type with
  | year =>
    have hunsigned := column.zerofill_unsigned (by rw [column.year_zerofill htype]; decide)
    rw [htype] at h
    rw [if_pos hunsigned]
    norm_num [IntegerType.bufferSize] at h ⊢
    omega
  | _ =>
    rw [htype] at h
    dsimp only at h
    split_ifs with hunsigned
    · rw [if_pos hunsigned] at h
      norm_num [IntegerType.bits, IntegerType.bufferSize] at h ⊢
      omega
    · rw [if_neg hunsigned] at h
      norm_num [IntegerType.bits, IntegerType.bufferSize] at h ⊢
      omega

/-- The bounds of a value. -/
theorem Holds.bounds (h : column.Holds v) :
    -2 ^ 63 ≤ v ∧ v < 2 ^ 64 ∧ (column.isUnsigned = true → 0 ≤ v) ∧
      (column.isUnsigned = false → v < 2 ^ 63) := by
  have hfits := h.fits
  have hsize : column.type.bufferSize ∈ [1, 2, 4, 8] := by cases column.type <;> decide
  generalize column.type.bufferSize = size at hfits hsize
  cases hunsigned : column.isUnsigned with
  | false =>
    rw [hunsigned, if_neg Bool.false_ne_true] at hfits
    fin_cases hsize <;> norm_num at hfits ⊢ <;> omega
  | true =>
    rw [hunsigned, if_pos rfl] at hfits
    fin_cases hsize <;> norm_num at hfits ⊢ <;> omega

/-- The bounds of a value of one byte. -/
theorem Holds.tiny_bounds (h : column.Holds v) (htype : column.type = .tinyInt) :
    -128 ≤ v ∧ v ≤ 255 := by
  have hfits := h.fits
  rw [htype] at hfits
  norm_num [IntegerType.bufferSize] at hfits
  split_ifs at hfits <;> omega

/-- A value is loaded from its buffer with the sign of the column. -/
theorem Holds.loadNumber_bytes (h : column.Holds v) :
    loadNumber (8 * column.type.bufferSize) (!column.isUnsigned) (column.bytes v) =
      BitVec.ofInt 64 v := by
  have hfits := h.fits
  have hsize : 0 < 8 * column.type.bufferSize ∧ 8 * column.type.bufferSize ≤ 64 := by
    cases column.type <;> decide
  cases hunsigned : column.isUnsigned with
  | false =>
    rw [hunsigned, if_neg Bool.false_ne_true] at hfits
    have hsame : (BitVec.ofInt (8 * column.type.bufferSize) v).toInt = v :=
      BitVec.toInt_ofInt_eq_self hsize.1 hfits.1 hfits.2
    rw [BitVec.toInt_ofInt] at hsame
    rw [Bool.not_false, loadNumber_signed loadBytes_bytes, hsame]
  | true =>
    rw [hunsigned, if_pos rfl] at hfits
    rw [Bool.not_true, loadNumber_unsigned hsize.2 loadBytes_bytes,
      Int.emod_eq_of_lt hfits.1 hfits.2]

/-- What is read from the buffer. -/
theorem Holds.sspsGetInt64_row (h : column.Holds v) (charSigned : Bool) :
    sspsGetInt64 charSigned (column.row true v).colRbind =
      some (BitVec.ofInt 64 (column.readBack charSigned v)) := by
  have hlength := @length_bytes column v
  by_cases htiny : column.type = .tinyInt
  · have hbytes := @loadBytes_bytes column v
    rw [htiny] at hlength hbytes
    have hchar : loadNumber 8 charSigned (column.bytes v) =
        BitVec.ofInt 64 (charValue charSigned v) := by
      cases charSigned with
      | false => exact loadNumber_unsigned (by decide) hbytes
      | true => exact loadNumber_signed hbytes
    simp only [sspsGetInt64, row, htiny, IntegerType.bufferType, hlength,
      IntegerType.bufferSize, ite_self, hchar, readBack, if_true, Bool.false_eq_true, if_false]
  · have hload := h.loadNumber_bytes
    have hback : column.readBack charSigned v = v := if_neg htiny
    rw [hback, ← hload]
    cases htype : column.type with
    | tinyInt => exact absurd htype htiny
    | _ =>
      rw [htype] at hlength
      simp only [sspsGetInt64, row, htype, IntegerType.bufferType, hlength,
        IntegerType.bufferSize, Bool.false_eq_true, if_false]

/-- The digits behind the sign of the text. -/
theorem text_of_nonneg (h : 0 ≤ v) :
    ∃ zeros, column.text v = List.replicate zeros 0x30 ++ Decimal.text v.natAbs ∧
      zeros = column.zerofill - (Decimal.text v.natAbs).length :=
  ⟨_, by rw [text, if_neg (by omega)], rfl⟩

/-- The text has no byte that ends it. -/
theorem takeWhile_text : (column.text v).takeWhile (· ≠ 0) = column.text v := by
  rw [List.takeWhile_eq_self_iff]
  intro c hc
  have hdigit : ∀ {digits : List UInt8}, (∀ d ∈ digits, Decimal.IsDigit d) → c ∈ digits → c ≠ 0 := by
    intro digits hdigits hmem
    rintro rfl
    exact absurd (hdigits 0 hmem).1 (by decide)
  have hne : c ≠ 0 := by
    unfold text at hc
    split_ifs at hc with hneg
    · rw [Decimal.signedText, if_pos hneg] at hc
      obtain rfl | hc := List.mem_cons.mp hc
      · decide
      · exact hdigit (fun d => Decimal.isDigit_text) hc
    · obtain hc | hc := List.mem_append.mp hc
      · obtain rfl := List.eq_of_mem_replicate hc
        decide
      · exact hdigit (fun d => Decimal.isDigit_text) hc
  simpa using hne

/-- All bytes behind the sign are digits with the value of the number. -/
theorem isDigit_zeros (zeros n : ℕ) :
    (∀ c ∈ List.replicate zeros 0x30 ++ Decimal.text n, Decimal.IsDigit c) ∧
      Decimal.value (List.replicate zeros 0x30 ++ Decimal.text n) = n := by
  refine ⟨fun c hc => ?_, by rw [Decimal.value_replicate_append, Decimal.value_text]⟩
  obtain hc | hc := List.mem_append.mp hc
  · obtain rfl := List.eq_of_mem_replicate hc
    exact ⟨le_refl _, by decide⟩
  · exact Decimal.isDigit_text hc

/-- `strtoll` cuts the text of a large number. -/
theorem Holds.strtoll_text (h : column.Holds v) : strtoll (column.text v) = min (2 ^ 63 - 1) v := by
  obtain ⟨hlow, -⟩ := h.bounds
  by_cases hneg : v < 0
  · rw [text, if_pos hneg, Decimal.signedText, if_pos hneg,
      strtoll_minus fun c => Decimal.isDigit_text, Decimal.value_text]
    omega
  · obtain ⟨zeros, htext, -⟩ := @text_of_nonneg column v (by omega)
    obtain ⟨hdigits, hvalue⟩ := isDigit_zeros zeros v.natAbs
    rw [htext, strtoll_digits hdigits, hvalue]
    omega

/-- `strtoull` reads the text as the same bits. -/
theorem Holds.strtoull_text (h : column.Holds v) : strtoull (column.text v) = BitVec.ofInt 64 v := by
  obtain ⟨hlow, hhigh, -⟩ := h.bounds
  by_cases hneg : v < 0
  · have hv : v = -(v.natAbs : ℤ) := by omega
    rw [text, if_pos hneg, Decimal.signedText, if_pos hneg,
      strtoull_minus (fun c => Decimal.isDigit_text) (by rw [Decimal.value_text]; omega),
      Decimal.value_text]
    conv_rhs => rw [hv, BitVec.ofInt_neg, BitVec.ofInt_natCast]
  · have hv : v = (v.natAbs : ℤ) := by omega
    obtain ⟨zeros, htext, -⟩ := @text_of_nonneg column v (by omega)
    obtain ⟨hdigits, hvalue⟩ := isDigit_zeros zeros v.natAbs
    rw [htext, strtoull_digits hdigits (by rw [hvalue]; omega), hvalue]
    conv_rhs => rw [hv, BitVec.ofInt_natCast]

/-- The sign of `char` does not count for a value. -/
theorem Holds.readBack_eq_iff (h : column.Holds v) (charSigned : Bool) :
    column.readBack charSigned v = v ↔
      (column.type = .tinyInt → if charSigned then v ≤ 127 else 0 ≤ v) := by
  unfold readBack
  by_cases htype : column.type = .tinyInt
  · have htiny := h.tiny_bounds htype
    rw [if_pos htype, charValue]
    simp only [htype, true_imp_iff]
    split_ifs with hsigned
    · simp only [Int.bmod]
      omega
    · omega
  · rw [if_neg htype]
    exact iff_of_true rfl fun htiny => absurd htiny htype

/-- The number of `get_int64`. -/
theorem Holds.getInt64_eq_iff (h : column.Holds v) (charSigned : Bool) :
    getInt64 charSigned (column.row true v) = getInt64 charSigned (column.row false v) ↔
      column.readBack charSigned v = v ∧ v < 2 ^ 63 := by
  have hprepared : getInt64 charSigned (column.row true v) =
      some (Int.bmod (column.readBack charSigned v) (2 ^ 64)) := by
    change (sspsGetInt64 charSigned (column.row true v).colRbind).map BitVec.toInt = _
    rw [h.sspsGetInt64_row, Option.map_some, BitVec.toInt_ofInt]
  have htext : getInt64 charSigned (column.row false v) = some (min (2 ^ 63 - 1) v) := by
    change some (strtoll ((column.text v).takeWhile (· ≠ 0))) = _
    rw [takeWhile_text, h.strtoll_text]
  have hback : column.readBack charSigned v = v ∨
      -128 ≤ column.readBack charSigned v ∧ column.readBack charSigned v ≤ 255 ∧
        -128 ≤ v ∧ v ≤ 255 := by
    unfold readBack charValue
    split_ifs with htype hsigned
    · have htiny := h.tiny_bounds htype
      simp only [Int.bmod]
      omega
    · have htiny := h.tiny_bounds htype
      omega
    · exact Or.inl rfl
  obtain ⟨hlow, hhigh, -⟩ := h.bounds
  rw [hprepared, htext, Option.some_inj]
  simp only [Int.bmod]
  omega

/-- The number of `get_uint64`. -/
theorem Holds.getUint64_eq (h : column.Holds v) {charSigned : Bool}
    (hback : column.readBack charSigned v = v) :
    getUint64 charSigned (column.row true v) = getUint64 charSigned (column.row false v) := by
  change (sspsGetInt64 charSigned (column.row true v).colRbind).map BitVec.toNat =
    some (strtoull ((column.text v).takeWhile (· ≠ 0))).toNat
  rw [h.sspsGetInt64_row, hback, Option.map_some, takeWhile_text, h.strtoull_text]

/-- The text that is printed for a value. -/
theorem Holds.getStringValue_prepared (h : column.Holds v) {charSigned : Bool}
    (hback : column.readBack charSigned v = v) :
    getStringValue charSigned (column.row true v) = some (Decimal.signedText v) := by
  obtain ⟨hlow, hhigh, hunsigned, hsigned⟩ := h.bounds
  have hlength : (Decimal.signedText v).length ≤ 28 := by
    have hdigits : (Decimal.text v.natAbs).length ≤ 20 :=
      Decimal.length_text_le (by decide) (by norm_num; omega)
    unfold Decimal.signedText
    split_ifs
    · rw [List.length_cons]
      omega
    · omega
  have hprinted : (if column.isUnsigned = true then Decimal.text (BitVec.ofInt 64 v).toNat
      else Decimal.signedText (BitVec.ofInt 64 v).toInt) = Decimal.signedText v := by
    split_ifs with hcolumn
    · have hnonneg := hunsigned hcolumn
      rw [BitVec.toNat_ofInt, Decimal.signedText, if_neg (by omega)]
      congr 1
      norm_num
      omega
    · have hbound := hsigned (by simpa using hcolumn)
      rw [BitVec.toInt_ofInt]
      congr 1
      simp only [Int.bmod]
      omega
  change sspsGetString charSigned (column.row true v).colRbind = _
  unfold sspsGetString
  rw [if_neg (by exact Bool.false_ne_true), h.sspsGetInt64_row, hback]
  change some ((if column.isUnsigned = true then Decimal.text (BitVec.ofInt 64 v).toNat
    else Decimal.signedText (BitVec.ofInt 64 v).toInt).take 28) = _
  rw [hprinted, List.take_of_length_le hlength]

/-- The text of `get_string`. -/
theorem Holds.getStringValue_eq_iff (h : column.Holds v) {charSigned : Bool}
    (hback : column.readBack charSigned v = v) :
    getStringValue charSigned (column.row true v) = getStringValue charSigned (column.row false v) ↔
      column.zerofill ≤ (Decimal.text v.natAbs).length := by
  have htext : getStringValue charSigned (column.row false v) = some (column.text v) := by
    change some ((column.text v).takeWhile (· ≠ 0)) = _
    rw [takeWhile_text]
  obtain ⟨-, -, hunsigned, -⟩ := h.bounds
  rw [h.getStringValue_prepared hback, htext, Option.some_inj]
  by_cases hneg : v < 0
  · have hzerofill : column.zerofill = 0 := by
      by_contra hne
      have hnonneg := hunsigned (column.zerofill_unsigned hne)
      omega
    rw [text, if_pos hneg, hzerofill]
    simp
  · obtain ⟨zeros, hzeros, hcount⟩ := @text_of_nonneg column v (by omega)
    rw [hzeros, Decimal.signedText, if_neg hneg]
    constructor
    · intro hsame
      have hlength := congrArg List.length hsame
      rw [List.length_append, List.length_replicate] at hlength
      omega
    · intro hle
      rw [hcount, Nat.sub_eq_zero_of_le hle]
      rfl

variable (column)

/-- Both ways agree exactly for the values that `char` reads with the sign of the column, that
`strtoll` does not cut, and that are not filled up with zeros. -/
theorem pathsAgree_iff (charSigned : Bool) (h : column.Holds v) :
    column.PathsAgree charSigned v ↔
      (column.type = .tinyInt → if charSigned then v ≤ 127 else 0 ≤ v) ∧ v < 2 ^ 63 ∧
        column.zerofill ≤ (Decimal.text v.natAbs).length := by
  unfold PathsAgree
  rw [h.getInt64_eq_iff, h.readBack_eq_iff]
  constructor
  · rintro ⟨⟨hchar, hlow⟩, -, hstring⟩
    have hback := (h.readBack_eq_iff charSigned).mpr hchar
    exact ⟨hchar, hlow, (h.getStringValue_eq_iff hback).mp hstring⟩
  · rintro ⟨hchar, hlow, hlength⟩
    have hback := (h.readBack_eq_iff charSigned).mpr hchar
    exact ⟨⟨hchar, hlow⟩, h.getUint64_eq hback, (h.getStringValue_eq_iff hback).mpr hlength⟩

/-- A column of one byte without a sign. -/
def unsignedTinyInt : IntegerColumn :=
  { type := .tinyInt
    isUnsigned := true
    zerofill := 0
    zerofill_unsigned := fun _ => rfl
    year_zerofill := nofun }

/-- The values in the lower half agree. -/
theorem pathsAgree_100 : unsignedTinyInt.PathsAgree true 100 :=
  (unsignedTinyInt.pathsAgree_iff true ⟨by decide, by decide⟩).mpr
    ⟨fun _ => by decide, by decide, by decide⟩

/-- The values in the upper half do not: 200 is -56 in a buffer. -/
theorem not_pathsAgree_200 : ¬ unsignedTinyInt.PathsAgree true 200 := by
  have hprepared : getInt64 true (unsignedTinyInt.row true 200) = some (-56) := by decide
  have htext : getInt64 true (unsignedTinyInt.row false 200) = some 200 := by decide
  rintro ⟨hnumber, -⟩
  rw [hprepared, htext] at hnumber
  exact absurd hnumber (by decide)

end IntegerColumn

end MatrixOdbc.Driver
