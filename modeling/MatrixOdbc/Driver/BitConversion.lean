import MatrixOdbc.Driver.BitColumn
import MatrixOdbc.Driver.SqlNumeric

/-!
# BIT columns as numbers

`sql_get_data` reads the bytes of a `BIT` column as a number before it looks at the C type:
as a signed one, for `SQL_C_UBIGINT` as an unsigned one. Each C type then reads one of the two
variables, or the column again. The bits arrive as numbers exactly when the variable that was
set is the one that is read, and the sign does not count.
-/

namespace MatrixOdbc.Driver

open MatrixOdbc.Foundations

/-- The C types that `sql_get_data` and the tables of conversions name. -/
inductive NumberCType where
  | SQL_C_CHAR | SQL_C_WCHAR | SQL_C_BINARY | SQL_C_BIT
  | SQL_C_TINYINT | SQL_C_STINYINT | SQL_C_UTINYINT
  | SQL_C_SHORT | SQL_C_SSHORT | SQL_C_USHORT
  | SQL_C_LONG | SQL_C_SLONG | SQL_C_ULONG
  | SQL_C_FLOAT | SQL_C_DOUBLE | SQL_C_SBIGINT | SQL_C_UBIGINT | SQL_C_NUMERIC
  | SQL_C_DATE | SQL_C_TYPE_DATE | SQL_C_TIME | SQL_C_TYPE_TIME
  | SQL_C_TIMESTAMP | SQL_C_TYPE_TIMESTAMP
  deriving DecidableEq

namespace NumberCType

/-- Dates and times. -/
def isDateTime (cType : NumberCType) : Bool :=
  cType ∈ [.SQL_C_DATE, .SQL_C_TYPE_DATE, .SQL_C_TIME, .SQL_C_TYPE_TIME, .SQL_C_TIMESTAMP,
    .SQL_C_TYPE_TIMESTAMP]

/-- `is_binary_ctype`. -/
def isBinaryCtype (cType : NumberCType) : Bool :=
  cType = .SQL_C_CHAR || cType = .SQL_C_BINARY || cType = .SQL_C_WCHAR

/-- `odbc_supported_conversion` for the type that `get_sql_data_type` gives a `BIT` column:
`SQL_BINARY` for more than one bit and `SQL_BIT` for one. -/
def odbcSupportedConversion (bits : ℕ) (cType : NumberCType) : Bool :=
  if 1 < bits then cType.isBinaryCtype else !cType.isDateTime

/-- `driver_supported_conversion` for a `BIT` column: the case of numbers goes on with the one
of dates. -/
def driverSupportedConversion (cType : NumberCType) : Bool :=
  cType ∈ [.SQL_C_BIT, .SQL_C_TINYINT, .SQL_C_STINYINT, .SQL_C_UTINYINT, .SQL_C_SHORT,
    .SQL_C_SSHORT, .SQL_C_USHORT, .SQL_C_LONG, .SQL_C_SLONG, .SQL_C_ULONG, .SQL_C_FLOAT,
    .SQL_C_DOUBLE, .SQL_C_SBIGINT, .SQL_C_UBIGINT, .SQL_C_NUMERIC] || cType.isDateTime

/-- The integer C types with the numbers they hold. -/
def range : NumberCType → Option (ℤ × ℤ)
  | .SQL_C_TINYINT | .SQL_C_STINYINT => some (-2 ^ 7, 2 ^ 7 - 1)
  | .SQL_C_UTINYINT => some (0, 2 ^ 8 - 1)
  | .SQL_C_SHORT | .SQL_C_SSHORT => some (-2 ^ 15, 2 ^ 15 - 1)
  | .SQL_C_USHORT => some (0, 2 ^ 16 - 1)
  | .SQL_C_LONG | .SQL_C_SLONG => some (-2 ^ 31, 2 ^ 31 - 1)
  | .SQL_C_ULONG => some (0, 2 ^ 32 - 1)
  | .SQL_C_SBIGINT => some (-2 ^ 63, 2 ^ 63 - 1)
  | .SQL_C_UBIGINT => some (0, 2 ^ 64 - 1)
  | _ => none

end NumberCType

/-- What is written to `rgbValue`. -/
inductive WrittenNumber where
  | integer (number : ℤ)
  | numeric (number : SqlNumeric)

/-- The errors of a conversion. -/
inductive ConversionError where
  /-- 07006: the conversion is not possible. -/
  | notPossible
  /-- 22003: the number is out of range. -/
  | outOfRange
  deriving DecidableEq

/-- The return codes that are no errors. -/
inductive ConversionCode where
  | SQL_SUCCESS | SQL_SUCCESS_WITH_INFO | SQL_NO_DATA_FOUND
  deriving DecidableEq

/-- What `sql_get_data` does: an error, or what it writes with the length in `pcbValue`. -/
inductive NumberResult where
  | error (state : ConversionError)
  | done (rc : ConversionCode) (written : Option WrittenNumber) (pcbValue : Option ℕ)
  /-- The conversion of another C type than a number. -/
  | other

/-- A call of `sql_get_data` for a `BIT` column that is not NULL. -/
structure BitCall where
  cType : NumberCType
  /-- `field->length`. -/
  bits : ℕ
  /-- Where the column is read again. -/
  column : RowColumn
  /-- `value`, as many bytes as `length` says. -/
  value : List UInt8
  /-- `rgbValue` points to a buffer. -/
  hasBuffer : Bool
  /-- The precision and the scale of the record of the column in the descriptor. -/
  arrec : Option (ℤ × ℤ)
  /-- The column was read before: `getdata.source`. -/
  hasSource : Bool

namespace BitCall

variable (call : BitCall)

/-- The precision that is put into the struct, an `SQLCHAR`. -/
def reqprec : ℕ := (call.arrec.elim 38 fun arrec => arrec.1 % 256).toNat

/-- The scale that is put into the struct, an `SQLSCHAR`. -/
def reqscale : ℤ := call.arrec.elim 0 fun arrec => Int.bmod arrec.2 256

/-- The return code behind the conversion. -/
def finish (result : ConversionCode) (written : Option WrittenNumber) (pcbValue : Option ℕ) :
    NumberResult :=
  .done (if call.hasSource then .SQL_NO_DATA_FOUND else result) written pcbValue

/-- The number is written where a buffer is there. -/
def store (number : ℤ) (size : ℕ) : NumberResult :=
  call.finish .SQL_SUCCESS (if call.hasBuffer then some (.integer number) else none) (some size)

/-- The check of the bounds before the number is written. -/
def storeChecked (low high : ℤ) (converted : ℤ) (size : ℕ) : NumberResult :=
  if converted < low ∨ high < converted then .error .outOfRange else call.store converted size

/-- The branch of `SQL_C_NUMERIC` for a field of bits. -/
def storeNumeric (numericValue : ℤ) (uNumericValue : ℕ) : NumberResult :=
  if call.hasBuffer then
    let text := if numericValue ≠ 0 then Decimal.signedText numericValue
      else Decimal.text uNumericValue
    match sqlnumFromStr text call.reqprec call.reqscale with
    | (_, 1) => .error .outOfRange
    | (sqlnum, 2) => call.finish .SQL_SUCCESS_WITH_INFO (some (.numeric sqlnum)) (some 8)
    | (sqlnum, _) => call.finish .SQL_SUCCESS (some (.numeric sqlnum)) (some 8)
  else call.finish .SQL_SUCCESS none none

/-- The branches of the C types, with `convert` off. -/
def storeNumber (numericValue : ℤ) (uNumericValue : ℕ) : NumberResult :=
  match call.cType with
  | .SQL_C_TINYINT | .SQL_C_STINYINT => call.storeChecked (-2 ^ 7) (2 ^ 7 - 1) numericValue 1
  | .SQL_C_UTINYINT => call.storeChecked 0 (2 ^ 8 - 1) uNumericValue 1
  | .SQL_C_SHORT | .SQL_C_SSHORT => call.storeChecked (-2 ^ 15) (2 ^ 15 - 1) numericValue 2
  | .SQL_C_USHORT => call.storeChecked 0 (2 ^ 16 - 1) uNumericValue 2
  | .SQL_C_LONG | .SQL_C_SLONG =>
    -- Without a buffer the bounds are not checked.
    if call.hasBuffer then call.storeChecked (-2 ^ 31) (2 ^ 31 - 1) numericValue 4
    else call.store numericValue 4
  | .SQL_C_ULONG => call.storeChecked 0 (2 ^ 32 - 1) uNumericValue 4
  | .SQL_C_SBIGINT => call.store numericValue 8
  | .SQL_C_NUMERIC => call.storeNumeric numericValue uNumericValue
  | _ => .other

/-- `sql_get_data`. The number is read into `u_numeric_value` for `SQL_C_UBIGINT`, with
`convert` left on, and into `numeric_value` for the others. -/
def sqlGetDataBit (charSigned : Bool) : Option NumberResult :=
  if !call.cType.odbcSupportedConversion call.bits && !call.cType.driverSupportedConversion then
    some (.error .notPossible)
  else
    match call.cType with
    | .SQL_C_BIT | .SQL_C_CHAR | .SQL_C_WCHAR => some .other
    | .SQL_C_UBIGINT => do
      -- The number that was read is not looked at: `convert` says to read the column again.
      let _uNumericValue ← binary2numeric call.value
      return call.store (← getUint64 charSigned call.column) 8
    | _ => do
      let numericValue ← binary2numeric call.value
      return call.storeNumber numericValue.toInt 0

end BitCall

/-- The C type is one of a whole number. -/
def NumberCType.IsNumber (cType : NumberCType) : Prop :=
  cType.range.isSome ∨ cType = .SQL_C_NUMERIC

/-- What was written stands for the number. -/
def WrittenNumber.StandsFor (v : ℕ) : WrittenNumber → Prop
  | .integer number => number = v
  | .numeric num =>
    num.sign = true ∧ num.number * 10 ^ (-num.scale).toNat = v * 10 ^ num.scale.toNat

namespace BitCall

variable (call : BitCall)

/-- The number is in the range of the C type. `SQL_C_NUMERIC` holds as many digits as the
precision says, at the scale, and 128 bits. -/
def Holds (v : ℕ) : Prop :=
  match call.cType.range with
  | some (low, high) => low ≤ v ∧ v ≤ high
  | none =>
    if 0 ≤ call.reqscale then
      v * 10 ^ call.reqscale.toNat < 10 ^ call.reqprec ∧ v * 10 ^ call.reqscale.toNat < 2 ^ 128
    else 10 ^ call.reqscale.natAbs ∣ v ∧ v / 10 ^ call.reqscale.natAbs < 10 ^ call.reqprec

instance (v : ℕ) : Decidable (call.Holds v) :=
  match h : call.cType.range with
  | some (low, high) =>
    decidable_of_iff (low ≤ (v : ℤ) ∧ (v : ℤ) ≤ high) (by unfold Holds; rw [h])
  | none =>
    decidable_of_iff
      (if 0 ≤ call.reqscale then
        v * 10 ^ call.reqscale.toNat < 10 ^ call.reqprec ∧ v * 10 ^ call.reqscale.toNat < 2 ^ 128
      else 10 ^ call.reqscale.natAbs ∣ v ∧ v / 10 ^ call.reqscale.natAbs < 10 ^ call.reqprec)
      (by unfold Holds; rw [h])

/-- A number in the range is written where a buffer is there, and another one is an error. -/
def Delivers (v : ℕ) (result : Option NumberResult) : Prop :=
  if call.Holds v then
    ∃ rc written pcbValue, result = some (.done rc written pcbValue) ∧
      (if call.hasBuffer then ∃ number, written = some number ∧ number.StandsFor v
        else written = none)
  else result = some (.error .outOfRange)

/-- The sign of the variable does not count, and the variable is the one that was set. -/
def ReadsRightVariable (v : ℕ) : Prop :=
  match call.cType with
  | .SQL_C_TINYINT | .SQL_C_STINYINT => v < 2 ^ 64 - 2 ^ 7
  | .SQL_C_SHORT | .SQL_C_SSHORT => v < 2 ^ 64 - 2 ^ 15
  | .SQL_C_LONG | .SQL_C_SLONG => if call.hasBuffer then v < 2 ^ 64 - 2 ^ 31 else v < 2 ^ 31
  | .SQL_C_SBIGINT => v < 2 ^ 63
  | .SQL_C_UBIGINT => call.hasBuffer = true → call.column.ssps = true ∨ v = 0
  | .SQL_C_NUMERIC =>
    if call.hasBuffer then
      if v < 2 ^ 63 then call.Holds v ∨ LosesDigits v call.reqprec call.reqscale
      else ¬ call.Holds v ∧ LosesDigits (2 ^ 64 - v) call.reqprec call.reqscale
    else call.Holds v
  | _ => if call.hasBuffer then v = 0 else call.Holds v

variable {call}

/-- What is known of a number that is written without a check. -/
theorem store_delivers {v : ℕ} {number : ℤ} {size : ℕ} :
    call.Delivers v (some (call.store number size)) ↔
      call.Holds v ∧ (call.hasBuffer = true → number = v) := by
  unfold Delivers
  by_cases hholds : call.Holds v
  · rw [if_pos hholds]
    cases hbuffer : call.hasBuffer with
    | false => simp [store, finish, hholds, hbuffer]
    | true => simp [store, finish, hholds, hbuffer, WrittenNumber.StandsFor]
  · rw [if_neg hholds]
    simp [store, finish, hholds]

/-- What is known of a number that is checked. -/
theorem storeChecked_delivers {v : ℕ} {low high number : ℤ} {size : ℕ}
    (hrange : call.cType.range = some (low, high)) (hlow : low ≤ 0) :
    call.Delivers v (some (call.storeChecked low high number size)) ↔
      if number < low ∨ high < number then high < v
      else v ≤ high ∧ (call.hasBuffer = true → number = v) := by
  have hholds : call.Holds v ↔ (v : ℤ) ≤ high := by
    unfold Holds
    rw [hrange]
    dsimp only
    omega
  rw [storeChecked]
  by_cases hout : number < low ∨ high < number
  · rw [if_pos hout, if_pos hout]
    unfold Delivers
    by_cases hle : (v : ℤ) ≤ high
    · simp [hholds.mpr hle, hle]
    · simpa [hholds.not.mpr hle] using hle
  · rw [if_neg hout, if_neg hout, store_delivers, hholds]

/-- A number in the range loses no digits. -/
theorem Holds.not_losesDigits {v : ℕ} (hcType : call.cType = .SQL_C_NUMERIC) (h : call.Holds v) :
    ¬ LosesDigits v call.reqprec call.reqscale := by
  unfold Holds at h
  rw [hcType] at h
  dsimp only [NumberCType.range] at h
  obtain rfl | hpos := Nat.eq_zero_or_pos v
  · by_cases hneg : call.reqscale < 0
    · rw [losesDigits_of_neg hneg, not_not, Nat.zero_div]
      exact ⟨dvd_zero _, dvd_zero _⟩
    · rw [losesDigits_of_nonneg hneg, not_not, Nat.zero_mul, Nat.zero_mod]
      exact dvd_zero _
  by_cases hneg : call.reqscale < 0
  · rw [if_neg (not_le.mpr hneg)] at h
    obtain ⟨hdvd, hlt⟩ := h
    have hscaled : v < 10 ^ (call.reqprec + call.reqscale.natAbs) := by
      rw [pow_add]
      exact (Nat.div_lt_iff_lt_mul (Nat.pow_pos (by decide))).mp hlt
    have hlength := Decimal.length_text_le (by omega) hscaled
    have hzero : (Decimal.text v).length - call.reqscale.natAbs - call.reqprec = 0 := by omega
    rw [losesDigits_of_neg hneg, not_not, hzero, pow_zero]
    exact ⟨hdvd, one_dvd _⟩
  · rw [if_pos (not_lt.mp hneg)] at h
    obtain ⟨hprec, -⟩ := h
    have hle : v ≤ v * 10 ^ call.reqscale.toNat := Nat.le_mul_of_pos_right _ (Nat.pow_pos (by decide))
    have hprecision : 0 < call.reqprec := by
      by_contra hzero
      rw [Nat.eq_zero_of_not_pos hzero] at hprec
      omega
    have hlength := Decimal.length_text_le hprecision (hle.trans_lt hprec)
    rw [losesDigits_of_nonneg hneg, not_not, Nat.sub_eq_zero_of_le hlength, pow_zero]
    exact one_dvd _

/-- The text of a number becomes the struct. -/
theorem storeNumeric_delivers {v n : ℕ} {numericValue : ℤ} (hcType : call.cType = .SQL_C_NUMERIC)
    (hbuffer : call.hasBuffer = true) (hn : n < 2 ^ 64) (hnumber : numericValue.natAbs = n)
    (hnegative : 0 ≤ numericValue → n = v) :
    call.Delivers v (some (call.storeNumeric numericValue 0)) ↔
      if 0 ≤ numericValue then call.Holds v ∨ LosesDigits v call.reqprec call.reqscale
      else ¬ call.Holds v ∧ LosesDigits n call.reqprec call.reqscale := by
  have htext : (if numericValue ≠ 0 then Decimal.signedText numericValue else Decimal.text 0) =
      if decide (numericValue < 0) = true then 0x2d :: Decimal.text n else Decimal.text n := by
    by_cases hzero : numericValue = 0
    · have hn0 : n = 0 := by rw [← hnumber, hzero]; rfl
      rw [if_neg (not_not.mpr hzero), if_neg (by simp [hzero]), hn0]
    · rw [if_pos hzero, Decimal.signedText, hnumber]
      by_cases hneg : numericValue < 0
      · rw [if_pos hneg, if_pos (decide_eq_true hneg)]
      · rw [if_neg hneg, if_neg (by simpa using hneg)]
  obtain ⟨num, hresult, hkept⟩ := sqlnumFromStr_text hn (decide (numericValue < 0)) call.reqprec
    call.reqscale
  by_cases hloses : LosesDigits n call.reqprec call.reqscale
  · -- The error of the conversion.
    have hrun : call.storeNumeric numericValue 0 = .error .outOfRange := by
      rw [storeNumeric, if_pos hbuffer, htext]
      dsimp only
      rw [hresult, if_pos hloses]
      rfl
    rw [hrun]
    have hdelivers : call.Delivers v (some (.error .outOfRange)) ↔ ¬ call.Holds v := by
      unfold Delivers
      split_ifs with hholds <;> simp [hholds]
    rw [hdelivers]
    by_cases hneg : 0 ≤ numericValue
    · obtain rfl := hnegative hneg
      rw [if_pos hneg]
      exact iff_of_true (fun hholds => hholds.not_losesDigits hcType hloses) (Or.inr hloses)
    · rw [if_neg hneg]
      exact (and_iff_left hloses).symm
  · obtain ⟨hsign, hscale, hvalue⟩ := hkept hloses
    have hrun : call.storeNumeric numericValue 0 =
        call.finish .SQL_SUCCESS (some (.numeric num)) (some 8) := by
      rw [storeNumeric, if_pos hbuffer, htext]
      dsimp only
      rw [hresult, if_neg hloses]
      rfl
    have hdelivers : call.Delivers v (some (call.storeNumeric numericValue 0)) ↔
        call.Holds v ∧ (WrittenNumber.numeric num).StandsFor v := by
      rw [hrun]
      unfold Delivers finish
      split_ifs with hholds <;> simp [hholds]
    rw [hdelivers]
    by_cases hneg : 0 ≤ numericValue
    · obtain rfl := hnegative hneg
      rw [if_pos hneg, or_iff_left hloses]
      refine and_iff_left_of_imp fun hholds => ⟨?_, ?_⟩
      · rw [hsign]
        simpa using hneg
      · -- The struct has room for a number in the range.
        unfold Holds at hholds
        rw [hcType] at hholds
        dsimp only [NumberCType.range] at hholds
        rw [hvalue, hscale, scaledNumber]
        by_cases hup : 0 ≤ call.reqscale
        · have hzero : (-call.reqscale).toNat = 0 := by omega
          rw [if_pos hup] at hholds ⊢
          rw [Nat.mod_eq_of_lt hholds.2, hzero, pow_zero, Nat.mul_one]
        · have hzero : call.reqscale.toNat = 0 := by omega
          have habs : (-call.reqscale).toNat = call.reqscale.natAbs := by omega
          rw [if_neg hup] at hholds ⊢
          rw [habs, hzero, pow_zero, Nat.mul_one, Nat.div_mul_cancel hholds.1]
    · rw [if_neg hneg]
      refine iff_of_false (fun hboth => ?_) fun hboth => hloses hboth.2
      have hpositive := hboth.2.1
      rw [hsign] at hpositive
      simp at hpositive
      omega

end BitCall

/-- How the rows of a statement are fetched: stored at the client, from the server one by one,
or into the buffers of a prepared statement. -/
inductive FetchMode where
  | buffered | text | prepared
  deriving DecidableEq

/-- The call for a column of so many bits with a number in it: the server sends the bytes of the
number, the most significant one first. -/
def BitCall.ofColumn (mode : FetchMode) (cType : NumberCType) (bits number : ℕ)
    (hasBuffer : Bool) (arrec : Option (ℤ × ℤ)) (hasSource : Bool) : BitCall :=
  let value := bigEndian ((bits + 7) / 8) number
  { cType := cType
    bits := bits
    column :=
      { ssps := mode = .prepared
        colRbind :=
          { bufferType := .bit
            buffer := value
            length := value.length
            isNull := false
            isUnsigned := true }
        value := value }
    value := value
    hasBuffer := hasBuffer
    arrec := arrec
    hasSource := hasSource }

/-- The bytes of the column are read as the number. -/
theorem binary2numeric_bigEndian {bits number : ℕ} (hbits : bits ≤ 64) (hnumber : number < 2 ^ bits) :
    binary2numeric (bigEndian ((bits + 7) / 8) number) = some (BitVec.ofNat 64 number) := by
  have hlt : number < 256 ^ ((bits + 7) / 8) := by
    rw [show 256 = 2 ^ 8 by norm_num, ← pow_mul]
    exact hnumber.trans_le (Nat.pow_le_pow_right (by decide) (by omega))
  rw [binary2numeric_eq (by rw [length_bigEndian]; omega), bigEndianValue_bigEndian,
    Nat.mod_eq_of_lt hlt]

/-- The bytes are no text of the number unless it is zero. -/
theorem strtoull_bigEndian_eq_iff {bits number : ℕ} (hbits : bits ≤ 64)
    (hnumber : number < 2 ^ bits) :
    (strtoull ((bigEndian ((bits + 7) / 8) number).takeWhile (· ≠ 0))).toNat = number ↔
      number = 0 := by
  have hlt64 : number < 2 ^ 64 := hnumber.trans_le (Nat.pow_le_pow_right (by decide) hbits)
  have hlt : number < 256 ^ ((bits + 7) / 8) := by
    rw [show 256 = 2 ^ 8 by norm_num, ← pow_mul]
    exact hnumber.trans_le (Nat.pow_le_pow_right (by decide) (by omega))
  have hread : readAgain ((bits + 7) / 8) (BitVec.ofNat 64 number) =
      strtoull ((bigEndian ((bits + 7) / 8) number).takeWhile (· ≠ 0)) := by
    rw [readAgain, BitVec.toNat_ofNat, Nat.mod_eq_of_lt hlt64]
  have hnat : (BitVec.ofNat 64 number).toNat % 256 ^ ((bits + 7) / 8) = number := by
    rw [BitVec.toNat_ofNat, Nat.mod_eq_of_lt hlt64, Nat.mod_eq_of_lt hlt]
  rw [← hread]
  constructor
  · intro hsame
    by_contra hne
    have hrank := @bitRank_readAgain ((bits + 7) / 8) (BitVec.ofNat 64 number)
      (by omega) (by rw [hnat]; exact hne)
    rw [hsame, hnat, Nat.mod_eq_of_lt hlt] at hrank
    exact lt_irrefl _ hrank
  · rintro rfl
    rw [readAgain_zero (by rw [hnat])]
    rfl

namespace BitCall

variable {call : BitCall}

theorem sqlGetDataBit_eq (charSigned : Bool) {number : BitVec 64}
    (hsupported : call.cType.driverSupportedConversion = true)
    (hread : binary2numeric call.value = some number)
    (hcType : call.cType ∉ [.SQL_C_BIT, .SQL_C_CHAR, .SQL_C_WCHAR, .SQL_C_UBIGINT]) :
    call.sqlGetDataBit charSigned = some (call.storeNumber number.toInt 0) := by
  rw [sqlGetDataBit, hsupported, if_neg (by simp), hread]
  split <;> simp_all

/-- The branches that look at `numeric_value` have a number below the sign, the others have
zero. -/
theorem storeNumber_delivers {v : ℕ} {numericValue : ℤ} (hcType : call.cType.IsNumber)
    (hubigint : call.cType ≠ .SQL_C_UBIGINT) (hv : v < 2 ^ 64)
    (hsigned : numericValue = if v < 2 ^ 63 then (v : ℤ) else v - 2 ^ 64) :
    call.Delivers v (some (call.storeNumber numericValue 0)) ↔ call.ReadsRightVariable v := by
  have hholds : ∀ {low high : ℤ}, call.cType.range = some (low, high) →
      (call.Holds v ↔ low ≤ v ∧ v ≤ high) := by
    intro low high hrange
    unfold Holds
    rw [hrange]
  have hunsigned : ∀ {high : ℤ} {size : ℕ}, call.cType.range = some (0, high) → 0 ≤ high →
      (call.Delivers v (some (call.storeChecked 0 high (0 : ℕ) size)) ↔
        if call.hasBuffer = true then v = 0 else call.Holds v) := by
    intro high size hrange hhigh
    rw [storeChecked_delivers hrange (le_refl 0), if_neg (by omega), hholds hrange]
    cases call.hasBuffer with
    | false =>
      simp
    | true =>
      simp only [true_imp_iff, if_true]
      omega
  unfold storeNumber ReadsRightVariable
  cases htype : call.cType with
  | SQL_C_TINYINT | SQL_C_STINYINT | SQL_C_SHORT | SQL_C_SSHORT =>
    dsimp only
    rw [storeChecked_delivers (by rw [htype]; rfl) (by norm_num)]
    split_ifs at hsigned ⊢ <;> omega
  | SQL_C_LONG | SQL_C_SLONG =>
    dsimp only
    cases hbuffer : call.hasBuffer with
    | false =>
      rw [if_neg Bool.false_ne_true, if_neg Bool.false_ne_true, store_delivers,
        hholds (by rw [htype]; rfl), hbuffer]
      simp only [Bool.false_eq_true, false_imp_iff, and_true]
      omega
    | true =>
      rw [if_pos rfl, if_pos rfl, storeChecked_delivers (by rw [htype]; rfl) (by norm_num), hbuffer]
      split_ifs at hsigned ⊢ <;> omega
  | SQL_C_UTINYINT | SQL_C_USHORT | SQL_C_ULONG =>
    exact hunsigned (by rw [htype]; rfl) (by norm_num)
  | SQL_C_SBIGINT =>
    dsimp only
    rw [store_delivers, hholds (by rw [htype]; rfl)]
    split_ifs at hsigned <;> omega
  | SQL_C_NUMERIC =>
    dsimp only
    cases hbuffer : call.hasBuffer with
    | false =>
      have hnothing : call.storeNumeric numericValue 0 = call.finish .SQL_SUCCESS none none := by
        rw [storeNumeric, hbuffer, if_neg Bool.false_ne_true]
      rw [hnothing, if_neg Bool.false_ne_true]
      unfold Delivers
      by_cases hin : call.Holds v
      · rw [if_pos hin, hbuffer]
        exact iff_of_true ⟨_, none, none, rfl, by simp⟩ hin
      · rw [if_neg hin]
        exact iff_of_false nofun hin
    | true =>
      rw [storeNumeric_delivers htype hbuffer (n := if v < 2 ^ 63 then v else 2 ^ 64 - v)
        (by split_ifs <;> omega) (by split_ifs at hsigned ⊢ <;> omega)
        (by split_ifs at hsigned ⊢ <;> omega), if_pos rfl]
      by_cases hlow : v < 2 ^ 63
      · rw [if_pos hlow] at hsigned
        rw [if_pos (by omega), if_pos hlow]
      · rw [if_neg hlow] at hsigned
        rw [if_neg (by omega), if_neg hlow, if_neg hlow]
  | SQL_C_UBIGINT => exact absurd htype hubigint
  | _ => simp [htype, NumberCType.IsNumber, NumberCType.range] at hcType

end BitCall

/-- A `BIT` column arrives as its number, or as an error where the C type does not hold it,
exactly when the variable that was set is the one that is read and its sign does not count. -/
theorem sqlGetDataBit_delivers_iff (charSigned : Bool) (mode : FetchMode) {cType : NumberCType}
    (hcType : cType.IsNumber) {bits number : ℕ} (hbits : 1 ≤ bits ∧ bits ≤ 64)
    (hnumber : number < 2 ^ bits) (hasBuffer : Bool) (arrec : Option (ℤ × ℤ)) (hasSource : Bool) :
    (BitCall.ofColumn mode cType bits number hasBuffer arrec hasSource).Delivers number
        ((BitCall.ofColumn mode cType bits number hasBuffer arrec hasSource).sqlGetDataBit
          charSigned) ↔
      (BitCall.ofColumn mode cType bits number hasBuffer arrec hasSource).ReadsRightVariable
        number := by
  obtain ⟨call, hcall⟩ : ∃ call, call =
      BitCall.ofColumn mode cType bits number hasBuffer arrec hasSource := ⟨_, rfl⟩
  have htype : call.cType = cType := by rw [hcall]; rfl
  have hlt : number < 2 ^ 64 := hnumber.trans_le (Nat.pow_le_pow_right (by decide) hbits.2)
  have hread : binary2numeric call.value = some (BitVec.ofNat 64 number) := by
    rw [hcall]
    exact binary2numeric_bigEndian hbits.2 hnumber
  have hsupported : call.cType.driverSupportedConversion = true := by
    rw [htype]
    obtain hrange | rfl := hcType
    · revert hrange
      cases cType <;> decide
    · decide
  rw [← hcall]
  by_cases hubigint : cType = .SQL_C_UBIGINT
  · -- The column is read again, from the buffer or as a text.
    have hrange : call.cType.range = some (0, 2 ^ 64 - 1) := by rw [htype, hubigint]; rfl
    have hholds : call.Holds number := by
      unfold BitCall.Holds
      rw [hrange]
      dsimp only
      omega
    have hright : call.ReadsRightVariable number ↔
        (call.hasBuffer = true → call.column.ssps = true ∨ number = 0) := by
      unfold BitCall.ReadsRightVariable
      rw [htype, hubigint]
    have hagain : ∃ again, getUint64 charSigned call.column = some again ∧
        (again = number ↔ call.column.ssps = true ∨ number = 0) := by
      cases hmode : decide (mode = .prepared) with
      | true =>
        have hssps : call.column.ssps = true := by rw [hcall]; exact hmode
        have hbind : sspsGetInt64 charSigned call.column.colRbind =
            some (BitVec.ofNat 64 number) := by
          rw [hcall, ← binary2numeric_bigEndian hbits.2 hnumber]
          exact congrArg binary2numeric (List.take_length)
        refine ⟨number, ?_, iff_of_true rfl (Or.inl hssps)⟩
        rw [getUint64, if_pos hssps, hbind, Option.map_some, BitVec.toNat_ofNat,
          Nat.mod_eq_of_lt hlt]
      | false =>
        have hssps : call.column.ssps = false := by rw [hcall]; exact hmode
        refine ⟨_, by rw [getUint64, hssps, if_neg Bool.false_ne_true], ?_⟩
        have hvalue : call.column.value = bigEndian ((bits + 7) / 8) number := by rw [hcall]; rfl
        rw [hvalue, strtoull_bigEndian_eq_iff hbits.2 hnumber, hssps]
        simp
    obtain ⟨again, hget, hsame⟩ := hagain
    have hrun : call.sqlGetDataBit charSigned = some (call.store again 8) := by
      rw [BitCall.sqlGetDataBit, hsupported, if_neg (by simp), htype, hubigint]
      dsimp only
      rw [hread, hget]
      rfl
    rw [hrun, BitCall.store_delivers, hright, ← hsame, and_iff_right hholds]
    simp only [Nat.cast_inj]
  · have hother : call.cType ∉ [.SQL_C_BIT, .SQL_C_CHAR, .SQL_C_WCHAR, .SQL_C_UBIGINT] := by
      rw [htype]
      obtain hrange | rfl := hcType
      · revert hrange hubigint
        cases cType <;> decide
      · decide
    rw [BitCall.sqlGetDataBit_eq charSigned hsupported hread hother]
    apply BitCall.storeNumber_delivers (by rw [htype]; exact hcType) (by rw [htype]; exact hubigint)
      hlt
    rw [BitVec.toInt_eq_toNat_cond, BitVec.toNat_ofNat, Nat.mod_eq_of_lt hlt]
    split_ifs <;> omega

/-- A number of a prepared statement. -/
theorem sqlGetDataBit_delivers_200 :
    (BitCall.ofColumn .prepared .SQL_C_UBIGINT 8 200 true none false).Delivers 200
      ((BitCall.ofColumn .prepared .SQL_C_UBIGINT 8 200 true none false).sqlGetDataBit true) :=
  (sqlGetDataBit_delivers_iff true .prepared (Or.inl rfl) ⟨by decide, by decide⟩ (by decide)
    true none false).mpr fun _ => Or.inl rfl

/-- `b'101'` arrives as zero in an `SQL_C_ULONG`: the unsigned variable was not set. -/
theorem sqlGetDataBit_loses_5 :
    ¬ (BitCall.ofColumn .buffered .SQL_C_ULONG 8 5 true none false).Delivers 5
      ((BitCall.ofColumn .buffered .SQL_C_ULONG 8 5 true none false).sqlGetDataBit true) := by
  have hrun : (BitCall.ofColumn .buffered .SQL_C_ULONG 8 5 true none false).sqlGetDataBit true =
      some (.done .SQL_SUCCESS (some (.integer 0)) (some 4)) := rfl
  rw [hrun, BitCall.Delivers, if_pos ⟨by decide, by decide⟩]
  rintro ⟨rc, written, pcbValue, hresult, number, hwritten, hnumber⟩
  cases hresult
  cases hwritten
  have hsame : (0 : ℤ) = 5 := hnumber
  omega

end MatrixOdbc.Driver
