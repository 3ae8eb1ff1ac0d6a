import MatrixOdbc.Driver.BitConversion
import MatrixOdbc.Driver.IntegerPaths

/-!
# The ranges of the integer C types

How `sql_get_data` converts a column of whole numbers to an integer C type. The number is read
with a sign or without one, as the C type has it, and the types of up to 32 bits compare it with
their limits; those of 64 bits store it as it was read.
-/

namespace MatrixOdbc.Driver

open MatrixOdbc.Foundations

/-- What `get_sql_data_type` gives a column of whole numbers. -/
inductive IntegerSqlType where
  | SQL_BIT | SQL_TINYINT | SQL_SMALLINT | SQL_INTEGER | SQL_BIGINT
  deriving DecidableEq

/-- `get_sql_data_type`. A `TINYINT` of one character is the `BOOL` of a MatrixOne server. -/
def IntegerType.getSqlDataType (matrixOneBool optNoBigint : Bool) : IntegerType → IntegerSqlType
  | .tinyInt => if matrixOneBool then .SQL_BIT else .SQL_TINYINT
  | .smallInt => .SQL_SMALLINT
  | .mediumInt => .SQL_INTEGER
  | .int => .SQL_INTEGER
  | .bigInt => if optNoBigint then .SQL_INTEGER else .SQL_BIGINT
  | .year => .SQL_SMALLINT

/-- `odbc_supported_conversion` for these types. -/
def IntegerSqlType.odbcSupportedConversion (sqlType : IntegerSqlType) (cType : NumberCType) : Bool :=
  if sqlType = .SQL_BIT then !cType.isDateTime else true

/-- The bytes that `value` points to, as many as `length` says. -/
def RowColumn.bytes (column : RowColumn) : List UInt8 :=
  if column.ssps then column.colRbind.buffer.take column.colRbind.length else column.value

/-- The text has the shape of a date. -/
def looksLikeDate (value : List UInt8) : Bool :=
  10 ≤ value.length && value[4]? = some 0x2d && value[7]? = some 0x2d &&
    (value.getD 10 0 = 0 || value.getD 10 0 = 0x20)

/-- `atol`, cast to an `SQLINTEGER`. -/
def atolInteger (s : List UInt8) : ℤ := Int.bmod (strtoll (s.takeWhile (· ≠ 0))) (2 ^ 32)

/-- A date as a number. -/
def dateInteger (value : List UInt8) : ℤ :=
  Int.bmod (atolInteger value * 10000 + atolInteger (value.drop 5) * 100 +
    atolInteger (value.drop 8)) (2 ^ 32)

/-- A call of `sql_get_data` for a column of whole numbers that is not NULL. -/
structure IntegerCall where
  cType : NumberCType
  sqlType : IntegerSqlType
  column : RowColumn
  /-- `rgbValue` points to a buffer. -/
  hasBuffer : Bool
  /-- The column was read before: `getdata.source`. -/
  hasSource : Bool

namespace IntegerCall

variable (call : IntegerCall)

/-- The return code behind the conversion, with what was written. -/
def finish (written : Option ℤ) (pcbValue : ℕ) : NumberResult :=
  .done (if call.hasSource then .SQL_NO_DATA_FOUND else .SQL_SUCCESS)
    (if call.hasBuffer then written.map .integer else none) (some pcbValue)

/-- The check of the limits before the number is written. -/
def storeChecked (low high : ℤ) (converted : ℤ) (size : ℕ) : NumberResult :=
  if converted < low ∨ high < converted then .error .outOfRange
  else call.finish (some converted) size

/-- `sql_get_data`, as far as it converts to whole numbers. -/
def sqlGetDataInteger (charSigned : Bool) : Option NumberResult :=
  if !call.sqlType.odbcSupportedConversion call.cType then some (.error .notPossible)
  else
    match call.cType with
    | .SQL_C_TINYINT | .SQL_C_STINYINT => do
      return call.storeChecked (-2 ^ 7) (2 ^ 7 - 1) (← getInt64 charSigned call.column) 1
    | .SQL_C_UTINYINT => do
      return call.storeChecked 0 (2 ^ 8 - 1) (← getUint64 charSigned call.column) 1
    | .SQL_C_SHORT | .SQL_C_SSHORT => do
      return call.storeChecked (-2 ^ 15) (2 ^ 15 - 1) (← getInt64 charSigned call.column) 2
    | .SQL_C_USHORT => do
      return call.storeChecked 0 (2 ^ 16 - 1) (← getUint64 charSigned call.column) 2
    | .SQL_C_LONG | .SQL_C_SLONG =>
      if call.hasBuffer then
        if looksLikeDate call.column.bytes then
          some (call.finish (some (dateInteger call.column.bytes)) 4)
        else do
          return call.storeChecked (-2 ^ 31) (2 ^ 31 - 1) (← getInt64 charSigned call.column) 4
      else some (call.finish none 4)
    | .SQL_C_ULONG => do
      return call.storeChecked 0 (2 ^ 32 - 1) (← getUint64 charSigned call.column) 4
    | .SQL_C_SBIGINT =>
      if call.hasBuffer then do return call.finish (some (← getInt64 charSigned call.column)) 8
      else some (call.finish none 8)
    | .SQL_C_UBIGINT =>
      if call.hasBuffer then do return call.finish (some (← getUint64 charSigned call.column)) 8
      else some (call.finish none 8)
    | _ => some .other

/-- A call for a column of a statement that is not prepared on the server, so that the value
arrives as a text. -/
def ofText (column : IntegerColumn) (matrixOneBool optNoBigint : Bool) (cType : NumberCType)
    (hasBuffer hasSource : Bool) (v : ℤ) : IntegerCall where
  cType := cType
  sqlType := column.type.getSqlDataType matrixOneBool optNoBigint
  column := column.row false v
  hasBuffer := hasBuffer
  hasSource := hasSource

/-- The number is in the range of the C type. -/
def Holds (v : ℤ) : Prop := ∃ low high, call.cType.range = some (low, high) ∧ low ≤ v ∧ v ≤ high

/-- A number in the range is written where a buffer is there, and another one is an error that
writes nothing. -/
def Delivers (v : ℤ) (result : Option NumberResult) : Prop :=
  (call.Holds v → ∃ rc pcbValue, result =
    some (.done rc (if call.hasBuffer then some (.integer v) else none) (some pcbValue))) ∧
  (¬ call.Holds v → result = some (.error .outOfRange))

/-- The branches without a check of the limits get a number in the range. -/
def NeedsNoCheck (v : ℤ) : Prop :=
  match call.cType with
  | .SQL_C_SBIGINT => v < 2 ^ 63
  | .SQL_C_UBIGINT => 0 ≤ v
  | .SQL_C_LONG | .SQL_C_SLONG => call.hasBuffer = true ∨ -2 ^ 31 ≤ v ∧ v < 2 ^ 31
  | _ => True

variable {call} {v : ℤ}

theorem holds_iff {low high : ℤ} (hrange : call.cType.range = some (low, high)) :
    call.Holds v ↔ low ≤ v ∧ v ≤ high := by
  unfold Holds
  rw [hrange]
  constructor
  · rintro ⟨_, _, hsame, hv⟩
    obtain ⟨rfl, rfl⟩ := Prod.mk.inj (Option.some.inj hsame)
    exact hv
  · exact fun hv => ⟨low, high, rfl, hv⟩

/-- What is known of a number that is written without a check. -/
theorem finish_delivers {converted : ℤ} {size : ℕ} :
    call.Delivers v (some (call.finish (some converted) size)) ↔
      call.Holds v ∧ (call.hasBuffer = true → converted = v) := by
  unfold Delivers finish
  by_cases hholds : call.Holds v
  · cases hbuffer : call.hasBuffer <;> simp [hholds]
  · simp [hholds]

/-- Nothing is written without a buffer. -/
theorem finish_none_delivers {size : ℕ} (hbuffer : call.hasBuffer = false) :
    call.Delivers v (some (call.finish none size)) ↔ call.Holds v := by
  unfold Delivers finish
  by_cases hholds : call.Holds v <;> simp [hholds, hbuffer]

/-- A number is checked that is the value wherever one of both is in the range. -/
theorem storeChecked_delivers {low high converted : ℤ} {size : ℕ}
    (hrange : call.cType.range = some (low, high))
    (hsame : converted = v ∨ (converted < low ∨ high < converted) ∧ (v < low ∨ high < v)) :
    call.Delivers v (some (call.storeChecked low high converted size)) := by
  have hholds := holds_iff hrange (v := v)
  unfold storeChecked
  by_cases hout : converted < low ∨ high < converted
  · rw [if_pos hout]
    have hnot : ¬ call.Holds v := by
      rw [hholds]
      omega
    exact ⟨fun h => absurd h hnot, fun _ => rfl⟩
  · rw [if_neg hout, finish_delivers, hholds]
    refine ⟨by omega, fun _ => by omega⟩

end IntegerCall

namespace IntegerColumn

variable {column : IntegerColumn} {v : ℤ}

/-- A minus only stands in front of a number. -/
theorem text_getElem?_ne_minus (column : IntegerColumn) (v : ℤ) {i : ℕ} (hi : 0 < i) :
    (column.text v)[i]? ≠ some 0x2d := by
  have hdigits : ∀ {digits : List UInt8}, (∀ c ∈ digits, Decimal.IsDigit c) → ∀ j : ℕ,
      digits[j]? ≠ some 0x2d := by
    intro digits hdigits j hminus
    exact absurd (hdigits _ (List.mem_of_getElem? hminus)).1 (by decide)
  by_cases hneg : v < 0
  · obtain ⟨j, rfl⟩ : ∃ j, i = j + 1 := ⟨i - 1, by omega⟩
    rw [text, if_pos hneg, Decimal.signedText, if_pos hneg, List.getElem?_cons_succ]
    exact hdigits (fun c => Decimal.isDigit_text) j
  · obtain ⟨zeros, htext, -⟩ := @text_of_nonneg column v (by omega)
    rw [htext]
    exact hdigits (isDigit_zeros zeros v.natAbs).1 i

/-- The text of a number does not look like a date. -/
theorem looksLikeDate_text : looksLikeDate (column.row false v).bytes = false := by
  have hfifth : (column.text v)[4]? ≠ some 0x2d := column.text_getElem?_ne_minus v (by decide)
  have hbytes : (column.row false v).bytes = column.text v := rfl
  simp [looksLikeDate, hbytes, hfifth]

/-- `get_int64` reads the text of a large number as the largest one. -/
theorem Holds.getInt64_text (h : column.Holds v) (charSigned : Bool) :
    getInt64 charSigned (column.row false v) = some (min (2 ^ 63 - 1) v) := by
  change some (strtoll ((column.text v).takeWhile (· ≠ 0))) = _
  rw [takeWhile_text, h.strtoll_text]

/-- `get_uint64` reads the text of a negative number as a large one. -/
theorem Holds.getUint64_text (h : column.Holds v) (charSigned : Bool) :
    ∃ n : ℕ, getUint64 charSigned (column.row false v) = some n ∧
      (n : ℤ) = if v < 0 then v + 2 ^ 64 else v := by
  obtain ⟨hlow, hhigh, -⟩ := h.bounds
  refine ⟨(BitVec.ofInt 64 v).toNat, ?_, ?_⟩
  · change some (strtoull ((column.text v).takeWhile (· ≠ 0))).toNat = _
    rw [takeWhile_text, h.strtoull_text]
  · rw [BitVec.toNat_ofInt]
    split_ifs <;> omega

end IntegerColumn

/-- A number arrives exactly where its limits are checked or need no check. -/
theorem sqlGetDataInteger_delivers_iff (charSigned : Bool) (column : IntegerColumn) {v : ℤ}
    (hv : column.Holds v) (matrixOneBool optNoBigint : Bool) {cType : NumberCType}
    (hcType : cType.range.isSome = true) (hasBuffer hasSource : Bool) :
    (IntegerCall.ofText column matrixOneBool optNoBigint cType hasBuffer hasSource v).Delivers v
        ((IntegerCall.ofText column matrixOneBool optNoBigint cType hasBuffer
          hasSource v).sqlGetDataInteger charSigned) ↔
      (IntegerCall.ofText column matrixOneBool optNoBigint cType hasBuffer
        hasSource v).NeedsNoCheck v := by
  obtain ⟨call, hcall⟩ : ∃ call, call =
    IntegerCall.ofText column matrixOneBool optNoBigint cType hasBuffer hasSource v := ⟨_, rfl⟩
  rw [← hcall]
  have htype : call.cType = cType := by rw [hcall]; rfl
  have hdate : looksLikeDate call.column.bytes = false := by
    rw [hcall]
    exact IntegerColumn.looksLikeDate_text
  have hsigned : getInt64 charSigned call.column = some (min (2 ^ 63 - 1) v) := by
    rw [hcall]
    exact hv.getInt64_text charSigned
  obtain ⟨n, hunsigned, hn⟩ : ∃ n : ℕ, getUint64 charSigned call.column = some n ∧
      (n : ℤ) = if v < 0 then v + 2 ^ 64 else v := by
    rw [hcall]
    exact hv.getUint64_text charSigned
  have hsupported : call.sqlType.odbcSupportedConversion call.cType = true := by
    have hnoDate : cType.isDateTime = false := by
      revert hcType
      cases cType <;> decide
    unfold IntegerSqlType.odbcSupportedConversion
    rw [htype, hnoDate]
    split_ifs <;> rfl
  obtain ⟨hlow, hhigh, -⟩ := hv.bounds
  unfold IntegerCall.sqlGetDataInteger IntegerCall.NeedsNoCheck
  rw [hsupported, Bool.not_true, if_neg Bool.false_ne_true]
  rw [htype]
  cases cType with
  | SQL_C_TINYINT | SQL_C_STINYINT | SQL_C_SHORT | SQL_C_SSHORT =>
    simp only [hsigned]
    refine iff_of_true (IntegerCall.storeChecked_delivers (by rw [htype]; rfl) ?_) trivial
    omega
  | SQL_C_UTINYINT | SQL_C_USHORT | SQL_C_ULONG =>
    simp only [hunsigned]
    refine iff_of_true (IntegerCall.storeChecked_delivers (by rw [htype]; rfl) ?_) trivial
    split_ifs at hn <;> omega
  | SQL_C_LONG | SQL_C_SLONG =>
    have hrange : call.cType.range = some (-2 ^ 31, 2 ^ 31 - 1) := by rw [htype]; rfl
    cases hbuffer : call.hasBuffer with
    | false =>
      simp only [Bool.false_eq_true, if_false, false_or]
      rw [IntegerCall.finish_none_delivers hbuffer, IntegerCall.holds_iff hrange]
      omega
    | true =>
      simp only [hdate, hsigned, if_true, Bool.false_eq_true, if_false]
      refine iff_of_true (IntegerCall.storeChecked_delivers hrange ?_) (Or.inl trivial)
      omega
  | SQL_C_SBIGINT =>
    have hrange : call.cType.range = some (-2 ^ 63, 2 ^ 63 - 1) := by rw [htype]; rfl
    dsimp only
    cases hbuffer : call.hasBuffer with
    | false =>
      rw [if_neg Bool.false_ne_true, IntegerCall.finish_none_delivers hbuffer,
        IntegerCall.holds_iff hrange]
      omega
    | true =>
      rw [if_pos rfl, hsigned]
      change call.Delivers v (some (call.finish (some (min (2 ^ 63 - 1) v)) 8)) ↔ _
      rw [IntegerCall.finish_delivers, IntegerCall.holds_iff hrange, hbuffer]
      omega
  | SQL_C_UBIGINT =>
    have hrange : call.cType.range = some (0, 2 ^ 64 - 1) := by rw [htype]; rfl
    dsimp only
    cases hbuffer : call.hasBuffer with
    | false =>
      rw [if_neg Bool.false_ne_true, IntegerCall.finish_none_delivers hbuffer,
        IntegerCall.holds_iff hrange]
      omega
    | true =>
      rw [if_pos rfl, hunsigned]
      change call.Delivers v (some (call.finish (some (n : ℤ)) 8)) ↔ _
      rw [IntegerCall.finish_delivers, IntegerCall.holds_iff hrange, hbuffer]
      split_ifs at hn <;> omega
  | _ => contradiction

/-- A column of eight bytes. -/
def bigIntColumn (isUnsigned : Bool) : IntegerColumn :=
  { type := .bigInt
    isUnsigned := isUnsigned
    zerofill := 0
    zerofill_unsigned := fun hne => absurd rfl hne
    year_zerofill := nofun }

/-- A negative number is an error for a C type without a sign. -/
theorem sqlGetDataInteger_delivers_minus5 :
    (IntegerCall.ofText (bigIntColumn false) false false .SQL_C_ULONG true false (-5)).Delivers (-5)
      ((IntegerCall.ofText (bigIntColumn false) false false .SQL_C_ULONG true false
        (-5)).sqlGetDataInteger true) :=
  (sqlGetDataInteger_delivers_iff true (bigIntColumn false) ⟨by decide, by decide⟩ false false rfl
    true false).mpr trivial

/-- The number 2^63 arrives as 2^63 - 1 in an `SQL_C_SBIGINT`. -/
theorem sqlGetDataInteger_cuts_number :
    ¬ (IntegerCall.ofText (bigIntColumn true) false false .SQL_C_SBIGINT true false
      (2 ^ 63)).Delivers (2 ^ 63) ((IntegerCall.ofText (bigIntColumn true) false false .SQL_C_SBIGINT
        true false (2 ^ 63)).sqlGetDataInteger true) := by
  have hholds : ¬ (IntegerCall.ofText (bigIntColumn true) false false .SQL_C_SBIGINT true false
      (2 ^ 63)).Holds (2 ^ 63) := by
    rintro ⟨low, high, hrange, -, hhigh⟩
    obtain ⟨rfl, rfl⟩ := Prod.mk.inj (Option.some.inj hrange)
    omega
  have hv : (bigIntColumn true).Holds (2 ^ 63) := ⟨by decide, by decide⟩
  have hread := hv.getInt64_text true
  have hrun : (IntegerCall.ofText (bigIntColumn true) false false .SQL_C_SBIGINT true false
      (2 ^ 63)).sqlGetDataInteger true =
        (getInt64 true ((bigIntColumn true).row false (2 ^ 63))).bind fun converted =>
          some (.done .SQL_SUCCESS (some (.integer converted)) (some 8)) := rfl
  rintro ⟨-, herror⟩
  have hcut := herror hholds
  rw [hrun, hread, Option.bind_some] at hcut
  cases Option.some.inj hcut

end MatrixOdbc.Driver
