import MatrixOdbc.Driver.BitConversion
import MatrixOdbc.Driver.InsertParam
import Mathlib.Logic.Function.Basic

/-!
# Conversions and the descriptions of the fields

`sql_get_data` looks at the description of a field to choose the conversion, and every later
call for the column reads the same description again. The branch of the interval types tests
the type of the field with an assignment: it takes every column for a `TIME`, and makes it one.
-/

namespace MatrixOdbc.Driver

/-- `IS_LONGDATA`. -/
def EnumFieldTypes.isLongdata (type : EnumFieldTypes) : Bool :=
  type ∈ [.tinyBlob, .mediumBlob, .longBlob, .blob, .varString, .string]

/-- `MYSQL_FIELD`, as far as `sql_get_data` and the functions of its conversions read it. -/
structure ResultField extends FieldInfo where
  decimals : ℕ

/-- The interval C types. -/
inductive IntervalKind where
  | year | month | day | hour | minute | second | yearToMonth | dayToHour | dayToMinute
  | dayToSecond | hourToMinute | hourToSecond | minuteToSecond
  deriving DecidableEq

/-- The C types that an application can ask for. -/
inductive TargetType where
  | number (cType : NumberCType)
  | interval (kind : IntervalKind)
  | SQL_C_DEFAULT
  | SQL_ARD_TYPE
  /-- A code that no branch names. -/
  | other (code : ℤ)
  deriving DecidableEq

namespace TargetType

/-- Dates and times. -/
def isDateTime : TargetType → Bool
  | number cType => cType.isDateTime
  | _ => false

/-- `is_binary_ctype`. -/
def isBinaryCtype : TargetType → Bool
  | number cType => cType.isBinaryCtype
  | _ => false

/-- `odbc_supported_conversion`. -/
def odbcSupportedConversion (cType : TargetType) : SqlType → Bool
  | .SQL_BIT => !cType.isDateTime
  | .SQL_BINARY => cType.isBinaryCtype
  | _ => true

/-- `driver_supported_conversion`: the case of bits goes on with the one of strings. -/
def driverSupportedConversion (cType : TargetType) : EnumFieldTypes → Bool
  | .bit =>
    match cType with
    | number cType => cType.driverSupportedConversion
    | _ => false
  | .string => cType.isDateTime
  | _ => false

end TargetType

/-- `unireg_to_c_datatype`. -/
def uniregToCDatatype (field : MysqlField) : NumberCType :=
  match field.type with
  | .bit => if 1 < field.length then .SQL_C_BINARY else .SQL_C_BIT
  | .tiny => .SQL_C_TINYINT
  | .year | .short => .SQL_C_SHORT
  | .int24 | .long => .SQL_C_LONG
  | .float => .SQL_C_FLOAT
  | .double => .SQL_C_DOUBLE
  | .timestamp | .datetime => .SQL_C_TIMESTAMP
  | .newdate | .date => .SQL_C_DATE
  | .time => .SQL_C_TIME
  | .blob | .tinyBlob | .mediumBlob | .longBlob | .json | .vector => .SQL_C_BINARY
  | _ => .SQL_C_CHAR

/-- Which columns the branch of the times tells apart. -/
inductive TimeColumn where
  | timestamp | date | other
  deriving DecidableEq

/-- The conversions, with what they take from the description of the field. What they write
depends on the value and the arguments only. -/
inductive FieldConversion where
  | copyBinaryResult (completeTimestamp : Bool)
  | copyBitResult
  | wcopyBitResult
  | sspsFetchChunk
  | copyBinhexResult (wide : Bool)
  | copyAnsiResult (completeTimestamp : Bool)
  | copyWcharResult
  /-- `SQL_C_BIT`, the integers, `float`, `double` and `SQL_C_NUMERIC`: `convert` says to read
  the text of the column. -/
  | number (cType : NumberCType) (convert : Bool)
  | date
  | interval (kind : IntervalKind)
  | time (column : TimeColumn)
  | timestamp (fromTime : Bool)
  deriving DecidableEq

/-- What a call does: an error, the indicator of NULL, or a conversion. -/
inductive FieldOutcome where
  /-- 07009: invalid descriptor index. -/
  | invalidDescriptorIndex
  /-- 22002: indicator variable required but not supplied. -/
  | indicatorRequired
  /-- 07006: the conversion is not possible. -/
  | notPossible
  | nullData
  | converts (conversion : FieldConversion)
  deriving DecidableEq

/-- A call of `sql_get_data`. -/
structure DataCall where
  fCType : TargetType
  columnNumber : ℕ
  /-- `pcbValue` is given. -/
  hasPcbValue : Bool
  /-- `value` with its length, none for a null pointer. -/
  value : Option (List UInt8)
  /-- `is_null`: the indicator of a prepared statement, or a value that is a null pointer. -/
  isNull : Bool
  /-- The C type of the record of the column in the descriptor. -/
  arrec : Option TargetType
  /-- `out_params_state` is `OPS_STREAMS_PENDING`. -/
  streamsPending : Bool

namespace DataCall

variable (call : DataCall)

/-- The exact C type; none where the descriptor has no record to tell it. -/
def exactType (field : ResultField) : Option TargetType :=
  match call.fCType with
  | .SQL_C_DEFAULT => some (.number (uniregToCDatatype field.toMysqlField))
  | .SQL_ARD_TYPE => call.arrec
  | fCType => some fCType

/-- The conversions of a `BIT` column that return at once. -/
def bitConversion (field : ResultField) (fCType : TargetType) : Option FieldConversion :=
  if field.type = .bit then
    match fCType with
    | .number .SQL_C_BIT => some (.copyBinaryResult false)
    | .number .SQL_C_CHAR => some .copyBitResult
    | .number .SQL_C_WCHAR => some .wcopyBitResult
    | _ => none
  else none

/-- The branches of the C types for a value that is there. The type of the field becomes `TIME`
in the branch of the interval types. -/
def convertTo (field : ResultField) (fCType : TargetType) : ResultField × FieldOutcome :=
  let convert : Bool :=
    field.type ≠ .bit ∨ fCType = .number .SQL_C_UBIGINT
  let isBinhex : Bool := field.binaryCharset ∧ field.type.isLongdata ∧ field.decimals = 0
  let completes : Bool :=
    field.type = .timestamp ∧ (call.value.elim 0 List.length) < 19
  match fCType with
  | .number .SQL_C_CHAR =>
    (field, .converts (if isBinhex then .copyBinhexResult false else .copyAnsiResult completes))
  | .number .SQL_C_BINARY => (field, .converts (.copyBinaryResult completes))
  | .number .SQL_C_WCHAR =>
    (field, .converts (if isBinhex then .copyBinhexResult true else .copyWcharResult))
  | .number .SQL_C_DATE | .number .SQL_C_TYPE_DATE => (field, .converts .date)
  | .interval .hourToSecond =>
    -- `if ((field->type = MYSQL_TYPE_TIME))`
    ({ field with type := .time }, .converts (.interval .hourToSecond))
  | .interval .hourToMinute =>
    ({ field with type := .time }, .converts (.interval .hourToMinute))
  | .number .SQL_C_TIME | .number .SQL_C_TYPE_TIME =>
    (field, .converts (.time (
      if field.type = .timestamp ∨ field.type = .datetime then .timestamp
      else if field.type = .date then .date
      else .other)))
  | .number .SQL_C_TIMESTAMP | .number .SQL_C_TYPE_TIMESTAMP =>
    (field, .converts (.timestamp (field.type = .time)))
  | .number cType => (field, .converts (.number cType convert))
  | _ => (field, .notPossible)

/-- What happens to a field that is not NULL, behind the check of the conversion. -/
def convertField (field : ResultField) (fCType : TargetType) : ResultField × FieldOutcome :=
  match bitConversion field fCType with
  | some conversion => (field, .converts conversion)
  | none =>
    if call.streamsPending ∧ call.value = none then (field, .converts .sspsFetchChunk)
    else call.convertTo field fCType

/-- The conversion is supported by ODBC or by the driver. -/
def supported (opts : TypeOptions) (field : ResultField) (fCType : TargetType) : Bool :=
  fCType.odbcSupportedConversion (getSqlDataType opts field.toFieldInfo) ||
    fCType.driverSupportedConversion field.type

/-- `sql_get_data` for the description of its field. -/
def sqlGetField (opts : TypeOptions) (field : ResultField) : ResultField × FieldOutcome :=
  match call.exactType field with
  | none => (field, .invalidDescriptorIndex)
  | some fCType =>
    if call.isNull then (field, if call.hasPcbValue then .nullData else .indicatorRequired)
    else if !supported opts field fCType then (field, .notPossible)
    else call.convertField field fCType

/-- `sql_get_data`: the description of the field is that of the result set. -/
def sqlGetData (opts : TypeOptions) (fields : ℕ → ResultField) : (ℕ → ResultField) × FieldOutcome :=
  let (field, outcome) := call.sqlGetField opts (fields call.columnNumber)
  (Function.update fields call.columnNumber field, outcome)

/-- Calls one after the other. -/
def runData (opts : TypeOptions) (fields : ℕ → ResultField) : List DataCall → List FieldOutcome
  | [] => []
  | call :: calls =>
    (call.sqlGetData opts fields).2 :: runData opts (call.sqlGetData opts fields).1 calls

/-- An interval type is asked for. -/
def AsksForInterval (field : ResultField) : Prop :=
  ∃ kind, call.exactType field = some (.interval kind)

/-- A call leaves the descriptions of all fields as they are, gets an error for an interval of
a column that is no `TIME` and not NULL, and changes no outcome of a later call. -/
structure KeepsMetadata (opts : TypeOptions) (fields : ℕ → ResultField) : Prop where
  fields_same : (call.sqlGetData opts fields).1 = fields
  rejects : call.AsksForInterval (fields call.columnNumber) → call.isNull = false →
    (fields call.columnNumber).type ≠ .time →
      (call.sqlGetData opts fields).2 = .notPossible
  later : ∀ calls, runData opts (call.sqlGetData opts fields).1 calls = runData opts fields calls

/-- The call asks for an interval that the type of the field does not rule out: one of a column
that is no `TIME`, with a supported conversion, and of the two kinds that the driver converts
or with the value of a stream still to be fetched. -/
def MissesInterval (opts : TypeOptions) (field : ResultField) : Prop :=
  ∃ kind, call.exactType field = some (.interval kind) ∧ field.type ≠ .time ∧
    call.isNull = false ∧ supported opts field (.interval kind) = true ∧
    (kind = .hourToSecond ∨ kind = .hourToMinute ∨ call.streamsPending = true ∧ call.value = none)

variable {call} {opts : TypeOptions} {field : ResultField}

/-- No conversion of a `BIT` column returns at once for an interval. -/
theorem bitConversion_interval (kind : IntervalKind) :
    bitConversion field (.interval kind) = none := by
  unfold bitConversion
  split_ifs <;> rfl

/-- The only branch that writes the description is that of the intervals. -/
theorem convertTo_fst {fCType : TargetType} :
    (call.convertTo field fCType).1 = field ∨
      (fCType = .interval .hourToSecond ∨ fCType = .interval .hourToMinute) ∧
        (call.convertTo field fCType).1 = { field with type := .time } := by
  unfold convertTo
  dsimp only
  split <;> simp

/-- An interval that a conversion is supported for and that is not NULL. -/
theorem sqlGetField_interval {kind : IntervalKind}
    (hkind : call.exactType field = some (.interval kind)) (hnull : call.isNull = false)
    (hsupported : supported opts field (.interval kind) = true) :
    call.sqlGetField opts field =
      if call.streamsPending = true ∧ call.value = none then (field, .converts .sspsFetchChunk)
      else call.convertTo field (.interval kind) := by
  rw [sqlGetField, hkind]
  dsimp only
  rw [hnull, hsupported, if_neg Bool.false_ne_true, Bool.not_true, if_neg Bool.false_ne_true,
    convertField, bitConversion_interval]

/-- What a call does to the description of its field. -/
theorem sqlGetField_fst :
    (call.sqlGetField opts field).1 = field ∨
      ∃ kind, call.exactType field = some (.interval kind) ∧ call.isNull = false ∧
        supported opts field (.interval kind) = true ∧
        (kind = .hourToSecond ∨ kind = .hourToMinute) ∧
        (call.sqlGetField opts field).1 = { field with type := .time } := by
  cases htype : call.exactType field with
  | none => exact .inl (by rw [sqlGetField, htype])
  | some fCType =>
    cases hnull : call.isNull with
    | true => exact .inl (by rw [sqlGetField, htype, hnull]; rfl)
    | false =>
      cases hsupported : supported opts field fCType with
      | false => exact .inl (by rw [sqlGetField, htype, hnull]; simp [hsupported])
      | true =>
        have hrun : call.sqlGetField opts field = call.convertField field fCType := by
          rw [sqlGetField, htype, hnull]
          simp [hsupported]
        rw [hrun, convertField]
        split
        · exact .inl rfl
        · split_ifs with hstream
          · exact .inl rfl
          · obtain hsame | ⟨rfl | rfl, hwritten⟩ := @convertTo_fst call field fCType
            · exact .inl hsame
            · exact .inr ⟨_, rfl, rfl, hsupported, .inl rfl, hwritten⟩
            · exact .inr ⟨_, rfl, rfl, hsupported, .inr rfl, hwritten⟩

/-- The other fields are left as they are. -/
theorem sqlGetData_fst (fields : ℕ → ResultField) :
    (call.sqlGetData opts fields).1 = Function.update fields call.columnNumber
      (call.sqlGetField opts (fields call.columnNumber)).1 := rfl

theorem sqlGetData_snd (fields : ℕ → ResultField) :
    (call.sqlGetData opts fields).2 = (call.sqlGetField opts (fields call.columnNumber)).2 := rfl

/-- A type that was changed is not restored. -/
theorem setType_eq_iff : { field with type := .time } = field ↔
    field.type = .time := by
  constructor
  · intro hsame
    rw [← hsame]
  · intro htype
    rw [← htype]

end DataCall

/-- A call leaves the metadata as it is exactly when it does not ask for an interval that the
driver converts, or fetches from a stream, without a look at the type of the column. -/
theorem sqlGetData_keepsMetadata_iff (opts : TypeOptions) (fields : ℕ → ResultField)
    (call : DataCall) :
    call.KeepsMetadata opts fields ↔ ¬ call.MissesInterval opts (fields call.columnNumber) := by
  constructor
  · rintro ⟨-, hrejects, -⟩ ⟨kind, hkind, htime, hnull, hsupported, hmissed⟩
    have hrejected := hrejects ⟨kind, hkind⟩ hnull htime
    rw [DataCall.sqlGetData_snd, DataCall.sqlGetField_interval hkind hnull hsupported] at hrejected
    split_ifs at hrejected with hstream
    obtain rfl | rfl | hpending := hmissed
    · contradiction
    · contradiction
    · exact hstream hpending
  · intro hmisses
    have hsame : (call.sqlGetData opts fields).1 = fields := by
      rw [DataCall.sqlGetData_fst, Function.update_eq_self_iff]
      obtain hsame | ⟨kind, hkind, hnull, hsupported, hconverts, hwritten⟩ :=
        @DataCall.sqlGetField_fst call opts (fields call.columnNumber)
      · exact hsame
      · rw [hwritten, DataCall.setType_eq_iff]
        by_contra htime
        exact hmisses ⟨kind, hkind, htime, hnull, hsupported,
          hconverts.imp_right Or.inl⟩
    refine ⟨hsame, ?_, fun calls => by rw [hsame]⟩
    rintro ⟨kind, hkind⟩ hnull htime
    rw [DataCall.sqlGetData_snd]
    cases hsupported : DataCall.supported opts (fields call.columnNumber) (.interval kind) with
    | false =>
      rw [DataCall.sqlGetField, hkind, hnull]
      simp [hsupported]
    | true =>
      have hnot : ¬ (kind = .hourToSecond ∨ kind = .hourToMinute ∨
          call.streamsPending = true ∧ call.value = none) := fun h =>
        hmisses ⟨kind, hkind, htime, hnull, hsupported, h⟩
      rw [not_or, not_or] at hnot
      rw [DataCall.sqlGetField_interval hkind hnull hsupported, if_neg hnot.2.2]
      cases kind with
      | hourToSecond => exact absurd rfl hnot.1
      | hourToMinute => exact absurd rfl hnot.2.1
      | _ => rfl

/-- A column of whole numbers. -/
def intField : ResultField :=
  { type := .long
    length := 11
    binaryCharset := true
    multiByteCharset := false
    ofTable := true
    numFlag := true
    decimals := 0 }

/-- A connection without options. -/
def plainOptions : TypeOptions := ⟨false, false, true, true, false⟩

/-- A call for the first column of a row. -/
def firstColumn (fCType : TargetType) (value : List UInt8) : DataCall :=
  { fCType := fCType
    columnNumber := 0
    hasPcbValue := true
    value := some value
    isNull := false
    arrec := none
    streamsPending := false }

/-- The text of a number is asked for as a time: the type of its field becomes `TIME`, and the
next call finds no whole number. -/
theorem sqlGetData_changes_metadata :
    ¬ (firstColumn (.interval .hourToSecond) [0x37]).KeepsMetadata plainOptions
      (fun _ => intField) := by
  rintro ⟨-, -, hlater⟩
  have hdefault := hlater [firstColumn .SQL_C_DEFAULT [0x37]]
  have hchanged : DataCall.runData plainOptions ((firstColumn (.interval .hourToSecond)
      [0x37]).sqlGetData plainOptions fun _ => intField).1
        [firstColumn .SQL_C_DEFAULT [0x37]] = [.converts (.time .other)] := by
    decide
  have hkept : DataCall.runData plainOptions (fun _ => intField)
      [firstColumn .SQL_C_DEFAULT [0x37]] = [.converts (.number .SQL_C_LONG true)] := by
    decide
  rw [hchanged, hkept] at hdefault
  contradiction

end MatrixOdbc.Driver
