import MatrixOdbc.Driver.WideResult
import MatrixOdbc.Foundations.Buffer

/-!
# Retrieving byte data

`copy_binary_result` and `copy_ansi_result` of `driver/utility.cc`, and the way
a value takes to them through `SQLGetData`, `fix_padding` and `sql_get_data` of
`driver/results.cc`. The resume position is a pointer that outlives the call, so
pointers are addresses here, and a call finds its own memory.
-/

namespace MatrixOdbc.Driver

open Util

/-- The difference of two `unsigned long` values. -/
def ulongSub (a b : ℕ) : ℕ := (a + ulongSize - b) % ulongSize

/-- What a call leaves behind. `availBytes` is `none` when it is not written. -/
structure ByteOutcome where
  rc : SQLRETURN
  result : List UInt8
  availBytes : Option ℕ
  source : Option ℕ
  deriving DecidableEq

/-- `copy_binary_result` with the buffer of the application and the resume
position `stmt->getdata.source`. -/
def copyBinaryResult (opts : StmtOptions) (memory : ℕ → UInt8) (source : Option ℕ)
    (result : List UInt8) (resultBytes src srcBytes : ℕ) : ByteOutcome :=
  let srcBytes :=
    if opts.maxLength ≠ 0 ∧ opts.maxLength < srcBytes then opts.maxLength else srcBytes
  let (src, srcBytes) := match source with
    | none => (src, srcBytes)
    | some s => (s, ulongSub srcBytes (ulongSub s src))
  if source.isSome ∧ srcBytes = 0 then ⟨.SQL_NO_DATA_FOUND, result, none, source⟩
  else
    let copyBytes := min resultBytes srcBytes
    { rc := if resultBytes < srcBytes then .SQL_SUCCESS_WITH_INFO else .SQL_SUCCESS
      result :=
        if resultBytes ≠ 0 ∧ opts.retrieveData then
          Buffer.store result 0 (Memory.read memory src copyBytes)
        else result
      availBytes := if opts.retrieveData then some srcBytes else none
      source := some (src + copyBytes) }

/-- `SQL_SUCCEEDED`. -/
def sqlSucceeded (rc : SQLRETURN) : Prop := rc = .SQL_SUCCESS ∨ rc = .SQL_SUCCESS_WITH_INFO

instance : DecidablePred sqlSucceeded := fun _ => inferInstanceAs (Decidable (_ ∨ _))

/-- `copy_ansi_result`: one byte of the buffer is kept for the terminator. -/
def copyAnsiResult (opts : StmtOptions) (memory : ℕ → UInt8) (source : Option ℕ)
    (result : List UInt8) (resultBytes src srcBytes : ℕ) : ByteOutcome :=
  if resultBytes = 0 ∧ source.isNone then
    ⟨.SQL_SUCCESS_WITH_INFO, result, some srcBytes, none⟩
  else
    let out := copyBinaryResult opts memory source result (resultBytes - 1) src srcBytes
    if sqlSucceeded out.rc ∧ resultBytes ≠ 0 ∧ opts.retrieveData then
      { out with result := out.result.set (min (out.availBytes.getD 0) (resultBytes - 1)) 0 }
    else out

/-- The target types that are served by the two functions. -/
inductive ByteTarget where
  | SQL_C_CHAR | SQL_C_BINARY
  deriving DecidableEq

/-- A value in memory. -/
structure Located where
  addr : ℕ
  bytes : List UInt8
  addr_lt : addr < ulongSize
  length_lt : bytes.length < ulongSize

/-- A text in one of the local arrays `buff` and `as_string`. -/
abbrev LocalText := { text : List UInt8 // text.length ≤ 50 }

/-- A column of the current row that is not NULL. `converted` is the text that
`complete_timestamp` or `ssps_get_string` writes into a local array; it is `none`
if the value is passed on as it is. -/
structure ByteColumn where
  number : ℤ
  value : Located
  octetLength : ℕ
  octetLength_lt : octetLength < ulongSize
  optPadSpace : Bool
  enumFlag : Bool
  setFlag : Bool
  charType : Bool
  converted : ByteTarget → Option LocalText

/-- What a call finds in memory: the address at which the text of its `temp_str`
lies, that of its local arrays, and the rest. -/
structure CallFrame where
  tempStr : ℕ
  buff : ℕ
  memory : ℕ → UInt8
  tempStr_lt : tempStr < ulongSize
  buff_lt : buff < ulongSize

/-- The condition of `fix_padding`; both target types satisfy its last part. -/
def ByteColumn.padded (col : ByteColumn) : Bool :=
  col.optPadSpace && (col.enumFlag || col.setFlag) && col.charType

/-- `std::string::resize` with blanks. -/
def resize (bytes : List UInt8) (n : ℕ) : List UInt8 :=
  bytes.take n ++ List.replicate (n - bytes.length) 0x20

@[simp] theorem length_resize (bytes : List UInt8) (n : ℕ) : (resize bytes n).length = n := by
  simp only [resize, List.length_append, List.length_take, List.length_replicate]
  omega

/-- `fix_padding`. -/
def fixPadding (col : ByteColumn) (frame : CallFrame) (cbValueMax : ℕ) : Located :=
  if col.padded then
    { addr := frame.tempStr
      bytes := resize col.value.bytes
        (if col.octetLength < cbValueMax then col.octetLength else cbValueMax)
      addr_lt := frame.tempStr_lt
      length_lt := by
        have := col.octetLength_lt
        rw [length_resize]
        split <;> omega }
  else col.value

/-- The conversions of `sql_get_data` in front of the two functions. -/
def convertValue (col : ByteColumn) (fCType : ByteTarget) (frame : CallFrame) (value : Located) :
    Located :=
  match col.converted fCType with
  | some text =>
    { addr := frame.buff
      bytes := text.val
      addr_lt := frame.buff_lt
      length_lt := text.property.trans_lt (by decide) }
  | none => value

/-- The part of `GETDATA` that is used for byte data. -/
structure BytePosition where
  column : ℤ
  source : Option ℕ

/-- `SQLGetData` on a column of the current row, with the buffer of the call. -/
def sqlGetData (opts : StmtOptions) (col : ByteColumn) (fCType : ByteTarget)
    (getdata : BytePosition) (frame : CallFrame) (target : List UInt8) : ByteOutcome :=
  let source := if col.number ≠ getdata.column then none else getdata.source
  let value := convertValue col fCType frame (fixPadding col frame target.length)
  let memory := Memory.write (Memory.write frame.memory col.value.addr col.value.bytes)
    value.addr value.bytes
  match fCType with
  | .SQL_C_BINARY =>
    copyBinaryResult opts memory source target target.length value.addr value.bytes.length
  | .SQL_C_CHAR =>
    copyAnsiResult opts memory source target target.length value.addr value.bytes.length

/-- A sequence of `SQLGetData` calls on one column. Call number `k` finds `frames k`. -/
def getDataAll (opts : StmtOptions) (col : ByteColumn) (fCType : ByteTarget)
    (frames : ℕ → CallFrame) : ℕ → BytePosition → List (List UInt8) → List ByteOutcome
  | _, _, [] => []
  | k, getdata, target :: targets =>
    let out := sqlGetData opts col fCType getdata (frames k) target
    out :: getDataAll opts col fCType frames (k + 1) ⟨col.number, out.source⟩ targets

end MatrixOdbc.Driver
