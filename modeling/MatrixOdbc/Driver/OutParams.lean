import Mathlib.Algebra.Order.Ring.Int
import Mathlib.Logic.Function.Iterate
import Mathlib.Tactic.Common

/-!
# Output parameters

`ssps_get_out_params` of `driver/my_prepared_stmt.cc`: the row of the output parameters of
a `CALL` is handed to the bound parameters. One loop runs over all parameters and a counter
over the columns; a `BIT` column comes as the text of a number and is rewritten in place.

What `sql_get_data` makes of a value is not modelled, only what it is called with. The
bind offset is that of the first row.
-/

namespace MatrixOdbc.Driver

/-- `isspace` of a byte. -/
def isspaceByte (c : UInt8) : Bool := c = 0x20 || 0x09 ≤ c && c ≤ 0x0d

/-- The value of decimal digits. -/
def decimalValue (digits : List UInt8) : ℕ :=
  digits.foldl (fun n c => 10 * n + (c.toNat - 0x30)) 0

/-- `strtoull` to base 10. -/
def strtoull (s : List UInt8) : BitVec 64 :=
  let s := s.dropWhile isspaceByte
  let negative := s.head? = some 0x2d
  let s := if s.head? = some 0x2d ∨ s.head? = some 0x2b then s.drop 1 else s
  let n := decimalValue (s.takeWhile fun c => 0x30 ≤ c && c ≤ 0x39)
  if 2 ^ 64 ≤ n then BitVec.allOnes 64
  else if negative then -BitVec.ofNat 64 n
  else BitVec.ofNat 64 n

/-- `numeric2binary`: the last bytes of the number, from the last one on. -/
def numeric2binary (dst : List UInt8) (src : BitVec 64) : ℕ → List UInt8
  | 0 => dst
  | n + 1 => numeric2binary (dst.set n (UInt8.ofBitVec (src.setWidth 8))) (src.sshiftRight 8) n

/-- A column of the row: whether it is bound as `MYSQL_TYPE_BIT`, `field->length`, whether
it is `NULL`, its buffer and the length of the value. -/
structure OutColumn where
  bit : Bool
  fieldLength : ℕ
  isNull : Bool
  buffer : List UInt8
  length : ℕ
  deriving DecidableEq

/-- The size of the buffer that `allocate_buffer_for_field` gives to a `BIT` column. -/
def bitOutSize : ℕ := 30

namespace OutColumn

/-- The number of bytes of a `BIT` value. -/
def bitBytes (column : OutColumn) : ℕ := (column.fieldLength + 7) / 8

/-- The bytes of the value. -/
def value (column : OutColumn) : List UInt8 := column.buffer.take column.length

/-- A `BIT` column is made to look normal. Nothing is returned where a write would be
outside the buffer. -/
def rewriteBit (column : OutColumn) : Option OutColumn :=
  if column.length < column.buffer.length ∧ column.bitBytes ≤ column.buffer.length then
    let text := column.buffer.set column.length 0
    some { column with
      buffer := numeric2binary text (strtoull (text.takeWhile (· ≠ 0))) column.bitBytes
      length := column.bitBytes }
  else none

/-- What is done to the column at the counter for each parameter. -/
def prepared (column : OutColumn) : Option OutColumn :=
  if column.bit then column.rewriteBit else some column

end OutColumn

/-- The types of parameters; `input` stands for every other number, too. -/
inductive OutParamType where
  | input | inputOutput | output | inputOutputStream | outputStream
  deriving DecidableEq

/-- The fields of the two records of a parameter. Null pointers are `none`. -/
structure OutParam where
  parameterType : OutParamType
  dataPtr : Option ℕ
  octetLengthPtr : Option ℕ
  indicatorPtr : Option ℕ
  conciseType : ℤ
  octetLength : ℤ
  deriving DecidableEq

namespace OutParam

/-- The parameter takes a column. -/
def isOut (param : OutParam) : Bool := param.parameterType ≠ .input

/-- The parameter is streamed. -/
def isStream (param : OutParam) : Bool :=
  param.parameterType = .inputOutputStream || param.parameterType = .outputStream

end OutParam

/-- What is done for a parameter: `sql_get_data` is called for a column, with the type, the
buffer, its size, the indicator, the value and its length, and looks whether the column is
`NULL`; the indicator is copied to the length unless it says `SQL_NULL_DATA`; and the length
of a stream is stored. -/
inductive OutParamEvent where
  | getData (column : ℕ) (cType : ℤ) (target : ℕ) (cbValueMax : ℤ) (pcbValue : Option ℕ)
      (isNull : Bool) (value : List UInt8) (length : ℕ)
  | copyLength (indicatorPtr octetLengthPtr : ℕ)
  | streamLength (octetLengthPtr length : ℕ)
  deriving DecidableEq

/-- `ptr_offset_adjust` for the first row. -/
def ptrOffsetAdjust (ptr : Option ℕ) (bindOffset : ℕ) : Option ℕ := ptr.map (· + bindOffset)

/-- What is done for an output parameter. -/
def OutParam.events (param : OutParam) (bindOffset counter : ℕ) (column : OutColumn) :
    List OutParamEvent :=
  match ptrOffsetAdjust param.dataPtr bindOffset with
  | none => []
  | some target =>
    let octetLengthPtr := ptrOffsetAdjust param.octetLengthPtr bindOffset
    let indicatorPtr := ptrOffsetAdjust param.indicatorPtr bindOffset
    if param.isStream then
      match octetLengthPtr with
      | some octet => [.streamLength octet column.length]
      | none => []
    else
      .getData counter param.conciseType target param.octetLength indicatorPtr column.isNull
          column.value column.length ::
        match octetLengthPtr, indicatorPtr with
        | some octet, some indicator =>
          if octet ≠ indicator then [.copyLength indicator octet] else []
        | _, _ => []

/-- The loop over the parameters: what is done for each of them, and the columns. -/
def outParamsLoop (bindOffset : ℕ) : List OutParam → List OutColumn → ℕ →
    Option (List (List OutParamEvent) × List OutColumn)
  | [], columns, _ => some ([], columns)
  | param :: params, columns, counter =>
    match columns[counter]? with
    | none => some ([], columns)
    | some column =>
      match column.prepared with
      | none => none
      | some column =>
        let columns := columns.set counter column
        if param.isOut then
          (outParamsLoop bindOffset params columns (counter + 1)).map fun result =>
            (param.events bindOffset counter column :: result.1, result.2)
        else
          (outParamsLoop bindOffset params columns counter).map fun result =>
            ([] :: result.1, result.2)

/-- `OUT_PARAM_STATE`, as far as it is set here. -/
inductive OutParamsState where
  | unknown | prefetched | streamsPending
  deriving DecidableEq

/-- `got_out_parameters`, over the parameters of the statement: whether there are output
parameters, and whether some of them are streamed. -/
def gotOutParameters (params : List OutParam) : Bool × Bool :=
  (params.any fun param => param.isOut && !param.isStream, params.any OutParam.isStream)

/-- What `ssps_get_out_params` leaves behind: what is done for each parameter, the columns,
the state of the parameters, and whether the row behind the parameters is fetched. -/
structure OutParamsResult where
  events : List (List OutParamEvent)
  columns : List OutColumn
  state : OutParamsState
  magicalFetch : Bool

/-- `ssps_get_out_params` for a `CALL` whose row has been fetched. `params` are the records
that both descriptors have, `described` those of the first `param_count` parameters. -/
def sspsGetOutParams (bindOffset : ℕ) (described params : List OutParam)
    (columns : List OutColumn) : Option OutParamsResult :=
  let (out, streams) := gotOutParameters described
  let state := if streams then .streamsPending else .prefetched
  if out || streams then
    (outParamsLoop bindOffset params columns 0).map fun result =>
      ⟨result.1, result.2, state, !streams⟩
  else some ⟨[], columns, state, !streams⟩

end MatrixOdbc.Driver
