import MatrixOdbc.Driver.BoundParam

/-!
# Arrays of parameters

`insert_param` of `driver/execute.cc` for a row of a parameter array, from the records of the
descriptors on: where the value, the length and the indicator of the row are, what is read there,
and the literal that is written. The memory of the application is a list of bytes from address
zero on; what is read behind its end is zero, and a text ends with it. The texts of
floating-point numbers and of `SQL_NUMERIC_STRUCT` are functions of their bytes.
-/

namespace MatrixOdbc.Driver

open Util

/-- The C types that `insert_param` tells apart. -/
inductive ParamCType where
  | SQL_C_CHAR | SQL_C_BINARY | SQL_C_WCHAR
  | SQL_C_BIT | SQL_C_TINYINT | SQL_C_STINYINT | SQL_C_UTINYINT
  | SQL_C_SHORT | SQL_C_SSHORT | SQL_C_USHORT
  | SQL_C_LONG | SQL_C_SLONG | SQL_C_ULONG
  | SQL_C_SBIGINT | SQL_C_UBIGINT
  | SQL_C_FLOAT | SQL_C_DOUBLE
  | SQL_C_DATE | SQL_C_TYPE_DATE | SQL_C_TIME | SQL_C_TYPE_TIME
  | SQL_C_TIMESTAMP | SQL_C_TYPE_TIMESTAMP
  | SQL_C_NUMERIC
  | SQL_C_INTERVAL_HOUR_TO_MINUTE | SQL_C_INTERVAL_HOUR_TO_SECOND
  /-- The other types of intervals. -/
  | otherInterval
  | SQL_C_DEFAULT
  | other
  deriving DecidableEq

namespace ParamCType

/-- `bind_length`. -/
def bindLength (cType : ParamCType) (length : ℤ) : ℤ :=
  match cType with
  | SQL_C_BIT | SQL_C_TINYINT | SQL_C_STINYINT | SQL_C_UTINYINT => 1
  | SQL_C_SHORT | SQL_C_SSHORT | SQL_C_USHORT => 2
  | SQL_C_LONG | SQL_C_SLONG | SQL_C_ULONG => 4
  | SQL_C_FLOAT => 4
  | SQL_C_DOUBLE => 8
  | SQL_C_DATE | SQL_C_TYPE_DATE => 6
  | SQL_C_TIME | SQL_C_TYPE_TIME => 6
  | SQL_C_TIMESTAMP | SQL_C_TYPE_TIMESTAMP => 16
  | SQL_C_SBIGINT | SQL_C_UBIGINT => 8
  | SQL_C_NUMERIC => 19
  | _ => length

/-- The type is that of a text, whose size is not fixed. -/
def isText : ParamCType → Bool
  | SQL_C_CHAR | SQL_C_BINARY | SQL_C_WCHAR => true
  | _ => false

/-- The type is a timestamp. -/
def isTimestamp : ParamCType → Bool
  | SQL_C_TIMESTAMP | SQL_C_TYPE_TIMESTAMP => true
  | _ => false

/-- The bytes of a value of a type with a fixed size. -/
def valueSize : ParamCType → ℕ
  | SQL_C_CHAR | SQL_C_BINARY | SQL_C_WCHAR => 0
  | SQL_C_BIT | SQL_C_TINYINT | SQL_C_STINYINT | SQL_C_UTINYINT => 1
  | SQL_C_SHORT | SQL_C_SSHORT | SQL_C_USHORT => 2
  | SQL_C_LONG | SQL_C_SLONG | SQL_C_ULONG | SQL_C_FLOAT => 4
  | SQL_C_SBIGINT | SQL_C_UBIGINT | SQL_C_DOUBLE => 8
  | SQL_C_DATE | SQL_C_TYPE_DATE | SQL_C_TIME | SQL_C_TYPE_TIME => 6
  | SQL_C_TIMESTAMP | SQL_C_TYPE_TIMESTAMP => 16
  | SQL_C_NUMERIC => 19
  | SQL_C_INTERVAL_HOUR_TO_MINUTE | SQL_C_INTERVAL_HOUR_TO_SECOND | otherInterval => 28
  | SQL_C_DEFAULT | other => 0

end ParamCType

/-- The bytes of a memory from an offset on, with zeros behind its end. -/
def bytesAt (memory : List UInt8) (offset size : ℕ) : List UInt8 :=
  (List.range size).map fun i => memory.getD (offset + i) 0

/-- An unsigned number in the memory, the lowest byte first. -/
def unsignedAt (memory : List UInt8) (offset size : ℕ) : ℕ :=
  Nat.ofDigits 256 ((bytesAt memory offset size).map UInt8.toNat)

/-- A signed number in the memory. -/
def signedAt (memory : List UInt8) (offset size : ℕ) : ℤ :=
  let n := unsignedAt memory offset size
  if n < 2 ^ (8 * size - 1) then n else n - 2 ^ (8 * size)

/-- The units of a text. -/
def unitsOf : List UInt8 → List SQLWCHAR
  | low :: high :: memory => UInt16.ofNat (low.toNat + 256 * high.toNat) :: unitsOf memory
  | _ => []

/-- A `DATE_STRUCT`, a `TIME_STRUCT` and a `TIMESTAMP_STRUCT` in the memory. -/
def dateAt (memory : List UInt8) (offset : ℕ) : CDate :=
  ⟨signedAt memory offset 2, unsignedAt memory (offset + 2) 2, unsignedAt memory (offset + 4) 2⟩
@[inherit_doc dateAt] def timeAt (memory : List UInt8) (offset : ℕ) : CTime :=
  ⟨unsignedAt memory offset 2, unsignedAt memory (offset + 2) 2, unsignedAt memory (offset + 4) 2⟩
@[inherit_doc dateAt] def timestampAt (memory : List UInt8) (offset : ℕ) : CTimestamp :=
  ⟨dateAt memory offset, timeAt memory (offset + 6), unsignedAt memory (offset + 12) 4⟩

/-- What the writing of an array depends on besides: the texts of floating-point numbers and
numerics. -/
structure ArrayEnv extends PathEnv where
  floatText : ParamCType → List UInt8 → List UInt8
  numericText : List UInt8 → NumericText

/-- A value of a type that is read from a memory. -/
@[grind =] def decodeValue (env : ArrayEnv) (cType : ParamCType) (memory : List UInt8) : CValue :=
  match cType with
  | .SQL_C_CHAR => .SQL_C_CHAR memory
  | .SQL_C_BINARY => .SQL_C_BINARY memory
  | .SQL_C_WCHAR => .SQL_C_WCHAR (unitsOf memory)
  | .SQL_C_BIT | .SQL_C_TINYINT | .SQL_C_STINYINT => .signed (Int64.ofInt (signedAt memory 0 1))
  | .SQL_C_UTINYINT => .signed (Int64.ofInt (unsignedAt memory 0 1))
  | .SQL_C_SHORT | .SQL_C_SSHORT => .signed (Int64.ofInt (signedAt memory 0 2))
  | .SQL_C_USHORT => .signed (Int64.ofInt (unsignedAt memory 0 2))
  | .SQL_C_LONG | .SQL_C_SLONG => .signed (Int64.ofInt (signedAt memory 0 4))
  | .SQL_C_ULONG => .unsigned (UInt64.ofNat (unsignedAt memory 0 4))
  | .SQL_C_SBIGINT => .signed (Int64.ofInt (signedAt memory 0 8))
  | .SQL_C_UBIGINT => .unsigned (UInt64.ofNat (unsignedAt memory 0 8))
  | .SQL_C_FLOAT => .floating (env.floatText cType (bytesAt memory 0 4))
  | .SQL_C_DOUBLE => .floating (env.floatText cType (bytesAt memory 0 8))
  | .SQL_C_DATE | .SQL_C_TYPE_DATE => .SQL_C_DATE (dateAt memory 0)
  | .SQL_C_TIME | .SQL_C_TYPE_TIME => .SQL_C_TIME (timeAt memory 0)
  | .SQL_C_TIMESTAMP | .SQL_C_TYPE_TIMESTAMP => .SQL_C_TIMESTAMP (timestampAt memory 0)
  | .SQL_C_NUMERIC => .SQL_C_NUMERIC (env.numericText (bytesAt memory 0 19))
  | .SQL_C_INTERVAL_HOUR_TO_MINUTE =>
    .SQL_C_INTERVAL_HOUR_TO_MINUTE (unsignedAt memory 12 4) (unsignedAt memory 16 4)
  | .SQL_C_INTERVAL_HOUR_TO_SECOND =>
    .SQL_C_INTERVAL_HOUR_TO_SECOND (unsignedAt memory 12 4) (unsignedAt memory 16 4)
      (unsignedAt memory 20 4)
  | .otherInterval => .otherInterval
  | .SQL_C_DEFAULT => .SQL_C_DEFAULT
  | .other => .other

/-- The records of a parameter: pointers are addresses, and zero is NULL. `par` is what came at
execution, and `bindOffset` the value behind `bind_offset_ptr`. -/
structure ParamRecord where
  conciseType : ParamCType
  dataPtr : ℕ
  octetLengthPtr : ℕ
  indicatorPtr : ℕ
  octetLength : ℤ
  bindOffset : Option ℕ
  bindType : ℤ
  par : Option (List UInt8)
  aprecType : VerboseType
  iprecType : VerboseType
  sqlType : SqlType

namespace ParamRecord

/-- `ptr_offset_adjust`, with addresses of 64 bits. -/
def ptrOffsetAdjust (rec : ParamRecord) (ptr : ℕ) (defaultSize : ℤ) (row : ℕ) : ℕ :=
  let offset := rec.bindOffset.getD 0 +
    (if rec.bindType = 0 then defaultSize else rec.bindType) * row
  if ptr = 0 then 0 else ((ptr + offset) % 2 ^ 64).toNat

/-- `default_size` is an `SQLINTEGER`. -/
def defaultSize (rec : ParamRecord) : ℤ :=
  (rec.conciseType.bindLength rec.octetLength + 2 ^ 31) % 2 ^ 32 - 2 ^ 31

/-- `data`, and the places of the length and the indicator. -/
def data (rec : ParamRecord) (row : ℕ) : ℕ := rec.ptrOffsetAdjust rec.dataPtr rec.defaultSize row
@[inherit_doc data] def lengthCell (rec : ParamRecord) (row : ℕ) : ℕ :=
  rec.ptrOffsetAdjust rec.octetLengthPtr 8 row
@[inherit_doc data] def indicatorCell (rec : ParamRecord) (row : ℕ) : ℕ :=
  rec.ptrOffsetAdjust rec.indicatorPtr 8 row

/-- What a cell of eight bytes holds, if there is one. -/
def cellAt (mem : List UInt8) (cell : ℕ) : Option ℤ :=
  if cell = 0 then none else some (signedAt mem cell 8)

/-- `IS_DATA_AT_EXEC`. -/
def isDataAtExec (length : Option ℤ) : Bool :=
  length.any fun n => n = sqlDataAtExec ∨ n ≤ sqlLenDataAtExecOffset

/-- The value is not at the bound address, but came at execution. -/
def atExec (rec : ParamRecord) (mem : List UInt8) (row : ℕ) : Bool :=
  isDataAtExec (cellAt mem (rec.lengthCell row))

/-- The memory that the value is read from; there is none at NULL. -/
@[grind =] def memoryAt (rec : ParamRecord) (mem : List UInt8) (row : ℕ) : List UInt8 :=
  if rec.atExec mem row then rec.par.getD []
  else if rec.data row = 0 then [] else mem.drop (rec.data row)

/-- The length that is given. A terminated text at NULL has none. -/
def givenLength (rec : ParamRecord) (mem : List UInt8) (row : ℕ) : Option ℤ :=
  let length := cellAt mem (rec.lengthCell row)
  if rec.data row = 0 ∧ rec.conciseType.isText ∧ (length = none ∨ length = some sqlNts) then some 0
  else length

/-- The parameter of a row. The clock of a timestamp for a time is read at `data_ptr` as it is. -/
def boundParam (rec : ParamRecord) (env : ArrayEnv) (mem : List UInt8) (row : ℕ) : BoundParam where
  value := decodeValue env rec.conciseType (rec.memoryAt mem row)
  bufferLength := rec.octetLength
  octetLength := rec.givenLength mem row
  indicator := cellAt mem (rec.indicatorCell row)
  parLength := rec.par.map List.length
  atDataPtr := timestampAt mem rec.dataPtr
  aprecType := rec.aprecType
  iprecType := rec.iprecType
  sqlType := rec.sqlType

/-- A timestamp is written as a time. -/
def readsClock (rec : ParamRecord) : Bool :=
  rec.conciseType.isTimestamp && rec.sqlType.switchCase = .time

/-- The first byte of a text of the application is read also if the text is empty: to look for a
brace, or for a separator of a number. There is none at NULL, and none has been set in the memory
of an empty value that came at execution. -/
def readsNoHead (rec : ParamRecord) (mem : List UInt8) (row : ℕ) : Bool :=
  (rec.conciseType = .SQL_C_CHAR || rec.conciseType = .SQL_C_BINARY) &&
    match rec.sqlType.switchCase with
    | .date | .timestamp =>
      (rec.data row = 0 || rec.atExec mem row) && (rec.memoryAt mem row).isEmpty
    | .float => rec.data row = 0 && !rec.atExec mem row
    | _ => false

/-- A value at NULL is used, or a byte that has not been set. -/
def usesNull (rec : ParamRecord) (mem : List UInt8) (row : ℕ) : Bool :=
  (rec.data row = 0 && !rec.atExec mem row && !rec.conciseType.isText) ||
    (rec.dataPtr = 0 && rec.readsClock) || rec.readsNoHead mem row

/-- `insert_param` without a bind. -/
@[grind =] def insertRow (rec : ParamRecord) (env : ArrayEnv) (mem : List UInt8) (row : ℕ)
    (st : ParamBuffer) : Except Failure (Written × Bool) :=
  let p := rec.boundParam env mem row
  match p.taken with
  | .ok (.value _) =>
    if p.conversionRefused = none ∧ rec.usesNull mem row then .error .undefined
    else p.insertBoundParam env.toPathEnv false st
  | _ => p.insertBoundParam env.toPathEnv false st

end ParamRecord

end MatrixOdbc.Driver
