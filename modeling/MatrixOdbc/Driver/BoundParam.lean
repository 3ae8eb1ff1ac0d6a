import MatrixOdbc.Driver.DataAtExec
import MatrixOdbc.Driver.InsertParam
import MatrixOdbc.Driver.OutParams
import MatrixOdbc.Driver.QueryAttributes
import MatrixOdbc.Foundations.Decimal
import MatrixOdbc.Util.UnicodeTranscode

/-!
# Parameters of any type

`insert_param` of `driver/execute.cc` for a value of any C type, on both of its paths: with
a `MYSQL_BIND` of a statement that is prepared on the server, and without one. The pointers of
the records are taken as resolved. The texts of floating-point numbers and of
`SQL_NUMERIC_STRUCT` are taken as given; neither path has a part in them.
-/

namespace MatrixOdbc.Driver

open Util

/-- `DATE_STRUCT`. -/
structure CDate where
  year : ℤ
  month : ℕ
  day : ℕ

/-- `TIME_STRUCT`. -/
structure CTime where
  hour : ℕ
  minute : ℕ
  second : ℕ

/-- `TIMESTAMP_STRUCT`. -/
structure CTimestamp where
  date : CDate
  time : CTime
  fraction : ℕ

/-- What `sqlnum_to_str` makes of an `SQL_NUMERIC_STRUCT`. -/
inductive NumericText where
  | exact (text : List UInt8)
  /-- `SQLNUM_TRUNC_FRAC`. -/
  | truncFrac (text : List UInt8)
  /-- `SQLNUM_TRUNC_WHOLE`. -/
  | truncWhole

/-- A value by its C type, with the memory that may be read of a text. The integers of all
sizes are in `signed` and `unsigned`; a bit is signed. -/
inductive CValue where
  | SQL_C_CHAR (memory : List UInt8)
  | SQL_C_BINARY (memory : List UInt8)
  | SQL_C_WCHAR (memory : List SQLWCHAR)
  | signed (value : Int64)
  | unsigned (value : UInt64)
  /-- `SQL_C_FLOAT` and `SQL_C_DOUBLE`. -/
  | floating (text : List UInt8)
  | SQL_C_DATE (date : CDate)
  | SQL_C_TIME (time : CTime)
  | SQL_C_TIMESTAMP (timestamp : CTimestamp)
  | SQL_C_NUMERIC (number : NumericText)
  | SQL_C_INTERVAL_HOUR_TO_MINUTE (hour minute : ℕ)
  | SQL_C_INTERVAL_HOUR_TO_SECOND (hour minute second : ℕ)
  /-- The other types of intervals. -/
  | otherInterval
  | SQL_C_DEFAULT
  | other

namespace CValue

/-- The type is one of the intervals that are supported. -/
def isHourInterval : CValue → Bool
  | SQL_C_INTERVAL_HOUR_TO_MINUTE .. | SQL_C_INTERVAL_HOUR_TO_SECOND .. => true
  | _ => false

/-- The type is `SQL_C_WCHAR`. -/
def isWide : CValue → Bool
  | SQL_C_WCHAR _ => true
  | _ => false

/-- The type is `SQL_C_CHAR`. -/
def isChar : CValue → Bool
  | SQL_C_CHAR _ => true
  | _ => false

end CValue

/-- The verbose types that `check_c2sql_conversion_supported` tells apart. -/
inductive VerboseType where
  | SQL_DATETIME | SQL_INTERVAL | other
  deriving DecidableEq

/-- A parameter as its records show it. `value` is the value that is taken, the one at the
bound address or the one that came at execution. -/
structure BoundParam where
  value : CValue
  /-- `aprec->octet_length`. -/
  bufferLength : ℤ
  /-- The values behind `octet_length_ptr` and `indicator_ptr`. -/
  octetLength : Option ℤ
  indicator : Option ℤ
  /-- `par.val_length()`, if there is a `par.val()`. -/
  parLength : Option ℕ
  /-- What is read at `aprec->data_ptr` as a `TIMESTAMP_STRUCT`. -/
  atDataPtr : CTimestamp
  aprecType : VerboseType
  iprecType : VerboseType
  sqlType : SqlType

/-- What the two paths depend on besides `ParamEnv`: whether the connection has the character
set utf8 and the server one of four bytes, the option `MIN_DATE_TO_ZERO`, `setpos_op`, the
local buffer before the call, the memory that is allocated for a size, and whether the bind
has a buffer. -/
structure PathEnv extends ParamEnv where
  utf8Charset : Bool
  utf8mb4Server : Bool
  minDateToZero : Bool
  setposOp : ℕ
  stack : List UInt8
  malloc : ℕ → Option (List UInt8)
  bufferAllocated : Bool

/-- What the length and the indicator ask for. -/
inductive Taken where
  | null
  | default
  | value (length : ℤ)

namespace BoundParam

/-- The length of a value that is terminated; without a terminator it has none. For types
without a text the length is not used. -/
def terminatedLength : CValue → Except Failure ℤ
  | .SQL_C_CHAR memory | .SQL_C_BINARY memory =>
    if 0 ∈ memory then .ok (memory.takeWhile (· ≠ 0)).length else .error .undefined
  | .SQL_C_WCHAR memory =>
    if 0 ∈ memory then .ok (2 * sqlwcharlen memory) else .error .undefined
  | _ => .ok 0

/-- The beginning of `insert_param`. -/
def taken (p : BoundParam) : Except Failure Taken :=
  if p.indicator = some sqlNullData then .ok .null
  else if p.octetLength = none then do
    let length ← terminatedLength p.value
    pure (.value (if 0 < p.bufferLength then min length p.bufferLength else length))
  else if p.octetLength = some sqlNts then do
    let length ← terminatedLength p.value
    pure (.value length)
  else if p.octetLength = some sqlColumnIgnore ∨
      (p.octetLength = some 0 ∧ p.value matches .SQL_C_DEFAULT ∧ p.parLength = none) then
    .ok .default
  else if p.octetLength.any fun n => n = sqlDataAtExec ∨ n ≤ sqlLenDataAtExecOffset then
    match p.parLength with
    | none => .ok .default
    | some length => .ok (.value length)
  else .ok (.value (p.octetLength.getD 0))

/-- `check_c2sql_conversion_supported`: the message of its error. -/
def conversionRefused (p : BoundParam) : Option String :=
  if (p.aprecType = .SQL_DATETIME ∧ p.iprecType = .SQL_INTERVAL) ∨
      (p.aprecType = .SQL_INTERVAL ∧ p.iprecType = .SQL_DATETIME) then
    some "Conversion is not supported"
  else
    match p.value with
    | .otherInterval => some "Conversion is not supported by driver"
    | _ => none

end BoundParam

/-- `%0nd`. -/
def zeroPadded (width : ℕ) (n : ℤ) : List UInt8 :=
  let digits := Decimal.text n.natAbs
  if n < 0 then 0x2d :: (List.replicate (width - 1 - digits.length) 0x30 ++ digits)
  else List.replicate (width - digits.length) 0x30 ++ digits

/-- `%02d:%02d:%02d`. -/
def CTime.text (time : CTime) : List UInt8 :=
  zeroPadded 2 time.hour ++ 0x3a :: zeroPadded 2 time.minute ++ 0x3a :: zeroPadded 2 time.second

/-- `%04d-%02d-%02d`, or zeros for the smallest date. -/
def CDate.text (minDateToZero : Bool) (date : CDate) : List UInt8 :=
  if minDateToZero ∧ date.year = 0 ∧ date.month = 1 ∧ date.day = 1 then
    zeroPadded 4 0 ++ 0x2d :: zeroPadded 2 0 ++ 0x2d :: zeroPadded 2 0
  else zeroPadded 4 date.year ++ 0x2d :: zeroPadded 2 date.month ++ 0x2d :: zeroPadded 2 date.day

/-- A fraction of a second: nine digits at most, without the zeros behind them. -/
def fractionText (fraction : ℕ) : List UInt8 :=
  if fraction = 0 then []
  else 0x2e :: (((zeroPadded 9 fraction).take 9).reverse.dropWhile (· = 0x30)).reverse

/-- The text of a date with a time. -/
def CTimestamp.text (minDateToZero : Bool) (timestamp : CTimestamp) : List UInt8 :=
  timestamp.date.text minDateToZero ++ 0x20 :: timestamp.time.text ++ fractionText timestamp.fraction

/-- The text of an interval. -/
def intervalText (hour minute second : ℕ) : List UInt8 :=
  Decimal.text hour ++ 0x3a :: zeroPadded 2 minute ++ 0x3a :: zeroPadded 2 second

/-- The text in quotes. -/
def inQuotes (text : List UInt8) : List UInt8 := 0x27 :: text ++ [0x27]

/-- The memory from `data` on with `length`, and whether a fraction was lost. -/
structure ParamText where
  memory : List UInt8
  length : ℕ
  truncated : Bool

namespace ParamText

/-- The bytes that belong to the value. -/
def text (data : ParamText) : List UInt8 := data.memory.take data.length

/-- A text that has been printed into the local buffer. -/
def printed (text : List UInt8) : ParamText := ⟨text ++ [0], text.length, false⟩

end ParamText

/-- An error without a diagnostic. -/
def Failure.undiagnosed : Failure := .error "" ""

/-- The memory for a length, which must be there. -/
def readMemory (memory : List UInt8) (length : ℤ) : Except Failure ParamText :=
  if length < 0 ∨ memory.length < length then .error .undefined
  else .ok ⟨memory, length.toNat, false⟩

/-- `convert_c_type2str`, and the text itself for the types `SQL_C_CHAR` and `SQL_C_BINARY`.
Intervals have quotes unless the statement is prepared on the server. -/
def convertCType2str (env : PathEnv) (sspsUsed : Bool) (value : CValue) (length : ℤ) :
    Except Failure ParamText :=
  let interval (text : List UInt8) := .ok (.printed (if sspsUsed then text else inQuotes text))
  match value with
  | .SQL_C_CHAR memory | .SQL_C_BINARY memory => readMemory memory length
  | .SQL_C_WCHAR memory =>
    if length < 0 ∨ 2 * memory.length < length then .error .undefined
    else
      match sqlwcharAsUtf8Ext env.malloc (some memory) (some (length / 2)) (some env.stack)
        sizeofBuff false with
      | none => .error .undefined
      | some result =>
        if result.utf8mb4Used && !env.utf8mb4Server then
          .error (.error "HY000" "Server does not support 4-byte encoded UTF8 characters.")
        else
          match result.u8 with
          | none => .error (.error "HY001" "Memory allocation error")
          | some u8 => .ok ⟨u8, result.len.toNat, false⟩
  | .signed value => .ok (.printed (Decimal.signedText value.toInt))
  | .unsigned value => .ok (.printed (Decimal.text value.toNat))
  | .floating text => .ok (.printed text)
  | .SQL_C_DATE date => .ok (.printed (date.text env.minDateToZero))
  | .SQL_C_TIME time =>
    if 23 < time.hour then .error (.error "22008" "Not a valid time value supplied")
    else .ok (.printed time.text)
  | .SQL_C_TIMESTAMP timestamp => .ok (.printed (timestamp.text env.minDateToZero))
  | .SQL_C_NUMERIC (.exact text) => .ok (.printed text)
  | .SQL_C_NUMERIC (.truncFrac text) => .ok { ParamText.printed text with truncated := true }
  | .SQL_C_NUMERIC .truncWhole => .error .undiagnosed
  | .SQL_C_INTERVAL_HOUR_TO_MINUTE hour minute => interval (intervalText hour minute 0)
  | .SQL_C_INTERVAL_HOUR_TO_SECOND hour minute second => interval (intervalText hour minute second)
  | .otherInterval | .SQL_C_DEFAULT | .other =>
    .error (.error "07006" "Conversion is not supported")

/-- The variable `convert`: the application has the value as a text. -/
def CValue.convert : CValue → Bool
  | .SQL_C_CHAR _ | .SQL_C_BINARY _ => true
  | _ => false

/-- `is_ts_char`. -/
def isTsChar (c : UInt8) : Bool := isdigit c || c == 0x2d || c == 0x3a

/-- `get_date_time_substr`: the text from its first to its last such byte, if it has one. -/
def getDateTimeSubstr (text : List UInt8) : Option (List UInt8) :=
  match text.dropWhile (!isTsChar ·) with
  | [] => none
  | front => some (front.reverse.dropWhile (!isTsChar ·)).reverse

/-- `atoi`. A number that goes on to the end of the memory or is no `int` has no value. -/
def atoi (memory : List UInt8) : Option ℤ :=
  let s := memory.dropWhile isspaceByte
  let negative := s.head? = some 0x2d
  let s := if s.head? = some 0x2d ∨ s.head? = some 0x2b then s.tail else s
  let n : ℤ := digitsValue (s.takeWhile isdigit)
  let n := if negative then -n else n
  if s.dropWhile isdigit = [] ∨ n < -2 ^ 31 ∨ 2 ^ 31 ≤ n then none else some n

/-- The text of a time from a text; the checks are those of `timeLiteral`. -/
def timeText (data : List UInt8) : Except Failure (List UInt8) :=
  if (getFractionalPart data).2 ≠ 0 then .error (.error "22008" "Fractional truncation")
  else
    match strToTimeAsLong data with
    | none => .error .undefined
    | some time =>
      if 23 < time / 10000 then .error (.error "22008" "Not a valid time value supplied")
      else .ok (clockText time)

/-- The text of a time from a `TIMESTAMP_STRUCT`. -/
def CTimestamp.timeText (timestamp : CTimestamp) : Except Failure (List UInt8) :=
  if 23 < timestamp.time.hour then .error (.error "22008" "Not a valid time value supplied")
  else if timestamp.fraction ≠ 0 then .error (.error "22008" "Fractional truncation")
  else .ok timestamp.time.text

/-- What has been done to the bind, and the buffer of the statement. -/
structure Written where
  effect : BindEffect
  st : ParamBuffer

namespace Written

/-- The text is bound with `MYSQL_TYPE_STRING`. -/
def bound (text : List UInt8) (st : ParamBuffer) : Written := ⟨.value (.text text), st⟩

/-- The text is in the buffer. -/
def literal (text : List UInt8) (st : ParamBuffer) : Written := ⟨.untouched, st.add text⟩

end Written

/-- `put_param_value`. -/
def putParamValue (server : Bool) (text : List UInt8) (st : ParamBuffer) : Written :=
  if server then .bound text st else .literal text st

/-- The end of `insert_param`. -/
def putLast (env : PathEnv) (server : Bool) (sqlType : SqlType) (text : List UInt8)
    (st : ParamBuffer) : Except Failure Written :=
  if server && env.setposOp == 0 then .ok (.bound text st)
  else (putQuoted env.toParamEnv sqlType text st).map fun st => ⟨.untouched, st⟩

/-- A text of a date or a binary type; only a literal has the introducer. -/
def putIntroduced (env : PathEnv) (server : Bool) (sqlType : SqlType) (text : List UInt8)
    (st : ParamBuffer) : Except Failure Written :=
  putLast env server sqlType text (if server then st else st.add binaryIntroducer)

/-- A text that begins with a brace for a type of dates. A bind without a buffer is taken for
one that has the text already when the text has no date. -/
def putBrace (env : PathEnv) (server : Bool) (text : List UInt8) (st : ParamBuffer) : Written :=
  if server then
    match getDateTimeSubstr text with
    | some date => .bound date st
    | none => if env.bufferAllocated then .bound [] st else ⟨.untouched, st⟩
  else .literal text st

namespace BoundParam

/-- A character type whose value is bound with `MYSQL_TYPE_BLOB`. -/
def bindsBlob (p : BoundParam) (env : PathEnv) : Bool :=
  (p.value.isWide && !env.utf8Charset) || (!p.value.isWide && !p.value.isChar)

/-- The time that is written. -/
def timeOf (p : BoundParam) (data : ParamText) : Except Failure (List UInt8) :=
  match p.value with
  | .SQL_C_TIMESTAMP _ => p.atDataPtr.timeText
  | _ => timeText data.text

/-- `insert_param` from the value as a text on. `server` tells that there is a bind. -/
def insertText (p : BoundParam) (env : PathEnv) (server : Bool) (data : ParamText)
    (st : ParamBuffer) : Except Failure Written :=
  match p.sqlType.switchCase with
  | .date =>
    if data.memory.head? = some 0x7b then .ok (putBrace env server data.text st)
    else do
      checkDateOverflow env.toParamEnv data.text
      putIntroduced env server p.sqlType data.text st
  | .timestamp =>
    if data.memory.head? = some 0x7b then .ok (putBrace env server data.text st)
    else putIntroduced env server p.sqlType data.text st
  | .binary => putIntroduced env server p.sqlType data.text st
  | .character =>
    if server && p.bindsBlob env then .ok ⟨.value (.blob data.text), st⟩
    else putLast env server p.sqlType data.text st
  -- an error is recorded for another type, and the result is a success
  | .interval =>
    .ok (if p.value.isHourInterval then putParamValue server data.text st else ⟨.untouched, st⟩)
  | .time =>
    (p.timeOf data).map fun time =>
      putParamValue server (if server then time else inQuotes time) st
  | .bit =>
    if server then
      match atoi data.memory with
      | none => .error .undefined
      | some n => .ok ⟨.value (.tiny (if n ≠ 0 then 1 else 0)), st⟩
    else .ok (.literal (if p.value.convert then [] else data.memory.take 1) st)
  | .float =>
    if p.value.convert then
      let number := numberText env.toParamEnv data.text
      if sizeofBuff < number.length then .error .undefined
      else .ok (putParamValue server number st)
    else .ok (putParamValue server data.text st)
  | .numeric =>
    if p.value.convert then putLast env server p.sqlType data.text st
    else .ok (putParamValue server data.text st)

/-- `NULL` and `DEFAULT`. -/
def nullText : List UInt8 := [0x4e, 0x55, 0x4c, 0x4c]
@[inherit_doc nullText] def defaultText : List UInt8 := [0x44, 0x45, 0x46, 0x41, 0x55, 0x4c, 0x54]

/-- `insert_param`, with a bind of a statement that is prepared on the server or without one.
The flag tells `SQL_SUCCESS_WITH_INFO`. -/
def insertBoundParam (p : BoundParam) (env : PathEnv) (server : Bool) (st : ParamBuffer) :
    Except Failure (Written × Bool) := do
  match ← p.taken with
  | .null => pure (if server then ⟨.null, st⟩ else .literal nullText st, false)
  | .default => pure (if server then ⟨.null, st⟩ else .literal defaultText st, false)
  | .value length =>
    match p.conversionRefused with
    | some message => .error (.error "07006" message)
    | none => do
      let data ← convertCType2str env server p.value length
      let written ← p.insertText env server data st
      pure (written, data.truncated)

end BoundParam

end MatrixOdbc.Driver
