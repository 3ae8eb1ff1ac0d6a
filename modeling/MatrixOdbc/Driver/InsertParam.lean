import MatrixOdbc.Driver.Escape
import MatrixOdbc.Driver.ServerRows
import MatrixOdbc.Driver.WideResult

/-!
# Writing a value into a statement

The part of `insert_param` of `driver/execute.cc` that writes a text as a literal of an
SQL type, for a statement that is not prepared on the server. `get_sql_data_type`,
`copy_binhex_result` and the conversions of dates and times are those of
`driver/utility.cc`. Errors of the memory allocation are left out.
-/

namespace MatrixOdbc.Driver

/-- The concise SQL types that are told apart; `other` is any further one. -/
inductive SqlType where
  | SQL_CHAR | SQL_VARCHAR | SQL_LONGVARCHAR | SQL_WCHAR | SQL_WVARCHAR | SQL_WLONGVARCHAR
  | SQL_BINARY | SQL_VARBINARY | SQL_LONGVARBINARY
  | SQL_DATE | SQL_TYPE_DATE | SQL_TIMESTAMP | SQL_TYPE_TIMESTAMP | SQL_TIME | SQL_TYPE_TIME
  | SQL_INTERVAL_HOUR_TO_MINUTE | SQL_INTERVAL_HOUR_TO_SECOND
  | SQL_BIT | SQL_TINYINT | SQL_SMALLINT | SQL_INTEGER | SQL_BIGINT | SQL_DECIMAL
  | SQL_FLOAT | SQL_REAL | SQL_DOUBLE | SQL_UNKNOWN_TYPE | other
  deriving DecidableEq

/-- `is_binary_sql_type`. -/
def isBinarySqlType : SqlType → Bool
  | .SQL_BINARY | .SQL_VARBINARY | .SQL_LONGVARBINARY => true
  | _ => false

/-- The cases of the switch over the SQL type in `insert_param`. -/
inductive SqlTypeCase where
  | date | timestamp | binary | character | interval | time | bit | float | numeric
  deriving DecidableEq

/-- The case for a type; `numeric` is the default. -/
def SqlType.switchCase : SqlType → SqlTypeCase
  | .SQL_DATE | .SQL_TYPE_DATE => .date
  | .SQL_TIMESTAMP | .SQL_TYPE_TIMESTAMP => .timestamp
  | .SQL_BINARY | .SQL_VARBINARY | .SQL_LONGVARBINARY => .binary
  | .SQL_CHAR | .SQL_VARCHAR | .SQL_LONGVARCHAR | .SQL_WCHAR | .SQL_WVARCHAR
  | .SQL_WLONGVARCHAR => .character
  | .SQL_INTERVAL_HOUR_TO_MINUTE | .SQL_INTERVAL_HOUR_TO_SECOND => .interval
  | .SQL_TIME | .SQL_TYPE_TIME => .time
  | .SQL_BIT => .bit
  | .SQL_FLOAT | .SQL_REAL | .SQL_DOUBLE => .float
  | .SQL_TINYINT | .SQL_SMALLINT | .SQL_INTEGER | .SQL_BIGINT | .SQL_DECIMAL
  | .SQL_UNKNOWN_TYPE | .other => .numeric

/-- What `get_sql_data_type` reads of a `MYSQL_FIELD` besides type and length: the character
set is `binary`, it has characters of several bytes, the field belongs to a table, and
`NUM_FLAG`. -/
structure FieldInfo extends MysqlField where
  binaryCharset : Bool
  multiByteCharset : Bool
  ofTable : Bool
  numFlag : Bool

/-- What `get_sql_data_type` reads of the connection. -/
structure TypeOptions where
  noBinaryResult : Bool
  noBigint : Bool
  unicode : Bool
  odbc3 : Bool
  matrixOne : Bool

/-- `get_sql_data_type` without the name of the type. -/
def getSqlDataType (opts : TypeOptions) (field : FieldInfo) : SqlType :=
  let fieldIsBinary := field.binaryCharset && (field.ofTable || !opts.noBinaryResult)
  let wide := opts.unicode && field.multiByteCharset
  match field.type with
  | .bit => if 1 < field.length then .SQL_BINARY else .SQL_BIT
  | .decimal | .newdecimal => .SQL_DECIMAL
  | .tiny =>
    if field.numFlag && field.length == 1 && opts.matrixOne then .SQL_BIT
    else if field.numFlag then .SQL_TINYINT else .SQL_CHAR
  | .short => .SQL_SMALLINT
  | .int24 => .SQL_INTEGER
  | .long => .SQL_INTEGER
  | .longlong => if opts.noBigint then .SQL_INTEGER else .SQL_BIGINT
  | .float => .SQL_REAL
  | .double => .SQL_DOUBLE
  | .null => .SQL_VARCHAR
  | .year => .SQL_SMALLINT
  | .timestamp | .datetime => if opts.odbc3 then .SQL_TYPE_TIMESTAMP else .SQL_TIMESTAMP
  | .newdate | .date => if opts.odbc3 then .SQL_TYPE_DATE else .SQL_DATE
  | .time => if opts.odbc3 then .SQL_TYPE_TIME else .SQL_TIME
  | .string =>
    if fieldIsBinary then .SQL_BINARY else if opts.unicode then .SQL_WCHAR else .SQL_CHAR
  | .varchar | .varString =>
    if fieldIsBinary then .SQL_VARBINARY else if wide then .SQL_WVARCHAR else .SQL_VARCHAR
  | .tinyBlob | .blob | .mediumBlob | .longBlob =>
    if fieldIsBinary then .SQL_LONGVARBINARY
    else if wide then .SQL_WLONGVARCHAR else .SQL_LONGVARCHAR
  | .enum => .SQL_CHAR
  | .set => .SQL_CHAR
  | .geometry => .SQL_LONGVARBINARY
  | .json => if opts.unicode then .SQL_WLONGVARCHAR else .SQL_LONGVARCHAR
  | .vector => .SQL_VARBINARY

/-- `isdigit`. -/
def isdigit (c : UInt8) : Bool := 0x30 ≤ c && c ≤ 0x39

/-- The number that a list of digits stands for. -/
def digitsValue (s : List UInt8) : ℕ := s.foldl (fun n c => 10 * n + (c.toNat - 0x30)) 0

/-- `get_fractional_part` with the dot as separator: where the separator is, and the nine
digits behind it. A dot at the end is none. -/
def getFractionalPart (s : List UInt8) : Option ℕ × ℕ :=
  match s.dropWhile (· ≠ 0x2e) with
  | _ :: c :: rest =>
    let digits := ((c :: rest).takeWhile isdigit).take 9
    let buff := digits ++ List.replicate (9 - digits.length) 0x30
    (some (s.takeWhile (· ≠ 0x2e)).length, digitsValue buff)
  | _ => (none, 0)

/-- `SQL_TIMESTAMP_STRUCT`. -/
structure TimestampStruct where
  year : ℕ
  month : ℕ
  day : ℕ
  hour : ℕ
  minute : ℕ
  second : ℕ
  fraction : ℕ
  deriving DecidableEq

/-- `str_to_ts` with `zeroToMin`; with more than 14 digits nothing is stored. -/
def strToTs (s : List UInt8) : Option TimestampStruct :=
  let (decptr, fraction) := getFractionalPart s
  let digits := (s.take (decptr.getD s.length)).filter isdigit
  if 14 < digits.length then none
  else
    let century : List UInt8 :=
      if digits.length = 6 ∨ digits.length = 12 then
        if digits.headD 0 ≤ 0x36 then [0x32, 0x30] else [0x31, 0x39]
      else []
    let buff := century ++ digits
    let buff := buff ++ List.replicate (14 - buff.length) 0x30
    let field (i n : ℕ) := digitsValue ((buff.drop i).take n)
    some
      { year := field 0 4
        month := if field 4 2 = 0 then 1 else field 4 2
        day := if field 6 2 = 0 then 1 else field 6 2
        hour := field 8 2
        minute := field 10 2
        second := field 12 2
        fraction := fraction }

/-- `TIME_FIELDS_NONZERO`. -/
def TimestampStruct.timeFieldsNonzero (ts : TimestampStruct) : Bool :=
  ts.hour ≠ 0 || ts.minute ≠ 0 || ts.second ≠ 0 || ts.fraction ≠ 0

/-- The numbers in a text, each an `uint`, with the one that is being read. -/
def digitRuns : Option ℕ → List UInt8 → List ℕ
  | run, [] => run.toList
  | run, c :: s =>
    if isdigit c then digitRuns (some ((run.getD 0 * 10 + (c.toNat - 0x30)) % 2 ^ 32)) s
    else run.toList ++ digitRuns none s

/-- `str_to_time_as_long` of the numbers in a text. More than three of them are read in
groups of three; without any number the result has no defined value. -/
def timeOfRuns : List ℕ → Option ℕ
  | [] => none
  | [h] => some h
  | [h, _] => some h
  | [h, m, s] => some (if 10000 < h then h else h * 10000 + (m * 100 + s))
  | _ :: _ :: _ :: run :: runs => timeOfRuns (run :: runs)

/-- `str_to_time_as_long`. -/
def strToTimeAsLong (s : List UInt8) : Option ℕ :=
  if s = [] then some 0 else timeOfRuns (digitRuns none s)

/-- `%02d` of a number below 100. -/
def twoDigits (n : ℕ) : List UInt8 := [0x30 + UInt8.ofNat (n / 10), 0x30 + UInt8.ofNat (n % 10)]

/-- `%02d:%02d:%02d` of the parts of a time. -/
def clockText (time : ℕ) : List UInt8 :=
  twoDigits (time / 10000) ++ 0x3a :: twoDigits (time / 100 % 100) ++ 0x3a :: twoDigits (time % 100)

/-- What the writing depends on: the character set of the connection, whether the server has
`NO_BACKSLASH_ESCAPES` and `char` is signed, the separators of the locale, the options
`NO_LOCALE` and `NO_DATE_OVERFLOW`, the options of the statement and the offset that the
descriptor `apd` adds to every pointer. No locale has digits in its thousands separator. -/
structure ParamEnv where
  cs : MysqlStrings.Charset
  noBackslashEscapes : Bool
  charIsSigned : Bool
  thousandsSep : List UInt8
  decimalPoint : List UInt8
  noLocale : Bool
  noDateOverflow : Bool
  opts : StmtOptions
  bindOffset : ℕ
  isdigit_thousandsSep : ∀ c ∈ thousandsSep, isdigit c = false

namespace ParamEnv

/-- How string literals are escaped. -/
def literalMode (env : ParamEnv) : EscapeMode :=
  ⟨false, false, env.noBackslashEscapes, env.charIsSigned⟩

/-- How identifiers are read. -/
def identifierMode (env : ParamEnv) : EscapeMode :=
  ⟨true, false, env.noBackslashEscapes, env.charIsSigned⟩

/-- The thousands separator and the decimal point in a number that is a text. -/
def separators (env : ParamEnv) : List UInt8 × List UInt8 :=
  if env.noLocale then (env.thousandsSep, env.decimalPoint) else ([0x2c], [0x2e])

end ParamEnv

/-- Why nothing is returned: an error with its state and text, or a use of memory without a
defined result. -/
inductive Failure where
  | error (sqlstate message : String)
  | undefined
  deriving DecidableEq

/-- What a statement keeps between values: the text in its buffer and the offset
`getdata.src_offset`, which is `none` for `~0`. -/
structure ParamBuffer where
  buf : List UInt8
  srcOffset : Option ℕ
  deriving DecidableEq

/-- `add_to_buffer`. -/
def ParamBuffer.add (st : ParamBuffer) (text : List UInt8) : ParamBuffer :=
  { st with buf := st.buf ++ text }

/-- `_dig_vec`. -/
def hexDigit (n : ℕ) : UInt8 := UInt8.ofNat (if n < 10 then 0x30 + n else 0x37 + n)

/-- The digits for a list of bytes. -/
@[grind =] def hexText (s : List UInt8) : List UInt8 :=
  s.flatMap fun c => [hexDigit (c.toNat / 16), hexDigit (c.toNat % 16)]

/-- `copy_binhex_result` into a buffer for `2 * length + 1` bytes: the text by which the
caller moves on, and the offset. The text is `none` when it is not all written. -/
def copyBinhexResult (opts : StmtOptions) (srcOffset : Option ℕ) (src : List UInt8) :
    Option (List UInt8) × Option ℕ :=
  let cut := opts.maxLength ≠ 0
  let cbValueMax := 2 * src.length + 1
  let cbValueMax := if cut then min cbValueMax (opts.maxLength + 1) else cbValueMax
  let src := if cut then src.take ((opts.maxLength + 1) / 2) else src
  match srcOffset with
  | some offset =>
    if src.length ≤ offset then (some [], srcOffset) else rest opts cbValueMax offset src
  | none => rest opts cbValueMax 0 src
where
  /-- The function behind the check of the offset. -/
  rest (opts : StmtOptions) (cbValueMax offset : ℕ) (src : List UInt8) :
      Option (List UInt8) × Option ℕ :=
    let src := src.drop offset
    let length := min src.length ((cbValueMax - 1) / 2)
    (if !opts.retrieveData then some []
      else if length = src.length then some (hexText src) else none,
      some (offset + length))

/-- `_binary`. -/
def binaryIntroducer : List UInt8 := [0x5f, 0x62, 0x69, 0x6e, 0x61, 0x72, 0x79]

/-- ` 0x`. -/
def hexPrefix : List UInt8 := [0x20, 0x30, 0x78]

/-- The end of `insert_param`: the value as a hexadecimal or as a quoted literal. -/
@[grind =]
def putQuoted (env : ParamEnv) (sqlType : SqlType) (data : List UInt8) (st : ParamBuffer) :
    Except Failure ParamBuffer :=
  if env.noBackslashEscapes && isBinarySqlType sqlType then
    let out := copyBinhexResult env.opts st.srcOffset data
    match out.1 with
    | some text => .ok ⟨st.buf ++ hexPrefix ++ text, out.2⟩
    | none => .error .undefined
  else
    match myodbcEscapeString env.cs env.literalMode (data.length * 2 + 1) data with
    | some (text, false) => .ok (st.add (0x27 :: text ++ [0x27]))
    | _ => .error .undefined

/-- The loop that takes the separators of the locale out of a number. -/
@[grind =] def cleanNumber (thousandsSep decimalPoint : List UInt8) : ℕ → List UInt8 → List UInt8
  | 0, _ => []
  | _, [] => []
  | fuel + 1, c :: s =>
    if c = 0 then []
    else if thousandsSep ≠ [] ∧ thousandsSep.isPrefixOf (c :: s) then
      cleanNumber thousandsSep decimalPoint fuel ((c :: s).drop thousandsSep.length)
    else if decimalPoint ≠ [] ∧ decimalPoint.isPrefixOf (c :: s) then
      0x2e :: cleanNumber thousandsSep decimalPoint fuel ((c :: s).drop decimalPoint.length)
    else c :: cleanNumber thousandsSep decimalPoint fuel s

/-- The text of a number as it is written. -/
@[grind =] def numberText (env : ParamEnv) (data : List UInt8) : List UInt8 :=
  match cleanNumber env.separators.1 env.separators.2 data.length data with
  | [] => [0x30]
  | text => text

/-- `sizeof(buff)`. -/
def sizeofBuff : ℕ := 128

/-- The check of a date for a time of the day. -/
def checkDateOverflow (env : ParamEnv) (data : List UInt8) : Except Failure Unit :=
  if env.noDateOverflow then .ok ()
  else
    match strToTs data with
    | none => .error .undefined
    | some ts => if ts.timeFieldsNonzero then .error (.error "22008" "Date overflow") else .ok ()

/-- The text of a time as it is written. -/
def timeLiteral (data : List UInt8) : Except Failure (List UInt8) :=
  if (getFractionalPart data).2 ≠ 0 then .error (.error "22008" "Fractional truncation")
  else
    match strToTimeAsLong data with
    | none => .error .undefined
    | some time =>
      if 23 < time / 10000 then .error (.error "22008" "Not a valid time value supplied")
      else .ok (0x27 :: clockText time ++ [0x27])

/-- `insert_param` from the value as a text on, by the SQL type. `convert` is set for a
value that the application has as a text; its C type is no interval and no timestamp. -/
def insertText (env : ParamEnv) (sqlType : SqlType) (convert : Bool) (data : List UInt8)
    (st : ParamBuffer) : Except Failure ParamBuffer :=
  match sqlType.switchCase with
  | .date =>
    if data.head? = some 0x7b then .ok (st.add data)
    else do
      checkDateOverflow env data
      putQuoted env sqlType data (st.add binaryIntroducer)
  | .timestamp =>
    if data.head? = some 0x7b then .ok (st.add data)
    else putQuoted env sqlType data (st.add binaryIntroducer)
  | .binary => putQuoted env sqlType data (st.add binaryIntroducer)
  | .character => putQuoted env sqlType data st
  -- an error is recorded, and the result is a success
  | .interval => .ok st
  | .time => do
    let text ← timeLiteral data
    pure (st.add text)
  | .bit => .ok (if convert then st else st.add (data.take 1))
  | .float =>
    if convert then
      let text := numberText env data
      if sizeofBuff < text.length then .error .undefined else .ok (st.add text)
    else .ok (st.add data)
  | .numeric => if convert then putQuoted env sqlType data st else .ok (st.add data)

/-- `insert_param` of a value of the type `SQL_C_CHAR`, with its length, at pointers that
lead to the value and its length unless the descriptor moves them. -/
def insertParam (env : ParamEnv) (sqlType : SqlType) (data : List UInt8) (st : ParamBuffer) :
    Except Failure ParamBuffer :=
  if env.bindOffset ≠ 0 then .error .undefined else insertText env sqlType true data st

end MatrixOdbc.Driver
