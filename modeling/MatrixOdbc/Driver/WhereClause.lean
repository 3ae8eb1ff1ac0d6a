import MatrixOdbc.Driver.Literal
import MatrixOdbc.Driver.UniqueKey

/-!
# The WHERE clause of a positioned statement

`insert_field_std`, `insert_pk_fields_std`, `append_all_fields_std` and
`build_where_clause_std` of `driver/cursor.cc`. What the server answers, the current row
and the text that `ssps_get_string` makes of a value are given.
-/

namespace MatrixOdbc.Driver

/-- A value of the current row: its text at the server, the text that `ssps_get_string`
writes for it into a local array, and what stands behind the value in the buffer of its
column, up to the next NUL. -/
structure RowValue where
  bytes : List UInt8
  converted : List UInt8
  behind : List UInt8
  converted_ascii : ∀ c ∈ converted, c < 0x80 ∧ c ≠ 0

/-- A column of the result set with its value in the current row. Times and floating-point
numbers have no other text than the one that is given; the text of a number is one, and it
is shorter than its buffer. -/
structure CurrentColumn where
  field : FieldInfo
  orgName : List UInt8
  orgTable : List UInt8
  value : Option RowValue
  converted_eq : field.type = .time ∨ field.type = .float ∨ field.type = .double →
    ∀ v ∈ value, v.converted = v.bytes
  isNumber_bytes : field.type = .float ∨ field.type = .double →
    ∀ v ∈ value, isNumber v.bytes = true ∧ v.behind = []

/-- A column of the table, as `SELECT *` lists it. -/
structure TableField where
  name : List UInt8
  type : EnumFieldTypes

/-- What a call reads: the connection and the statement, the current row if there is one, the
arguments, and the answers of the server to `SHOW KEYS` and to `SELECT *` from a table. -/
structure WhereCall where
  env : ParamEnv
  types : TypeOptions
  sspsUsed : Bool
  nativeFloatingPoint : Bool
  columns : Option (List CurrentColumn)
  irow : ℕ
  arraySize : ℕ
  listing : Option (List KeyRow)
  cursor : KeyCursor
  tableName : List UInt8
  tableFields : List UInt8 → Option (List TableField)
  tableFields_ne_nil : ∀ table, tableFields table ≠ some []

/-- The text of a number. -/
def decimalText (n : ℕ) : List UInt8 := (Nat.toDigits 10 n).map fun d => UInt8.ofNat d.toNat

/-- ` WHERE `. -/
def whereText : List UInt8 := [0x20, 0x57, 0x48, 0x45, 0x52, 0x45, 0x20]

/-- ` AND `. -/
def andText : List UInt8 := [0x20, 0x41, 0x4e, 0x44, 0x20]

/-- ` IS NULL`. -/
def isNullText : List UInt8 := [0x20, 0x49, 0x53, 0x20, 0x4e, 0x55, 0x4c, 0x4c]

/-- What `myodbc_append_quoted_name_std` appends. -/
def quotedName (name : List UInt8) : List UInt8 := 0x60 :: name ++ [0x60]

/-- The text in front of the first NUL. -/
def cStringOf (s : List UInt8) : List UInt8 := s.takeWhile (· ≠ 0)

namespace WhereCall

/-- ` LIMIT ` and a number. -/
def limitText (call : WhereCall) : List UInt8 :=
  [0x20, 0x4c, 0x49, 0x4d, 0x49, 0x54, 0x20] ++
    if call.irow = 0 then decimalText call.arraySize else [0x31]

/-- `get_string`, or the value of a stored row: the memory at the pointer up to a NUL behind
the value, or `NULL`. -/
def getString (call : WhereCall) (column : CurrentColumn) : Option (List UInt8) :=
  column.value.bind fun v =>
    if !call.sspsUsed then some v.bytes
    else
      let bound := allocateBufferForField column.field.toMysqlField call.nativeFloatingPoint
      match bound.1 with
      | .timestamp | .datetime | .date | .time | .bit | .year | .tiny | .short | .int24 | .long
      | .longlong | .float | .double => some v.converted
      | _ => if bound.2 = 0 then none else some (v.bytes ++ v.behind)

/-- `insert_field_std`, on the clause so far and the buffer of the statement. -/
def insertField (call : WhereCall) (column : CurrentColumn) (str : List UInt8) (st : ParamBuffer) :
    Except Failure (List UInt8 × ParamBuffer) :=
  match call.getString column with
  | some text => do
    let st ← insertParam call.env (getSqlDataType call.types column.field) (cStringOf text) st
    let st := st.add andText
    pure (str ++ st.buf, { st with buf := [] })
  | none => pure (str.dropLast ++ isNullText ++ andText, st)

/-- The column is one of the key. -/
def inKey (pkcol : List (List UInt8)) (column : CurrentColumn) : Bool :=
  pkcol.any (strcaseEq · column.orgName)

/-- The loop of `insert_pk_fields_std`, with the number of columns found. -/
def insertPkLoop (call : WhereCall) (pkcol : List (List UInt8)) : List CurrentColumn →
    List UInt8 → ParamBuffer → ℕ → Except Failure (List UInt8 × ParamBuffer × ℕ)
  | [], str, st, pkCount => pure (str, st, pkCount)
  | column :: columns, str, st, pkCount =>
    if inKey pkcol column then do
      let p ← call.insertField column (str ++ quotedName column.orgName ++ [0x3d]) st
      insertPkLoop call pkcol columns p.1 p.2 (pkCount + 1)
    else insertPkLoop call pkcol columns str st pkCount

/-- `insert_pk_fields_std`. -/
def insertPkFields (call : WhereCall) (columns : List CurrentColumn) (pkcol : List (List UInt8))
    (str : List UInt8) (st : ParamBuffer) : Except Failure (List UInt8 × ParamBuffer) := do
  let p ← call.insertPkLoop pkcol columns str st 0
  if p.2.2 ≠ pkcol.length then
    throw (.error "HY000"
      "Not all components of primary key are available, so row to modify cannot be identified")
  else pure (p.1, p.2.1)

/-- `find_used_table`. -/
def findUsedTable (call : WhereCall) : List CurrentColumn → Option (List UInt8)
  | [] => if call.tableName = [] then none else some call.tableName
  | column :: columns =>
    if call.tableName ≠ [] then some call.tableName
    else if columns.all fun c => c.orgTable = column.orgTable then some column.orgTable
    else none

/-- What the caller reports when the fields cannot be appended. -/
def insertFieldsFailed : Failure := .error "HY000" "Build WHERE -> insert_fields() failed."

/-- The column of the result set with the name of a column of the table. -/
def findColumn (columns : List CurrentColumn) (tableField : TableField) : Option CurrentColumn :=
  columns.find? fun column => column.orgName = tableField.name

/-- The loop of `append_all_fields_std` over the columns of the table. -/
def appendAllLoop (call : WhereCall) (columns : List CurrentColumn) : List TableField →
    List UInt8 → ParamBuffer → Except Failure (List UInt8 × ParamBuffer)
  | [], str, st => pure (str, st)
  | tableField :: tableFields, str, st =>
    if tableField.type = .float ∨ tableField.type = .double ∨ tableField.type = .decimal then
      throw (.error "HY000" "Invalid use of floating point comparision in positioned operations")
    else
      match findColumn columns tableField with
      | some column => do
        let p ← call.insertField column (str ++ quotedName tableField.name ++ [0x3d]) st
        appendAllLoop call columns tableFields p.1 p.2
      | none => throw insertFieldsFailed

/-- `append_all_fields_std`. The query for the columns resets the buffer. -/
def appendAllFields (call : WhereCall) (columns : List CurrentColumn) (str : List UInt8)
    (st : ParamBuffer) : Except Failure (List UInt8 × ParamBuffer) :=
  match (call.findUsedTable columns).bind call.tableFields with
  | none => throw insertFieldsFailed
  | some tableFields =>
    if tableFields.length ≠ columns.length then throw insertFieldsFailed
    else call.appendAllLoop columns tableFields str { st with buf := [] }

/-- `check_if_usable_unique_key_exists` for the columns. -/
def checkKey (call : WhereCall) (columns : List CurrentColumn) : Bool × KeyCursor :=
  checkIfUsableUniqueKeyExists (columns.map (·.orgName)) call.listing call.cursor

/-- The terms of the clause, by the key or for all columns. -/
def insertTerms (call : WhereCall) (columns : List CurrentColumn) (str : List UInt8)
    (st : ParamBuffer) : Except Failure (List UInt8 × ParamBuffer) :=
  if (call.checkKey columns).1 then
    call.insertPkFields columns (call.checkKey columns).2.pkcol str st
  else
    match call.appendAllFields columns str st with
    | .error (.error _ _) => throw insertFieldsFailed
    | result => result

/-- `build_where_clause_std`. Without a current row there is no clause, and `SQL_NO_DATA` is
returned. -/
def buildWhereClause (call : WhereCall) (str : List UInt8) (st : ParamBuffer) :
    Except Failure (Option (List UInt8 × ParamBuffer)) :=
  match call.columns with
  | none => pure none
  | some columns => do
    let p ← call.insertTerms columns (str ++ whereText) st
    -- the last ` AND ` is removed
    let str := if 5 < p.1.length then p.1.take (p.1.length - 5) else p.1
    pure (some (str ++ call.limitText, p.2))

/-- The columns of the current row that the clause is about. -/
def usedColumns (call : WhereCall) (columns : List CurrentColumn) : List CurrentColumn :=
  if (call.checkKey columns).1 then
    columns.filter (inKey (call.checkKey columns).2.pkcol)
  else
    (((call.findUsedTable columns).bind call.tableFields).getD []).filterMap (findColumn columns)

end WhereCall

/-- A term of a clause: a column and its value, or `none` for `IS NULL`. -/
structure Term where
  name : List UInt8
  value : Option (List UInt8)
  deriving DecidableEq

/-- The row, given by its values, satisfies the term. -/
def Term.Holds (term : Term) (row : List UInt8 → Option (List UInt8)) : Prop :=
  row term.name = term.value

/-- The value of a column in the current row. -/
def CurrentColumn.bytes (column : CurrentColumn) : Option (List UInt8) :=
  column.value.map RowValue.bytes

/-- The term for a column of the current row. -/
def CurrentColumn.term (column : CurrentColumn) : Term := ⟨column.orgName, column.bytes⟩

/-- The server reads a term at the front of the text. -/
def ReadsTerm (env : ParamEnv) (term : Term) (text rest : List UInt8) : Prop :=
  ∃ name after, text = 0x60 :: name ∧
    QuotedText.Reads (mysqlDialect env.cs env.identifierMode) name term.name after ∧
    match term.value with
    | none => after = isNullText ++ rest
    | some value => ∃ literal, after = 0x3d :: literal ∧
        ReadsLiteral env.cs env.literalMode literal value rest

/-- The server reads the conjunction of the terms. -/
def ReadsConjunction (env : ParamEnv) (rest : List UInt8) : List Term → List UInt8 → Prop
  | [], _ => False
  | [term], text => ReadsTerm env term text rest
  | term :: term' :: terms, text =>
    ∃ text', ReadsTerm env term text (andText ++ text') ∧
      ReadsConjunction env rest (term' :: terms) text'

namespace WhereCall

/-- Behind the statement there is a clause with a term for each used column that has the
value of the current row, so that a row satisfies the terms exactly when it has the values
of the current row in all these columns. -/
def ClauseFaithful (call : WhereCall) (columns : List CurrentColumn) (query clause : List UInt8) :
    Prop :=
  ∃ terms text, clause = query ++ whereText ++ text ∧
    ReadsConjunction call.env call.limitText terms text ∧
    terms = (call.usedColumns columns).map CurrentColumn.term ∧
    ∀ row, (∀ term ∈ terms, term.Holds row) ↔
      ∀ column ∈ call.usedColumns columns, row column.orgName = column.bytes

/-- The clause that is built is faithful. Nothing is said about a call that fails with an
error or without a current row. -/
def BuildsFaithful (call : WhereCall) (query : List UInt8) (srcOffset : Option ℕ) : Prop :=
  match call.buildWhereClause query ⟨[], srcOffset⟩ with
  | .ok result => ∀ p ∈ result, ∀ columns ∈ call.columns, call.ClauseFaithful columns query p.1
  | .error failure => failure ≠ .undefined

/-- The call fails with an error. -/
def Refused (call : WhereCall) (query : List UInt8) (srcOffset : Option ℕ) : Prop :=
  ∃ sqlstate message,
    call.buildWhereClause query ⟨[], srcOffset⟩ = .error (.error sqlstate message)

end WhereCall

/-- A place of a name that stands between backquotes as it is. -/
def PlainAt (cs : MysqlStrings.Charset) : List UInt8 → Prop
  | [] => True
  | c :: s => mbLen cs (c :: s) = 0 → c ≠ 0x60 ∧ c ≠ 0 ∧ (s = [] → mbLen cs [c, 0x60] = 0)

/-- A name in which no backquote ends the identifier. -/
def PlainName (cs : MysqlStrings.Charset) (name : List UInt8) : Prop :=
  ∀ n, PlainAt cs ((advance cs)^[n] name)

/-- The term for the column is sound: its name is plain, and a value is taken over in full and
written as a sound literal. -/
def SoundColumn (call : WhereCall) (offset : Option ℕ) (column : CurrentColumn) : Prop :=
  PlainName call.env.cs column.orgName ∧ ∀ v ∈ column.value,
    call.env.bindOffset = 0 ∧ ∃ text ∈ call.getString column,
      SoundLiteral call.env offset (cStringOf text) v.bytes
        (getSqlDataType call.types column.field).switchCase

/-- The offset that the term for a column leaves behind. -/
def columnOffset (call : WhereCall) (offset : Option ℕ) (column : CurrentColumn) : Option ℕ :=
  match call.getString column with
  | some text =>
    offsetAfter call.env offset (cStringOf text) (getSqlDataType call.types column.field).switchCase
  | none => offset

/-- All terms are sound, each with the offset that those in front of it leave behind. -/
def SoundColumns (call : WhereCall) : Option ℕ → List CurrentColumn → Prop
  | _, [] => True
  | offset, column :: columns =>
    SoundColumn call offset column ∧ SoundColumns call (columnOffset call offset column) columns

end MatrixOdbc.Driver
