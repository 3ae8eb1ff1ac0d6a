import MatrixOdbc.Foundations.Buffer
import Mathlib.Algebra.Order.Ring.Int

/-!
# Rows of a statement prepared on the server

`ssps_bind_result`, `ssps_get_result` and `fetch_varlength_columns` of
`driver/my_prepared_stmt.cc`, `STMT::fetch_row` of `driver/my_stmt.cc` and `ROW_STORAGE` of
`driver/driver.h`. Rows come from the client library into one buffer a column. When they
are not stored by the library, the first two are copied into a row storage and later
copied back into the buffers. Parameters of procedures and errors of the library are
left out.
-/

namespace MatrixOdbc.Driver

/-- The value of a column in the form in which the library hands it over, or `NULL`. -/
abbrev Cell := Option (List UInt8)

/-- `enum_field_types`. -/
inductive EnumFieldTypes where
  | decimal | tiny | short | long | float | double | null | timestamp | longlong | int24
  | date | time | datetime | year | newdate | varchar | bit | json | newdecimal | enum | set
  | tinyBlob | mediumBlob | longBlob | blob | varString | string | geometry | vector
  deriving DecidableEq

/-- `MYSQL_FIELD`. -/
structure MysqlField where
  type : EnumFieldTypes
  length : ℕ

/-- `is_varlen_type`. -/
def isVarlenType : EnumFieldTypes → Bool
  | .blob | .tinyBlob | .mediumBlob | .longBlob | .varString | .json | .vector => true
  | _ => false

/-- `sizeof(MYSQL_TIME)` on a 64-bit platform. -/
def sizeofMysqlTime : ℕ := 48

/-- `allocate_buffer_for_field`: the type that is bound and the size of the buffer. There
is no buffer for the size 0. -/
def allocateBufferForField (field : MysqlField) (nativeFloatingPoint : Bool) :
    EnumFieldTypes × ℕ :=
  match field.type with
  | .null => (.null, 0)
  | .tiny => (.tiny, 1)
  | .short => (.short, 2)
  | .int24 | .long => (field.type, 4)
  | .double => if nativeFloatingPoint then (.double, 8) else (.string, 24)
  | .float => if nativeFloatingPoint then (.float, 4) else (.string, 24)
  | .longlong => (.longlong, 8)
  | .year => (.year, 2)
  | .timestamp | .date | .time | .datetime => (field.type, sizeofMysqlTime)
  | .tinyBlob | .mediumBlob | .longBlob | .blob | .string | .varString | .json | .vector =>
    (field.type, if 0 < field.length ∧ field.length < 1025 then field.length + 1 else 1024)
  | .decimal | .newdecimal => (field.type, 64)
  | .bit => (.bit, (field.length + 7) / 8)
  | .newdate | .varchar | .enum | .set | .geometry => (field.type, 0)

/-- How the client library places a value in a buffer that is given with its length: as
much as fits, and nothing outside the memory. -/
structure ClientLibrary where
  store : EnumFieldTypes → List UInt8 → ℕ → List UInt8 → List UInt8
  length_store : ∀ type memory n value, (store type memory n value).length = memory.length
  take_store : ∀ type memory n value, n ≤ memory.length →
    (store type memory n value).take (min n value.length) = value.take n

/-- An entry of `result_bind` with what its pointers lead to, and the entry of
`STMT::lengths`. The memory is that of `array` as well. -/
structure ColumnBind where
  bufferType : EnumFieldTypes
  buffer : List UInt8
  bufferLength : ℕ
  length : ℕ
  isNull : Bool
  lengths : ℕ

namespace ColumnBind

/-- A column as `ssps_bind_result` sets it up. -/
def bindResult (nativeFloatingPoint : Bool) (field : MysqlField) : ColumnBind :=
  let p := allocateBufferForField field nativeFloatingPoint
  ⟨p.1, List.replicate p.2 0, p.2, 0, false, 0⟩

/-- What the application finds in a column: the bytes of the buffer up to the length. -/
def value (b : ColumnBind) : Cell :=
  if b.isNull || b.buffer.isEmpty then none else some (b.buffer.take b.length)

/-- A column after `mysql_stmt_fetch`, or after `mysql_stmt_fetch_column` from offset 0. -/
def fetch (lib : ClientLibrary) (b : ColumnBind) : Cell → ColumnBind
  | none => { b with isNull := true }
  | some value =>
    { b with
      isNull := false
      length := value.length
      buffer := lib.store b.bufferType b.buffer b.bufferLength value }

/-- The value does not fit in its buffer, and the type is one whose buffer grows. -/
def needsRealloc (b : ColumnBind) : Bool :=
  !b.isNull && isVarlenType b.bufferType && b.bufferLength < b.length

/-- `realloc` to the length of the value, recorded in `lengths`. -/
def reallocBuffer (b : ColumnBind) : ColumnBind :=
  { b with
    buffer := b.buffer.take b.length ++ List.replicate (b.length - b.buffer.length) 0
    lengths := b.length
    bufferLength := b.length }

/-- A round of the loop in `fetch_varlength_columns`: whether a buffer has been
reallocated by now, and the column. -/
def varlength (lib : ClientLibrary) (reallocated : Bool) (b : ColumnBind) (cell : Cell) :
    Bool × ColumnBind :=
  let reallocated := reallocated || b.needsRealloc
  let b := if b.needsRealloc then b.reallocBuffer else b
  let b := if 0 < b.lengths then { b with bufferLength := b.lengths } else b
  (reallocated, if reallocated then b.fetch lib cell else b)

end ColumnBind

/-- `fetch_varlength_columns`, with the row that the library has at hand. -/
def fetchVarlengthColumns (lib : ClientLibrary) : Bool → List ColumnBind → List Cell →
    List ColumnBind
  | reallocated, b :: binds, cell :: row =>
    let p := b.varlength lib reallocated cell
    p.2 :: fetchVarlengthColumns lib p.1 binds row
  | _, binds, _ => binds

/-- `xstring`. -/
structure XString where
  data : List UInt8
  isNull : Bool

/-- `ROW_STORAGE` without the members for catalog functions. -/
structure RowStorage where
  rnum : ℕ
  cnum : ℕ
  curRow : ℕ
  eof : Bool
  data : List XString

namespace RowStorage

/-- `set_size`. -/
def setSize (s : RowStorage) (rnum cnum : ℕ) : RowStorage :=
  if rnum * cnum ≠ 0 then
    { s with
      rnum := rnum
      cnum := cnum
      data := s.data.take (rnum * cnum) ++
        List.replicate (rnum * cnum - s.data.length) ⟨[], false⟩
      curRow := if rnum ≤ s.curRow then rnum - 1 else s.curRow }
  else { s with rnum := rnum, cnum := cnum, data := [], curRow := 0 }

/-- `invalidate`. -/
def invalidate (s : RowStorage) : RowStorage := { s with eof := true }.setSize 0 0

/-- `next_row`. -/
def nextRow (s : RowStorage) : RowStorage :=
  if s.curRow + 1 < s.rnum - 1 then { s with curRow := s.curRow + 1 }
  else { s with curRow := s.curRow + 1 }.setSize (s.rnum + 1) s.cnum

/-- `first_row`. -/
def firstRow (s : RowStorage) : RowStorage := { s with curRow := 0, eof := s.rnum == 0 }

/-- The cells of the current row. -/
def currentCells (s : RowStorage) : List XString := (s.data.drop (s.curRow * s.cnum)).take s.cnum

/-- `set_data` of one cell: `assign` leaves the mark of `NULL` as it was. A value longer
than the buffer overflows it: what lies behind is of unknown content, zeros here. -/
def setCell (cell : XString) (b : ColumnBind) : XString :=
  if b.isNull || b.buffer.isEmpty then ⟨[], true⟩
  else { cell with
    data := b.buffer.take b.length ++ List.replicate (b.length - b.buffer.length) 0 }

/-- `set_data` of a row. -/
def setData (s : RowStorage) (binds : List ColumnBind) : RowStorage :=
  { s with
    data := Buffer.store s.data (s.curRow * s.cnum) (List.zipWith setCell s.currentCells binds)
    eof := s.eof && s.cnum == 0 }

/-- `fill_data` of one column. A value longer than the buffer overflows it: what is copied past the
end is lost here. -/
def fillCell (b : ColumnBind) (cell : XString) : ColumnBind :=
  if cell.isNull then { b with isNull := true, length := 2 ^ 64 - 1 }
  else { b with
    isNull := false
    length := cell.data.length
    buffer := (Buffer.store b.buffer 0
      (cell.data ++ if cell.data.length < b.bufferLength then [0] else [])).take b.buffer.length }

/-- `fill_data`. -/
def fillData (s : RowStorage) (binds : List ColumnBind) : List ColumnBind × RowStorage :=
  if s.rnum ≤ s.curRow || s.eof then (binds, s)
  else
    let eof := decide (s.rnum ≤ s.curRow + 1)
    (List.zipWith fillCell binds s.currentCells,
      { s with eof := eof, curRow := if eof then s.curRow else s.curRow + 1 })

end RowStorage

/-- A result set of the server. -/
structure ServerResult where
  fields : List MysqlField
  rows : List (List Cell)
  length_rows : ∀ row ∈ rows, row.length = fields.length

/-- The statement: the bound columns, the row storage, the row that the library has at hand
and the rows that it has not handed over yet. -/
structure SspsStmt where
  resultBind : List ColumnBind
  rowStorage : RowStorage
  current : List Cell
  pending : List (List Cell)

namespace SspsStmt

/-- `fix_fields`, which is set when some column is of a type whose buffer grows. -/
def fixFields (lib : ClientLibrary) (binds : List ColumnBind) (current : List Cell) :
    List ColumnBind :=
  if binds.any fun b => isVarlenType b.bufferType then fetchVarlengthColumns lib false binds current
  else binds

/-- `STMT::fetch_row`. -/
def fetchRow (lib : ClientLibrary) (readUnbuffered : Bool) (s : SspsStmt) :
    Option (List Cell) × SspsStmt :=
  if readUnbuffered || s.rowStorage.eof then
    match s.pending with
    | [] => (none, s)
    | row :: pending =>
      let binds := fixFields lib (List.zipWith (ColumnBind.fetch lib) s.resultBind row) row
      (some (binds.map ColumnBind.value),
        { s with resultBind := binds, current := row, pending := pending })
  else
    let p := s.rowStorage.fillData s.resultBind
    let binds := fixFields lib p.1 s.current
    (some (binds.map ColumnBind.value), { s with resultBind := binds, rowStorage := p.2 })

/-- `ssps_get_result`; the library stores the rows itself unless the cursor is forward-only
without a cache. -/
def getResult (lib : ClientLibrary) (forwardCache : Bool) (s : SspsStmt) : SspsStmt :=
  if !forwardCache then s
  else
    match s.fetchRow lib true with
    | (none, s) => s
    | (some _, s) =>
      let storage := (s.rowStorage.setSize 1 s.resultBind.length).setData s.resultBind
      match ({ s with rowStorage := storage } : SspsStmt).fetchRow lib true with
      | (none, s) => { s with rowStorage := s.rowStorage.firstRow }
      | (some _, s) =>
        { s with rowStorage := (s.rowStorage.nextRow.setData s.resultBind).firstRow }

/-- A result set becomes the current one, by an execution or by `SQLMoreResults`: the row
storage is invalidated, the columns are bound and `ssps_get_result` is called. -/
def startResult (lib : ClientLibrary) (nativeFloatingPoint forwardCache : Bool)
    (result : ServerResult) (s : SspsStmt) : SspsStmt :=
  getResult lib forwardCache
    { resultBind := result.fields.map (ColumnBind.bindResult nativeFloatingPoint)
      rowStorage := s.rowStorage.invalidate
      current := []
      pending := result.rows }

/-- A number of fetches one after another. -/
def fetchRows (lib : ClientLibrary) : ℕ → SspsStmt → List (Option (List Cell)) × SspsStmt
  | 0, s => ([], s)
  | n + 1, s =>
    let p := s.fetchRow lib false
    let rest := fetchRows lib n p.2
    (p.1 :: rest.1, rest.2)

/-- A run: every result set with the number of fetches before the next one is started. -/
def runResults (lib : ClientLibrary) (nativeFloatingPoint forwardCache : Bool) :
    List (ServerResult × ℕ) → SspsStmt → List (List (Option (List Cell)))
  | [], _ => []
  | (result, n) :: results, s =>
    let p := fetchRows lib n (startResult lib nativeFloatingPoint forwardCache result s)
    p.1 :: runResults lib nativeFloatingPoint forwardCache results p.2

end SspsStmt

end MatrixOdbc.Driver
