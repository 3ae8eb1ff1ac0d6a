import MatrixOdbc.Driver.ClientResult

/-!
# Fetching rowsets

`my_SQLExtendedFetch` of the driver with the functions it calls: the computation of
the first row of a rowset, the fetch loop, the positions it keeps for the next call
and the scroller, which reads a result in windows with a `LIMIT` clause of its own.
The bound buffers are not modelled: the rows that are copied into them are listed,
and how the conversion of each goes is an argument of the call.
-/

namespace MatrixOdbc.Driver

/-- `SQL_ATTR_CURSOR_TYPE`. -/
inductive CursorType where
  | forwardOnly | keysetDriven | dynamic | static
  deriving DecidableEq

/-- The fetch orientations. -/
inductive FetchType where
  | next | prior | first | last | absolute | relative | bookmark
  deriving DecidableEq

/-- `SQLRETURN`, as far as fetching returns it. -/
inductive SqlReturn where
  | success | successWithInfo | error | noDataFound
  deriving DecidableEq

/-- `SQL_SUCCEEDED`. -/
def SqlReturn.succeeded : SqlReturn → Bool
  | .success | .successWithInfo => true
  | _ => false

/-- The values of a row status array. -/
inductive RowStatus where
  | success | successWithInfo | error | norow
  deriving DecidableEq

/-- `sqlreturn2row_status`. -/
def sqlreturn2rowStatus : SqlReturn → RowStatus
  | .success => .success
  | .successWithInfo => .successWithInfo
  | _ => .error

/-- `MY_LIMIT_SCROLLER`; the numbers in the text of its query are `windowOffset` and
`windowCount`. -/
structure Scroller where
  rowCount : ℕ
  startOffset : ℕ
  nextOffset : ℕ
  totalRows : ℕ
  windowOffset : ℕ
  windowCount : ℕ
  deriving DecidableEq

/-- `scroller_move`; it returns the new `next_offset`. -/
def Scroller.move (s : Scroller) : Scroller :=
  { s with windowOffset := s.nextOffset, nextOffset := s.nextOffset + s.rowCount }

/-- What `scroller_prefetch` does before it executes the query of the next window. -/
def Scroller.trim (s : Scroller) : Option Scroller :=
  if 0 < s.totalRows ∧ s.totalRows + s.startOffset ≤ s.nextOffset then
    let count : ℤ := s.totalRows - (s.nextOffset - s.rowCount - s.startOffset)
    if 0 < count then some { s with windowCount := count.toNat } else none
  else some s

/-- The statement handle, as far as fetching reads and writes it. `server` has the rows
that the query of the statement selects; with a scroller, the rows that it selects
without its `LIMIT` clause. -/
structure Stmt (ρ : Type*) where
  cursorType : CursorType
  optNoCache : Bool
  optSafe : Bool
  ssps : Bool
  /-- The rows are in `result_array`, which the catalog functions fill. -/
  resultArray : Bool
  server : List ρ
  scroller : Option Scroller
  result : ClientResult ρ
  currentRow : ℤ
  rowsFoundInSet : ℕ
  endOfSet : RowOffset
  cursorRow : ℤ

/-- One call: the orientation, the offset, the rowset size, how the copying of a row and
of its bookmark to the bound buffers goes, and which executions of a window's query
succeed. -/
structure FetchCall (ρ : Type*) where
  fetchType : FetchType
  irow : ℤ
  arraySize : ℕ
  fill : ℕ → ρ → SqlReturn
  fillBookmark : ℕ → SqlReturn
  bookmarkInsert : Bool
  bookmarksVariable : Bool
  prefetchOk : ℕ → Bool
  repositionOk : Bool

/-- A `SQLULEN` as a `long`. -/
def toLong (n : ℕ) : ℤ := if n < 2 ^ 63 then n else n - 2 ^ 64

/-- What a call returns: its code, the rows that were copied, the number of rows and the
row status array, where they are written. -/
structure FetchResult (ρ : Type*) where
  code : SqlReturn
  rowset : List ρ
  pcrow : Option ℕ
  rowStatus : Option (List RowStatus)
  deriving DecidableEq

namespace Stmt

variable {ρ : Type*} (stmt : Stmt ρ)

/-- `if_forward_cache`. -/
def ifForwardCache : Bool := stmt.cursorType = .forwardOnly ∧ stmt.optNoCache

/-- `is_dynamic_cursor`. -/
def isDynamicCursor : Bool := stmt.cursorType = .dynamic

/-- `num_rows`. The rows of an unbuffered result are counted as they are read, those of a
prepared statement not at all. -/
def numRows : ℕ :=
  (match stmt.scroller with
    | some s => if 0 < s.nextOffset then s.nextOffset - s.rowCount else 0
    | none => 0) +
  if stmt.ifForwardCache ∧ ¬ stmt.resultArray then
    if stmt.ssps then 0 else stmt.result.rowsRead
  else stmt.result.rows.length

/-- `scroller_prefetch`: the query of the next window is executed. -/
def scrollerPrefetch (s : Scroller) (ok : Bool) : SqlReturn × Stmt ρ :=
  match s.trim with
  | some s =>
    if ok then
      (.success, { stmt with
        scroller := some s
        result := .store ((stmt.server.drop s.windowOffset).take s.windowCount) })
    else (.error, { stmt with scroller := some s })
  | none => (.noDataFound, { stmt with scroller := some s })

/-- `data_seek`, where the client library has the rows. -/
def dataSeek (row : ℕ) : Stmt ρ := { stmt with result := stmt.result.dataSeek row }

/-- `data_seek`; the rows of an unbuffered result cannot be positioned. -/
def clientSeek (row : ℕ) : Stmt ρ :=
  if stmt.ifForwardCache ∧ ¬ stmt.resultArray then stmt else stmt.dataSeek row

/-- `set_current_cursor_data`. There is no result where the walk through the rows leaves
the list. -/
def setCurrentCursorData (irow : ℕ) : Option (Bool × Stmt ρ) :=
  let rowPos : ℤ := if irow ≠ 0 then stmt.currentRow + irow - 1 else stmt.currentRow
  if stmt.cursorRow = rowPos then some (true, stmt)
  else if stmt.ssps then
    let (row, result) := (stmt.result.dataSeek rowPos.toNat).fetchRow
    if row.isNone then some (false, { stmt with result := result })
    else some (true, { stmt with result := result, cursorRow := rowPos })
  else if stmt.result.rows.length = 0 then some (false, stmt)
  else if stmt.result.rows.length < rowPos then none
  else some (true, { stmt.dataSeek rowPos.toNat with cursorRow := rowPos })

/-- `set_dynamic_result`, when the query of the statement is executed again with
success. -/
def setDynamicResult : Option (Stmt ρ) :=
  let stmt := { stmt with result := .store stmt.server, cursorRow := -1 }
  (stmt.setCurrentCursorData 0).map (·.2)

end Stmt

/-- The loop of `compute_cur_row` that moves the scroller; there is no result if it does
not end. -/
def scrollPast (curRow : ℤ) (s : Scroller) : Option Scroller :=
  if curRow ≤ s.move.nextOffset then some s.move
  else if _h : s.rowCount = 0 then none
  else scrollPast curRow s.move
  termination_by (curRow - s.nextOffset).toNat
  decreasing_by
    simp only [Scroller.move] at *
    omega

namespace Stmt

variable {ρ : Type*} (stmt : Stmt ρ)

/-- The row that `compute_cur_row` computes from the orientation. -/
def targetRow (fetchType : FetchType) (irow arraySize : ℤ) : ℤ :=
  let maxRow : ℤ := stmt.numRows
  match fetchType with
  | .next => if stmt.currentRow < 0 then 0 else stmt.currentRow + stmt.rowsFoundInSet
  | .prior => if stmt.currentRow ≤ 0 then -1 else stmt.currentRow - arraySize
  | .first => 0
  | .last => maxRow - arraySize
  | .absolute =>
    if irow < 0 then if maxRow + irow < 0 ∧ -irow ≤ arraySize then 0 else maxRow + irow
    else irow - 1
  | .relative =>
    if 0 < stmt.currentRow ∧ stmt.currentRow + irow < 0 ∧ -irow ≤ arraySize then 0
    else stmt.currentRow + irow
  | .bookmark => if irow < 0 ∧ -irow ≤ arraySize then 0 else irow

/-- What `compute_cur_row` does with the row: the client library is positioned. -/
def seekRow (curRow : ℤ) : Stmt ρ :=
  let positioned :=
    if ¬ stmt.resultArray ∧ ¬ stmt.ifForwardCache then
      if stmt.cursorType ≠ .dynamic ∧ curRow ≠ 0 ∧
          curRow = stmt.currentRow + stmt.rowsFoundInSet then
        { stmt with result := (stmt.result.rowSeek stmt.endOfSet).1 }
      else stmt.dataSeek curRow.toNat
    else stmt
  { positioned with currentRow := curRow }

/-- `compute_cur_row`: the first row of the rowset, or the code it throws. -/
def computeCurRow (call : FetchCall ρ) : Option (Stmt ρ × Except SqlReturn ℤ) :=
  let curRow := stmt.targetRow call.fetchType call.irow (toLong call.arraySize)
  if curRow < 0 then
    some ({ stmt.clientSeek 0 with currentRow := -1, rowsFoundInSet := 0 }, .error .noDataFound)
  else if (stmt.numRows : ℤ) < curRow then
    match stmt.scroller with
    | some s =>
      match scrollPast curRow s with
      | some s =>
        match stmt.scrollerPrefetch s call.repositionOk with
        | (.success, stmt) => some (stmt.seekRow curRow, .ok curRow)
        | (code, stmt) => some (stmt, .error code)
      | none => none
    | none => some (stmt.seekRow stmt.numRows, .ok stmt.numRows)
  else some (stmt.seekRow curRow, .ok curRow)

end Stmt

/-- The variables of the fetch loop. -/
structure FetchLoop (ρ : Type*) where
  stmt : Stmt ρ
  curRow : ℤ
  savePosition : RowOffset
  res : SqlReturn
  rowset : List ρ
  rowStatus : List RowStatus

namespace FetchLoop

variable {ρ : Type*} (call : FetchCall ρ) (s : FetchLoop ρ)

/-- The next row, from the array, from the client library or from the next window. -/
@[grind =] def fetchValues : Option ρ × FetchLoop ρ :=
  if s.stmt.resultArray then (s.stmt.result.rows[s.curRow.toNat]?, s)
  else
    let savePosition := if s.rowset = [] then s.stmt.result.rowTell else s.savePosition
    let fetched := s.stmt.result.fetchRow
    let s := { s with stmt := { s.stmt with result := fetched.2 }, savePosition := savePosition }
    match fetched.1, s.stmt.scroller with
    | some values, _ => (some values, s)
    | none, none => (none, s)
    | none, some scroller =>
      match s.stmt.scrollerPrefetch scroller.move (call.prefetchOk s.rowset.length) with
      | (.success, stmt) =>
        let fetched := stmt.result.fetchRow
        let s := { s with stmt := { stmt with result := fetched.2 } }
        if fetched.1.isSome then
          (fetched.1, { s with savePosition := fetched.2.rowTell })
        else (none, s)
      | (_, stmt) => (none, { s with stmt := stmt })

/-- The result of the call so far and the one of a row. -/
def combine (res rowRes rowBook : SqlReturn) (first : Bool) : SqlReturn :=
  if res ≠ rowRes ∨ res ≠ rowBook then
    if rowRes.succeeded then .successWithInfo
    else if first then .error
    else .successWithInfo
  else res

/-- A row is copied to the bound buffers. -/
def fillRow (values : ρ) : FetchLoop ρ :=
  let i := s.rowset.length
  let rowBook := if call.fetchType = .bookmark ∧ call.bookmarksVariable then call.fillBookmark i
    else .success
  let rowRes := call.fill i values
  { s with
    res := combine s.res rowRes rowBook (i = 0)
    rowset := s.rowset ++ [values]
    rowStatus := s.rowStatus ++ [sqlreturn2rowStatus rowRes]
    curRow := s.curRow + 1 }

/-- The fetch loop, with the number of rows still to fetch. -/
@[grind =] def fetchRows : ℕ → FetchLoop ρ → FetchLoop ρ
  | 0, s => s
  | rowsToFetch + 1, s =>
    match s.fetchValues call with
    | (some values, s) => fetchRows rowsToFetch (s.fillRow call values)
    | (none, s) => s

end FetchLoop

namespace Stmt

variable {ρ : Type*} (stmt : Stmt ρ)

/-- `rows_to_fetch`, the number of rows that the fetch loop may take. -/
def rowsToFetch (call : FetchCall ρ) (maxRow curRow : ℤ) : ℕ :=
  if stmt.scroller.isSome ∨ stmt.ifForwardCache ∧ ¬ stmt.resultArray ∨
      call.fetchType = .bookmark ∧ call.bookmarkInsert then call.arraySize
  else (min (maxRow - curRow) (toLong call.arraySize) % 2 ^ 64).toNat

/-- `my_SQLExtendedFetch` behind the computation of the row. -/
def fetchRowset (call : FetchCall ρ) (maxRow curRow : ℤ) : Stmt ρ × FetchResult ρ :=
  let rowsToFetch := stmt.rowsToFetch call maxRow curRow
  if rowsToFetch = 0 then
    ({ stmt with rowsFoundInSet := 0 }, ⟨.noDataFound, [], some 0, none⟩)
  else
    let s := FetchLoop.fetchRows call rowsToFetch ⟨stmt, curRow, none, .success, [], []⟩
    let found := s.rowset.length
    let counted : Stmt ρ := { s.stmt with rowsFoundInSet := found % 2 ^ 32 }
    let status := s.rowStatus ++ List.replicate (call.arraySize - found) .norow
    let sought := counted.result.rowSeek s.savePosition
    let reset : Stmt ρ :=
      if s.res.succeeded ∧ ¬ counted.resultArray ∧ ¬ counted.ifForwardCache then
        { counted with result := sought.1, endOfSet := sought.2 }
      else counted
    let code : SqlReturn :=
      if s.res.succeeded ∧ counted.rowsFoundInSet < call.arraySize ∧
          counted.rowsFoundInSet = 0 then .noDataFound
      else s.res
    (reset, ⟨code, s.rowset, some found, some status⟩)

/-- `my_SQLExtendedFetch`. There is no result if it does not return. The result of a
catalog function has no query that a dynamic cursor could execute again. -/
def extendedFetch (call : FetchCall ρ) : Option (Stmt ρ × FetchResult ρ) :=
  if stmt.cursorType = .forwardOnly ∧ call.fetchType ≠ .next ∧ ¬ stmt.optSafe then
    some (stmt, ⟨.error, [], none, none⟩)
  else if stmt.isDynamicCursor ∧ stmt.resultArray then some (stmt, ⟨.error, [], none, none⟩)
  else
    match if stmt.isDynamicCursor then stmt.setDynamicResult else some stmt with
    | none => none
    | some stmt =>
      match stmt.computeCurRow call with
      | some (moved, .ok curRow) => some (moved.fetchRowset call stmt.numRows curRow)
      | some (moved, .error code) => some (moved, ⟨code, [], none, none⟩)
      | none => none

end Stmt

end MatrixOdbc.Driver
