import MatrixOdbc.Driver.ExtendedFetch
import MatrixOdbc.Foundations.Writes
import Mathlib.Data.Nat.Find

/-!
# Fetching by bookmarks

`fetch_bookmark` of `driver/cursor.cc` and `myodbc_single_fetch` of
`driver/results.cc`, which it calls once for each bookmark. What is written is kept by
element: which bookmark's row was copied there last, and the last row status.
-/

namespace MatrixOdbc.Driver

variable {ρ : Type*}

/-- A call of `fetch_bookmark`: whether bookmarks are in use and the column is bound, the
numbers that `atol` reads from the supplied array, the rowset size, how the copying of a
row to the bound columns goes if there are any, which pointers are given, and what each
single fetch meets: a lost connection, and failing queries of a window. -/
structure BookmarkFetch (ρ : Type*) where
  stmt : Stmt ρ
  bookmarks : Bool
  bound : Bool
  bookmark : ℕ → ℤ
  arraySize : ℕ
  fill : Option (ρ → SqlReturn)
  rowStatusPtr : Bool
  rowsProcessedPtr : Bool
  outParams : Bool
  disconnected : ℕ → Bool
  repositionOk : ℕ → Bool
  prefetchOk : ℕ → Bool

namespace Stmt

variable (stmt : Stmt ρ)

/-- The rows of the result set. With a scroller the client library holds a window of them. -/
def rowsOfResult : List ρ :=
  match stmt.scroller with
  | some s =>
    let rows := stmt.server.drop s.startOffset
    if 0 < s.totalRows then rows.take s.totalRows else rows
  | none => stmt.result.rows

/-- The number of the first row of the window. -/
def windowStart : ℕ :=
  match stmt.scroller with
  | some s => s.windowOffset - s.startOffset
  | none => 0

/-- `fetch_row`, with the number of the row in the result set. The client library has no
rows where they are in `result_array`. -/
def fetchNumbered : Option (ℕ × ρ) × Stmt ρ :=
  if stmt.resultArray then (none, stmt)
  else
    let fetched := stmt.result.fetchRow
    (stmt.result.rowTell.bind fun row => fetched.1.map fun values =>
        (stmt.windowStart + row, values),
      { stmt with result := fetched.2 })

end Stmt

/-- The pointer that is sought for a row. -/
def Stmt.seekOffset (stmt : Stmt ρ) (row : ℕ) : RowOffset :=
  if stmt.cursorType ≠ .dynamic ∧ row ≠ 0 ∧ (row : ℤ) = stmt.currentRow + stmt.rowsFoundInSet then
    stmt.endOfSet
  else ClientResult.offsetAt stmt.result.rows row

/-- The exit of a single fetch: `cur_row`, and the row that was fetched. -/
structure Arrival (ρ : Type*) where
  curRow : ℕ
  row : Option (ℕ × ρ)

/-- What a single fetch does: its code, the statement it leaves, what it writes to `pcrow`,
and how it arrives at its exit. -/
structure SingleFetch (ρ : Type*) where
  code : SqlReturn
  stmt : Stmt ρ
  pcrow : Option ℕ
  arrival : Option (Arrival ρ)

/-- The element of the buffers that a row is copied to, which is a `uint`, and the number of
the row. -/
def SingleFetch.copies (f : SingleFetch ρ) : Option (ℕ × ℕ) :=
  f.arrival.bind fun a => a.row.map fun row => (a.curRow % 2 ^ 32, row.1)

/-- The result of a call for the result of its row. -/
def singleRes (rowRes : SqlReturn) (curRow : ℕ) : SqlReturn :=
  if rowRes = .success then .success
  else if rowRes.succeeded then .successWithInfo
  else if curRow = 0 then .error
  else .successWithInfo

/-- What was written: to the buffers, with the bookmark and the number of the row, to the
row status array and to `rows_processed_ptr`. The rows that were fetched are counted. -/
structure RowsetMemory where
  copied : ℕ → Option (ℕ × ℕ)
  rowStatus : ℕ → Option RowStatus
  rowsProcessed : Option ℕ
  fetched : ℕ

/-- Nothing was written yet. -/
def RowsetMemory.empty : RowsetMemory := ⟨fun _ => none, fun _ => none, none, 0⟩

/-- What a call of `fetch_bookmark` leaves behind. -/
structure FetchedRowset (ρ : Type*) where
  code : SqlReturn
  stmt : Stmt ρ
  memory : RowsetMemory

namespace BookmarkFetch

variable (call : BookmarkFetch ρ)

/-- `fill_fetch_buffers`. -/
def rowRes (values : ρ) : SqlReturn :=
  match call.fill with
  | some fill => fill values
  | none => .success

/-- The row of a single fetch, from the client library or from the next window, and
`save_position`. -/
def fetchValues (i : ℕ) (stmt : Stmt ρ) : Option (ℕ × ρ) × RowOffset × Stmt ρ :=
  let savePosition := stmt.result.rowTell
  match stmt.fetchNumbered with
  | (some row, stmt) => (some row, savePosition, stmt)
  | (none, stmt) =>
    match stmt.scroller with
    | none => (none, savePosition, stmt)
    | some s =>
      match stmt.scrollerPrefetch s.move (call.prefetchOk i) with
      | (.success, stmt) =>
        match stmt.fetchNumbered with
        | (some row, stmt) => (some row, stmt.result.rowTell, stmt)
        | (none, stmt) => (none, savePosition, stmt)
      | (_, stmt) => (none, savePosition, stmt)

/-- The row is fetched and the exit of the function is reached. -/
def arrive (i : ℕ) (stmt : Stmt ρ) (curRow : ℕ) : SingleFetch ρ :=
  let (row, savePosition, stmt) := call.fetchValues i stmt
  let res := match row with
    | some (_, values) => singleRes (call.rowRes values) curRow
    | none => .success
  let counted := { stmt with rowsFoundInSet := 1 }
  let sought := counted.result.rowSeek savePosition
  { code := res
    stmt :=
      if res.succeeded ∧ ¬ counted.ifForwardCache then
        { counted with result := sought.1, endOfSet := sought.2 }
      else counted
    pcrow := some curRow
    arrival := some ⟨curRow, row⟩ }

/-- `myodbc_single_fetch` behind the computation of the row. -/
def fetchPositioned (i : ℕ) (stmt : Stmt ρ) (maxRow curRow : ℤ) : SingleFetch ρ :=
  let stmt := stmt.seekRow curRow
  if stmt.scroller.isSome ∨ stmt.ifForwardCache ∧ ¬ stmt.resultArray ∨ curRow < maxRow ∨
      call.outParams then
    call.arrive i stmt curRow.toNat
  else
    { code := .successWithInfo
      stmt := { stmt with rowsFoundInSet := 0 }
      pcrow := some 0
      arrival := none }

/-- `myodbc_single_fetch` for `SQL_FETCH_ABSOLUTE` and one row. There is no result if it
does not return. -/
def singleFetch (i : ℕ) (stmt : Stmt ρ) : Option (SingleFetch ρ) :=
  let maxRow : ℤ := stmt.numRows
  let curRow := stmt.targetRow .absolute (call.bookmark i) 1
  if curRow < 0 then
    some ⟨.successWithInfo, { stmt.clientSeek 0 with currentRow := -1, rowsFoundInSet := 0 },
      none, none⟩
  else if maxRow < curRow then
    match stmt.scroller with
    | some s =>
      match scrollPast curRow s with
      | some s =>
        match stmt.scrollerPrefetch s (call.repositionOk i) with
        | (.success, stmt) => some (call.fetchPositioned i stmt maxRow curRow)
        | (.noDataFound, stmt) => some ⟨.successWithInfo, stmt, none, none⟩
        | (_, stmt) => some ⟨.error, stmt, none, none⟩
      | none => none
    | none => some (call.fetchPositioned i stmt maxRow maxRow)
  else some (call.fetchPositioned i stmt maxRow curRow)

/-- What a single fetch writes. The row status is written twice. -/
def record (i : ℕ) (f : SingleFetch ρ) (m : RowsetMemory) : RowsetMemory where
  copied :=
    match f.copies with
    | some (element, row) =>
      if call.fill.isSome then Function.update m.copied element (some (i, row)) else m.copied
    | none => m.copied
  rowStatus :=
    match f.arrival with
    | some a =>
      if call.rowStatusPtr then
        let written := match a.row with
          | some (_, values) =>
            Function.update m.rowStatus a.curRow (some (sqlreturn2rowStatus (call.rowRes values)))
          | none => m.rowStatus
        Function.update written a.curRow (some (if call.disconnected i then .error else .norow))
      else m.rowStatus
    | none => m.rowStatus
  rowsProcessed := if call.rowsProcessedPtr then f.pcrow.or m.rowsProcessed else m.rowsProcessed
  fetched := if f.copies.isSome then m.fetched + 1 else m.fetched

/-- The end of the loop, behind the fetch of the bookmark with the given index. -/
def leave (i : ℕ) (f : SingleFetch ρ) (m : RowsetMemory) : FetchedRowset ρ where
  code := f.code
  stmt := { f.stmt with rowsFoundInSet := (if f.code = .success then i + 1 else i) % 2 ^ 32 }
  memory := call.record i f m

/-- The loop of `fetch_bookmark`, with the number of bookmarks behind the next one. -/
def fetchFrom : ℕ → ℕ → Stmt ρ → RowsetMemory → Option (FetchedRowset ρ)
  | 0, i, stmt, m =>
    (call.singleFetch i (stmt.clientSeek (i + 1))).map fun f => call.leave i f m
  | remaining + 1, i, stmt, m =>
    (call.singleFetch i (stmt.clientSeek (i + 1))).bind fun f =>
      if f.code = .success then fetchFrom remaining (i + 1) f.stmt (call.record i f m)
      else some (call.leave i f m)

/-- `fetch_bookmark`. The loop is entered also when the rowset size is zero. -/
def fetchBookmark : Option (FetchedRowset ρ) :=
  if call.bookmarks ∧ call.bound then
    call.fetchFrom (call.arraySize - 1) 0 call.stmt .empty
  else some ⟨.error, call.stmt, .empty⟩

/-- The row that a bookmark denotes; a negative one is counted from the end. -/
def rowOf (bookmark : ℤ) : Option ℕ :=
  let count : ℤ := call.stmt.rowsOfResult.length
  if 1 ≤ bookmark ∧ bookmark ≤ count then some (bookmark - 1).toNat
  else if bookmark < 0 ∧ -bookmark ≤ count then some (count + bookmark).toNat
  else none

/-- The outcome of the fetch of a row. -/
def outcome (row : ℕ) : SqlReturn := (call.stmt.rowsOfResult[row]?.map call.rowRes).getD .success

/-- Every supplied bookmark's row is in its element, with its row status, the rows that were
fetched are counted, and nothing is written outside the supplied array. -/
structure DeliversRows (m : RowsetMemory) : Prop where
  copied : call.fill.isSome → ∀ i < call.arraySize, ∀ row,
    call.rowOf (call.bookmark i) = some row → m.copied i = some (i, row)
  rowStatus : call.rowStatusPtr = true → ∀ i < call.arraySize, ∀ row,
    call.rowOf (call.bookmark i) = some row →
      m.rowStatus i = some (sqlreturn2rowStatus (call.outcome row))
  rowsProcessed : call.rowsProcessedPtr = true → m.rowsProcessed = some m.fetched
  inside : ∀ element, m.copied element ≠ none ∨ m.rowStatus element ≠ none →
    element < call.arraySize

/-- The call returns, and unless it is refused it delivers the rows. -/
def Delivers : Prop :=
  ∃ out, call.fetchBookmark = some out ∧
    (call.bookmarks = true → call.bound = true → call.DeliversRows out.memory)

/-- The statement before the fetch of a bookmark, if that fetch is reached. -/
def before : ℕ → Option (Stmt ρ)
  | 0 => some call.stmt
  | i + 1 => (before i).bind fun stmt =>
      (call.singleFetch i (stmt.clientSeek (i + 1))).bind fun f =>
        if f.code = .success ∧ i + 1 < call.arraySize then some f.stmt else none

/-- The fetch of a bookmark, if it is reached. -/
def fetch (i : ℕ) : Option (SingleFetch ρ) :=
  (call.before i).bind fun stmt => call.singleFetch i (stmt.clientSeek (i + 1))

/-- The element that the fetch of a bookmark copies its row to, and the row. -/
def copies (i : ℕ) : Option (ℕ × ℕ) := (call.fetch i).bind SingleFetch.copies

/-- The element whose row status the fetch of a bookmark writes. -/
def arrives (i : ℕ) : Option ℕ := (call.fetch i).bind fun f => f.arrival.map Arrival.curRow

/-- What the fetch of a bookmark writes to `pcrow`. -/
def counts (i : ℕ) : Option ℕ := (call.fetch i).bind SingleFetch.pcrow

/-- The number of times that the loop can be entered. -/
def rounds : ℕ := max call.arraySize 1

/-- The number of rows that are fetched. -/
def fetchedRows : ℕ := (List.range call.rounds).countP fun i => (call.copies i).isSome

/-- What the fetches have to write: each copies its bookmark's row into its own element, and no
later one writes there; a row status that is asked for is one of a row that cannot be copied, with
the connection lost; the last number that is written is the number of rows. -/
structure FetchesFit : Prop where
  returns : ∀ i stmt, call.before i = some stmt →
    (call.singleFetch i (stmt.clientSeek (i + 1))).isSome
  copied : call.fill.isSome → ∀ i < call.arraySize, ∀ row,
    call.rowOf (call.bookmark i) = some row →
      call.copies i = some (i, row) ∧ ∀ j, i < j → ∀ row', call.copies j ≠ some (i, row')
  rowStatus : call.rowStatusPtr = true → ∀ i < call.arraySize, ∀ row,
    call.rowOf (call.bookmark i) = some row → (call.outcome row).succeeded = false ∧
      ∃ j, call.arrives j = some i ∧ call.disconnected j = true ∧
        ∀ j', j < j' → call.arrives j' ≠ some i
  rowsProcessed : call.rowsProcessedPtr = true →
    ∃ j, call.counts j = some call.fetchedRows ∧ ∀ j', j < j' → call.counts j' = none
  inside : ∀ j element, (call.fill.isSome ∧ ∃ row, call.copies j = some (element, row)) ∨
    (call.rowStatusPtr = true ∧ call.arrives j = some element) → element < call.arraySize

/-- The client library has the whole result, and the first row is not sought behind the
rowset before, where the pointer leads to another one. -/
structure Positioned : Prop where
  scroller : call.stmt.scroller = none
  resultArray : call.stmt.resultArray = false
  forwardCache : call.stmt.ifForwardCache = false
  outParams : call.outParams = false
  seekOffset : ∀ row, call.rowOf (call.bookmark 0) = some row →
    call.stmt.seekOffset row = some row

/-- A bookmark denotes a row, and the row is copied without a warning. -/
def Copied (i : ℕ) : Prop :=
  ∃ row, call.rowOf (call.bookmark i) = some row ∧ call.outcome row = .success

/-- The fetch of a bookmark is the last one. -/
structure Last (i : ℕ) : Prop where
  lt : i < call.rounds
  copied : ∀ j < i, call.Copied j
  stops : ¬ call.Copied i ∨ call.arraySize ≤ i + 1

/-- A bookmark is behind the end of the result. -/
def BehindEnd (i : ℕ) : Prop :=
  (call.stmt.rowsOfResult.length : ℤ) < call.bookmark i ∨
    (call.stmt.rowsOfResult = [] ∧ call.bookmark i = -1)

/-- Each bookmark denotes the row of its own element, and all rows before it are copied
without a warning. With a row status array there is no bookmark of a row but the one of the
first row, which cannot be copied, with the connection lost. With `rows_processed_ptr` the
last row that is fetched has the number of rows, counted from zero, or there is none and
the first bookmark is behind the end. -/
structure BookmarksFit : Prop where
  copied : call.fill.isSome → ∀ i < call.arraySize, ∀ row,
    call.rowOf (call.bookmark i) = some row → row % 2 ^ 32 = i ∧ ∀ j < i, call.Copied j
  rowStatus : call.rowStatusPtr = true → ∀ i < call.arraySize, ∀ row,
    call.rowOf (call.bookmark i) = some row → i = 0 ∧ row = 0 ∧
      (call.outcome row).succeeded = false ∧ call.disconnected 0 = true
  rowsProcessed : call.rowsProcessedPtr = true → ∃ i, call.Last i ∧
    (call.rowOf (call.bookmark i) = some (i + 1) ∨
      call.rowOf (call.bookmark i) = none ∧ (i = 0 ∧ call.BehindEnd 0 ∨
        0 < i ∧ ¬ call.BehindEnd i ∧ call.rowOf (call.bookmark (i - 1)) = some i))
  inside : call.arraySize = 0 → ∀ row, call.rowOf (call.bookmark 0) = some row →
    call.fill = none ∧ call.rowStatusPtr = false

/-- Nothing is bound and nothing is asked for, so that nothing is written, and the windows of
a scroller have rows, so that one is found for every row. -/
structure AsksNothing : Prop where
  fill : call.fill = none
  rowStatus : call.rowStatusPtr = false
  rowsProcessed : call.rowsProcessedPtr = false
  windows : ∀ s, call.stmt.scroller = some s → s.rowCount ≠ 0

/-- The condition under which the call delivers the rows: its bookmarks fit a result that the
client library has, or there is nothing to write. -/
def Fits : Prop :=
  call.bookmarks = true → call.bound = true →
    (call.Positioned ∧ call.BookmarksFit) ∨ call.AsksNothing

/-- What the first fetches have written. -/
def written : ℕ → RowsetMemory
  | 0 => .empty
  | k + 1 =>
    match call.fetch k with
    | some f => call.record k f (written k)
    | none => written k

variable {call} {i j k : ℕ} {stmt : Stmt ρ} {f : SingleFetch ρ}

theorem lt_rounds_iff : i + 1 < call.rounds ↔ i + 1 < call.arraySize := by
  rw [rounds]
  omega

theorem fetch_of_before (h : call.before i = some stmt) :
    call.fetch i = call.singleFetch i (stmt.clientSeek (i + 1)) := by
  rw [fetch, h, Option.bind_some]

/-- The next fetch is reached behind a successful one. -/
theorem before_succ_eq (h : call.fetch i = some f) : call.before (i + 1) =
    if f.code = .success ∧ i + 1 < call.arraySize then some f.stmt else none := by
  obtain ⟨stmt, hbefore, hfetch⟩ := Option.bind_eq_some_iff.mp h
  rw [before, hbefore, Option.bind_some, hfetch, Option.bind_some]

theorem before_succ_none (h : call.fetch i = none) : call.before (i + 1) = none := by
  rw [before]
  cases hbefore : call.before i with
  | none => rfl
  | some stmt =>
    rw [fetch_of_before hbefore] at h
    rw [Option.bind_some, h, Option.bind_none]

/-- No fetch is reached behind one that is not. -/
theorem before_none_of_le (h : call.before i = none) (hle : i ≤ j) : call.before j = none := by
  induction j, hle using Nat.le_induction with
  | base => exact h
  | succ j _ ih => rw [before, ih, Option.bind_none]

theorem fetch_none_of_before (h : call.before i = none) : call.fetch i = none := by
  rw [fetch, h, Option.bind_none]

/-- Only so many fetches are reached. -/
theorem before_none (h : call.rounds ≤ i) : call.before i = none := by
  obtain ⟨r, hr⟩ : ∃ r, call.rounds = r + 1 := ⟨call.rounds - 1, by rw [rounds]; omega⟩
  have hlast : call.before (r + 1) = none := by
    cases hfetch : call.fetch r with
    | none => exact before_succ_none hfetch
    | some f =>
      rw [before_succ_eq hfetch, if_neg]
      rintro ⟨-, hlt⟩
      have := lt_rounds_iff.mpr hlt
      omega
  exact before_none_of_le hlast (by omega)

/-- Fetches that are not reached write nothing. -/
theorem written_of_none (h : call.before i = none) (hle : i ≤ k) :
    call.written k = call.written i := by
  induction k, hle using Nat.le_induction with
  | base => rfl
  | succ k hk ih =>
    rw [written, fetch_none_of_before (before_none_of_le h hk)]
    exact ih

/-- The loop ends with what all fetches have written, unless one of them does not return. -/
theorem fetchFrom_spec {remaining : ℕ} (hbefore : call.before i = some stmt)
    (hrounds : i + remaining + 1 = call.rounds) :
    ((∀ j stmt, i ≤ j → call.before j = some stmt →
        (call.singleFetch j (stmt.clientSeek (j + 1))).isSome) ∧
      ∃ out, call.fetchFrom remaining i stmt (call.written i) = some out ∧
        out.memory = call.written call.rounds) ∨
    (call.fetchFrom remaining i stmt (call.written i) = none ∧
      ∃ j stmt, call.before j = some stmt ∧
        call.singleFetch j (stmt.clientSeek (j + 1)) = none) := by
  induction remaining generalizing i stmt with
  | zero =>
    have hend : call.before (i + 1) = none := before_none (by omega)
    cases hsingle : call.singleFetch i (stmt.clientSeek (i + 1)) with
    | none => exact Or.inr ⟨by rw [fetchFrom, hsingle, Option.map_none], i, stmt, hbefore, hsingle⟩
    | some f =>
      refine Or.inl ⟨?_, call.leave i f (call.written i), ?_, ?_⟩
      · intro j stmt' hle hj
        rcases Nat.eq_or_lt_of_le hle with rfl | hlt
        · rw [hbefore] at hj
          cases hj
          rw [hsingle]
          rfl
        · rw [before_none_of_le hend hlt] at hj
          cases hj
      · rw [fetchFrom, hsingle, Option.map_some]
      · have hwritten : call.written call.rounds = call.written (i + 1) := by rw [← hrounds]
        rw [hwritten, written, fetch_of_before hbefore, hsingle]
        rfl
  | succ remaining ih =>
    cases hsingle : call.singleFetch i (stmt.clientSeek (i + 1)) with
    | none => exact Or.inr ⟨by rw [fetchFrom, hsingle, Option.bind_none], i, stmt, hbefore, hsingle⟩
    | some f =>
      have hfetch : call.fetch i = some f := (fetch_of_before hbefore).trans hsingle
      have hwritten : call.written (i + 1) = call.record i f (call.written i) := by
        rw [written, hfetch]
      have hreturns : ∀ stmt', call.before i = some stmt' →
          (call.singleFetch i (stmt'.clientSeek (i + 1))).isSome := by
        intro stmt' h
        rw [hbefore] at h
        cases h
        rw [hsingle]
        rfl
      by_cases hcode : f.code = .success
      · have hnext : call.before (i + 1) = some f.stmt := by
          rw [before_succ_eq hfetch, if_pos ⟨hcode, lt_rounds_iff.mp (by omega)⟩]
        have hloop : call.fetchFrom (remaining + 1) i stmt (call.written i) =
            call.fetchFrom remaining (i + 1) f.stmt (call.written (i + 1)) := by
          rw [fetchFrom, hsingle, Option.bind_some, if_pos hcode, hwritten]
        rw [hloop]
        refine (ih hnext (by omega)).imp (fun h => ⟨?_, h.2⟩) id
        intro j stmt' hle hj
        rcases Nat.eq_or_lt_of_le hle with rfl | hlt
        · exact hreturns stmt' hj
        · exact h.1 j stmt' hlt hj
      · have hend : call.before (i + 1) = none := by
          rw [before_succ_eq hfetch, if_neg fun h => hcode h.1]
        refine Or.inl ⟨?_, call.leave i f (call.written i), ?_, ?_⟩
        · intro j stmt' hle hj
          rcases Nat.eq_or_lt_of_le hle with rfl | hlt
          · exact hreturns stmt' hj
          · rw [before_none_of_le hend hlt] at hj
            cases hj
        · rw [fetchFrom, hsingle, Option.bind_some, if_neg hcode]
        · have hlast : call.written call.rounds = call.written (i + 1) :=
            written_of_none hend (by omega)
          rw [hlast, hwritten]
          rfl

/-- The call returns exactly when all its fetches do, and leaves what they have written. -/
theorem fetchBookmark_spec (hbookmarks : call.bookmarks = true) (hbound : call.bound = true) :
    (∃ out, call.fetchBookmark = some out ∧ call.DeliversRows out.memory) ↔
      (∀ i stmt, call.before i = some stmt →
        (call.singleFetch i (stmt.clientSeek (i + 1))).isSome) ∧
      call.DeliversRows (call.written call.rounds) := by
  have hloop : call.fetchBookmark =
      call.fetchFrom (call.arraySize - 1) 0 call.stmt (call.written 0) :=
    if_pos ⟨hbookmarks, hbound⟩
  have hspec := @fetchFrom_spec _ call 0 call.stmt (call.arraySize - 1) rfl
    (by rw [rounds]; omega)
  rw [hloop]
  rcases hspec with ⟨hreturns, out, hout, hmemory⟩ | ⟨hnone, i, stmt, hbefore, hsingle⟩
  · have hall : ∀ i stmt, call.before i = some stmt →
        (call.singleFetch i (stmt.clientSeek (i + 1))).isSome :=
      fun i stmt h => hreturns i stmt (Nat.zero_le i) h
    rw [hout]
    constructor
    · rintro ⟨out', heq, hdelivers⟩
      cases heq
      exact ⟨hall, hmemory ▸ hdelivers⟩
    · rintro ⟨-, hdelivers⟩
      exact ⟨out, rfl, hmemory ▸ hdelivers⟩
  · rw [hnone]
    refine iff_of_false (fun ⟨_, h, _⟩ => by cases h) fun h => ?_
    have hsome := h.1 i stmt hbefore
    rw [hsingle] at hsome
    cases hsome

variable (call) in
/-- The write of a fetch to the buffers. -/
def copyWrite (i : ℕ) : Option (ℕ × ℕ × ℕ) :=
  if call.fill.isSome then (call.copies i).map fun copy => (copy.1, i, copy.2) else none

variable (call) in
/-- The last write of a fetch to the row status array. -/
def statusWrite (i : ℕ) : Option (ℕ × RowStatus) :=
  if call.rowStatusPtr then
    (call.arrives i).map fun element => (element, if call.disconnected i then .error else .norow)
  else none

variable (call) in
/-- The write of a fetch to `rows_processed_ptr`. -/
def countWrite (i : ℕ) : Option (Unit × ℕ) :=
  if call.rowsProcessedPtr then (call.counts i).map fun count => ((), count) else none

theorem written_copied : (call.written k).copied = Writes.memory call.copyWrite k := by
  induction k with
  | zero => rfl
  | succ k ih =>
    rw [Writes.memory, ← ih, written]
    cases hfetch : call.fetch k with
    | none => simp [copyWrite, copies, hfetch, Writes.store]
    | some f =>
      simp only [record, copyWrite, copies, hfetch, Option.bind_some]
      cases f.copies with
      | none => simp [Writes.store]
      | some copy => by_cases hfill : call.fill.isSome <;> simp [hfill, Writes.store]

theorem written_rowStatus : (call.written k).rowStatus = Writes.memory call.statusWrite k := by
  induction k with
  | zero => rfl
  | succ k ih =>
    rw [Writes.memory, ← ih, written]
    cases hfetch : call.fetch k with
    | none => simp [statusWrite, arrives, hfetch, Writes.store]
    | some f =>
      simp only [record, statusWrite, arrives, hfetch, Option.bind_some]
      cases harrival : f.arrival with
      | none => simp [Writes.store]
      | some a =>
        by_cases hptr : call.rowStatusPtr = true
        · obtain ⟨curRow, row⟩ := a
          cases row with
          | none => simp [hptr, Writes.store]
          | some row => simp [hptr, Writes.store]
        · simp [hptr, Writes.store]

theorem written_rowsProcessed :
    (call.written k).rowsProcessed = Writes.memory call.countWrite k () := by
  induction k with
  | zero => rfl
  | succ k ih =>
    rw [Writes.memory, written]
    cases hfetch : call.fetch k with
    | none => simp [countWrite, counts, hfetch, Writes.store, ih]
    | some f =>
      simp only [record, countWrite, counts, hfetch, Option.bind_some]
      by_cases hptr : call.rowsProcessedPtr = true
      · cases f.pcrow with
        | none => simp [hptr, Writes.store, ih]
        | some count => simp [hptr, Writes.store]
      · simp [hptr, Writes.store, ih]

theorem written_fetched : (call.written k).fetched =
    (List.range k).countP fun i => (call.copies i).isSome := by
  induction k with
  | zero => rfl
  | succ k ih =>
    rw [List.range_succ, List.countP_append, ← ih, written]
    cases hfetch : call.fetch k with
    | none =>
      have hcopies : call.copies k = none := by rw [copies, hfetch, Option.bind_none]
      simp [hcopies]
    | some f =>
      have hcopies : call.copies k = f.copies := by rw [copies, hfetch, Option.bind_some]
      simp only [record]
      by_cases hsome : f.copies.isSome <;> simp [hcopies, hsome]

/-- Only the fetches of the rounds write. -/
theorem fetch_lt (h : call.fetch i ≠ none) : i < call.rounds := by
  by_contra hle
  exact h (fetch_none_of_before (before_none (Nat.le_of_not_lt hle)))

theorem copies_lt (h : call.copies i ≠ none) : i < call.rounds := by
  refine fetch_lt fun hnone => h ?_
  rw [copies, hnone, Option.bind_none]

theorem arrives_lt (h : call.arrives i ≠ none) : i < call.rounds := by
  refine fetch_lt fun hnone => h ?_
  rw [arrives, hnone, Option.bind_none]

theorem counts_lt (h : call.counts i ≠ none) : i < call.rounds := by
  refine fetch_lt fun hnone => h ?_
  rw [counts, hnone, Option.bind_none]

theorem copyWrite_eq_some_iff (hfill : call.fill.isSome) {element row : ℕ} :
    call.copyWrite j = some (element, i, row) ↔ j = i ∧ call.copies j = some (element, row) := by
  rw [copyWrite, if_pos hfill, Option.map_eq_some_iff]
  constructor
  · rintro ⟨⟨element', row'⟩, hcopies, heq⟩
    cases heq
    exact ⟨rfl, hcopies⟩
  · rintro ⟨rfl, hcopies⟩
    exact ⟨_, hcopies, rfl⟩

/-- An element holds its own bookmark's row when the fetch copied it and no later one did. -/
theorem written_copied_eq_iff (hfill : call.fill.isSome) {row : ℕ} :
    (call.written call.rounds).copied i = some (i, row) ↔
      call.copies i = some (i, row) ∧ ∀ j, i < j → ∀ row', call.copies j ≠ some (i, row') := by
  rw [written_copied, Writes.memory_eq_some_iff]
  constructor
  · rintro ⟨j, hj, hwrite, hlast⟩
    obtain ⟨rfl, hcopies⟩ := (copyWrite_eq_some_iff hfill).mp hwrite
    refine ⟨hcopies, fun j' hlt row' hcopies' => ?_⟩
    have hj' : j' < call.rounds := copies_lt (by rw [hcopies']; exact Option.some_ne_none _)
    exact hlast j' hlt hj' (j', row') ((copyWrite_eq_some_iff hfill).mpr ⟨rfl, hcopies'⟩)
  · rintro ⟨hcopies, hlast⟩
    have hi : i < call.rounds := copies_lt (by rw [hcopies]; exact Option.some_ne_none _)
    refine ⟨i, hi, (copyWrite_eq_some_iff hfill).mpr ⟨rfl, hcopies⟩, ?_⟩
    rintro j' hlt - ⟨j, row'⟩ hwrite
    obtain ⟨-, hcopies'⟩ := (copyWrite_eq_some_iff hfill).mp hwrite
    exact hlast j' hlt row' hcopies'

theorem statusWrite_eq_some_iff (hptr : call.rowStatusPtr = true) {element : ℕ}
    {status : RowStatus} : call.statusWrite j = some (element, status) ↔
      call.arrives j = some element ∧
        status = if call.disconnected j then .error else .norow := by
  rw [statusWrite, if_pos hptr, Option.map_eq_some_iff]
  constructor
  · rintro ⟨element', harrives, heq⟩
    cases heq
    exact ⟨harrives, rfl⟩
  · rintro ⟨harrives, rfl⟩
    exact ⟨element, harrives, rfl⟩

/-- The only outcome that a row status can have in the end is an error, behind a lost
connection. -/
theorem written_rowStatus_eq_iff (hptr : call.rowStatusPtr = true) {res : SqlReturn} :
    (call.written call.rounds).rowStatus i = some (sqlreturn2rowStatus res) ↔
      res.succeeded = false ∧ ∃ j, call.arrives j = some i ∧ call.disconnected j = true ∧
        ∀ j', j < j' → call.arrives j' ≠ some i := by
  rw [written_rowStatus, Writes.memory_eq_some_iff]
  constructor
  · rintro ⟨j, hj, hwrite, hlast⟩
    obtain ⟨harrives, hstatus⟩ := (statusWrite_eq_some_iff hptr).mp hwrite
    have hdisconnected : call.disconnected j = true := by
      by_contra hconnected
      rw [if_neg hconnected] at hstatus
      cases res <;> cases hstatus
    rw [if_pos hdisconnected] at hstatus
    refine ⟨?_, j, harrives, hdisconnected, fun j' hlt harrives' => ?_⟩
    · cases res <;> first | rfl | cases hstatus
    · have hj' : j' < call.rounds := arrives_lt (by rw [harrives']; exact Option.some_ne_none _)
      exact hlast j' hlt hj' _ ((statusWrite_eq_some_iff hptr).mpr ⟨harrives', rfl⟩)
  · rintro ⟨hfails, j, harrives, hdisconnected, hlast⟩
    have hj : j < call.rounds := arrives_lt (by rw [harrives]; exact Option.some_ne_none _)
    refine ⟨j, hj, (statusWrite_eq_some_iff hptr).mpr ⟨harrives, ?_⟩, ?_⟩
    · rw [if_pos hdisconnected]
      cases res <;> first | rfl | cases hfails
    · intro j' hlt _ status hwrite
      exact hlast j' hlt ((statusWrite_eq_some_iff hptr).mp hwrite).1

theorem countWrite_eq_some_iff (hptr : call.rowsProcessedPtr = true) {count : ℕ} :
    call.countWrite j = some ((), count) ↔ call.counts j = some count := by
  rw [countWrite, if_pos hptr, Option.map_eq_some_iff]
  constructor
  · rintro ⟨count', hcounts, heq⟩
    cases heq
    exact hcounts
  · exact fun hcounts => ⟨count, hcounts, rfl⟩

/-- The last number that is written stays. -/
theorem written_rowsProcessed_eq_iff (hptr : call.rowsProcessedPtr = true) {count : ℕ} :
    (call.written call.rounds).rowsProcessed = some count ↔
      ∃ j, call.counts j = some count ∧ ∀ j', j < j' → call.counts j' = none := by
  rw [written_rowsProcessed, Writes.memory_eq_some_iff]
  constructor
  · rintro ⟨j, hj, hwrite, hlast⟩
    refine ⟨j, (countWrite_eq_some_iff hptr).mp hwrite, fun j' hlt => ?_⟩
    by_contra hsome
    obtain ⟨count', hcounts⟩ := Option.ne_none_iff_exists'.mp hsome
    exact hlast j' hlt (counts_lt hsome) count' ((countWrite_eq_some_iff hptr).mpr hcounts)
  · rintro ⟨j, hcounts, hlast⟩
    have hj : j < call.rounds := counts_lt (by rw [hcounts]; exact Option.some_ne_none _)
    refine ⟨j, hj, (countWrite_eq_some_iff hptr).mpr hcounts, ?_⟩
    intro j' hlt _ count' hwrite
    have := (countWrite_eq_some_iff hptr).mp hwrite
    rw [hlast j' hlt] at this
    cases this

/-- What was written outside the supplied array. -/
theorem written_inside_iff : (∀ element, (call.written call.rounds).copied element ≠ none ∨
      (call.written call.rounds).rowStatus element ≠ none → element < call.arraySize) ↔
    ∀ j element, (call.fill.isSome ∧ ∃ row, call.copies j = some (element, row)) ∨
      (call.rowStatusPtr = true ∧ call.arrives j = some element) → element < call.arraySize := by
  rw [written_copied, written_rowStatus]
  constructor
  · rintro h j element (⟨hfill, row, hcopies⟩ | ⟨hptr, harrives⟩)
    · refine h element (Or.inl (Writes.memory_ne_none_iff.mpr ⟨j, ?_, (j, row), ?_⟩))
      · exact copies_lt (by rw [hcopies]; exact Option.some_ne_none _)
      · exact (copyWrite_eq_some_iff hfill).mpr ⟨rfl, hcopies⟩
    · refine h element (Or.inr (Writes.memory_ne_none_iff.mpr
        ⟨j, ?_, if call.disconnected j then .error else .norow, ?_⟩))
      · exact arrives_lt (by rw [harrives]; exact Option.some_ne_none _)
      · exact (statusWrite_eq_some_iff hptr).mpr ⟨harrives, rfl⟩
  · rintro h element (hcopied | hstatus)
    · obtain ⟨j, -, ⟨i, row⟩, hwrite⟩ := Writes.memory_ne_none_iff.mp hcopied
      have hfill : call.fill.isSome := by
        by_contra hfill
        rw [copyWrite, if_neg hfill] at hwrite
        cases hwrite
      obtain ⟨-, hcopies⟩ := (copyWrite_eq_some_iff hfill).mp hwrite
      exact h j element (Or.inl ⟨hfill, row, hcopies⟩)
    · obtain ⟨j, -, status, hwrite⟩ := Writes.memory_ne_none_iff.mp hstatus
      have hptr : call.rowStatusPtr = true := by
        by_contra hptr
        rw [statusWrite, if_neg hptr] at hwrite
        cases hwrite
      exact h j element (Or.inr ⟨hptr, ((statusWrite_eq_some_iff hptr).mp hwrite).1⟩)

/-- The call delivers the rows exactly when its fetches do. -/
theorem delivers_iff_fetchesFit (hbookmarks : call.bookmarks = true) (hbound : call.bound = true) :
    (∃ out, call.fetchBookmark = some out ∧ call.DeliversRows out.memory) ↔ call.FetchesFit := by
  rw [fetchBookmark_spec hbookmarks hbound]
  constructor
  · rintro ⟨hreturns, hcopied, hstatus, hcount, hinside⟩
    refine ⟨hreturns, ?_, ?_, ?_, written_inside_iff.mp hinside⟩
    · intro hfill i hi row hrow
      exact (written_copied_eq_iff hfill).mp (hcopied hfill i hi row hrow)
    · intro hptr i hi row hrow
      exact (written_rowStatus_eq_iff hptr).mp (hstatus hptr i hi row hrow)
    · intro hptr
      have hlast := hcount hptr
      rw [written_fetched] at hlast
      exact (written_rowsProcessed_eq_iff hptr).mp hlast
  · rintro ⟨hreturns, hcopied, hstatus, hcount, hinside⟩
    refine ⟨hreturns, ?_, ?_, ?_, written_inside_iff.mpr hinside⟩
    · intro hfill i hi row hrow
      exact (written_copied_eq_iff hfill).mpr (hcopied hfill i hi row hrow)
    · intro hptr i hi row hrow
      exact (written_rowStatus_eq_iff hptr).mpr (hstatus hptr i hi row hrow)
    · intro hptr
      rw [written_fetched]
      exact (written_rowsProcessed_eq_iff hptr).mpr (hcount hptr)

/-- The statement before the fetch of a bookmark, in a call that is positioned. -/
structure Ready (call : BookmarkFetch ρ) (i : ℕ) (stmt : Stmt ρ) : Prop where
  scroller : stmt.scroller = none
  resultArray : stmt.resultArray = false
  forwardCache : stmt.ifForwardCache = false
  rows : stmt.result.rows = call.stmt.rowsOfResult
  seekOffset : ∀ row, call.rowOf (call.bookmark i) = some row → stmt.seekOffset row = some row

theorem rowsOfResult_of_scroller (h : stmt.scroller = none) : stmt.rowsOfResult = stmt.result.rows := by
  rw [Stmt.rowsOfResult, h]

theorem Positioned.ready (h : call.Positioned) : Ready call 0 call.stmt :=
  ⟨h.scroller, h.resultArray, h.forwardCache, (rowsOfResult_of_scroller h.scroller).symm,
    h.seekOffset⟩

theorem rowOf_lt {b : ℤ} {row : ℕ} (h : call.rowOf b = some row) :
    row < call.stmt.rowsOfResult.length := by
  simp only [rowOf] at h
  split_ifs at h
  all_goals
    have := Option.some.inj h
    omega

/-- The row that a single fetch computes for a bookmark of a row. -/
theorem targetRow_of_row {row : ℕ} (hcount : stmt.numRows = call.stmt.rowsOfResult.length)
    (h : call.rowOf (call.bookmark i) = some row) :
    stmt.targetRow .absolute (call.bookmark i) 1 = row := by
  simp only [rowOf] at h
  simp only [Stmt.targetRow, hcount]
  split_ifs at h ⊢
  all_goals
    have := Option.some.inj h
    omega

/-- Without a row it lies behind the end or in front of the first row. -/
theorem targetRow_of_none (hcount : stmt.numRows = call.stmt.rowsOfResult.length)
    (h : call.rowOf (call.bookmark i) = none) :
    (call.BehindEnd i → 0 ≤ stmt.targetRow .absolute (call.bookmark i) 1 ∧
      (call.stmt.rowsOfResult.length : ℤ) ≤ stmt.targetRow .absolute (call.bookmark i) 1) ∧
    (¬ call.BehindEnd i → stmt.targetRow .absolute (call.bookmark i) 1 < 0) := by
  simp only [rowOf] at h
  simp only [Stmt.targetRow, BehindEnd, hcount, ← List.length_eq_zero_iff]
  split_ifs at h ⊢
  all_goals omega

theorem seekRow_scroller (stmt : Stmt ρ) (curRow : ℤ) :
    (stmt.seekRow curRow).scroller = stmt.scroller := by
  rw [Stmt.seekRow]
  split_ifs <;> rfl

theorem seekRow_ifForwardCache (stmt : Stmt ρ) (curRow : ℤ) :
    (stmt.seekRow curRow).ifForwardCache = stmt.ifForwardCache := by
  rw [Stmt.seekRow]
  split_ifs <;> rfl

namespace Ready

variable {row : ℕ}

theorem clientSeek (h : Ready call i stmt) (k : ℕ) : stmt.clientSeek k = stmt.dataSeek k := by
  rw [Stmt.clientSeek, h.forwardCache, if_neg]
  simp

theorem numRows (h : Ready call i stmt) (k : ℕ) :
    (stmt.dataSeek k).numRows = call.stmt.rowsOfResult.length := by
  have hcache : ¬ ((stmt.dataSeek k).ifForwardCache = true ∧
      ¬ (stmt.dataSeek k).resultArray = true) := by
    rintro ⟨hforward, -⟩
    rw [show (stmt.dataSeek k).ifForwardCache = stmt.ifForwardCache from rfl,
      h.forwardCache] at hforward
    cases hforward
  rw [Stmt.numRows, if_neg hcache, ← h.rows]
  simp [Stmt.dataSeek, h.scroller, ClientResult.dataSeek]

/-- The pointer is sought. -/
theorem seekRow (h : Ready call i stmt) (hrow : call.rowOf (call.bookmark i) = some row) (k : ℕ) :
    (stmt.dataSeek k).seekRow row =
      { stmt with result := ⟨call.stmt.rowsOfResult, some row⟩, currentRow := row } := by
  have hoffset := h.seekOffset row hrow
  have hcast : ((row : ℤ) ≠ 0) ↔ row ≠ 0 := by omega
  rw [Stmt.seekOffset, h.rows] at hoffset
  have hlibrary : ¬ (stmt.dataSeek k).resultArray = true ∧
      ¬ (stmt.dataSeek k).ifForwardCache = true := by
    rw [show (stmt.dataSeek k).ifForwardCache = stmt.ifForwardCache from rfl, h.forwardCache,
      show (stmt.dataSeek k).resultArray = stmt.resultArray from rfl, h.resultArray]
    decide
  rw [Stmt.seekRow, if_pos hlibrary]
  by_cases hbehind : stmt.cursorType ≠ .dynamic ∧ row ≠ 0 ∧
      (row : ℤ) = stmt.currentRow + stmt.rowsFoundInSet
  · rw [if_pos hbehind] at hoffset
    have hsought : (stmt.dataSeek k).cursorType ≠ .dynamic ∧ (row : ℤ) ≠ 0 ∧
        (row : ℤ) = (stmt.dataSeek k).currentRow + (stmt.dataSeek k).rowsFoundInSet :=
      ⟨hbehind.1, hcast.mpr hbehind.2.1, hbehind.2.2⟩
    rw [if_pos hsought, ← h.rows, ← hoffset]
    rfl
  · rw [if_neg hbehind] at hoffset
    have hsought : ¬ ((stmt.dataSeek k).cursorType ≠ .dynamic ∧ (row : ℤ) ≠ 0 ∧
        (row : ℤ) = (stmt.dataSeek k).currentRow + (stmt.dataSeek k).rowsFoundInSet) :=
      fun h' => hbehind ⟨h'.1, hcast.mp h'.2.1, h'.2.2⟩
    rw [if_neg hsought, ← hoffset, ← h.rows]
    rfl

/-- The row is fetched. -/
theorem fetchValues (h : Ready call i stmt) {values : ρ}
    (hvalues : call.stmt.rowsOfResult[row]? = some values) :
    call.fetchValues i { stmt with result := ⟨call.stmt.rowsOfResult, some row⟩, currentRow := row } =
      (some (row, values), some row,
        { stmt with
          result := ⟨call.stmt.rowsOfResult, ClientResult.offsetAt call.stmt.rowsOfResult (row + 1)⟩
          currentRow := row }) := by
  have hnumbered : Stmt.fetchNumbered
      { stmt with result := ⟨call.stmt.rowsOfResult, some row⟩, currentRow := row } =
      (some (row, values), { stmt with
        result := ⟨call.stmt.rowsOfResult, ClientResult.offsetAt call.stmt.rowsOfResult (row + 1)⟩
        currentRow := row }) := by
    simp [Stmt.fetchNumbered, h.resultArray, ClientResult.fetchRow, ClientResult.rowTell, hvalues,
      Stmt.windowStart, h.scroller]
  rw [BookmarkFetch.fetchValues, hnumbered]
  rfl

/-- What the fetch of a row leaves. -/
theorem arrive (h : Ready call i stmt) {values : ρ}
    (hvalues : call.stmt.rowsOfResult[row]? = some values) :
    call.arrive i { stmt with result := ⟨call.stmt.rowsOfResult, some row⟩, currentRow := row } row =
      { code := singleRes (call.rowRes values) row
        stmt :=
          if (singleRes (call.rowRes values) row).succeeded then
            { stmt with
              result := ⟨call.stmt.rowsOfResult, some row⟩
              currentRow := row
              rowsFoundInSet := 1
              endOfSet := ClientResult.offsetAt call.stmt.rowsOfResult (row + 1) }
          else
            { stmt with
              result := ⟨call.stmt.rowsOfResult, ClientResult.offsetAt call.stmt.rowsOfResult (row + 1)⟩
              currentRow := row
              rowsFoundInSet := 1 }
        pcrow := some row
        arrival := some ⟨row, some (row, values)⟩ } := by
  have hforward : ¬ (stmt.cursorType = .forwardOnly ∧ stmt.optNoCache = true) := by
    simpa [Stmt.ifForwardCache] using h.forwardCache
  rw [BookmarkFetch.arrive, h.fetchValues hvalues]
  simp [Stmt.ifForwardCache, hforward, ClientResult.rowSeek]

/-- The fetch of a bookmark of a row. -/
theorem singleFetch_of_row (h : Ready call i stmt)
    (hrow : call.rowOf (call.bookmark i) = some row) :
    ∃ f, call.singleFetch i (stmt.clientSeek (i + 1)) = some f ∧
      f.code = singleRes (call.outcome row) row ∧ f.pcrow = some row ∧
      f.copies = some (row % 2 ^ 32, row) ∧ f.arrival.map Arrival.curRow = some row ∧
      (f.code = .success → Ready call (i + 1) f.stmt) := by
  have hlt := rowOf_lt hrow
  obtain ⟨values, hvalues⟩ : ∃ values, call.stmt.rowsOfResult[row]? = some values :=
    ⟨_, List.getElem?_eq_getElem hlt⟩
  have houtcome : call.outcome row = call.rowRes values := by
    rw [outcome, hvalues]
    rfl
  have hcount := h.numRows (i + 1)
  have htarget := targetRow_of_row hcount hrow
  have hsingle : call.singleFetch i (stmt.clientSeek (i + 1)) = some (call.arrive i
      { stmt with result := ⟨call.stmt.rowsOfResult, some row⟩, currentRow := row } row) := by
    rw [h.clientSeek, BookmarkFetch.singleFetch]
    simp only [htarget, hcount]
    rw [if_neg (by omega), if_neg (by omega), fetchPositioned, h.seekRow hrow]
    rw [if_pos (Or.inr (Or.inr (Or.inl (by exact_mod_cast hlt)))), Int.toNat_natCast]
  rw [hsingle, h.arrive hvalues, houtcome]
  refine ⟨_, rfl, rfl, rfl, rfl, rfl, ?_⟩
  intro hcode
  have hsucceeded : (singleRes (call.rowRes values) row).succeeded = true := by
    dsimp only at hcode
    rw [hcode]
    rfl
  dsimp only
  rw [if_pos hsucceeded]
  refine ⟨h.scroller, h.resultArray, h.forwardCache, rfl, ?_⟩
  intro row' hrow'
  have hlt' := rowOf_lt hrow'
  rw [Stmt.seekOffset]
  split_ifs with hbehind
  · have heq : row' = row + 1 := by
      have := hbehind.2.2
      dsimp only at this
      omega
    rw [← heq]
    exact if_pos hlt'
  · exact if_pos hlt'

/-- The fetch of a bookmark of no row. -/
theorem singleFetch_of_none (h : Ready call i stmt) (hparams : call.outParams = false)
    (hrow : call.rowOf (call.bookmark i) = none) :
    ∃ f, call.singleFetch i (stmt.clientSeek (i + 1)) = some f ∧ f.code = .successWithInfo ∧
      f.copies = none ∧ f.arrival = none ∧
      (call.BehindEnd i → f.pcrow = some 0) ∧ (¬ call.BehindEnd i → f.pcrow = none) := by
  have hcount := h.numRows (i + 1)
  obtain ⟨hbehind, hbefore⟩ := targetRow_of_none hcount hrow
  rw [h.clientSeek, BookmarkFetch.singleFetch]
  by_cases hend : call.BehindEnd i
  · obtain ⟨hnonneg, hle⟩ := hbehind hend
    have hpositioned {curRow : ℤ} (hcur : (call.stmt.rowsOfResult.length : ℤ) ≤ curRow) :
        call.fetchPositioned i (stmt.dataSeek (i + 1)) call.stmt.rowsOfResult.length curRow =
          { code := .successWithInfo
            stmt := { (stmt.dataSeek (i + 1)).seekRow curRow with rowsFoundInSet := 0 }
            pcrow := some 0
            arrival := none } := by
      rw [fetchPositioned, if_neg]
      rintro (hscroller | ⟨hforward, -⟩ | hlt | hout)
      · rw [seekRow_scroller, show (stmt.dataSeek (i + 1)).scroller = stmt.scroller from rfl,
          h.scroller] at hscroller
        cases hscroller
      · rw [seekRow_ifForwardCache, show (stmt.dataSeek (i + 1)).ifForwardCache =
          stmt.ifForwardCache from rfl, h.forwardCache] at hforward
        cases hforward
      · omega
      · rw [hparams] at hout
        cases hout
    have hscroller : (stmt.dataSeek (i + 1)).scroller = none := h.scroller
    simp only [if_neg (not_lt.mpr hnonneg), hcount, hscroller]
    split_ifs
    · rw [hpositioned le_rfl]
      exact ⟨_, rfl, rfl, rfl, rfl, fun _ => rfl, fun h => absurd hend h⟩
    · rw [hpositioned hle]
      exact ⟨_, rfl, rfl, rfl, rfl, fun _ => rfl, fun h => absurd hend h⟩
  · have hlt := hbefore hend
    simp only [if_pos hlt]
    exact ⟨_, rfl, rfl, rfl, rfl, fun h => absurd h hend, fun _ => rfl⟩

end Ready

/-- The fetch of a bookmark is reached: all bookmarks before it are copied. -/
structure Processed (call : BookmarkFetch ρ) (i : ℕ) : Prop where
  lt : i < call.rounds
  copied : ∀ j < i, call.Copied j

theorem singleRes_eq_success_iff {res : SqlReturn} {row : ℕ} :
    singleRes res row = .success ↔ res = .success := by
  rw [singleRes]
  split_ifs with h
  all_goals simp [h]

/-- In a call that is positioned the fetches stay ready, and are reached as long as the rows
are copied. -/
theorem Positioned.before_iff (h : call.Positioned) :
    ((∃ stmt, call.before i = some stmt) ↔ Processed call i) ∧
      ∀ stmt, call.before i = some stmt → Ready call i stmt := by
  induction i with
  | zero =>
    refine ⟨iff_of_true ⟨call.stmt, rfl⟩ ⟨by rw [rounds]; omega, fun j hj => ?_⟩, ?_⟩
    · exact absurd hj (Nat.not_lt_zero j)
    · intro stmt hbefore
      cases hbefore
      exact h.ready
  | succ i ih =>
    obtain ⟨hiff, hready⟩ := ih
    cases hbefore : call.before i with
    | none =>
      have hnone : call.before (i + 1) = none := before_none_of_le hbefore (Nat.le_succ i)
      have hnot : ¬ Processed call i := by
        intro hprocessed
        obtain ⟨stmt, hsome⟩ := hiff.mpr hprocessed
        rw [hbefore] at hsome
        cases hsome
      rw [hnone]
      refine ⟨iff_of_false (fun ⟨_, h⟩ => by cases h) fun hprocessed => hnot ?_,
        fun stmt h => by cases h⟩
      exact ⟨Nat.lt_of_succ_lt hprocessed.lt,
        fun j hj => hprocessed.copied j (Nat.lt_succ_of_lt hj)⟩
    | some stmt =>
      have hprocessed := hiff.mp ⟨stmt, hbefore⟩
      have hfetch := fetch_of_before hbefore
      have hstep : Processed call (i + 1) ↔ call.Copied i ∧ i + 1 < call.arraySize := by
        rw [← lt_rounds_iff]
        constructor
        · exact fun h => ⟨h.copied i (Nat.lt_succ_self i), h.lt⟩
        · rintro ⟨hcopied, hlt⟩
          refine ⟨hlt, fun j hj => ?_⟩
          rcases Nat.lt_succ_iff_lt_or_eq.mp hj with hj | rfl
          · exact hprocessed.copied j hj
          · exact hcopied
      rw [hstep]
      cases hrow : call.rowOf (call.bookmark i) with
      | none =>
        obtain ⟨f, hsingle, hcode, -⟩ := (hready stmt hbefore).singleFetch_of_none h.outParams hrow
        rw [before_succ_eq (hfetch.trans hsingle), if_neg (by rw [hcode]; rintro ⟨h, -⟩; cases h)]
        refine ⟨iff_of_false (fun ⟨_, h⟩ => by cases h) ?_, fun stmt h => by cases h⟩
        rintro ⟨⟨row, hrow', -⟩, -⟩
        rw [hrow] at hrow'
        cases hrow'
      | some row =>
        obtain ⟨f, hsingle, hcode, -, -, -, hnext⟩ := (hready stmt hbefore).singleFetch_of_row hrow
        have hcopied : f.code = .success ↔ call.Copied i := by
          rw [hcode, singleRes_eq_success_iff]
          constructor
          · exact fun houtcome => ⟨row, hrow, houtcome⟩
          · rintro ⟨row', hrow', houtcome⟩
            rw [hrow] at hrow'
            cases hrow'
            exact houtcome
        rw [before_succ_eq (hfetch.trans hsingle), ← hcopied]
        by_cases hgoes : f.code = .success ∧ i + 1 < call.arraySize
        · rw [if_pos hgoes]
          refine ⟨iff_of_true ⟨_, rfl⟩ hgoes, fun stmt' h => ?_⟩
          cases h
          exact hnext hgoes.1
        · rw [if_neg hgoes]
          exact ⟨iff_of_false (fun ⟨_, h⟩ => by cases h) hgoes, fun stmt' h => by cases h⟩

namespace Positioned

variable {row : ℕ}

/-- The fetch of a bookmark of a row. -/
theorem fetch_of_row (h : call.Positioned) (hprocessed : Processed call i)
    (hrow : call.rowOf (call.bookmark i) = some row) :
    call.copies i = some (row % 2 ^ 32, row) ∧ call.arrives i = some row ∧
      call.counts i = some row := by
  obtain ⟨stmt, hbefore⟩ := h.before_iff.1.mpr hprocessed
  obtain ⟨f, hsingle, -, hcount, hcopies, harrives, -⟩ :=
    (h.before_iff.2 stmt hbefore).singleFetch_of_row hrow
  have hfetch := (fetch_of_before hbefore).trans hsingle
  rw [copies, arrives, counts, hfetch]
  exact ⟨hcopies, harrives, hcount⟩

/-- The fetch of a bookmark of no row. -/
theorem fetch_of_none (h : call.Positioned) (hprocessed : Processed call i)
    (hrow : call.rowOf (call.bookmark i) = none) :
    call.copies i = none ∧ call.arrives i = none ∧
      (call.BehindEnd i → call.counts i = some 0) ∧
      (¬ call.BehindEnd i → call.counts i = none) := by
  obtain ⟨stmt, hbefore⟩ := h.before_iff.1.mpr hprocessed
  obtain ⟨f, hsingle, -, hcopies, harrives, hbehind, hfront⟩ :=
    (h.before_iff.2 stmt hbefore).singleFetch_of_none h.outParams hrow
  have hfetch := (fetch_of_before hbefore).trans hsingle
  rw [copies, arrives, counts, hfetch]
  refine ⟨hcopies, ?_, hbehind, hfront⟩
  rw [Option.bind_some, harrives, Option.map_none]

/-- A fetch that is not reached. -/
theorem fetch_of_not (h : call.Positioned) (hprocessed : ¬ Processed call i) :
    call.fetch i = none := by
  cases hbefore : call.before i with
  | none => exact fetch_none_of_before hbefore
  | some stmt => exact absurd (h.before_iff.1.mp ⟨stmt, hbefore⟩) hprocessed

theorem processed_of_fetch (h : call.Positioned) (hfetch : call.fetch i ≠ none) :
    Processed call i := by
  by_contra hnot
  exact hfetch (h.fetch_of_not hnot)

/-- Only bookmarks of rows are copied. -/
theorem copies_eq_some_iff (h : call.Positioned) {element : ℕ} :
    call.copies i = some (element, row) ↔
      Processed call i ∧ call.rowOf (call.bookmark i) = some row ∧ row % 2 ^ 32 = element := by
  constructor
  · intro hcopies
    have hprocessed : Processed call i := by
      apply h.processed_of_fetch
      intro hnone
      rw [copies, hnone] at hcopies
      cases hcopies
    cases hrow : call.rowOf (call.bookmark i) with
    | none =>
      rw [(h.fetch_of_none hprocessed hrow).1] at hcopies
      cases hcopies
    | some row' =>
      rw [(h.fetch_of_row hprocessed hrow).1] at hcopies
      cases hcopies
      exact ⟨hprocessed, rfl, rfl⟩
  · rintro ⟨hprocessed, hrow, rfl⟩
    exact (h.fetch_of_row hprocessed hrow).1

theorem arrives_eq_some_iff (h : call.Positioned) :
    call.arrives i = some row ↔
      Processed call i ∧ call.rowOf (call.bookmark i) = some row := by
  constructor
  · intro harrives
    have hprocessed : Processed call i := by
      apply h.processed_of_fetch
      intro hnone
      rw [arrives, hnone] at harrives
      cases harrives
    cases hrow : call.rowOf (call.bookmark i) with
    | none =>
      rw [(h.fetch_of_none hprocessed hrow).2.1] at harrives
      cases harrives
    | some row' =>
      rw [(h.fetch_of_row hprocessed hrow).2.1] at harrives
      cases harrives
      exact ⟨hprocessed, rfl⟩
  · rintro ⟨hprocessed, hrow⟩
    exact (h.fetch_of_row hprocessed hrow).2.1

/-- All fetches return. -/
theorem returns (h : call.Positioned) (stmt : Stmt ρ) (hbefore : call.before i = some stmt) :
    (call.singleFetch i (stmt.clientSeek (i + 1))).isSome := by
  have hready := h.before_iff.2 stmt hbefore
  cases hrow : call.rowOf (call.bookmark i) with
  | none =>
    obtain ⟨f, hsingle, -⟩ := hready.singleFetch_of_none h.outParams hrow
    rw [hsingle]
    rfl
  | some row =>
    obtain ⟨f, hsingle, -⟩ := hready.singleFetch_of_row hrow
    rw [hsingle]
    rfl

end Positioned

theorem exists_last (call : BookmarkFetch ρ) : ∃ i, call.Last i := by
  classical
  have hstops : ∃ i, ¬ call.Copied i ∨ call.arraySize ≤ i + 1 := ⟨call.arraySize, Or.inr (by omega)⟩
  refine ⟨Nat.find hstops, ?_, ?_, Nat.find_spec hstops⟩
  · have hle : Nat.find hstops ≤ call.rounds - 1 := by
      apply Nat.find_min'
      right
      rw [rounds]
      omega
    rw [rounds] at hle ⊢
    omega
  · intro j hj
    have hmin := Nat.find_min hstops hj
    rw [not_or, not_not] at hmin
    exact hmin.1

namespace Last

variable {last row : ℕ}

theorem processed_iff (h : call.Last last) : Processed call i ↔ i ≤ last := by
  constructor
  · intro hprocessed
    by_contra hlt
    rcases h.stops with hnot | hend
    · exact hnot (hprocessed.copied last (by omega))
    · have := hprocessed.lt
      rw [rounds] at this
      omega
  · exact fun hle => ⟨lt_of_le_of_lt hle h.lt, fun j hj => h.copied j (by omega)⟩

/-- Steps that are counted up to a bound. -/
theorem countP_range {p : ℕ → Bool} {m n : ℕ} (h : ∀ i < n, p i = decide (i < m)) :
    (List.range n).countP p = min m n := by
  induction n with
  | zero => simp
  | succ n ih =>
    rw [List.range_succ, List.countP_append, ih fun i hi => h i (by omega)]
    have hn := h n (Nat.lt_succ_self n)
    by_cases hlt : n < m
    · rw [decide_eq_true hlt] at hn
      rw [List.countP_singleton, if_pos hn]
      omega
    · rw [decide_eq_false hlt] at hn
      rw [List.countP_singleton, if_neg (by rw [hn]; exact Bool.false_ne_true)]
      omega

/-- The rows that are fetched are those of the bookmarks before the last one, and its own
if it denotes one. -/
theorem fetchedRows_eq (h : call.Last last) (hpositioned : call.Positioned) : call.fetchedRows =
    if (call.rowOf (call.bookmark last)).isSome then last + 1 else last := by
  have hlt := h.lt
  have hcopies : ∀ i < call.rounds, (call.copies i).isSome = decide (i <
      if (call.rowOf (call.bookmark last)).isSome then last + 1 else last) := by
    intro i _
    rw [Bool.eq_iff_iff, decide_eq_true_iff, Option.isSome_iff_exists, Prod.exists]
    simp only [hpositioned.copies_eq_some_iff, h.processed_iff]
    constructor
    · rintro ⟨element, row, hle, hrow, -⟩
      rcases Nat.eq_or_lt_of_le hle with rfl | hlt
      · rw [hrow]
        exact Nat.lt_succ_self i
      · split_ifs <;> omega
    · intro hi
      by_cases hbefore : i < last
      · obtain ⟨row, hrow, -⟩ := h.copied i hbefore
        exact ⟨_, row, hbefore.le, hrow, rfl⟩
      · split_ifs at hi with hsome
        · obtain rfl : i = last := by omega
          obtain ⟨row, hrow⟩ := Option.isSome_iff_exists.mp hsome
          exact ⟨_, row, le_rfl, hrow, rfl⟩
        · exact absurd hi hbefore
  rw [fetchedRows, countP_range hcopies, min_eq_left]
  split_ifs <;> omega

theorem counts_none_of_lt (h : call.Last last) (hpositioned : call.Positioned) (hlt : last < i) :
    call.counts i = none := by
  have hnot : ¬ Processed call i := fun hprocessed => by
    have := h.processed_iff.mp hprocessed
    omega
  rw [counts, hpositioned.fetch_of_not hnot, Option.bind_none]

/-- A bookmark before the last one is counted with the number of its row. -/
theorem counts_of_lt (h : call.Last last) (hpositioned : call.Positioned) (hlt : i < last) :
    ∃ row, call.rowOf (call.bookmark i) = some row ∧ call.counts i = some row := by
  obtain ⟨row, hrow, -⟩ := h.copied i hlt
  exact ⟨row, hrow, (hpositioned.fetch_of_row (h.processed_iff.mpr hlt.le) hrow).2.2⟩

/-- What is written to `rows_processed_ptr` is the number of rows. -/
theorem counts_iff (h : call.Last last) (hpositioned : call.Positioned) :
    (∃ j, call.counts j = some call.fetchedRows ∧ ∀ j', j < j' → call.counts j' = none) ↔
      call.rowOf (call.bookmark last) = some (last + 1) ∨
      call.rowOf (call.bookmark last) = none ∧ (last = 0 ∧ call.BehindEnd 0 ∨
        0 < last ∧ ¬ call.BehindEnd last ∧ call.rowOf (call.bookmark (last - 1)) = some last) := by
  have hprocessed : Processed call last := h.processed_iff.mpr le_rfl
  have hrows := h.fetchedRows_eq hpositioned
  -- the last number that is written is that of the last fetch, or of the one before it
  have hwrites {n m : ℕ} (hn : call.counts n = some m) (hle : n ≤ last)
      (hnone : ∀ j, n < j → j ≤ last → call.counts j = none) :
      (∃ j, call.counts j = some call.fetchedRows ∧ ∀ j', j < j' → call.counts j' = none) ↔
        m = call.fetchedRows := by
    constructor
    · rintro ⟨j, hj, hlast⟩
      rcases Nat.lt_trichotomy j n with hlt | rfl | hlt
      · rw [hlast n hlt] at hn
        cases hn
      · rw [hj] at hn
        exact (Option.some.inj hn).symm
      · by_cases hjl : j ≤ last
        · rw [hnone j hlt hjl] at hj
          cases hj
        · rw [h.counts_none_of_lt hpositioned (by omega)] at hj
          cases hj
    · intro heq
      refine ⟨n, by rw [hn, heq], fun j' hlt => ?_⟩
      by_cases hjl : j' ≤ last
      · exact hnone j' hlt hjl
      · exact h.counts_none_of_lt hpositioned (by omega)
  cases hrow : call.rowOf (call.bookmark last) with
  | some row =>
    have hcounts := (hpositioned.fetch_of_row hprocessed hrow).2.2
    rw [hwrites hcounts le_rfl fun j hlt hle => by omega, hrows, hrow]
    simp
  | none =>
    obtain ⟨-, -, hbehind, hfront⟩ := hpositioned.fetch_of_none hprocessed hrow
    rw [hrow, Option.isSome_none, if_neg Bool.false_ne_true] at hrows
    by_cases hend : call.BehindEnd last
    · rw [hwrites (hbehind hend) le_rfl fun j hlt hle => by omega, hrows]
      constructor
      · rintro rfl
        exact Or.inr ⟨rfl, Or.inl ⟨rfl, hend⟩⟩
      · rintro (h | ⟨-, ⟨rfl, -⟩ | ⟨-, hnot, -⟩⟩)
        · cases h
        · rfl
        · exact absurd hend hnot
    · cases last with
      | zero =>
        apply iff_of_false
        · rintro ⟨j, hj, -⟩
          rcases Nat.eq_zero_or_pos j with rfl | hpos
          · rw [hfront hend] at hj
            cases hj
          · rw [h.counts_none_of_lt hpositioned hpos] at hj
            cases hj
        · rintro (h | ⟨-, ⟨-, hbehind⟩ | ⟨hpos, -⟩⟩)
          · cases h
          · exact hend hbehind
          · exact absurd hpos (lt_irrefl 0)
      | succ last =>
        obtain ⟨row, hbook, hcounts⟩ := h.counts_of_lt hpositioned (Nat.lt_succ_self last)
        have hnone : ∀ j, last < j → j ≤ last + 1 → call.counts j = none := by
          intro j hlt hle
          obtain rfl : j = last + 1 := by omega
          exact hfront hend
        rw [hwrites hcounts (Nat.le_succ last) hnone, hrows, Nat.add_sub_cancel, hbook]
        constructor
        · rintro rfl
          exact Or.inr ⟨rfl, Or.inr ⟨Nat.succ_pos last, hend, rfl⟩⟩
        · rintro (h | ⟨-, ⟨h, -⟩ | ⟨-, -, h⟩⟩)
          · cases h
          · cases h
          · exact Option.some.inj h

end Last

theorem outcome_of_fill (h : call.fill = none) (row : ℕ) : call.outcome row = .success := by
  rw [outcome]
  cases call.stmt.rowsOfResult[row]? with
  | none => rfl
  | some values => simp [rowRes, h]

theorem fill_isSome_of_outcome {row : ℕ} (h : (call.outcome row).succeeded = false) :
    call.fill.isSome = true := by
  by_contra hnone
  rw [Bool.not_eq_true, Option.isSome_eq_false_iff, Option.isNone_iff_eq_none] at hnone
  rw [outcome_of_fill hnone] at h
  cases h

theorem not_copied_of_outcome {row : ℕ} (hrow : call.rowOf (call.bookmark i) = some row)
    (h : (call.outcome row).succeeded = false) : ¬ call.Copied i := by
  rintro ⟨row', hrow', houtcome⟩
  rw [hrow] at hrow'
  cases hrow'
  rw [houtcome] at h
  cases h

theorem rounds_eq (h : call.arraySize ≠ 0) : call.rounds = call.arraySize := by
  rw [rounds]
  omega

theorem processed_zero (call : BookmarkFetch ρ) : Processed call 0 :=
  ⟨by rw [rounds]; omega, fun j hj => absurd hj (Nat.not_lt_zero j)⟩

/-- The fetches of a call that is positioned deliver the rows when the bookmarks do. -/
theorem bookmarksFit_of_fetchesFit (hpositioned : call.Positioned) (h : call.FetchesFit) :
    call.BookmarksFit := by
  have hown : call.fill.isSome → ∀ i < call.arraySize, ∀ row,
      call.rowOf (call.bookmark i) = some row → row % 2 ^ 32 = i ∧ ∀ j < i, call.Copied j := by
    intro hfill i hi row hrow
    obtain ⟨hprocessed, -, helement⟩ :=
      hpositioned.copies_eq_some_iff.mp (h.copied hfill i hi row hrow).1
    exact ⟨helement, hprocessed.copied⟩
  refine ⟨hown, ?_, ?_, ?_⟩
  · intro hptr i hi row hrow
    obtain ⟨hfails, j, harrives, hdisconnected, -⟩ := h.rowStatus hptr i hi row hrow
    have hfill := fill_isSome_of_outcome hfails
    -- the first row is not copied, so that no fetch behind it is reached
    have hfirst : ∀ k, Processed call k → 0 < k → False := by
      intro k hprocessed hk
      obtain ⟨row₀, hrow₀, houtcome⟩ := hprocessed.copied 0 hk
      have hsize : 0 < call.arraySize := Nat.zero_lt_of_lt hi
      exact not_copied_of_outcome hrow₀ (h.rowStatus hptr 0 hsize row₀ hrow₀).1
        ⟨row₀, hrow₀, houtcome⟩
    obtain rfl : i = 0 := by
      by_contra hne
      obtain ⟨-, hcopied⟩ := hown hfill i hi row hrow
      refine hfirst i ⟨?_, hcopied⟩ (Nat.pos_of_ne_zero hne)
      rw [rounds]
      omega
    obtain ⟨hprocessed, hrow'⟩ := hpositioned.arrives_eq_some_iff.mp harrives
    obtain rfl : j = 0 := by
      by_contra hne
      exact hfirst j hprocessed (Nat.pos_of_ne_zero hne)
    rw [hrow] at hrow'
    exact ⟨rfl, Option.some.inj hrow', hfails, hdisconnected⟩
  · intro hptr
    obtain ⟨last, hlast⟩ := exists_last call
    exact ⟨last, hlast, (hlast.counts_iff hpositioned).mp (h.rowsProcessed hptr)⟩
  · intro hsize row hrow
    obtain ⟨hcopies, harrives, -⟩ := hpositioned.fetch_of_row (processed_zero call) hrow
    constructor
    · by_contra hfill
      have hinside := h.inside 0 (row % 2 ^ 32)
        (Or.inl ⟨Option.isSome_iff_ne_none.mpr hfill, row, hcopies⟩)
      omega
    · rw [← Bool.not_eq_true]
      intro hptr
      have hinside := h.inside 0 row (Or.inr ⟨hptr, harrives⟩)
      omega

theorem fetchesFit_of_bookmarksFit (hpositioned : call.Positioned) (h : call.BookmarksFit) :
    call.FetchesFit := by
  refine ⟨fun i stmt => hpositioned.returns stmt, ?_, ?_, ?_, ?_⟩
  · intro hfill i hi row hrow
    obtain ⟨helement, hcopied⟩ := h.copied hfill i hi row hrow
    have hprocessed : Processed call i := ⟨by rw [rounds_eq (by omega)]; exact hi, hcopied⟩
    refine ⟨hpositioned.copies_eq_some_iff.mpr ⟨hprocessed, hrow, helement⟩, ?_⟩
    intro j hlt row' hcopies
    obtain ⟨hlater, hrow', helement'⟩ := hpositioned.copies_eq_some_iff.mp hcopies
    have hj : j < call.arraySize := by
      have := hlater.lt
      rwa [rounds_eq (by omega)] at this
    have := (h.copied hfill j hj row' hrow').1
    omega
  · intro hptr i hi row hrow
    obtain ⟨rfl, rfl, hfails, hdisconnected⟩ := h.rowStatus hptr i hi row hrow
    refine ⟨hfails, 0, ?_, hdisconnected, ?_⟩
    · exact hpositioned.arrives_eq_some_iff.mpr ⟨processed_zero call, hrow⟩
    · intro j hlt harrives
      exact not_copied_of_outcome hrow hfails
        ((hpositioned.arrives_eq_some_iff.mp harrives).1.copied 0 hlt)
  · intro hptr
    obtain ⟨last, hlast, hcount⟩ := h.rowsProcessed hptr
    exact (hlast.counts_iff hpositioned).mpr hcount
  · rintro j element (⟨hfill, row, hcopies⟩ | ⟨hptr, harrives⟩)
    · obtain ⟨hprocessed, hrow, helement⟩ := hpositioned.copies_eq_some_iff.mp hcopies
      by_cases hsize : call.arraySize = 0
      · obtain rfl : j = 0 := by
          have := hprocessed.lt
          rw [rounds] at this
          omega
        rw [(h.inside hsize row hrow).1] at hfill
        cases hfill
      · have hj : j < call.arraySize := rounds_eq hsize ▸ hprocessed.lt
        have := (h.copied hfill j hj row hrow).1
        omega
    · obtain ⟨hprocessed, hrow⟩ := hpositioned.arrives_eq_some_iff.mp harrives
      by_cases hsize : call.arraySize = 0
      · obtain rfl : j = 0 := by
          have := hprocessed.lt
          rw [rounds] at this
          omega
        rw [(h.inside hsize element hrow).2] at hptr
        cases hptr
      · have hj : j < call.arraySize := rounds_eq hsize ▸ hprocessed.lt
        have := (h.rowStatus hptr j hj element hrow).2.1
        omega

/-- A scroller with rows in its windows is moved behind any row, and keeps their number. -/
theorem scrollPast_rowCount {curRow : ℤ} {s : Scroller} (h : s.rowCount ≠ 0) :
    ∃ past, scrollPast curRow s = some past ∧ past.rowCount = s.rowCount := by
  fun_induction scrollPast curRow s with
  | case1 s hle => exact ⟨s.move, rfl, rfl⟩
  | case2 s hlt hzero => exact absurd hzero h
  | case3 s hlt hpos ih => exact ih h

/-- The windows of the scroller have rows. -/
def WindowsHaveRows (stmt : Stmt ρ) : Prop := ∀ s, stmt.scroller = some s → s.rowCount ≠ 0

theorem WindowsHaveRows.scrollerPrefetch (stmt : Stmt ρ) {s : Scroller} (h : s.rowCount ≠ 0)
    (ok : Bool) : WindowsHaveRows (stmt.scrollerPrefetch s ok).2 := by
  unfold Stmt.scrollerPrefetch
  cases htrim : s.trim with
  | none =>
    intro t ht
    obtain rfl := Option.some.inj ht
    exact h
  | some trimmed =>
    have hcount : trimmed.rowCount = s.rowCount := by
      unfold Scroller.trim at htrim
      grind
    cases ok
    all_goals
      intro t ht
      obtain rfl := Option.some.inj ht
      exact hcount ▸ h

theorem WindowsHaveRows.fetchPositioned (h : WindowsHaveRows stmt) (maxRow curRow : ℤ) :
    WindowsHaveRows (call.fetchPositioned i stmt maxRow curRow).stmt := by
  have hseek : WindowsHaveRows (stmt.seekRow curRow) := by
    rw [WindowsHaveRows, seekRow_scroller]
    exact h
  unfold BookmarkFetch.fetchPositioned
  dsimp only
  split_ifs
  · have hvalues : WindowsHaveRows (call.fetchValues i (stmt.seekRow curRow)).2.2 := by
      have hnumbered : ∀ stmt : Stmt ρ, stmt.fetchNumbered.2.scroller = stmt.scroller := by
        intro stmt
        unfold Stmt.fetchNumbered
        split_ifs <;> rfl
      unfold BookmarkFetch.fetchValues
      grind [WindowsHaveRows, WindowsHaveRows.scrollerPrefetch, Scroller.move]
    unfold BookmarkFetch.arrive
    dsimp only
    split_ifs
    · exact hvalues
    · exact hvalues
  · exact hseek

variable (call) (i) in
/-- A single fetch returns, and keeps the windows. -/
theorem WindowsHaveRows.singleFetch (h : WindowsHaveRows stmt) :
    ∃ f, call.singleFetch i stmt = some f ∧ WindowsHaveRows f.stmt := by
  unfold BookmarkFetch.singleFetch
  dsimp only
  split_ifs with hfront hbehind
  · refine ⟨_, rfl, fun s hs => h s ?_⟩
    have hseek : (stmt.clientSeek 0).scroller = stmt.scroller := by
      unfold Stmt.clientSeek
      split_ifs <;> rfl
    exact hseek ▸ hs
  · cases hscroller : stmt.scroller with
    | none => exact ⟨_, rfl, h.fetchPositioned _ _⟩
    | some s =>
      obtain ⟨past, hpast, hcount⟩ :=
        @scrollPast_rowCount (stmt.targetRow .absolute (call.bookmark i) 1) s (h s hscroller)
      have hprefetch := scrollerPrefetch stmt (hcount ▸ h s hscroller : past.rowCount ≠ 0)
        (call.repositionOk i)
      dsimp only
      rw [hpast]
      dsimp only
      split
      · rename_i hmoved
        rw [hmoved] at hprefetch
        exact ⟨_, rfl, hprefetch.fetchPositioned _ _⟩
      · rename_i hmoved
        rw [hmoved] at hprefetch
        exact ⟨_, rfl, hprefetch⟩
      · rename_i hmoved
        rw [hmoved] at hprefetch
        exact ⟨_, rfl, hprefetch⟩
  · exact ⟨_, rfl, h.fetchPositioned _ _⟩

/-- A call with nothing to write breaks nothing. -/
theorem fetchesFit_of_asksNothing (h : call.AsksNothing) : call.FetchesFit := by
  have hclient : ∀ {stmt : Stmt ρ} k, WindowsHaveRows stmt → WindowsHaveRows (stmt.clientSeek k) := by
    intro stmt k hrows
    unfold Stmt.clientSeek
    split_ifs <;> exact hrows
  have hbefore : ∀ i stmt, call.before i = some stmt → WindowsHaveRows stmt := by
    intro i
    induction i with
    | zero =>
      intro stmt hstmt
      obtain rfl := Option.some.inj hstmt
      exact h.windows
    | succ i ih =>
      intro stmt hstmt
      rw [before] at hstmt
      obtain ⟨front, hfront, hnext⟩ := Option.bind_eq_some_iff.mp hstmt
      obtain ⟨f, hf, hrows⟩ := (hclient (i + 1) (ih front hfront)).singleFetch call i
      rw [hf, Option.bind_some] at hnext
      split_ifs at hnext
      exact Option.some.inj hnext ▸ hrows
  refine ⟨fun i stmt hstmt => ?_, fun hfill => ?_, fun hptr => ?_, fun hptr => ?_, ?_⟩
  · obtain ⟨f, hf, -⟩ := (hclient (i + 1) (hbefore i stmt hstmt)).singleFetch call i
    rw [hf]
    rfl
  · rw [h.fill] at hfill
    cases hfill
  · rw [h.rowStatus] at hptr
    cases hptr
  · rw [h.rowsProcessed] at hptr
    cases hptr
  · rintro j element (⟨hfill, -⟩ | ⟨hptr, -⟩)
    · rw [h.fill] at hfill
      cases hfill
    · rw [h.rowStatus] at hptr
      cases hptr

/-- The second and the third of three rows are fetched into two elements. -/
def secondAndThird : BookmarkFetch ℕ where
  stmt :=
    { cursorType := .static
      optNoCache := false
      optSafe := false
      ssps := false
      resultArray := false
      server := [10, 20, 30]
      scroller := none
      result := .store [10, 20, 30]
      currentRow := -1
      rowsFoundInSet := 0
      endOfSet := none
      cursorRow := -1 }
  bookmarks := true
  bound := true
  bookmark i := i + 2
  arraySize := 2
  fill := some fun _ => .success
  rowStatusPtr := true
  rowsProcessedPtr := true
  outParams := false
  disconnected _ := false
  repositionOk _ := true
  prefetchOk _ := true

/-- The first two rows are fetched into their own elements, without a status array. -/
def firstAndSecond : BookmarkFetch ℕ :=
  { secondAndThird with
    bookmark := fun i => i + 1
    rowStatusPtr := false
    rowsProcessedPtr := false }

end BookmarkFetch

end MatrixOdbc.Driver
