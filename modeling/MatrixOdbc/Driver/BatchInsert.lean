import Mathlib.Data.List.DropRight
import MatrixOdbc.Driver.ParamArray
import MatrixOdbc.Driver.SetPos
import MatrixOdbc.Foundations.Loop

/-!
# Bulk inserts

`batch_insert_std` and `copy_rowdata` of `driver/cursor.cc`. Every byte of a
statement carries the place where it was written, so that a parenthesis of the
statement is not mistaken for one inside a value. What `insert_param` writes for a
value depends on the column, on where the value is read and on its length; it may be
nothing at all. The capacity of the statement's buffer after a row and the answers of
the server are arbitrary.
-/

namespace MatrixOdbc.Driver

open WhileLoop

/-- A byte of an `INSERT` statement: one of its beginning, a parenthesis or a comma
of its rows, or one of a value. -/
inductive InsertByte where
  | head (byte : UInt8)
  | opening
  | closing
  | comma
  | value (byte : UInt8)
  deriving DecidableEq

/-- Where `insert_param` reads a value. -/
inductive ValueSource where
  | address (data : ℕ)
  | atExec (val : List UInt8)

/-- `SQL_ROW_ADDED`. -/
def SQL_ROW_ADDED : SQLUSMALLINT := 4

/-- What a call finds: its arguments, the records of the row descriptor for the
columns of the result, the memory of the application, the buffer of the statement
with its capacity after each row, and the outcome of `exec_stmt_query_std` for each
statement in turn. `bookmarkData` tells whether the bookmark of a row is delivered;
there is none unless bookmarks are variable and their column is bound. `setposApd` tells
if data came at execution, for which there is a copy of the row descriptor, and the two
flags behind the answers tell whether a status array is bound. -/
structure BatchInsert where
  irow : ℕ
  arraySize : ℕ
  columns : List (Option ParamRecord)
  columns_ne_nil : columns ≠ []
  setposApd : Bool
  mem : List UInt8
  insertParam : ℕ → ValueSource → ℤ → Option (List UInt8)
  query : List UInt8
  buf : List InsertByte
  closing_notMem_buf : .closing ∉ buf
  bufLen : ℕ → ℕ
  execStmtQueryStd : ℕ → Bool
  bookmarkData : Option (ℕ → Bool)
  numRows : ℕ
  arrayStatusPtr : Bool
  rowStatusPtrEx : Bool

/-- The local variables of `batch_insert_std` with the buffer and what was sent. -/
structure BatchState where
  query : List InsertByte
  count : ℕ
  breakInsert : Bool
  buf : List InsertByte
  sent : List (List InsertByte)

/-- What a call leaves behind: its code, the statements it sent, the affected rows
and the elements that it wrote in each status array. -/
structure BatchResult where
  rc : SqlReturn
  sent : List (List InsertByte)
  affectedRows : Option ℕ
  arrayStatus : Option (ℕ → Option SQLUSMALLINT)
  rowStatus : Option (ℕ → Option SQLUSMALLINT)

namespace BatchInsert

variable (b : BatchInsert)

/-- `buf_remove_trail_zeroes`. -/
def removeTrailZeroes (buf : List InsertByte) : List InsertByte := buf.rdropWhile (· = .value 0)

/-- Where the value of a column is read for an element of the bound arrays, and its
length or indicator. A column without a record has the defaults: no address, no length. -/
def source (count : ℕ) : Option ParamRecord → ValueSource × ℤ
  | none => (.address 0, 0)
  | some arrec =>
    match if b.setposApd then arrec.par else none with
    | some val => (.atExec val, val.length)
    | none => (.address (arrec.data count),
        (ParamRecord.cellAt b.mem (arrec.lengthCell count)).getD arrec.octetLength)

/-- `copy_rowdata` for a column: the buffer with the value and a comma. -/
def copyRowdata (count ncol : ℕ) (arrec : Option ParamRecord) (buf : List InsertByte) :
    Option (List InsertByte) :=
  let (val, indOrLen) := b.source count arrec
  (b.insertParam ncol val indOrLen).map fun text =>
    removeTrailZeroes (buf ++ text.map .value) ++ [.comma]

/-- The loop over the columns of a row. -/
def copyColumns (count : ℕ) : ℕ → List (Option ParamRecord) → List InsertByte →
    Option (List InsertByte)
  | _, [], buf => some buf
  | ncol, arrec :: columns, buf =>
    (b.copyRowdata count ncol arrec buf).bind (copyColumns count (ncol + 1) columns)

/-- The buffer after the columns of a row have been copied behind what is in it. -/
def rowBuffer (count : ℕ) (buf : List InsertByte) : Option (List InsertByte) :=
  b.copyColumns count 0 b.columns buf

/-- A row of the statement: the buffer without its last comma, in parentheses. -/
def parenthesized (buf : List InsertByte) : List InsertByte :=
  .opening :: buf.dropLast ++ [.closing]

/-- The number of rows to insert. -/
def insertCount : ℕ := if b.irow = 0 ∧ 1 < b.arraySize then b.arraySize else 1

/-- `query_length`: where a further statement begins, recorded for arrays only. -/
def queryLength : ℕ := if b.irow = 0 ∧ 1 < b.arraySize then b.query.length else 0

/-- The inner loop, with the number of rows that are left: it is left early when the
statement has grown as long as the buffer. -/
def appendRows : ℕ → BatchState → Option BatchState
  | 0, s => some s
  | left + 1, s =>
    match b.rowBuffer s.count s.buf with
    | none => none
    | some buf =>
      let query := s.query ++ parenthesized buf ++ [.comma]
      if b.bufLen s.count ≤ query.length + buf.length then
        some { s with query, count := s.count + 1, breakInsert := true, buf := [] }
      else appendRows left { s with query, count := s.count + 1, buf := [] }

/-- One evaluation of the outer loop. It ends with the information whether all
statements were executed, and with the statements. -/
def batchBody (s : BatchState) : Step BatchState (Bool × List (List InsertByte)) :=
  let query := if s.breakInsert then s.query.take b.queryLength else s.query
  match b.appendRows (b.insertCount - s.count) { s with query } with
  | none => .done (false, s.sent)
  | some s' =>
    let query := s'.query.dropLast
    let sent := s'.sent ++ [query]
    if b.execStmtQueryStd s.sent.length = false then .done (false, sent)
    else if s'.breakInsert ∧ s'.count < b.insertCount then .next { s' with query, sent }
    else .done (true, sent)

/-- The state at the beginning of the outer loop. -/
def start : BatchState where
  query := b.query.map .head
  count := 0
  breakInsert := false
  buf := b.buf
  sent := []

/-- The loop over the bookmarks of the new rows ends without an error. -/
def bookmarksDelivered : Bool :=
  match b.bookmarkData with
  | none => true
  | some delivered => (List.range' b.numRows (b.insertCount - b.numRows)).all delivered

/-- The loop that writes the status of the first elements of an array. -/
def addedStatus (status : ℕ → Option SQLUSMALLINT) : ℕ → ℕ → Option SQLUSMALLINT
  | 0 => status
  | count + 1 => addedStatus (Function.update status count (some SQL_ROW_ADDED)) count

/-- What follows the loops. -/
def finish (loop : Bool × List (List InsertByte)) : BatchResult :=
  let status (bound : Bool) :=
    if bound then some (addedStatus (fun _ => none) b.insertCount) else none
  if loop.1 && b.bookmarksDelivered then
    ⟨.success, loop.2, some b.insertCount, status b.arrayStatusPtr, status b.rowStatusPtrEx⟩
  else ⟨.error, loop.2, none, none, none⟩

/-- The literal of a column for an element of the arrays. There is none for a value that is
refused. -/
def literal (count ncol : ℕ) (arrec : Option ParamRecord) : Option (List InsertByte) :=
  (b.insertParam ncol (b.source count arrec).1 (b.source count arrec).2).map fun text =>
    removeTrailZeroes (text.map .value)

/-- The literals of an element for some columns. -/
def literalsFrom (count : ℕ) : ℕ → List (Option ParamRecord) → List (Option (List InsertByte))
  | _, [] => []
  | ncol, arrec :: columns =>
    b.literal count ncol arrec :: literalsFrom count (ncol + 1) columns

/-- The literals of an element, one for each column. -/
def literals (count : ℕ) : List (Option (List InsertByte)) := b.literalsFrom count 0 b.columns

/-- A column is reached that has no record. The copy of the row descriptor has none for it
either, and is read through a null pointer. No row gets behind such a column, so that it is
reached in the first row or never. -/
def ReachesMissing : Prop :=
  b.setposApd = true ∧ ∃ ncol, b.columns[ncol]? = some none ∧
    ∀ literal ∈ (b.literals 0).take ncol, literal.isSome

/-- `batch_insert_std` ends with a result. -/
def BatchInsertStd (result : BatchResult) : Prop :=
  ¬ b.ReachesMissing ∧ ∃ loop, Returns b.batchBody b.start loop ∧ result = b.finish loop

/-- The elements that are addressed: all of the arrays, or one that is counted from 1. -/
def addressed : List ℕ := if b.irow = 0 then List.range b.arraySize else [b.irow - 1]

/-- A whole row: every column has a literal, and none is empty. -/
def Whole (count : ℕ) : Prop := ∀ literal ∈ b.literals count, ∃ text ≠ [], literal = some text

/-- A row of an `INSERT` statement: the literals of an element, with commas between them. -/
def tuple (count : ℕ) : List InsertByte :=
  .opening :: List.intercalate [.comma] ((b.literals count).map (·.getD [])) ++ [.closing]

/-- The `INSERT` statement for some rows. -/
def statement (rows : List ℕ) : List InsertByte :=
  b.query.map .head ++ List.intercalate [.comma] (rows.map b.tuple)

/-- The statements consist of whole rows, taken in order from the addressed ones,
and a call that succeeds has sent every addressed row once, has counted the rows and
has written exactly their statuses. -/
structure InsertsRows (result : BatchResult) : Prop where
  sent : ∃ groups : List (List ℕ), result.sent = groups.map b.statement ∧ [] ∉ groups ∧
    (∀ i ∈ groups.flatten, b.Whole i) ∧ groups.flatten <+: b.addressed ∧
      (result.rc = .success → groups.flatten = b.addressed)
  affectedRows : result.rc = .success → result.affectedRows = some b.addressed.length
  status : result.rc = .success → ∀ written, result.arrayStatus = some written ∨
    result.rowStatus = some written →
      ∀ i, written i = if i ∈ b.addressed then some SQL_ROW_ADDED else none

/-- The buffer for an element: the first one is copied behind what the buffer held. -/
def rowAt (count : ℕ) : Option (List InsertByte) :=
  b.rowBuffer count (if count = 0 then b.buf else [])

/-- The row that is written for an element. -/
def rowText (count : ℕ) : List InsertByte := parenthesized ((b.rowAt count).getD [])

/-- The statement that is written for some elements. -/
def written (rows : List ℕ) : List InsertByte :=
  b.query.map .head ++ List.intercalate [.comma] (rows.map b.rowText)

/-- The text of a statement that begins with an element, in front of another one. -/
def textFrom (first count : ℕ) : List InsertByte :=
  b.query.map .head ++ (List.range' first (count - first)).flatMap fun i => b.rowText i ++ [.comma]

/-- The statement that begins with an element has grown as long as the buffer with another. -/
def Full (first count : ℕ) : Prop :=
  b.bufLen count ≤ (b.textFrom first (count + 1)).length + ((b.rowAt count).getD []).length

/-- A statement holds the elements from one on and below another: the values of all of them are
written, and with the last one it is long enough or the arrays end. -/
structure Completed (first next : ℕ) : Prop where
  lt : first < next
  le : next ≤ b.insertCount
  rowAt : ∀ i, first ≤ i → i < next → (b.rowAt i).isSome
  notFull : ∀ i, first ≤ i → i + 1 < next → ¬ b.Full first i
  stops : next = b.insertCount ∨ b.Full first (next - 1)

/-- So many statements are sent for the elements below a number, each behind statements that the
server has accepted. -/
inductive Splits : ℕ → ℕ → Prop
  | start : Splits 0 0
  | sent {k first next : ℕ} (front : Splits k first)
      (executed : ∀ j < k, b.execStmtQueryStd j = true) (completed : b.Completed first next) :
      Splits (k + 1) next

/-- An element is one of a statement that is sent. -/
def Sends (i : ℕ) : Prop := ∃ k n, b.Splits k n ∧ i < n

variable {b}

/-- No parenthesis comes into the buffer. -/
theorem closing_notMem_copyColumns {count ncol : ℕ} {columns : List (Option ParamRecord)}
    {buf out : List InsertByte} (hbuf : .closing ∉ buf)
    (h : b.copyColumns count ncol columns buf = some out) : .closing ∉ out := by
  induction columns generalizing ncol buf with
  | nil => exact Option.some.inj h ▸ hbuf
  | cons arrec columns ih =>
    obtain ⟨buf', hcopy, hrest⟩ := Option.bind_eq_some_iff.mp h
    refine ih ?_ hrest
    obtain ⟨text, -, rfl⟩ := Option.map_eq_some_iff.mp hcopy
    intro hmem
    rcases List.mem_append.mp hmem with hmem | hmem
    · have hfront := List.rdropWhile_prefix (fun c => decide (c = InsertByte.value 0))
        (l := buf ++ text.map .value)
      rcases List.mem_append.mp (hfront.subset hmem) with hmem | hmem
      · exact hbuf hmem
      · obtain ⟨c, -, hc⟩ := List.mem_map.mp hmem
        cases hc
    · cases List.mem_singleton.mp hmem

theorem closing_notMem_rowAt {count : ℕ} {buf : List InsertByte} (h : b.rowAt count = some buf) :
    .closing ∉ buf := by
  refine closing_notMem_copyColumns ?_ h
  split_ifs
  · exact b.closing_notMem_buf
  · exact List.not_mem_nil

/-- Without the last comma texts are separated by commas. -/
theorem dropLast_flatMap_comma {α : Type*} {text : α → List InsertByte} {rows : List α}
    (h : rows ≠ []) : (rows.flatMap fun i => text i ++ [.comma]).dropLast =
      List.intercalate [.comma] (rows.map text) := by
  induction rows with
  | nil => exact absurd rfl h
  | cons i rows ih =>
    cases rows with
    | nil => simp [List.intercalate]
    | cons j rows =>
      have hne : ((j :: rows).flatMap fun i => text i ++ [InsertByte.comma]) ≠ [] := by simp
      rw [List.flatMap_cons, List.dropLast_append_of_ne_nil hne, ih (by simp)]
      simp [List.intercalate]

/-- Zeroes are removed from a value only, not from what is in front of a comma. -/
theorem removeTrailZeroes_append {buf text : List InsertByte}
    (hbuf : buf = [] ∨ ∃ init, buf = init ++ [.comma]) :
    removeTrailZeroes (buf ++ text) = buf ++ removeTrailZeroes text := by
  obtain rfl | ⟨init, rfl⟩ := hbuf
  · rfl
  · have hreverse : (init ++ [InsertByte.comma]).reverse = .comma :: init.reverse := by simp
    rw [removeTrailZeroes, removeTrailZeroes, List.rdropWhile, List.rdropWhile,
      List.reverse_append, List.dropWhile_append, hreverse]
    split_ifs with hall
    · simp [List.isEmpty_iff.mp hall]
    · simp

/-- What is copied for some columns, behind nothing or behind other columns, is their literals. -/
theorem copyColumns_eq {count ncol : ℕ} {columns : List (Option ParamRecord)}
    {buf : List InsertByte} (hbuf : buf = [] ∨ ∃ init, buf = init ++ [.comma]) :
    b.copyColumns count ncol columns buf =
      if ∀ literal ∈ b.literalsFrom count ncol columns, literal.isSome then
        some (buf ++ (b.literalsFrom count ncol columns).flatMap fun literal =>
          literal.getD [] ++ [.comma])
      else none := by
  induction columns generalizing ncol buf with
  | nil => simp [copyColumns, literalsFrom]
  | cons arrec columns ih =>
    have hcopy : b.copyRowdata count ncol arrec buf =
        (b.literal count ncol arrec).map fun text => buf ++ text ++ [.comma] := by
      rw [literal, Option.map_map]
      exact congrArg (Option.map · _) (funext fun text => by
        rw [removeTrailZeroes_append hbuf, Function.comp_apply])
    rw [copyColumns, literalsFrom, hcopy]
    cases b.literal count ncol arrec with
    | none => simp
    | some text =>
      rw [Option.map_some, Option.bind_some, ih (Or.inr ⟨_, rfl⟩)]
      simp

/-- The buffer of a row that is copied behind nothing. -/
theorem rowBuffer_nil {count : ℕ} {buf : List InsertByte} (h : b.rowBuffer count [] = some buf) :
    parenthesized buf = b.tuple count := by
  rw [rowBuffer, copyColumns_eq (Or.inl rfl)] at h
  split_ifs at h
  obtain rfl := Option.some.inj h
  have hne : b.literalsFrom count 0 b.columns ≠ [] := by
    obtain ⟨arrec, columns, hcolumns⟩ := List.exists_cons_of_ne_nil b.columns_ne_nil
    rw [hcolumns, literalsFrom]
    exact List.cons_ne_nil _ _
  rw [parenthesized, List.nil_append, dropLast_flatMap_comma hne]
  rfl

/-- A row behind the first one is the tuple of its element. -/
theorem rowText_eq_tuple {count : ℕ} (hpos : count ≠ 0) (h : (b.rowAt count).isSome) :
    b.rowText count = b.tuple count := by
  obtain ⟨buf, hbuf⟩ := Option.isSome_iff_exists.mp h
  rw [rowText, hbuf, Option.getD_some]
  rw [rowAt, if_neg hpos] at hbuf
  exact rowBuffer_nil hbuf

/-- A row is found again in a text that begins with it. -/
theorem enclosed_inj {init init' rest rest' : List InsertByte} (hinit : .closing ∉ init)
    (hinit' : .closing ∉ init')
    (h : .opening :: init ++ [.closing] ++ rest = .opening :: init' ++ [.closing] ++ rest') :
    init = init' := by
  simp only [List.cons_append, List.append_assoc, List.nil_append, List.cons.injEq, true_and] at h
  induction init generalizing init' with
  | nil =>
    cases init' with
    | nil => rfl
    | cons c init' =>
      have hc := (List.cons.inj h).1
      exact absurd List.mem_cons_self (hc ▸ hinit')
  | cons c init ih =>
    cases init' with
    | nil =>
      have hc := (List.cons.inj h).1
      exact absurd List.mem_cons_self (hc ▸ hinit)
    | cons c' init' =>
      obtain ⟨rfl, htail⟩ := List.cons.inj h
      rw [ih (fun hmem => hinit (List.mem_cons_of_mem _ hmem))
        (fun hmem => hinit' (List.mem_cons_of_mem _ hmem)) htail]

/-- Literals hold no parenthesis of the statement. -/
theorem closing_notMem_literals {count : ℕ} :
    .closing ∉ List.intercalate [.comma] ((b.literals count).map (·.getD [])) := by
  have hliteral : ∀ ncol columns, ∀ literal ∈ b.literalsFrom count ncol columns,
      .closing ∉ literal.getD [] := by
    intro ncol columns
    induction columns generalizing ncol with
    | nil => nofun
    | cons arrec columns ih =>
      intro literal hliteral
      obtain rfl | hliteral := List.mem_cons.mp hliteral
      · rw [BatchInsert.literal]
        cases b.insertParam ncol (b.source count arrec).1 (b.source count arrec).2 with
        | none => exact List.not_mem_nil
        | some text =>
          intro hmem
          have hfront := List.rdropWhile_prefix (fun c => decide (c = InsertByte.value 0))
            (l := text.map .value)
          obtain ⟨c, -, hc⟩ := List.mem_map.mp (hfront.subset hmem)
          cases hc
      · exact ih _ literal hliteral
  have hjoined : ∀ texts : List (List InsertByte), (∀ text ∈ texts, .closing ∉ text) →
      .closing ∉ List.intercalate [.comma] texts := by
    intro texts htexts
    induction texts with
    | nil => exact List.not_mem_nil
    | cons text texts ih =>
      obtain ⟨htext, htexts⟩ := List.forall_mem_cons.mp htexts
      cases texts with
      | nil => rwa [List.intercalate_singleton]
      | cons text' texts =>
        rw [List.intercalate_cons_cons]
        simpa [htext] using ih htexts
  exact hjoined _ (List.forall_mem_map.mpr (hliteral 0 b.columns))

/-- The buffer holds what the next row is copied behind. -/
def BufferAt (b : BatchInsert) (s : BatchState) : Prop :=
  s.buf = if s.count = 0 then b.buf else []

/-- What the inner loop has done in a statement when it is left without an error. -/
structure Appended (b : BatchInsert) (first left : ℕ) (s s' : BatchState) : Prop where
  count_lt : s.count < s'.count
  count_le : s'.count ≤ s.count + left
  query : s'.query = b.textFrom first s'.count
  rowAt : ∀ i, s.count ≤ i → i < s'.count → (b.rowAt i).isSome
  notFull : ∀ i, s.count ≤ i → i + 1 < s'.count → ¬ b.Full first i
  buf : s'.buf = []
  sent : s'.sent = s.sent
  stops : (s'.breakInsert = true ∧ b.Full first (s'.count - 1)) ∨
    (s'.breakInsert = s.breakInsert ∧ s'.count = s.count + left)

/-- One more row of a statement. -/
theorem textFrom_succ {first count : ℕ} {buf : List InsertByte} (hfirst : first ≤ count)
    (h : b.rowAt count = some buf) :
    b.textFrom first count ++ parenthesized buf ++ [.comma] = b.textFrom first (count + 1) := by
  have hrange : List.range' first (count + 1 - first) =
      List.range' first (count - first) ++ [count] := by
    rw [Nat.succ_sub hfirst, List.range'_1_concat, Nat.add_sub_cancel' hfirst]
  have hrow : b.rowText count = parenthesized buf := by rw [rowText, h, Option.getD_some]
  rw [textFrom, textFrom, hrange, List.flatMap_append, List.flatMap_singleton, hrow,
    List.append_assoc, List.append_assoc]

/-- The inner loop appends whole rows, one after the other, until the statement is long enough or
the arrays end. -/
theorem appendRows_spec {first left : ℕ} {s s' : BatchState} (hbuf : b.BufferAt s)
    (hfirst : first ≤ s.count) (hquery : s.query = b.textFrom first s.count)
    (h : b.appendRows (left + 1) s = some s') : Appended b first (left + 1) s s' := by
  induction left generalizing s with
  | zero =>
    rw [appendRows] at h
    cases hrow : b.rowBuffer s.count s.buf with
    | none => simp [hrow] at h
    | some buf =>
      have hat : b.rowAt s.count = some buf := by rwa [rowAt, ← hbuf]
      have hnext := textFrom_succ hfirst hat
      have hone : ∀ i, s.count ≤ i → i < s.count + 1 → (b.rowAt i).isSome := by
        intro i hle hlt
        obtain rfl : i = s.count := by omega
        simp [hat]
      simp only [hrow, hquery, hnext] at h
      split_ifs at h with hfull
      · obtain rfl := Option.some.inj h
        exact ⟨Nat.lt_succ_self _, le_rfl, rfl, hone, fun i _ _ => by dsimp only at *; omega, rfl,
          rfl, Or.inl ⟨rfl, by simpa [Full, hat] using hfull⟩⟩
      · obtain rfl := Option.some.inj h
        exact ⟨Nat.lt_succ_self _, le_rfl, rfl, hone, fun i _ _ => by dsimp only at *; omega, rfl,
          rfl, Or.inr ⟨rfl, rfl⟩⟩
  | succ left ih =>
    rw [appendRows] at h
    cases hrow : b.rowBuffer s.count s.buf with
    | none => simp [hrow] at h
    | some buf =>
      have hat : b.rowAt s.count = some buf := by rwa [rowAt, ← hbuf]
      have hnext := textFrom_succ hfirst hat
      simp only [hrow, hquery, hnext] at h
      split_ifs at h with hfull
      · obtain rfl := Option.some.inj h
        refine ⟨Nat.lt_succ_self _, by dsimp only; omega, rfl, fun i hle hlt => ?_,
          fun i _ _ => by dsimp only at *; omega, rfl, rfl,
          Or.inl ⟨rfl, by simpa [Full, hat] using hfull⟩⟩
        obtain rfl : i = s.count := by dsimp only at hlt; omega
        simp [hat]
      · obtain ⟨hlt, hle, hquery', hrow', hnot, hbuf', hsent, hstops⟩ :=
          ih (by simp [BufferAt]) (by dsimp only; omega) rfl h
        dsimp only at hlt hle hrow' hnot hsent hstops
        refine ⟨by omega, by omega, hquery', fun i hge hlt' => ?_, fun i hge hlt' => ?_, hbuf',
          hsent, hstops.imp_right fun hend => ⟨hend.1, by omega⟩⟩
        · by_cases hi : i = s.count
          · simp [hi, hat]
          · exact hrow' i (by omega) hlt'
        · by_cases hi : i = s.count
          · rw [hi]
            simpa [Full, hat] using hfull
          · exact hnot i (by omega) hlt'

/-- The inner loop ends with an error at a row whose values are refused before the statement is
complete. -/
theorem appendRows_eq_none {first left : ℕ} {s : BatchState} (hbuf : b.BufferAt s)
    (hfirst : first ≤ s.count) (hquery : s.query = b.textFrom first s.count)
    (h : b.appendRows left s = none) : ∃ count, s.count ≤ count ∧ count < s.count + left ∧
      b.rowAt count = none ∧ ∀ i, s.count ≤ i → i < count → ¬ b.Full first i := by
  induction left generalizing s with
  | zero => cases h
  | succ left ih =>
    rw [appendRows] at h
    cases hrow : b.rowBuffer s.count s.buf with
    | none =>
      have hat : b.rowAt s.count = none := by rwa [rowAt, ← hbuf]
      exact ⟨s.count, le_rfl, by omega, hat, fun i hle hlt => by omega⟩
    | some buf =>
      have hat : b.rowAt s.count = some buf := by rwa [rowAt, ← hbuf]
      have hnext := textFrom_succ hfirst hat
      simp only [hrow, hquery, hnext] at h
      split_ifs at h with hfull
      obtain ⟨count, hle, hlt, hnone, hnot⟩ := ih (by simp [BufferAt]) (by dsimp only; omega) rfl h
      dsimp only at hle hlt hnot
      refine ⟨count, by omega, by omega, hnone, fun i hge hlt' => ?_⟩
      by_cases hi : i = s.count
      · rw [hi]
        simpa [Full, hat] using hfull
      · exact hnot i (by omega) hlt'

/-- A statement ends in one place only. -/
theorem Completed.unique {first next next' : ℕ} (h : b.Completed first next)
    (h' : b.Completed first next') : next = next' := by
  have hle : ∀ {next next'}, b.Completed first next → b.Completed first next' →
      ¬ next < next' := by
    intro next next' h h' hlt
    have hpos := h.lt
    obtain hend | hfull := h.stops
    · have := h'.le
      omega
    · exact h'.notFull (next - 1) (by omega) (by omega) hfull
  exact le_antisymm (not_lt.mp (hle h' h)) (not_lt.mp (hle h h'))

namespace Splits

variable {k k' n n' : ℕ}

/-- The elements of so many statements are determined. -/
theorem unique (h : b.Splits k n) (h' : b.Splits k n') : n = n' := by
  induction h generalizing n' with
  | start =>
    cases h'
    rfl
  | sent _ _ completed ih =>
    cases h' with
    | sent front' _ completed' =>
      obtain rfl := ih front'
      exact completed.unique completed'

/-- More statements hold more elements. -/
theorem le_of_le (h : b.Splits k n) (h' : b.Splits k' n') (hle : k ≤ k') : n ≤ n' := by
  induction h' with
  | start =>
    obtain rfl := Nat.le_zero.mp hle
    exact (h.unique .start).le
  | sent front executed completed ih =>
    obtain hlt | rfl := Nat.lt_or_eq_of_le hle
    · exact (ih (Nat.lt_succ_iff.mp hlt)).trans completed.lt.le
    · exact (h.unique (.sent front executed completed)).le

/-- Statements are sent one after the other. -/
theorem exists_of_le (h : b.Splits k' n') (hle : k ≤ k') : ∃ n, b.Splits k n := by
  induction h with
  | start =>
    obtain rfl := Nat.le_zero.mp hle
    exact ⟨0, .start⟩
  | sent front executed completed ih =>
    obtain hlt | rfl := Nat.lt_or_eq_of_le hle
    · exact ih (Nat.lt_succ_iff.mp hlt)
    · exact ⟨_, .sent front executed completed⟩

end Splits

/-- The outer loop has sent statements for the first elements, and begins a new one. -/
structure Sending (b : BatchInsert) (s : BatchState) (groups : List (List ℕ)) : Prop where
  flatten : groups.flatten = List.range s.count
  nil_notMem : [] ∉ groups
  sent : s.sent = groups.map b.written
  rowAt : ∀ i < s.count, (b.rowAt i).isSome
  buf : b.BufferAt s
  count_lt : s.count < b.insertCount
  query : (if s.breakInsert then s.query.take b.queryLength else s.query) = b.query.map .head
  executed : ∀ i < groups.length, b.execStmtQueryStd i = true
  splits : b.Splits groups.length s.count

/-- The outer loop has ended. -/
structure Sent (b : BatchInsert) (loop : Bool × List (List InsertByte)) (groups : List (List ℕ))
    (n : ℕ) : Prop where
  flatten : groups.flatten = List.range n
  nil_notMem : [] ∉ groups
  sent : loop.2 = groups.map b.written
  rowAt : ∀ i < n, (b.rowAt i).isSome
  le : n ≤ b.insertCount
  complete : loop.1 = true → n = b.insertCount
  executed : loop.1 = true → ∀ i < groups.length, b.execStmtQueryStd i = true
  failed : loop.1 = false → (∃ i, i + 1 = groups.length ∧ b.execStmtQueryStd i = false) ∨
    n < b.insertCount
  splits : b.Splits groups.length n
  last : ∀ next, ¬ b.Splits (groups.length + 1) next

/-- The elements of the statements that were sent. -/
theorem Sent.sends_iff {loop : Bool × List (List InsertByte)} {groups : List (List ℕ)} {n i : ℕ}
    (h : Sent b loop groups n) : b.Sends i ↔ i < n := by
  constructor
  · rintro ⟨k, m, hsplits, hlt⟩
    by_cases hle : k ≤ groups.length
    · exact lt_of_lt_of_le hlt (hsplits.le_of_le h.splits hle)
    · obtain ⟨next, hnext⟩ := hsplits.exists_of_le (Nat.lt_of_not_le hle)
      exact absurd hnext (h.last next)
  · exact fun hlt => ⟨_, n, h.splits, hlt⟩

theorem insertCount_pos : 0 < b.insertCount := by
  unfold insertCount
  split_ifs <;> omega

theorem sending_start : Sending b b.start [] where
  flatten := rfl
  nil_notMem := List.not_mem_nil
  sent := rfl
  rowAt := fun i hi => absurd hi (Nat.not_lt_zero i)
  buf := rfl
  count_lt := insertCount_pos
  query := rfl
  executed := fun i hi => absurd hi (Nat.not_lt_zero i)
  splits := .start

theorem range_append_range' {m n : ℕ} (h : m ≤ n) :
    List.range m ++ List.range' m (n - m) = List.range n := by
  have hrange := List.range'_append_1 (s := 0) (m := m) (n := n - m)
  rw [Nat.zero_add, Nat.add_sub_cancel' h] at hrange
  rwa [List.range_eq_range', List.range_eq_range']

/-- A statement is completed without its last comma. -/
theorem dropLast_textFrom {first next : ℕ} (h : first < next) :
    (b.textFrom first next).dropLast = b.written (List.range' first (next - first)) := by
  obtain ⟨k, hk⟩ : ∃ k, next - first = k + 1 := ⟨next - first - 1, by omega⟩
  have hrows : List.range' first (next - first) ≠ [] := by
    rw [hk, List.range'_succ]
    exact List.cons_ne_nil _ _
  have hne : ((List.range' first (next - first)).flatMap fun i =>
      b.rowText i ++ [InsertByte.comma]) ≠ [] := by
    rw [hk, List.range'_succ]
    simp
  rw [textFrom, List.dropLast_append_of_ne_nil hne, dropLast_flatMap_comma hrows]
  rfl

/-- The state in which the inner loop of a statement begins. -/
def statementStart (b : BatchInsert) (s : BatchState) : BatchState :=
  { s with query := if s.breakInsert then s.query.take b.queryLength else s.query }

theorem Sending.query_eq {s : BatchState} {groups : List (List ℕ)} (h : Sending b s groups) :
    (b.statementStart s).query = b.textFrom s.count (b.statementStart s).count := by
  have hcount : (b.statementStart s).count = s.count := rfl
  rw [hcount, textFrom, Nat.sub_self, List.range'_zero, List.flatMap_nil, List.append_nil]
  exact h.query

/-- One more statement has been sent. -/
theorem Sending.sent_append {s s' : BatchState} {groups : List (List ℕ)} (h : Sending b s groups)
    (happended : Appended b s.count (b.insertCount - s.count) (b.statementStart s) s') :
    (groups ++ [List.range' s.count (s'.count - s.count)]).flatten = List.range s'.count ∧
      [] ∉ groups ++ [List.range' s.count (s'.count - s.count)] ∧
      s'.sent ++ [s'.query.dropLast] =
        (groups ++ [List.range' s.count (s'.count - s.count)]).map b.written ∧
      (∀ i < s'.count, (b.rowAt i).isSome) ∧ b.Completed s.count s'.count := by
  have hlt : s.count < s'.count := happended.count_lt
  have hle : s'.count ≤ s.count + (b.insertCount - s.count) := happended.count_le
  have hcount := h.count_lt
  have hsent : s'.sent = s.sent := happended.sent
  refine ⟨?_, ?_, ?_, ?_, hlt, by omega, happended.rowAt, happended.notFull, ?_⟩
  · rw [List.flatten_append, h.flatten, List.flatten_singleton]
    exact range_append_range' hlt.le
  · intro hmem
    rcases List.mem_append.mp hmem with hmem | hmem
    · exact h.nil_notMem hmem
    · have hlength := congrArg List.length (List.mem_singleton.mp hmem)
      rw [List.length_range', List.length_nil] at hlength
      omega
  · rw [happended.query, dropLast_textFrom hlt, hsent, h.sent, List.map_append]
    rfl
  · intro i hi
    by_cases hbefore : i < s.count
    · exact h.rowAt i hbefore
    · exact happended.rowAt i (not_lt.mp hbefore) hi
  · obtain ⟨-, hfull⟩ | ⟨-, hend⟩ := happended.stops
    · exact Or.inr hfull
    · left
      have hend : s'.count = s.count + (b.insertCount - s.count) := hend
      omega

theorem batchBody_of_none {s : BatchState}
    (h : b.appendRows (b.insertCount - s.count) (b.statementStart s) = none) :
    b.batchBody s = .done (false, s.sent) := by
  rw [statementStart] at h
  simp only [batchBody, h]

theorem batchBody_of_some {s s' : BatchState}
    (h : b.appendRows (b.insertCount - s.count) (b.statementStart s) = some s') :
    b.batchBody s =
      if b.execStmtQueryStd s.sent.length = false then .done (false, s'.sent ++ [s'.query.dropLast])
      else if s'.breakInsert ∧ s'.count < b.insertCount then
        .next { s' with query := s'.query.dropLast, sent := s'.sent ++ [s'.query.dropLast] }
      else .done (true, s'.sent ++ [s'.query.dropLast]) := by
  rw [statementStart] at h
  simp only [batchBody, h]

/-- No statement is sent behind one whose values are refused. -/
theorem Sending.last_of_none {s : BatchState} {groups : List (List ℕ)} (h : Sending b s groups)
    (hnone : b.appendRows (b.insertCount - s.count) (b.statementStart s) = none) (next : ℕ) :
    ¬ b.Splits (groups.length + 1) next := by
  rintro (_ | ⟨front, -, completed⟩)
  obtain rfl := h.splits.unique front
  obtain ⟨count, hle, hlt, hrow, hnot⟩ :=
    appendRows_eq_none (show BufferAt b (b.statementStart s) from h.buf) le_rfl h.query_eq hnone
  have hle : s.count ≤ count := hle
  have hlt : count < s.count + (b.insertCount - s.count) := hlt
  have hnext : next ≤ count := by
    by_contra hnext
    have hsome := completed.rowAt count hle (by omega)
    rw [hrow] at hsome
    cases hsome
  have hfirst := completed.lt
  obtain hend | hfull := completed.stops
  · omega
  · exact hnot (next - 1) (show s.count ≤ next - 1 by omega) (by omega) hfull

/-- An evaluation of the outer loop sends one statement, or ends the call. -/
theorem Sending.step {s : BatchState} {groups : List (List ℕ)} (h : Sending b s groups) :
    (∃ t rows, b.batchBody s = .next t ∧ Sending b t (groups ++ [rows]) ∧ s.count < t.count) ∨
      ∃ loop groups' n, b.batchBody s = .done loop ∧ Sent b loop groups' n := by
  have hcount := h.count_lt
  obtain ⟨left, hleft⟩ : ∃ left, b.insertCount - s.count = left + 1 :=
    Nat.exists_eq_add_of_le' (by omega)
  cases happend : b.appendRows (b.insertCount - s.count) (b.statementStart s) with
  | none =>
    right
    refine ⟨_, groups, s.count, batchBody_of_none happend, h.flatten, h.nil_notMem, h.sent, h.rowAt,
      h.count_lt.le, ?_, ?_, fun _ => Or.inr h.count_lt, h.splits, h.last_of_none happend⟩
    · intro hfalse
      cases hfalse
    · intro hfalse
      cases hfalse
  | some s' =>
    have hbody := batchBody_of_some happend
    rw [hleft] at happend
    have happended := appendRows_spec (show BufferAt b (b.statementStart s) from h.buf) le_rfl
      h.query_eq happend
    rw [← hleft] at happended
    obtain ⟨hflatten, hnil, hsent, hrow, hcompleted⟩ := h.sent_append happended
    set rows := List.range' s.count (s'.count - s.count)
    have hlt := hcompleted.lt
    have hbound := hcompleted.le
    have hlength : s.sent.length + 1 = (groups ++ [rows]).length := by
      rw [h.sent, List.length_map, List.length_append]
      rfl
    have hgroups : s.sent.length = groups.length := by rw [h.sent, List.length_map]
    have hsplits : b.Splits (groups ++ [rows]).length s'.count := by
      rw [← hlength, hgroups]
      exact .sent h.splits h.executed hcompleted
    by_cases hexec : b.execStmtQueryStd s.sent.length = false
    · rw [if_pos hexec] at hbody
      right
      refine ⟨_, groups ++ [rows], s'.count, hbody, hflatten, hnil, hsent, hrow, hbound, ?_, ?_,
        fun _ => Or.inl ⟨s.sent.length, hlength, hexec⟩, hsplits, ?_⟩
      · intro hfalse
        cases hfalse
      · intro hfalse
        cases hfalse
      · rintro next (_ | ⟨-, executed, -⟩)
        rw [executed s.sent.length (by omega)] at hexec
        cases hexec
    rw [if_neg hexec] at hbody
    have hexecuted : ∀ i < (groups ++ [rows]).length, b.execStmtQueryStd i = true := by
      intro i hi
      by_cases hlast : i = s.sent.length
      · rw [hlast]
        simpa using hexec
      · exact h.executed i (by omega)
    by_cases hnext : s'.breakInsert ∧ s'.count < b.insertCount
    · rw [if_pos hnext] at hbody
      left
      refine ⟨_, rows, hbody,
        ⟨hflatten, hnil, hsent, hrow, ?_, hnext.2, ?_, hexecuted, hsplits⟩, hlt⟩
      · rw [BufferAt, if_neg (show s'.count ≠ 0 by omega)]
        exact happended.buf
      · -- only an array is split over several statements
        have harray : b.irow = 0 ∧ 1 < b.arraySize := by
          by_contra hno
          have := hnext.2
          rw [insertCount, if_neg hno] at this
          omega
        have hmap : (b.query.map InsertByte.head).length = b.query.length := List.length_map _
        have hquery : s'.query = b.textFrom s.count s'.count := happended.query
        dsimp only
        rw [if_pos hnext.1, queryLength, if_pos harray, hquery, dropLast_textFrom hlt, written,
          ← hmap, List.take_left]
    · rw [if_neg hnext] at hbody
      have hall : s'.count = b.insertCount := by
        rcases happended.stops with ⟨hbreak, -⟩ | ⟨-, hall⟩
        · have := not_and.mp hnext hbreak
          omega
        · have hall : s'.count = s.count + (b.insertCount - s.count) := hall
          omega
      right
      refine ⟨_, groups ++ [rows], s'.count, hbody, hflatten, hnil, hsent, hrow, hbound,
        fun _ => hall, fun _ => hexecuted, ?_, hsplits, ?_⟩
      · intro hfalse
        cases hfalse
      · rintro next (_ | ⟨front, -, completed⟩)
        have := hsplits.unique front
        have := completed.lt
        have := completed.le
        omega

/-- A call ends, and its statements hold the rows for the first elements, in order. -/
theorem exists_sent (b : BatchInsert) :
    ∃ loop groups n, Returns b.batchBody b.start loop ∧ Sent b loop groups n := by
  have hinv : ∀ s, Reaches b.batchBody b.start s → ∃ groups, Sending b s groups := by
    intro s hreach
    refine hreach.invariant (fun s => ∃ groups, Sending b s groups) ?_ ⟨[], sending_start⟩
    rintro t t' ⟨groups, hsending⟩ hnext
    rcases hsending.step with ⟨u, rows, hu, hsending', -⟩ | ⟨loop, groups', n, hdone, -⟩
    · cases Step.next.inj (hu.symm.trans hnext)
      exact ⟨_, hsending'⟩
    · cases hdone.symm.trans hnext
  have hterm : Terminates b.batchBody b.start := by
    refine terminates_of_measure (fun s => b.insertCount - s.count) ?_
    intro t t' hreach hnext
    obtain ⟨groups, hsending⟩ := hinv t hreach
    rcases hsending.step with ⟨u, rows, hu, hsending', hlt⟩ | ⟨loop, groups', n, hdone, -⟩
    · cases Step.next.inj (hu.symm.trans hnext)
      have := hsending'.count_lt
      omega
    · cases hdone.symm.trans hnext
  obtain ⟨loop, hloop⟩ := hterm
  obtain ⟨t, hreach, hdone⟩ := hloop.exists_done
  obtain ⟨groups, hsending⟩ := hinv t hreach
  rcases hsending.step with ⟨u, rows, hu, -, -⟩ | ⟨loop', groups', n, hdone', hsent⟩
  · cases hu.symm.trans hdone
  · cases Step.done.inj (hdone'.symm.trans hdone)
    exact ⟨loop, groups', n, hloop, hsent⟩

/-- The row that is written for the first element, behind what the buffer held, is that of the
first addressed one. -/
def FirstIsAddressed (b : BatchInsert) : Prop :=
  ∃ first, b.addressed.head? = some first ∧ b.rowText 0 = b.tuple first

/-- Nothing is reported about the row: the server or a bookmark fails, or no status
array is bound. -/
def NothingReported (b : BatchInsert) : Prop :=
  b.execStmtQueryStd 0 = false ∨ b.bookmarksDelivered = false ∨
    (b.arrayStatusPtr = false ∧ b.rowStatusPtrEx = false)

/-- No column without a record is reached. If a statement is sent, the first row written is the
first addressed one, and it is the first element of the arrays unless nothing is reported. The
addressed elements of the rows that are sent are whole. -/
structure WritesAddressed (b : BatchInsert) : Prop where
  recorded : ¬ b.ReachesMissing
  first : (∃ i, b.Sends i) → b.FirstIsAddressed ∧ (b.irow ≤ 1 ∨ b.NothingReported)
  whole : ∀ i, b.Sends i → b.Whole (b.irow - 1 + i)

/-- A comma or nothing follows the first row of a statement. -/
theorem exists_intercalate_cons (text : List InsertByte) (texts : List (List InsertByte)) :
    ∃ rest, List.intercalate [InsertByte.comma] (text :: texts) = text ++ rest := by
  cases texts with
  | nil => exact ⟨[], by simp [List.intercalate]⟩
  | cons text' texts =>
    exact ⟨.comma :: List.intercalate [InsertByte.comma] (text' :: texts),
      by simp [List.intercalate]⟩

/-- A statement that is also one for addressed rows begins with the first of them. -/
theorem rowText_eq_of_written {first : ℕ} {rows rows' : List ℕ} (hzero : (b.rowAt 0).isSome)
    (h : b.written (0 :: rows) = b.statement (first :: rows')) : b.rowText 0 = b.tuple first := by
  obtain ⟨buf, hbuf⟩ := Option.isSome_iff_exists.mp hzero
  have htexts := List.append_cancel_left h
  rw [List.map_cons, List.map_cons] at htexts
  obtain ⟨rest, hrest⟩ := exists_intercalate_cons (b.rowText 0) (rows.map b.rowText)
  obtain ⟨rest', hrest'⟩ := exists_intercalate_cons (b.tuple first) (rows'.map b.tuple)
  rw [hrest, hrest', rowText, tuple, hbuf, Option.getD_some, parenthesized] at htexts
  have hclosing : .closing ∉ buf.dropLast :=
    fun hmem => closing_notMem_rowAt hbuf (List.mem_of_mem_dropLast hmem)
  rw [rowText, tuple, hbuf, Option.getD_some, parenthesized,
    enclosed_inj hclosing closing_notMem_literals htexts]

/-- The rows of a statement are counted by their parentheses. -/
theorem count_closing {text : ℕ → List InsertByte} {rows : List ℕ}
    (h : ∀ i ∈ rows, (text i).count .closing = 1) :
    (b.query.map InsertByte.head ++ List.intercalate [.comma] (rows.map text)).count .closing =
      rows.length := by
  have hhead : (b.query.map InsertByte.head).count .closing = 0 :=
    List.count_eq_zero.mpr fun hmem => by
      obtain ⟨c, -, hc⟩ := List.mem_map.mp hmem
      cases hc
  rw [List.count_append, hhead, Nat.zero_add]
  induction rows with
  | nil => rfl
  | cons i rows ih =>
    obtain ⟨hone, hrows⟩ := List.forall_mem_cons.mp h
    have ih := ih hrows
    cases rows with
    | nil => simpa [List.intercalate] using hone
    | cons j rows =>
      rw [List.map_cons, List.map_cons, List.intercalate_cons_cons, ← List.map_cons,
        List.count_append, List.count_append, hone, ih, List.length_cons]
      simp only [List.count_singleton, reduceCtorEq, beq_iff_eq, if_false, List.length_cons]
      omega

/-- A text in parentheses has one at its end. -/
theorem count_enclosed {init : List InsertByte} (h : .closing ∉ init) :
    (InsertByte.opening :: init ++ [InsertByte.closing]).count InsertByte.closing = 1 := by
  rw [List.count_append, List.count_cons_of_ne (by decide), List.count_eq_zero.mpr h]
  rfl

/-- Statements that are also ones for addressed rows have as many rows. -/
theorem length_of_written {groups groups' : List (List ℕ)}
    (hrow : ∀ i ∈ groups.flatten, (b.rowAt i).isSome)
    (h : groups.map b.written = groups'.map b.statement) :
    groups'.flatten.length = groups.flatten.length := by
  induction groups generalizing groups' with
  | nil =>
    rw [List.map_eq_nil_iff.mp h.symm]
  | cons rows groups ih =>
    cases groups' with
    | nil => cases h
    | cons rows' groups' =>
      obtain ⟨hrows, hgroups⟩ := List.cons.inj h
      have hsame := ih (fun i hi => hrow i (List.mem_append_right _ hi)) hgroups
      have hcount : (b.written rows).count .closing = rows.length := by
        refine count_closing fun i hi => ?_
        obtain ⟨buf, hbuf⟩ := Option.isSome_iff_exists.mp (hrow i (List.mem_append_left _ hi))
        rw [rowText, hbuf, Option.getD_some]
        exact count_enclosed fun hmem =>
          closing_notMem_rowAt hbuf (List.mem_of_mem_dropLast hmem)
      have hcount' : (b.statement rows').count .closing = rows'.length :=
        count_closing fun i _ => count_enclosed closing_notMem_literals
      rw [List.flatten_cons, List.flatten_cons, List.length_append, List.length_append, hsame,
        ← hcount, ← hcount', hrows]

theorem addedStatus_eq (status : ℕ → Option SQLUSMALLINT) (count i : ℕ) :
    addedStatus status count i = if i < count then some SQL_ROW_ADDED else status i := by
  induction count generalizing status with
  | zero => rfl
  | succ count ih =>
    rw [addedStatus, ih]
    by_cases hi : i = count
    · subst hi
      simp
    · rw [Function.update_of_ne hi]
      have : i < count ↔ i < count + 1 := by omega
      simp only [this]

/-- A group that holds the first element is the first one. -/
theorem Sent.groups_cons {loop : Bool × List (List InsertByte)} {groups : List (List ℕ)} {n : ℕ}
    (h : Sent b loop groups n) (hne : groups ≠ []) :
    ∃ rows rest, groups = (0 :: rows) :: rest := by
  obtain ⟨g, rest, rfl⟩ := List.exists_cons_of_ne_nil hne
  have hg : g ≠ [] := fun hnil => h.nil_notMem (by rw [hnil]; exact List.mem_cons_self)
  obtain ⟨i, rows, rfl⟩ := List.exists_cons_of_ne_nil hg
  have hflatten := h.flatten
  rw [List.flatten_cons, List.cons_append] at hflatten
  cases n with
  | zero => cases hflatten
  | succ n =>
    rw [List.range_succ_eq_map] at hflatten
    exact ⟨rows, rest, by rw [(List.cons.inj hflatten).1]⟩

/-- With one row to insert there is one statement, unless its values are refused. -/
theorem Sent.groups_single {loop : Bool × List (List InsertByte)} {groups : List (List ℕ)} {n : ℕ}
    (h : Sent b loop groups n) (hcount : b.insertCount = 1) (hne : groups ≠ []) :
    groups = [[0]] ∧ n = 1 := by
  obtain ⟨rows, rest, rfl⟩ := h.groups_cons hne
  have hflatten := h.flatten
  have hle := h.le
  rw [hcount] at hle
  have hlength := congrArg List.length hflatten
  rw [List.length_range, List.flatten_cons, List.length_append, List.length_cons] at hlength
  have hrows : rows = [] := List.eq_nil_of_length_eq_zero (by omega)
  have hrest : rest.flatten = [] := List.eq_nil_of_length_eq_zero (by omega)
  have hrest : rest = [] := by
    cases rest with
    | nil => rfl
    | cons g rest =>
      obtain ⟨hg, -⟩ := List.append_eq_nil_iff.mp (List.flatten_cons ▸ hrest)
      refine absurd ?_ h.nil_notMem
      simp [hg]
  subst hrows hrest
  exact ⟨rfl, by simp only [List.length_nil, List.flatten_nil] at hlength; omega⟩

theorem finish_sent (loop : Bool × List (List InsertByte)) : (b.finish loop).sent = loop.2 := by
  unfold finish
  split_ifs <;> rfl

theorem finish_rc {loop : Bool × List (List InsertByte)} :
    (b.finish loop).rc = .success ↔ loop.1 = true ∧ b.bookmarksDelivered = true := by
  unfold finish
  split_ifs with h
  · exact iff_of_true rfl (by simpa using h)
  · exact iff_of_false (fun h => by cases h) (by simpa using h)

theorem finish_of_success {loop : Bool × List (List InsertByte)}
    (h : (b.finish loop).rc = .success) :
    (b.finish loop).affectedRows = some b.insertCount ∧
      (b.finish loop).arrayStatus =
        (if b.arrayStatusPtr then some (addedStatus (fun _ => none) b.insertCount) else none) ∧
      (b.finish loop).rowStatus =
        (if b.rowStatusPtrEx then some (addedStatus (fun _ => none) b.insertCount) else none) := by
  have hsome : (loop.1 && b.bookmarksDelivered) = true := by simpa using finish_rc.mp h
  simp only [finish, if_pos hsome, and_self]

/-- The statuses that a successful call has written. -/
theorem finish_written {loop : Bool × List (List InsertByte)} {status : ℕ → Option SQLUSMALLINT}
    (h : (b.finish loop).rc = .success)
    (hstatus : (b.finish loop).arrayStatus = some status ∨
      (b.finish loop).rowStatus = some status) : status = addedStatus (fun _ => none) b.insertCount := by
  obtain ⟨-, harray, hrow⟩ := finish_of_success h
  rcases hstatus with hstatus | hstatus
  · rw [harray] at hstatus
    split_ifs at hstatus
    exact (Option.some.inj hstatus).symm
  · rw [hrow] at hstatus
    split_ifs at hstatus
    exact (Option.some.inj hstatus).symm

/-- When the first element is addressed, the addressed rows are those that are counted. -/
theorem addressed_eq_range (hfirst : b.addressed ≠ []) (hirow : b.irow ≤ 1) :
    b.addressed = List.range b.insertCount := by
  by_cases hzero : b.irow = 0
  · rw [addressed, if_pos hzero] at hfirst ⊢
    have hpos : b.arraySize ≠ 0 := by
      rintro hsize
      exact hfirst (by rw [hsize]; rfl)
    by_cases hone : 1 < b.arraySize
    · rw [insertCount, if_pos ⟨hzero, hone⟩]
    · rw [insertCount, if_neg fun h => hone h.2, show b.arraySize = 1 by omega]
  · rw [addressed, if_neg hzero, insertCount, if_neg fun h => hzero h.1, show b.irow = 1 by omega]
    rfl

/-- An addressed element is counted from the first one. -/
theorem getElem?_addressed {i j : ℕ} (h : b.addressed[i]? = some j) : j = b.irow - 1 + i := by
  rw [addressed] at h
  split_ifs at h with hzero
  · obtain ⟨hlt, rfl⟩ := List.getElem?_eq_some_iff.mp h
    rw [List.getElem_range, hzero, Nat.zero_sub, Nat.zero_add]
  · obtain ⟨hlt, rfl⟩ := List.getElem?_eq_some_iff.mp h
    obtain rfl : i = 0 := by simpa using hlt
    rfl

/-- Calls that write what is addressed insert their rows. -/
theorem insertsRows_of_addressed {loop : Bool × List (List InsertByte)} {groups : List (List ℕ)}
    {n : ℕ} (h : Sent b loop groups n) (hfirst : b.FirstIsAddressed) (hirow : b.irow ≤ 1)
    (hwhole : ∀ i < n, b.Whole (b.irow - 1 + i)) : b.InsertsRows (b.finish loop) := by
  obtain ⟨first, hhead, hrow⟩ := hfirst
  have haddressed := addressed_eq_range (fun hnil => by rw [hnil] at hhead; cases hhead) hirow
  have hsame : ∀ i < n, b.rowText i = b.tuple i := by
    intro i hi
    by_cases hzero : i = 0
    · rw [List.head?_eq_getElem?] at hhead
      have := getElem?_addressed hhead
      rw [hzero, hrow, show first = 0 by omega]
    · exact rowText_eq_tuple hzero (h.rowAt i hi)
  have hbelow : ∀ rows ∈ groups, ∀ i ∈ rows, i < n := by
    intro rows hrows i hi
    rw [← List.mem_range, ← h.flatten]
    exact List.mem_flatten_of_mem hrows hi
  refine ⟨⟨groups, ?_, h.nil_notMem, ?_, ?_, ?_⟩, ?_, ?_⟩
  · rw [finish_sent, h.sent]
    refine List.map_congr_left fun rows hrows => ?_
    rw [written, statement, List.map_congr_left fun i hi => hsame i (hbelow rows hrows i hi)]
  · intro i hi
    rw [h.flatten, List.mem_range] at hi
    have hi := hwhole i hi
    rwa [show b.irow - 1 + i = i by omega] at hi
  · rw [h.flatten, haddressed, ← range_append_range' h.le]
    exact List.prefix_append _ _
  · intro hrc
    rw [h.flatten, haddressed, h.complete (finish_rc.mp hrc).1]
  · intro hrc
    rw [(finish_of_success hrc).1, haddressed, List.length_range]
  · intro hrc status hstatus i
    rw [finish_written hrc hstatus, addedStatus_eq, haddressed]
    simp only [List.mem_range]

/-- A call that sends nothing breaks nothing. -/
theorem Sent.insertsRows_of_nil {loop : Bool × List (List InsertByte)} {n : ℕ}
    (h : Sent b loop [] n) : b.InsertsRows (b.finish loop) := by
  have hzero : n = 0 := by
    have hlength := congrArg List.length h.flatten
    rw [List.length_range] at hlength
    exact hlength.symm
  have hrc : (b.finish loop).rc ≠ .success := by
    intro hrc
    have hcount := h.complete (finish_rc.mp hrc).1
    have := b.insertCount_pos
    omega
  have hempty : loop.2 = [] := h.sent
  refine ⟨⟨[], by rw [finish_sent, hempty]; rfl, List.not_mem_nil, by simp, by simp, ?_⟩, ?_, ?_⟩
  · exact fun h => absurd h hrc
  · exact fun h => absurd h hrc
  · exact fun h => absurd h hrc

/-- A row behind the first one that nothing is reported about may be the one written. -/
theorem insertsRows_of_nothingReported {loop : Bool × List (List InsertByte)}
    {groups : List (List ℕ)} {n : ℕ} (h : Sent b loop groups n) (hne : groups ≠ [])
    (hfirst : b.FirstIsAddressed) (hirow : ¬ b.irow ≤ 1) (hnothing : b.NothingReported)
    (hwhole : ∀ i < n, b.Whole (b.irow - 1 + i)) : b.InsertsRows (b.finish loop) := by
  have hcount : b.insertCount = 1 := by rw [insertCount, if_neg fun h => hirow (by omega)]
  have haddressed : b.addressed = [b.irow - 1] := by rw [addressed, if_neg (by omega)]
  obtain ⟨first, hhead, hrow⟩ := hfirst
  rw [haddressed] at hhead
  obtain rfl := Option.some.inj hhead
  obtain ⟨rfl, rfl⟩ := h.groups_single hcount hne
  have hsent : loop.2 = [b.statement [b.irow - 1]] := by
    rw [h.sent]
    simp [written, statement, hrow, List.intercalate]
  have hfails : (b.finish loop).rc = .success →
      b.arrayStatusPtr = false ∧ b.rowStatusPtrEx = false := by
    intro hrc
    obtain ⟨hloop, hbookmarks⟩ := finish_rc.mp hrc
    have hexec := h.executed hloop 0 Nat.zero_lt_one
    rcases hnothing with hserver | hbookmark | hstatus
    · rw [hexec] at hserver
      cases hserver
    · rw [hbookmarks] at hbookmark
      cases hbookmark
    · exact hstatus
  refine ⟨⟨[[b.irow - 1]], by rw [finish_sent, hsent]; rfl, by simp,
    by simpa using hwhole 0 Nat.zero_lt_one, ?_, ?_⟩, ?_, ?_⟩
  · rw [haddressed]
    exact List.prefix_rfl
  · exact fun _ => haddressed.symm
  · intro hrc
    rw [(finish_of_success hrc).1, haddressed, hcount]
    rfl
  · intro hrc status hstatus
    obtain ⟨-, harray, hrowStatus⟩ := finish_of_success hrc
    obtain ⟨hno, hno'⟩ := hfails hrc
    rw [hno, if_neg Bool.false_ne_true] at harray
    rw [hno', if_neg Bool.false_ne_true] at hrowStatus
    rw [harray, hrowStatus] at hstatus
    rcases hstatus with hstatus | hstatus <;> cases hstatus

/-- A call that inserts its rows writes the first addressed row first, and reports about no other
one. -/
theorem first_of_insertsRows {loop : Bool × List (List InsertByte)} {groups : List (List ℕ)}
    {n : ℕ} (h : Sent b loop groups n) (hinserts : b.InsertsRows (b.finish loop))
    (hne : groups ≠ []) : b.FirstIsAddressed ∧ (b.irow ≤ 1 ∨ b.NothingReported) := by
  obtain ⟨rows, rest, rfl⟩ := h.groups_cons hne
  have hlt : 0 < n := by
    have hmem : 0 ∈ List.range n := by
      rw [← h.flatten]
      simp
    exact List.mem_range.mp hmem
  constructor
  · obtain ⟨groups', hsame, hnil, -, hfront, -⟩ := hinserts.sent
    rw [finish_sent, h.sent] at hsame
    cases groups' with
    | nil => cases hsame
    | cons g rest' =>
      have hg : g ≠ [] := fun hg => hnil (by rw [hg]; exact List.mem_cons_self)
      obtain ⟨first, rows', rfl⟩ := List.exists_cons_of_ne_nil hg
      refine ⟨first, ?_, rowText_eq_of_written (h.rowAt 0 hlt) (List.cons.inj hsame).1⟩
      obtain ⟨tail, htail⟩ := hfront
      rw [← htail]
      rfl
  by_contra hno
  obtain ⟨hirow, hreported⟩ := not_or.mp hno
  have hcount : b.insertCount = 1 := by rw [insertCount, if_neg fun h => hirow (by omega)]
  have haddressed : b.addressed = [b.irow - 1] := by rw [addressed, if_neg (by omega)]
  obtain ⟨hgroups, rfl⟩ := h.groups_single hcount (List.cons_ne_nil _ _)
  simp only [NothingReported, not_or, not_and_or, Bool.not_eq_false] at hreported
  obtain ⟨hexec, hbookmarks, hbound⟩ := hreported
  have hloop : loop.1 = true := by
    by_contra hfalse
    rcases h.failed (by simpa using hfalse) with ⟨i, hi, hfailed⟩ | hlt'
    · rw [hgroups] at hi
      obtain rfl : i = 0 := by simpa using hi
      rw [hexec] at hfailed
      cases hfailed
    · omega
  have hrc : (b.finish loop).rc = .success := finish_rc.mpr ⟨hloop, hbookmarks⟩
  -- the first element of the status array is written, and it is not addressed
  obtain ⟨-, harray, hrow⟩ := finish_of_success hrc
  have hstatus : (b.finish loop).arrayStatus = some (addedStatus (fun _ => none) b.insertCount) ∨
      (b.finish loop).rowStatus = some (addedStatus (fun _ => none) b.insertCount) := by
    rcases hbound with hbound | hbound
    · rw [if_pos hbound] at harray
      exact Or.inl harray
    · rw [if_pos hbound] at hrow
      exact Or.inr hrow
  have hzero := hinserts.status hrc _ hstatus 0
  rw [addedStatus_eq, hcount, if_pos Nat.zero_lt_one, haddressed, if_neg] at hzero
  · cases hzero
  · intro hmem
    have := List.mem_singleton.mp hmem
    omega

/-- The rows that such a call sends are whole. -/
theorem whole_of_insertsRows {loop : Bool × List (List InsertByte)} {groups : List (List ℕ)}
    {n i : ℕ} (h : Sent b loop groups n) (hinserts : b.InsertsRows (b.finish loop)) (hi : i < n) :
    b.Whole (b.irow - 1 + i) := by
  obtain ⟨groups', hsame, -, hwhole, hfront, -⟩ := hinserts.sent
  rw [finish_sent, h.sent] at hsame
  have hlength := length_of_written
    (fun i hi => h.rowAt i (by rwa [h.flatten, List.mem_range] at hi)) hsame
  rw [h.flatten, List.length_range] at hlength
  have hlt : i < groups'.flatten.length := by omega
  obtain ⟨tail, htail⟩ := hfront
  have hget : b.addressed[i]? = some groups'.flatten[i] := by
    rw [← htail, List.getElem?_append_left hlt, List.getElem?_eq_getElem hlt]
  rw [← getElem?_addressed hget]
  exact hwhole _ (List.getElem_mem _)

/-- Two numbers of four bytes behind one another, 1 and 2. -/
def twoNumbers : List UInt8 := List.replicate 16 0 ++ [1, 0, 0, 0, 2, 0, 0, 0]

/-- The record of a column that is bound to them. -/
def numberColumn : ParamRecord where
  conciseType := .SQL_C_SLONG
  dataPtr := 16
  octetLengthPtr := 0
  indicatorPtr := 0
  octetLength := 4
  bindOffset := none
  bindType := 0
  par := none
  aprecType := .other
  iprecType := .other
  sqlType := .SQL_INTEGER

/-- What is written for a number of one digit. -/
def digitText : ℕ → ValueSource → ℤ → Option (List UInt8)
  | _, .address data, _ => some [twoNumbers.getD data 0 + 48]
  | _, .atExec val, _ => some val

theorem numberColumn_ne_nil : [some numberColumn] ≠ [] := List.cons_ne_nil _ _

theorem closing_notMem_nil : InsertByte.closing ∉ ([] : List InsertByte) := List.not_mem_nil

/-- The second of two bound rows is to be added. -/
def secondOfTwo : BatchInsert where
  irow := 2
  arraySize := 2
  columns := [some numberColumn]
  columns_ne_nil := numberColumn_ne_nil
  setposApd := false
  mem := twoNumbers
  insertParam := digitText
  query := [0x49]
  buf := []
  closing_notMem_buf := closing_notMem_nil
  bufLen := fun _ => 16384
  execStmtQueryStd := fun _ => true
  bookmarkData := none
  numRows := 0
  arrayStatusPtr := false
  rowStatusPtrEx := false

end BatchInsert

end MatrixOdbc.Driver
