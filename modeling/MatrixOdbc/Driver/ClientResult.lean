import MatrixOdbc.Foundations.Refinement
import Mathlib.Algebra.Order.Ring.Int

/-!
# Results of the client library

A result set as the client library holds it: the rows and its own row pointer, with
the functions that move it. A stored result can be positioned; the rows of an
unbuffered one are read from the server one after the other, with the same pointer
moving forward only. The pointer is an index here and the null pointer, which stands
behind the last row, is `none`.
-/

namespace MatrixOdbc.Driver

/-- `MYSQL_ROW_OFFSET`. -/
abbrev RowOffset := Option ℕ

/-- `MYSQL_RES`, or the result of a `MYSQL_STMT`: the rows and the row pointer. -/
structure ClientResult (ρ : Type*) where
  rows : List ρ
  dataCursor : RowOffset

namespace ClientResult

variable {ρ : Type*}

/-- The pointer to a row, null behind the last one. -/
def offsetAt (rows : List ρ) (row : ℕ) : RowOffset := if row < rows.length then some row else none

/-- A result as it is after `mysql_store_result` or `mysql_use_result`. -/
def store (rows : List ρ) : ClientResult ρ := ⟨rows, offsetAt rows 0⟩

/-- `mysql_data_seek`. -/
def dataSeek (result : ClientResult ρ) (row : ℕ) : ClientResult ρ :=
  { result with dataCursor := offsetAt result.rows row }

/-- `mysql_row_seek`; it returns the former position. -/
def rowSeek (result : ClientResult ρ) (offset : RowOffset) : ClientResult ρ × RowOffset :=
  ({ result with dataCursor := offset }, result.dataCursor)

/-- `mysql_row_tell`. -/
def rowTell (result : ClientResult ρ) : RowOffset := result.dataCursor

/-- `mysql_fetch_row`. -/
def fetchRow (result : ClientResult ρ) : Option ρ × ClientResult ρ :=
  match result.dataCursor with
  | some row =>
    (result.rows[row]?, { result with dataCursor := offsetAt result.rows (row + 1) })
  | none => (none, result)

/-- The number of rows that have been read from an unbuffered result. -/
def rowsRead (result : ClientResult ρ) : ℕ := result.dataCursor.getD result.rows.length

/-- The rows behind a pointer. -/
def behind (rows : List ρ) : RowOffset → List ρ
  | some row => rows.drop row
  | none => []

/-- The rows that are still to be fetched. -/
def remaining (result : ClientResult ρ) : List ρ := behind result.rows result.dataCursor

variable {result : ClientResult ρ} {rows : List ρ} {r : ρ} {rest : List ρ}

theorem behind_offsetAt (rows : List ρ) (row : ℕ) : behind rows (offsetAt rows row) = rows.drop row := by
  unfold offsetAt
  split_ifs with h
  · rfl
  · exact (List.drop_eq_nil_of_le (not_lt.mp h)).symm

@[simp] theorem remaining_store : (store rows).remaining = rows := behind_offsetAt rows 0

@[simp] theorem remaining_dataSeek (row : ℕ) : (result.dataSeek row).remaining = result.rows.drop row :=
  behind_offsetAt result.rows row

/-- Every row has been read or is still to be fetched. -/
theorem length_le_rowsRead (result : ClientResult ρ) :
    result.rows.length ≤ result.rowsRead + result.remaining.length := by
  unfold rowsRead remaining
  cases result.dataCursor with
  | none => exact Nat.le_add_right _ _
  | some row =>
    simp only [Option.getD_some, behind, List.length_drop]
    omega

@[simp] theorem fetchRow_rows : result.fetchRow.2.rows = result.rows := by
  unfold fetchRow
  split <;> rfl

/-- The last row has been fetched. -/
theorem fetchRow_nil (h : result.remaining = []) : result.fetchRow.1 = none ∧
    result.fetchRow.2.remaining = [] := by
  unfold fetchRow
  cases hcursor : result.dataCursor with
  | none => exact ⟨rfl, h⟩
  | some row =>
    have hle : result.rows.length ≤ row := by
      simpa [remaining, behind, hcursor] using h
    refine ⟨List.getElem?_eq_none hle, ?_⟩
    dsimp only
    rw [remaining, behind_offsetAt]
    exact List.drop_eq_nil_of_le (hle.trans (Nat.le_succ row))

/-- The next row is fetched. -/
theorem fetchRow_cons (h : result.remaining = r :: rest) : result.fetchRow.1 = some r ∧
    result.fetchRow.2.remaining = rest := by
  unfold fetchRow
  cases hcursor : result.dataCursor with
  | none => simp [remaining, behind, hcursor] at h
  | some row =>
    have hdrop : result.rows.drop row = r :: rest := by
      simpa [remaining, behind, hcursor] using h
    refine ⟨?_, ?_⟩
    · have hhead := congrArg List.head? hdrop
      simpa using hhead
    · rw [remaining, behind_offsetAt, ← List.drop_drop, hdrop, List.drop_one, List.tail_cons]

end ClientResult

end MatrixOdbc.Driver
