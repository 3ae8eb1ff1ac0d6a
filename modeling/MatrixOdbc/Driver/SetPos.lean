import MatrixOdbc.Driver.ExtendedFetch

/-!
# Changing rows through a cursor

`setpos_delete_std`, `setpos_update_std` and the two loops over bookmarks of `driver/cursor.cc`
execute one statement for each row and then write row statuses and the number of affected rows.
What becomes of the statements is an argument. The memory around a row status array is part of
the state, so that a write outside of the array is seen.
-/

namespace MatrixOdbc.Driver

/-- `SQLUSMALLINT`. -/
abbrev SQLUSMALLINT := UInt16

/-- `SQL_ROW_DELETED`. -/
def SQL_ROW_DELETED : SQLUSMALLINT := 1

/-- `SQL_ROW_UPDATED`. -/
def SQL_ROW_UPDATED : SQLUSMALLINT := 2

/-- The memory around a row status array, by the distance from its first element. -/
abbrev StatusMemory := ℤ → SQLUSMALLINT

/-- What the functions read and write of a statement. `bookmark` gives what `atol` reads at the
elements of the bookmark array. -/
structure SetPosStmt where
  /-- There is one base table. -/
  usedTable : Bool
  /-- `SQL_UB_VARIABLE` is set, and the bookmark column is bound. -/
  bookmarkBound : Bool
  dynamicCursor : Bool
  arraySize : ℕ
  bookmark : ℕ → ℤ
  affectedRows : ℕ
  currentRow : ℤ
  rowsFoundInSet : ℕ
  arrayStatusPtr : Option StatusMemory
  rowStatusPtrEx : Option StatusMemory

/-- What `build_set_clause_std` returns. -/
inductive SetClause where
  | success | allColumnsIgnored | error
  deriving DecidableEq

/-- What `build_where_clause_std` returns. -/
inductive WhereResult where
  | success | noData | error
  deriving DecidableEq

/-- The code of a WHERE clause that is not built. -/
def WhereResult.rc : WhereResult → SqlReturn
  | .success => .success
  | .noData => .noDataFound
  | .error => .error

/-- What becomes of the statement of a row: its clauses, and the number of rows that it affects
when the server executes it. -/
structure RowOutcome where
  setClause : SetClause
  whereClause : WhereResult
  exec : Option ℕ

/-- The loop that writes a status to so many elements. -/
def fillStatus (memory : StatusMemory) (ptr : ℤ) (status : SQLUSMALLINT) : ℕ → StatusMemory
  | 0 => memory
  | n + 1 => fillStatus (Function.update memory ptr status) (ptr + 1) status n

/-- `global_set_affected_rows`. -/
def globalSetAffectedRows (s : SetPosStmt) (rows : ℕ) : SetPosStmt := { s with affectedRows := rows }

/-- `update_status`, for the statement that has been executed. -/
def updateStatus (s : SetPosStmt) (status : SQLUSMALLINT) : SqlReturn × SetPosStmt :=
  if s.affectedRows = 0 then (.successWithInfo, s)
  else if 1 < s.affectedRows then (.successWithInfo, s)
  else
    (.success, { s with
      arrayStatusPtr := s.arrayStatusPtr.map fun memory =>
        fillStatus memory s.currentRow status s.affectedRows })

/-- `update_setpos_status`. -/
def updateSetposStatus (s : SetPosStmt) (irow rows : ℕ) (status : SQLUSMALLINT) :
    SqlReturn × SetPosStmt :=
  let s := globalSetAffectedRows s rows
  if irow ≠ 0 ∧ 1 < rows then (.successWithInfo, s)
  else
    (.success, { s with
      arrayStatusPtr := s.arrayStatusPtr.map fun memory => fillStatus memory 0 status rows
      rowStatusPtrEx := s.rowStatusPtrEx.map fun memory => fillStatus memory 0 status rows })

/-- The rows that are taken in turn: the rows of the rowset, and at least the first one, or one
row. -/
def rowsetPositions (s : SetPosStmt) (irow : ℕ) : List ℕ :=
  if irow = 0 then List.range' 1 (max 1 s.rowsFoundInSet) else [irow]

/-- The local variables of a loop over rows. -/
structure RowLoop where
  nReturn : SqlReturn
  affected : ℕ
  stmt : SetPosStmt

/-- The rows found are fewer after a deletion through a dynamic cursor. -/
def fixRowsFound (s : SetPosStmt) (affected : ℕ) : SetPosStmt :=
  if s.dynamicCursor then
    { s with rowsFoundInSet := (s.rowsFoundInSet + (2 ^ 32 - affected % 2 ^ 32)) % 2 ^ 32 }
  else s

/-- The execution of a statement whose clauses have been built: the code is that of this
statement. -/
def RowLoop.execute (loop : RowLoop) (row : RowOutcome) : RowLoop :=
  match row.exec with
  | some affected => { loop with nReturn := .success, affected := loop.affected + affected }
  | none => { loop with nReturn := .error }

/-- A loop returns when a WHERE clause is not built. -/
def RowLoop.ifBuilt (loop : RowLoop) (row : RowOutcome)
    (next : Except (SqlReturn × SetPosStmt) RowLoop) : Except (SqlReturn × SetPosStmt) RowLoop :=
  match row.whereClause with
  | .success => next
  | failed => .error (failed.rc, loop.stmt)

/-- The body of the loop of `setpos_delete_std`. -/
def deleteBody (outcome : ℕ → RowOutcome) (loop : RowLoop) (pos : ℕ) :
    Except (SqlReturn × SetPosStmt) RowLoop :=
  loop.ifBuilt (outcome pos) (.ok (loop.execute (outcome pos)))

/-- `setpos_delete_std`. -/
def setposDeleteStd (s : SetPosStmt) (irow : ℕ) (outcome : ℕ → RowOutcome) :
    SqlReturn × SetPosStmt :=
  if s.usedTable = false then (.error, s)
  else
    match (rowsetPositions s irow).foldlM (deleteBody outcome) ⟨.success, 0, s⟩ with
    | .error result => result
    | .ok loop =>
      let (nReturn, s) :=
        if loop.nReturn = .success then
          updateSetposStatus loop.stmt irow loop.affected SQL_ROW_DELETED
        else (loop.nReturn, loop.stmt)
      (nReturn, fixRowsFound s loop.affected)

/-- The body of the loop of `setpos_update_std`: it returns at a statement that fails. -/
def updateBody (irow : ℕ) (outcome : ℕ → RowOutcome) (loop : RowLoop) (pos : ℕ) :
    Except (SqlReturn × SetPosStmt) RowLoop :=
  match (outcome pos).setClause with
  | .allColumnsIgnored =>
    if irow = 0 then .ok { loop with nReturn := .success } else .error (.error, loop.stmt)
  | .error => .error (.error, loop.stmt)
  | .success =>
    let executed := loop.execute (outcome pos)
    loop.ifBuilt (outcome pos)
      (if executed.nReturn.succeeded then .ok executed
      else .error (executed.nReturn, executed.stmt))

/-- `setpos_update_std`. -/
def setposUpdateStd (s : SetPosStmt) (irow : ℕ) (outcome : ℕ → RowOutcome) :
    SqlReturn × SetPosStmt :=
  if s.usedTable = false then (.error, s)
  else
    match (rowsetPositions s irow).foldlM (updateBody irow outcome) ⟨.success, 0, s⟩ with
    | .error result => result
    | .ok loop =>
      if loop.nReturn = .success then
        updateSetposStatus loop.stmt irow loop.affected SQL_ROW_UPDATED
      else (loop.nReturn, loop.stmt)

/-- The statuses at the index that a bookmark is taken for. -/
def markBookmark (s : SetPosStmt) (pos : ℕ) (status : SQLUSMALLINT) : SetPosStmt :=
  { s with
    rowStatusPtrEx := s.rowStatusPtrEx.map fun memory =>
      Function.update memory (s.bookmark pos) status
    arrayStatusPtr := s.arrayStatusPtr.map fun memory =>
      Function.update memory (s.bookmark pos) status }

/-- The statement of a bookmark is executed, and its status is written whatever comes of it. -/
def RowLoop.executeBookmark (loop : RowLoop) (row : RowOutcome) (pos : ℕ) (status : SQLUSMALLINT) :
    RowLoop :=
  let loop := loop.execute row
  { loop with stmt := markBookmark loop.stmt pos status }

/-- The body of the loop of `setpos_delete_bookmark_std`. -/
def deleteBookmarkBody (outcome : ℕ → RowOutcome) (loop : RowLoop) (pos : ℕ) :
    Except (SqlReturn × SetPosStmt) RowLoop :=
  loop.ifBuilt (outcome pos) (.ok (loop.executeBookmark (outcome pos) pos SQL_ROW_DELETED))

/-- `setpos_delete_bookmark_std`. -/
def setposDeleteBookmarkStd (s : SetPosStmt) (outcome : ℕ → RowOutcome) : SqlReturn × SetPosStmt :=
  if s.usedTable = false then (.error, s)
  else if s.bookmarkBound = false then (.error, s)
  else
    match (List.range s.arraySize).foldlM (deleteBookmarkBody outcome) ⟨.success, 0, s⟩ with
    | .error result => result
    | .ok loop =>
      (loop.nReturn, fixRowsFound (globalSetAffectedRows loop.stmt loop.affected) loop.affected)

/-- The body of the loop of `setpos_update_bookmark_std`. -/
def updateBookmarkBody (outcome : ℕ → RowOutcome) (loop : RowLoop) (pos : ℕ) :
    Except (SqlReturn × SetPosStmt) RowLoop :=
  match (outcome pos).setClause with
  | .allColumnsIgnored => .error (.error, loop.stmt)
  | .error => .error (.error, loop.stmt)
  | .success =>
    loop.ifBuilt (outcome pos) (.ok (loop.executeBookmark (outcome pos) pos SQL_ROW_UPDATED))

/-- `setpos_update_bookmark_std`. -/
def setposUpdateBookmarkStd (s : SetPosStmt) (outcome : ℕ → RowOutcome) : SqlReturn × SetPosStmt :=
  if s.usedTable = false then (.error, s)
  else if s.bookmarkBound = false then (.error, s)
  else
    match (List.range s.arraySize).foldlM (updateBookmarkBody outcome) ⟨.success, 0, s⟩ with
    | .error result => result
    | .ok loop => (loop.nReturn, globalSetAffectedRows loop.stmt loop.affected)

/-- A call that writes row statuses: `update_setpos_status` for a row of a rowset or, with zero,
for all of them, or `update_status` for the row of a positioned statement. -/
inductive StatusCall where
  | setpos (rowset : ℕ) (irow : Fin (rowset + 1)) (rows : ℕ)
  | positioned (rowset : ℕ) (row : Fin rowset)

namespace StatusCall

/-- The call. -/
def run (call : StatusCall) (s : SetPosStmt) (status : SQLUSMALLINT) : SqlReturn × SetPosStmt :=
  match call with
  | setpos _ irow rows => updateSetposStatus s irow rows status
  | positioned _ _ => updateStatus s status

/-- The element of a row that the operation has addressed. -/
def Addresses : StatusCall → ℤ → Prop
  | setpos rowset irow _, i => 0 ≤ i ∧ i < rowset ∧ ((irow : ℕ) = 0 ∨ i + 1 = (irow : ℕ))
  | positioned _ row, i => i = (row : ℕ)

instance (call : StatusCall) (i : ℤ) : Decidable (call.Addresses i) := by
  cases call
  · exact inferInstanceAs (Decidable (_ ∧ _))
  · exact inferInstanceAs (Decidable (_ = _))

/-- A row status array in which the rows that the operation has addressed have the status. -/
def addressedStatus (call : StatusCall) (status : SQLUSMALLINT) (memory : StatusMemory) :
    StatusMemory :=
  fun i => if call.Addresses i then status else memory i

/-- Whatever is in the row status arrays, those that are bound have the status at the rows that
the operation has addressed and are otherwise unchanged. -/
def SetsAddressed (call : StatusCall) (s : SetPosStmt) (status : SQLUSMALLINT) : Prop :=
  ∀ ird ext : StatusMemory,
    let before := { s with
      arrayStatusPtr := s.arrayStatusPtr.map fun _ => ird
      rowStatusPtrEx := s.rowStatusPtrEx.map fun _ => ext }
    let after := (call.run before status).2
    after.arrayStatusPtr = before.arrayStatusPtr.map (call.addressedStatus status) ∧
      after.rowStatusPtrEx = before.rowStatusPtrEx.map (call.addressedStatus status)

/-- The elements that are written are those that have been addressed: as many rows have been
changed as are in the rowset, or the first row of the rowset has been changed. A positioned
statement does not know the array of `SQLExtendedFetch`, and takes its position in the result for
that in the rowset. -/
def WritesAddressed (call : StatusCall) (s : SetPosStmt) : Prop :=
  match call with
  | setpos rowset irow rows =>
    if (irow : ℕ) = 0 then rows = rowset else (irow : ℕ) = 1 ∧ rows = 1
  | positioned _ row =>
    s.rowStatusPtrEx = none ∧ s.affectedRows = 1 ∧ s.currentRow = (row : ℕ)

end StatusCall

/-- What the loop leaves. -/
theorem fillStatus_apply (memory : StatusMemory) (ptr : ℤ) (status : SQLUSMALLINT) (n : ℕ) (i : ℤ) :
    fillStatus memory ptr status n i = if ptr ≤ i ∧ i < ptr + n then status else memory i := by
  induction n generalizing memory ptr with
  | zero =>
    rw [fillStatus, if_neg (by omega)]
  | succ n ih =>
    rw [fillStatus, ih]
    by_cases hi : i = ptr
    · rw [hi, if_neg (by omega), if_pos (by omega), Function.update_self]
    · rw [Function.update_of_ne hi]
      refine if_congr ?_ rfl rfl
      omega

/-- Writes to two sets of elements leave the same of every memory when the sets are the same. -/
theorem write_congr_iff {P Q : ℤ → Prop} [DecidablePred P] [DecidablePred Q]
    (status : SQLUSMALLINT) :
    (∀ memory : StatusMemory, (fun i => if P i then status else memory i) =
      fun i => if Q i then status else memory i) ↔ ∀ i, P i ↔ Q i := by
  constructor
  · intro h i
    have hi := congrFun (h fun _ => status + 1) i
    have hne : status + 1 ≠ status := by
      intro heq
      simp at heq
    by_cases hP : P i <;> by_cases hQ : Q i
    · exact iff_of_true hP hQ
    · rw [if_pos hP, if_neg hQ] at hi
      exact absurd hi.symm hne
    · rw [if_neg hP, if_pos hQ] at hi
      exact absurd hi hne
    · exact iff_of_false hP hQ
  · intro h memory
    funext i
    exact if_congr (h i) rfl rfl

/-- The same for an array that may be unbound, and the rows that an operation has addressed. -/
theorem map_write_congr_iff {P : ℤ → Prop} [DecidablePred P] (call : StatusCall)
    (ptr : Option StatusMemory) (status : SQLUSMALLINT) :
    (∀ memory : StatusMemory,
      ((ptr.map fun _ => memory).map fun memory i => if P i then status else memory i) =
        (ptr.map fun _ => memory).map (call.addressedStatus status)) ↔
      ptr = none ∨ ∀ i, P i ↔ call.Addresses i := by
  cases ptr with
  | none => simp
  | some ptr =>
    rw [or_iff_right (by simp), ← write_congr_iff status]
    exact forall_congr' fun _ => Option.some_inj

/-- Two statements about independent memories. -/
theorem forall_and_write_iff {P Q : StatusMemory → Prop} {a b : Prop} (hP : (∀ m, P m) ↔ a)
    (hQ : (∀ m, Q m) ↔ b) : (∀ ird ext : StatusMemory, P ird ∧ Q ext) ↔ a ∧ b := by
  rw [← hP, ← hQ]
  constructor
  · exact fun h => ⟨fun m => (h m m).1, fun m => (h m m).2⟩
  · exact fun h ird ext => ⟨h.1 ird, h.2 ext⟩

section Status

variable {s : SetPosStmt} {status : SQLUSMALLINT}

/-- The elements that `update_setpos_status` writes. -/
theorem updateSetposStatus_write (s : SetPosStmt) (irow rows : ℕ) (status : SQLUSMALLINT) :
    (updateSetposStatus s irow rows status).2 = { s with
      affectedRows := rows
      arrayStatusPtr := s.arrayStatusPtr.map fun memory i =>
        if ¬ (irow ≠ 0 ∧ 1 < rows) ∧ 0 ≤ i ∧ i < rows then status else memory i
      rowStatusPtrEx := s.rowStatusPtrEx.map fun memory i =>
        if ¬ (irow ≠ 0 ∧ 1 < rows) ∧ 0 ≤ i ∧ i < rows then status else memory i } := by
  unfold updateSetposStatus globalSetAffectedRows
  by_cases hmany : irow ≠ 0 ∧ 1 < rows
  · simp [hmany]
  · have hfill : ∀ memory : StatusMemory, fillStatus memory 0 status rows =
        fun i : ℤ => if 0 ≤ i ∧ i < rows then status else memory i := by
      intro memory
      funext i
      rw [fillStatus_apply, Int.zero_add]
    rw [if_neg hmany]
    simp only [hfill, hmany, not_false_eq_true, true_and]

/-- The elements that `update_status` writes. -/
theorem updateStatus_write (s : SetPosStmt) (status : SQLUSMALLINT) :
    (updateStatus s status).2 = { s with
      arrayStatusPtr := s.arrayStatusPtr.map fun memory i =>
        if s.affectedRows = 1 ∧ i = s.currentRow then status else memory i } := by
  unfold updateStatus
  split_ifs with hzero hmany
  · have hne : s.affectedRows ≠ 1 := by omega
    simp [hne]
  · have hne : s.affectedRows ≠ 1 := by omega
    simp [hne]
  · have hone : s.affectedRows = 1 := by omega
    have hfill : ∀ memory : StatusMemory, fillStatus memory s.currentRow status 1 =
        fun i => if i = s.currentRow then status else memory i := by
      intro memory
      funext i
      rw [fillStatus_apply]
      refine if_congr ?_ rfl rfl
      omega
    simp only [hone, hfill, true_and]

/-- The row statuses are set at the rows that have been addressed, and nowhere else, exactly when
no row status array is bound or the elements that are written happen to be those. -/
theorem statusCall_setsAddressed_iff (call : StatusCall) (s : SetPosStmt) (status : SQLUSMALLINT) :
    call.SetsAddressed s status ↔
      s.arrayStatusPtr = none ∧ s.rowStatusPtrEx = none ∨ call.WritesAddressed s := by
  cases call with
  | setpos rowset irow rows =>
    have hsame : (∀ i : ℤ, ¬ ((irow : ℕ) ≠ 0 ∧ 1 < rows) ∧ 0 ≤ i ∧ i < rows ↔
        (StatusCall.setpos rowset irow rows).Addresses i) ↔
          (StatusCall.setpos rowset irow rows).WritesAddressed s := by
      have hle := irow.isLt
      simp only [StatusCall.Addresses, StatusCall.WritesAddressed]
      generalize (irow : ℕ) = row at *
      by_cases hall : row = 0
      · simp only [hall, ne_eq, not_true_eq_false, false_and, not_false_eq_true, true_and, true_or,
          and_true, if_true]
        constructor
        · intro h
          have hrows := h rows
          have hrowset := h rowset
          omega
        · rintro rfl i
          omega
      · rw [if_neg hall]
        constructor
        · intro h
          have hrow := h (row - 1)
          omega
        · rintro ⟨rfl, rfl⟩ i
          omega
    unfold StatusCall.SetsAddressed StatusCall.run
    simp only [updateSetposStatus_write]
    refine (forall_and_write_iff (map_write_congr_iff _ s.arrayStatusPtr status)
      (map_write_congr_iff _ s.rowStatusPtrEx status)).trans ?_
    rw [hsame, ← and_or_right]
  | positioned rowset row =>
    have hsame : (∀ i : ℤ, s.affectedRows = 1 ∧ i = s.currentRow ↔
        (StatusCall.positioned rowset row).Addresses i) ↔
          s.affectedRows = 1 ∧ s.currentRow = (row : ℕ) := by
      simp only [StatusCall.Addresses]
      constructor
      · intro h
        have hrow := h (row : ℕ)
        omega
      · rintro ⟨hone, hrow⟩ i
        omega
    have hnone : (∀ i : ℤ, False ↔ (StatusCall.positioned rowset row).Addresses i) ↔ False :=
      iff_of_false (fun h => (h (row : ℕ)).mpr rfl) not_false
    have hkeep : ∀ ext : StatusMemory, (s.rowStatusPtrEx.map fun _ => ext) =
        (s.rowStatusPtrEx.map fun _ => ext).map fun memory i =>
          if False then status else memory i := by
      intro ext
      cases s.rowStatusPtrEx <;> rfl
    have hext : (∀ ext : StatusMemory, (s.rowStatusPtrEx.map fun _ => ext) =
        (s.rowStatusPtrEx.map fun _ => ext).map
          ((StatusCall.positioned rowset row).addressedStatus status)) ↔
        s.rowStatusPtrEx = none := by
      have h := @map_write_congr_iff (fun _ => False) _ (.positioned rowset row)
        s.rowStatusPtrEx status
      rw [hnone, or_false] at h
      rw [← h]
      exact forall_congr' fun ext => by rw [← hkeep ext]
    unfold StatusCall.SetsAddressed StatusCall.run StatusCall.WritesAddressed
    simp only [updateStatus_write]
    apply (forall_and_write_iff (map_write_congr_iff _ s.arrayStatusPtr status) hext).trans
    rw [hsame]
    tauto

/-- The third row of a rowset of five is updated, and the first one gets its status. -/
theorem statusCall_third_not_addressed :
    ¬ (StatusCall.setpos 5 3 1).SetsAddressed
      ⟨true, false, false, 5, fun _ => 0, 0, 0, 5, some fun _ => 0, none⟩ SQL_ROW_UPDATED := by
  intro h
  have hird := (h (fun _ => 0) fun _ => 0).1
  have hfirst := congrFun (Option.some.inj hird) 0
  exact absurd hfirst (by decide)

end Status

/-- What becomes of the statement of a row. -/
inductive RowStatement where
  | leftOut | notBuilt | refused
  | executed (affected : ℕ)

namespace RowStatement

/-- The statement has been executed, if there is one. -/
def Succeeded : RowStatement → Prop
  | leftOut | executed _ => True
  | notBuilt | refused => False

/-- The rows that the statement has affected. -/
def affected : RowStatement → ℕ
  | executed n => n
  | _ => 0

/-- The code of the execution. -/
def code : RowStatement → SqlReturn
  | refused => .error
  | _ => .success

end RowStatement

/-- The calls that change rows one after the other. -/
inductive SetPosCall where
  | deleteStd (irow : ℕ)
  | updateStd (irow : ℕ)
  | deleteBookmarkStd
  | updateBookmarkStd

/-- The statement that a deletion builds for a row. -/
def RowOutcome.deletion (row : RowOutcome) : RowStatement :=
  match row.whereClause, row.exec with
  | .success, some affected => .executed affected
  | .success, none => .refused
  | _, _ => .notBuilt

/-- The statement that an update builds for a row. A row of which all columns are ignored may be
left out. -/
def RowOutcome.update (row : RowOutcome) (mayLeaveOut : Bool) : RowStatement :=
  match row.setClause with
  | .success => row.deletion
  | .allColumnsIgnored => if mayLeaveOut then .leftOut else .notBuilt
  | .error => .notBuilt

namespace SetPosCall

/-- The call. -/
def run (s : SetPosStmt) (outcome : ℕ → RowOutcome) : SetPosCall → SqlReturn × SetPosStmt
  | deleteStd irow => setposDeleteStd s irow outcome
  | updateStd irow => setposUpdateStd s irow outcome
  | deleteBookmarkStd => setposDeleteBookmarkStd s outcome
  | updateBookmarkStd => setposUpdateBookmarkStd s outcome

/-- The rows that are addressed. -/
def positions (s : SetPosStmt) : SetPosCall → List ℕ
  | deleteStd irow | updateStd irow => rowsetPositions s irow
  | deleteBookmarkStd | updateBookmarkStd => List.range s.arraySize

/-- The statement of a row. -/
def statement (row : RowOutcome) : SetPosCall → RowStatement
  | deleteStd _ | deleteBookmarkStd => row.deletion
  | updateStd irow => row.update (irow = 0)
  | updateBookmarkStd => row.update false

/-- Nothing keeps the call from the first row. -/
def Ready (s : SetPosStmt) : SetPosCall → Prop
  | deleteStd _ | updateStd _ => s.usedTable = true
  | deleteBookmarkStd | updateBookmarkStd => s.usedTable = true ∧ s.bookmarkBound = true

/-- A success is that of all statements, and a number of affected rows that is published is that
of the statements that have been executed. -/
structure Reports (call : SetPosCall) (s : SetPosStmt) (outcome : ℕ → RowOutcome) : Prop where
  success : (call.run s outcome).1 = .success →
    ∀ pos ∈ call.positions s, (call.statement (outcome pos)).Succeeded
  affected : (call.run s outcome).2.affectedRows = s.affectedRows ∨
    (call.run s outcome).2.affectedRows =
      ((call.positions s).map fun pos => (call.statement (outcome pos)).affected).sum

/-- The server refuses a statement, which is not the last one, and the others are built and
the last one is executed. Only `setpos_update_std` returns at the refusal. -/
structure Masked (call : SetPosCall) (s : SetPosStmt) (outcome : ℕ → RowOutcome) : Prop where
  goes_on : ∀ irow, call ≠ updateStd irow
  ready : call.Ready s
  built : ∀ pos ∈ call.positions s, call.statement (outcome pos) ≠ .notBuilt
  refused : ∃ pos ∈ call.positions s, call.statement (outcome pos) = .refused
  last : ∀ pos ∈ (call.positions s).getLast?, call.statement (outcome pos) ≠ .refused

end SetPosCall

/-- A body goes through the statements of the rows: it returns at some of them, and goes on with
the code of the others. -/
def GoesThrough (body : RowLoop → ℕ → Except (SqlReturn × SetPosStmt) RowLoop)
    (statement : ℕ → RowStatement) (stops : RowStatement → Prop) : Prop :=
  ∀ loop pos,
    (stops (statement pos) → ∃ rc s, body loop pos = .error (rc, s) ∧ rc ≠ .success ∧
      s.affectedRows = loop.stmt.affectedRows) ∧
    (¬ stops (statement pos) → ∃ loop', body loop pos = .ok loop' ∧
      loop'.nReturn = (statement pos).code ∧
      loop'.affected = loop.affected + (statement pos).affected ∧
      loop'.stmt.affectedRows = loop.stmt.affectedRows)

section Run

variable {body : RowLoop → ℕ → Except (SqlReturn × SetPosStmt) RowLoop}
  {statement : ℕ → RowStatement} {stops : RowStatement → Prop} {positions : List ℕ}

/-- A loop that meets a statement at which it returns. -/
theorem GoesThrough.stopped (h : GoesThrough body statement stops)
    (hstop : ∃ pos ∈ positions, stops (statement pos)) (loop : RowLoop) :
    ∃ rc s, positions.foldlM body loop = .error (rc, s) ∧ rc ≠ .success ∧
      s.affectedRows = loop.stmt.affectedRows := by
  induction positions generalizing loop with
  | nil =>
    obtain ⟨pos, hmem, -⟩ := hstop
    cases hmem
  | cons pos positions ih =>
    rw [List.foldlM_cons]
    by_cases hhere : stops (statement pos)
    · obtain ⟨rc, s, hbody, hrc, hs⟩ := (h loop pos).1 hhere
      exact ⟨rc, s, by rw [hbody]; rfl, hrc, hs⟩
    · obtain ⟨loop', hbody, -, -, hs⟩ := (h loop pos).2 hhere
      have hrest : ∃ pos ∈ positions, stops (statement pos) := by
        obtain ⟨pos', hmem, hstop⟩ := hstop
        obtain rfl | hmem := List.mem_cons.mp hmem
        · exact absurd hstop hhere
        · exact ⟨pos', hmem, hstop⟩
      obtain ⟨rc, s, hfold, hrc, hs'⟩ := ih hrest loop'
      exact ⟨rc, s, by rw [hbody]; exact hfold, hrc, hs'.trans hs⟩

/-- A loop that goes through all rows has the code of the last one. -/
theorem GoesThrough.finished (h : GoesThrough body statement stops)
    (hgo : ∀ pos ∈ positions, ¬ stops (statement pos)) (loop : RowLoop) :
    ∃ loop', positions.foldlM body loop = .ok loop' ∧
      loop'.nReturn = (positions.getLast?.elim loop.nReturn fun pos => (statement pos).code) ∧
      loop'.affected = loop.affected +
        (positions.map fun pos => (statement pos).affected).sum ∧
      loop'.stmt.affectedRows = loop.stmt.affectedRows := by
  induction positions generalizing loop with
  | nil => exact ⟨loop, rfl, rfl, by simp, rfl⟩
  | cons pos positions ih =>
    obtain ⟨loop₁, hbody, hcode, haffected, hs⟩ := (h loop pos).2 (hgo pos List.mem_cons_self)
    obtain ⟨loop₂, hfold, hcode', haffected', hs'⟩ :=
      ih (fun pos' hmem => hgo pos' (List.mem_cons_of_mem _ hmem)) loop₁
    refine ⟨loop₂, ?_, ?_, ?_, hs'.trans hs⟩
    · rw [List.foldlM_cons, hbody]
      exact hfold
    · rw [hcode', List.getLast?_cons, hcode]
      cases positions.getLast? <;> rfl
    · rw [haffected', haffected, List.map_cons, List.sum_cons, Nat.add_assoc]

end Run

section Bodies

variable (outcome : ℕ → RowOutcome)

/-- The execution of the statement of a row, in the loops that go on. -/
theorem RowLoop.execute_spec (loop : RowLoop) {row : RowOutcome} (h : row.whereClause = .success) :
    row.deletion ≠ .notBuilt ∧ (loop.execute row).nReturn = row.deletion.code ∧
      (loop.execute row).affected = loop.affected + row.deletion.affected ∧
      (loop.execute row).stmt = loop.stmt := by
  unfold execute RowOutcome.deletion
  rw [h]
  cases row.exec with
  | none => exact ⟨by simp, rfl, rfl, rfl⟩
  | some affected => exact ⟨by simp, rfl, rfl, rfl⟩

/-- A statement without a WHERE clause is not built, and the loop returns. -/
theorem RowLoop.ifBuilt_notBuilt (loop : RowLoop) {row : RowOutcome}
    {next : Except (SqlReturn × SetPosStmt) RowLoop} (h : row.whereClause ≠ .success) :
    row.deletion = .notBuilt ∧ ∃ rc s, loop.ifBuilt row next = .error (rc, s) ∧ rc ≠ .success ∧
      s.affectedRows = loop.stmt.affectedRows := by
  unfold RowOutcome.deletion ifBuilt
  cases hwhere : row.whereClause with
  | success => exact absurd hwhere h
  | noData => exact ⟨rfl, _, _, rfl, by decide, rfl⟩
  | error => exact ⟨rfl, _, _, rfl, by decide, rfl⟩

theorem RowLoop.ifBuilt_built (loop : RowLoop) {row : RowOutcome}
    {next : Except (SqlReturn × SetPosStmt) RowLoop} (h : row.whereClause = .success) :
    loop.ifBuilt row next = next := by
  rw [ifBuilt, h]

theorem deleteBody_goesThrough :
    GoesThrough (deleteBody outcome) (fun pos => (outcome pos).deletion) (· = .notBuilt) := by
  intro loop pos
  by_cases hwhere : (outcome pos).whereClause = .success
  · obtain ⟨hbuilt, hcode, haffected, hstmt⟩ := loop.execute_spec hwhere
    rw [deleteBody, loop.ifBuilt_built hwhere]
    exact ⟨fun h => absurd h hbuilt, fun _ => ⟨_, rfl, hcode, haffected, by rw [hstmt]⟩⟩
  · obtain ⟨hnot, hreturns⟩ := loop.ifBuilt_notBuilt hwhere
    exact ⟨fun _ => hreturns, fun h => absurd hnot h⟩

/-- The loops over bookmarks write statuses besides. -/
theorem RowLoop.executeBookmark_spec (loop : RowLoop) {row : RowOutcome} {pos : ℕ}
    {status : SQLUSMALLINT} (h : row.whereClause = .success) :
    row.deletion ≠ .notBuilt ∧ ∃ loop', loop.ifBuilt row
      (.ok (loop.executeBookmark row pos status)) = .ok loop' ∧
      loop'.nReturn = row.deletion.code ∧
      loop'.affected = loop.affected + row.deletion.affected ∧
      loop'.stmt.affectedRows = loop.stmt.affectedRows := by
  obtain ⟨hbuilt, hcode, haffected, hstmt⟩ := loop.execute_spec h
  refine ⟨hbuilt, _, loop.ifBuilt_built h, hcode, haffected, ?_⟩
  rw [← hstmt]
  rfl

/-- One evaluation of the body of a loop over bookmarks whose statement has its SET clause. -/
theorem RowLoop.goesThrough_bookmark (loop : RowLoop) (pos : ℕ) (status : SQLUSMALLINT) :
    ((outcome pos).deletion = .notBuilt → ∃ rc s, loop.ifBuilt (outcome pos)
      (.ok (loop.executeBookmark (outcome pos) pos status)) = .error (rc, s) ∧ rc ≠ .success ∧
        s.affectedRows = loop.stmt.affectedRows) ∧
    ((outcome pos).deletion ≠ .notBuilt → ∃ loop', loop.ifBuilt (outcome pos)
      (.ok (loop.executeBookmark (outcome pos) pos status)) = .ok loop' ∧
        loop'.nReturn = (outcome pos).deletion.code ∧
        loop'.affected = loop.affected + (outcome pos).deletion.affected ∧
        loop'.stmt.affectedRows = loop.stmt.affectedRows) := by
  by_cases hwhere : (outcome pos).whereClause = .success
  · obtain ⟨hbuilt, hgoes⟩ := loop.executeBookmark_spec hwhere
    exact ⟨fun h => absurd h hbuilt, fun _ => hgoes⟩
  · obtain ⟨hnot, hreturns⟩ := loop.ifBuilt_notBuilt hwhere
    exact ⟨fun _ => hreturns, fun h => absurd hnot h⟩

theorem deleteBookmarkBody_goesThrough :
    GoesThrough (deleteBookmarkBody outcome) (fun pos => (outcome pos).deletion)
      (· = .notBuilt) :=
  fun loop pos => loop.goesThrough_bookmark outcome pos SQL_ROW_DELETED

/-- An update builds its statement when the SET clause is built. -/
theorem updateBookmarkBody_goesThrough :
    GoesThrough (updateBookmarkBody outcome) (fun pos => (outcome pos).update false)
      (· = .notBuilt) := by
  intro loop pos
  dsimp only [updateBookmarkBody, RowOutcome.update]
  cases (outcome pos).setClause with
  | success => exact loop.goesThrough_bookmark outcome pos SQL_ROW_UPDATED
  | allColumnsIgnored => exact ⟨fun _ => ⟨_, _, rfl, by decide, rfl⟩, fun h => absurd rfl h⟩
  | error => exact ⟨fun _ => ⟨_, _, rfl, by decide, rfl⟩, fun h => absurd rfl h⟩

/-- `setpos_update_std` returns at a statement that is refused, too. -/
theorem updateBody_goesThrough (irow : ℕ) :
    GoesThrough (updateBody irow outcome) (fun pos => (outcome pos).update (irow = 0))
      fun statement => ¬ statement.Succeeded := by
  intro loop pos
  dsimp only [updateBody, RowOutcome.update]
  cases (outcome pos).setClause with
  | success =>
    dsimp only
    by_cases hwhere : (outcome pos).whereClause = .success
    · rw [loop.ifBuilt_built hwhere]
      unfold RowOutcome.deletion RowLoop.execute
      rw [hwhere]
      cases (outcome pos).exec with
      | none => exact ⟨fun _ => ⟨_, _, rfl, by simp, rfl⟩, fun h => absurd id h⟩
      | some affected =>
        exact ⟨fun h => absurd trivial h, fun _ => ⟨_, rfl, rfl, rfl, rfl⟩⟩
    · obtain ⟨hnot, hreturns⟩ := loop.ifBuilt_notBuilt hwhere
      rw [hnot]
      exact ⟨fun _ => hreturns, fun h => absurd id h⟩
  | allColumnsIgnored =>
    by_cases hall : irow = 0
    · simp only [hall, if_true, decide_true]
      exact ⟨fun h => absurd trivial h, fun _ => ⟨_, rfl, rfl, rfl, rfl⟩⟩
    · simp only [hall, if_false, decide_false, Bool.false_eq_true]
      exact ⟨fun _ => ⟨_, _, rfl, by decide, rfl⟩, fun h => absurd id h⟩
  | error => exact ⟨fun _ => ⟨_, _, rfl, by decide, rfl⟩, fun h => absurd id h⟩

end Bodies

section Reports

variable {s : SetPosStmt} {outcome : ℕ → RowOutcome}

/-- The code of a loop is a success when the last statement is not refused. -/
theorem lastCode_eq_success_iff {statement : ℕ → RowStatement} {positions : List ℕ} :
    (positions.getLast?.elim .success fun pos => (statement pos).code) = SqlReturn.success ↔
      ∀ pos ∈ positions.getLast?, statement pos ≠ .refused := by
  cases positions.getLast? with
  | none => simp
  | some pos =>
    simp only [Option.elim_some, Option.mem_def, Option.some.injEq, forall_eq']
    cases statement pos <;> simp [RowStatement.code]

/-- The code of a loop that goes on tells of all statements unless it masks a refusal. -/
theorem lastCode_tells {statement : ℕ → RowStatement} {positions : List ℕ}
    (hbuilt : ∀ pos ∈ positions, statement pos ≠ .notBuilt)
    (hcode : (positions.getLast?.elim .success fun pos => (statement pos).code) =
      SqlReturn.success)
    (hmasked : ¬ ((∃ pos ∈ positions, statement pos = .refused) ∧
      ∀ pos ∈ positions.getLast?, statement pos ≠ .refused)) :
    ∀ pos ∈ positions, (statement pos).Succeeded := by
  intro pos hmem
  cases hstatement : statement pos with
  | leftOut => trivial
  | executed affected => trivial
  | notBuilt => exact hbuilt pos hmem hstatement
  | refused => exact hmasked ⟨⟨pos, hmem, hstatement⟩, lastCode_eq_success_iff.mp hcode⟩

/-- A call whose code is not a success and that publishes nothing reports. -/
theorem SetPosCall.reports_of_returned {call : SetPosCall} {rc : SqlReturn} {s' : SetPosStmt}
    (hrun : call.run s outcome = (rc, s')) (hrc : rc ≠ .success)
    (hs : s'.affectedRows = s.affectedRows) : call.Reports s outcome := by
  refine ⟨fun h => ?_, .inl ?_⟩
  · rw [hrun] at h
    exact absurd h hrc
  · rw [hrun]
    exact hs

/-- A call that goes through all rows reports unless its code masks a refusal. -/
theorem SetPosCall.reports_iff_of_finished {call : SetPosCall}
    (hgoes : ∀ irow, call ≠ updateStd irow) (hready : call.Ready s)
    (hbuilt : ∀ pos ∈ call.positions s, call.statement (outcome pos) ≠ .notBuilt)
    (hcode : (call.run s outcome).1 = .success →
      ((call.positions s).getLast?.elim .success fun pos =>
        (call.statement (outcome pos)).code) = SqlReturn.success)
    (hmasked : call.Masked s outcome → (call.run s outcome).1 = .success)
    (haffected : (call.run s outcome).2.affectedRows = s.affectedRows ∨
      (call.run s outcome).2.affectedRows =
        ((call.positions s).map fun pos => (call.statement (outcome pos)).affected).sum) :
    call.Reports s outcome ↔ ¬ call.Masked s outcome := by
  constructor
  · intro hreports hm
    obtain ⟨pos, hmem, hrefused⟩ := hm.refused
    have hsucceeded := hreports.success (hmasked hm) pos hmem
    rw [hrefused] at hsucceeded
    exact hsucceeded
  · intro hm
    refine ⟨fun hrc => lastCode_tells hbuilt (hcode hrc) ?_, haffected⟩
    exact fun ⟨hrefused, hlast⟩ => hm ⟨hgoes, hready, hbuilt, hrefused, hlast⟩

theorem fixRowsFound_affectedRows (s : SetPosStmt) (affected : ℕ) :
    (fixRowsFound s affected).affectedRows = s.affectedRows := by
  unfold fixRowsFound
  split_ifs <;> rfl

/-- The deletion of one row or of all rows. -/
theorem setposDeleteStd_reports_iff (irow : ℕ) :
    (SetPosCall.deleteStd irow).Reports s outcome ↔
      ¬ (SetPosCall.deleteStd irow).Masked s outcome := by
  have hgo := deleteBody_goesThrough outcome
  cases htable : s.usedTable with
  | false =>
    refine iff_of_true (SetPosCall.reports_of_returned (if_pos htable) (by decide) rfl)
      fun hm => ?_
    have hready : s.usedTable = true := hm.ready
    rw [htable] at hready
    cases hready
  | true =>
    have hrun : (SetPosCall.deleteStd irow).run s outcome = setposDeleteStd s irow outcome := rfl
    rw [setposDeleteStd, if_neg (by rw [htable]; decide)] at hrun
    by_cases hstop : ∃ pos ∈ rowsetPositions s irow, (outcome pos).deletion = .notBuilt
    · obtain ⟨rc, s', hfold, hrc, hs⟩ := hgo.stopped hstop ⟨.success, 0, s⟩
      rw [hfold] at hrun
      refine iff_of_true (SetPosCall.reports_of_returned hrun hrc hs) fun hm => ?_
      obtain ⟨pos, hmem, hnot⟩ := hstop
      exact hm.built pos hmem hnot
    · push Not at hstop
      obtain ⟨loop, hfold, hcode, haffected, hs⟩ := hgo.finished hstop ⟨.success, 0, s⟩
      rw [hfold] at hrun
      have hcode' : loop.nReturn = .success ↔
          ∀ pos ∈ (rowsetPositions s irow).getLast?, (outcome pos).deletion ≠ .refused := by
        rw [hcode]
        exact lastCode_eq_success_iff
      refine SetPosCall.reports_iff_of_finished (by simp) htable hstop ?_ ?_ ?_
      · rw [hrun]
        dsimp only
        intro hrc
        apply hcode.symm.trans
        by_contra hne
        rw [if_neg hne] at hrc
        exact hne hrc
      · intro hm
        have hall : irow = 0 := by
          by_contra hne
          obtain ⟨pos, hmem, hrefused⟩ := hm.refused
          have hlast := hm.last irow
          simp only [SetPosCall.positions, rowsetPositions, if_neg hne, List.mem_singleton] at hmem
          subst hmem
          simp only [SetPosCall.positions, rowsetPositions, if_neg hne] at hlast
          exact hlast rfl hrefused
        rw [hrun]
        dsimp only
        rw [if_pos (hcode'.mpr hm.last), updateSetposStatus, if_neg (fun h => h.1 hall)]
      · rw [hrun]
        dsimp only
        rw [fixRowsFound_affectedRows]
        split_ifs
        · right
          rw [updateSetposStatus_write]
          apply haffected.trans
          rw [Nat.zero_add]
          rfl
        · exact .inl hs

/-- `setpos_update_std` returns at the first refusal, so that nothing is masked. -/
theorem setposUpdateStd_reports (irow : ℕ) : (SetPosCall.updateStd irow).Reports s outcome := by
  have hgo := updateBody_goesThrough outcome irow
  cases htable : s.usedTable with
  | false =>
    exact SetPosCall.reports_of_returned (if_pos htable) (by decide) rfl
  | true =>
    have hrun : (SetPosCall.updateStd irow).run s outcome = setposUpdateStd s irow outcome := rfl
    rw [setposUpdateStd, if_neg (by rw [htable]; decide)] at hrun
    by_cases hstop : ∃ pos ∈ rowsetPositions s irow,
        ¬ ((outcome pos).update (irow = 0)).Succeeded
    · obtain ⟨rc, s', hfold, hrc, hs⟩ := hgo.stopped hstop ⟨.success, 0, s⟩
      rw [hfold] at hrun
      exact SetPosCall.reports_of_returned hrun hrc hs
    · push Not at hstop
      obtain ⟨loop, hfold, -, haffected, hs⟩ :=
        hgo.finished (fun pos hmem => not_not_intro (hstop pos hmem)) ⟨.success, 0, s⟩
      rw [hfold] at hrun
      refine ⟨fun _ => hstop, ?_⟩
      rw [hrun]
      dsimp only
      split_ifs
      · right
        rw [updateSetposStatus_write]
        apply haffected.trans
        rw [Nat.zero_add]
        rfl
      · exact .inl hs

/-- A loop over bookmarks has the code of its last statement and publishes the number of affected
rows. -/
theorem bookmark_reports_iff {call : SetPosCall}
    {body : RowLoop → ℕ → Except (SqlReturn × SetPosStmt) RowLoop}
    {finish : RowLoop → SetPosStmt} (hgoes : ∀ irow, call ≠ .updateStd irow)
    (hpositions : call.positions s = List.range s.arraySize)
    (hready : call.Ready s ↔ s.usedTable = true ∧ s.bookmarkBound = true)
    (hgo : GoesThrough body (fun pos => call.statement (outcome pos)) (· = .notBuilt))
    (hfinish : ∀ loop, (finish loop).affectedRows = loop.affected)
    (hrun : call.run s outcome =
      if s.usedTable = false then (.error, s)
      else if s.bookmarkBound = false then (.error, s)
      else
        match (List.range s.arraySize).foldlM body ⟨.success, 0, s⟩ with
        | .error result => result
        | .ok loop => (loop.nReturn, finish loop)) :
    call.Reports s outcome ↔ ¬ call.Masked s outcome := by
  by_cases hisReady : s.usedTable = true ∧ s.bookmarkBound = true
  · rw [if_neg (by rw [hisReady.1]; decide), if_neg (by rw [hisReady.2]; decide)] at hrun
    by_cases hstop : ∃ pos ∈ List.range s.arraySize, call.statement (outcome pos) = .notBuilt
    · obtain ⟨rc, s', hfold, hrc, hs⟩ := hgo.stopped hstop ⟨.success, 0, s⟩
      rw [hfold] at hrun
      refine iff_of_true (SetPosCall.reports_of_returned hrun hrc hs) fun hm => ?_
      obtain ⟨pos, hmem, hnot⟩ := hstop
      exact hm.built pos (by rwa [hpositions]) hnot
    · push Not at hstop
      obtain ⟨loop, hfold, hcode, haffected, -⟩ := hgo.finished hstop ⟨.success, 0, s⟩
      rw [hfold] at hrun
      refine SetPosCall.reports_iff_of_finished hgoes (hready.mpr hisReady)
        (by rwa [hpositions]) ?_ ?_ ?_
      · rw [hrun, hpositions]
        exact fun hrc => hcode.symm.trans hrc
      · intro hm
        have hlast := hm.last
        rw [hpositions] at hlast
        rw [hrun]
        exact hcode.trans (lastCode_eq_success_iff.mpr hlast)
      · rw [hrun, hpositions]
        right
        refine (hfinish loop).trans (haffected.trans ?_)
        exact Nat.zero_add _
  · have hreturned : call.run s outcome = (.error, s) := by
      rw [hrun]
      split_ifs with htable hbound
      · rfl
      · rfl
      · exact absurd ⟨by simpa using htable, by simpa using hbound⟩ hisReady
    exact iff_of_true (SetPosCall.reports_of_returned hreturned (by decide) rfl)
      fun hm => hisReady (hready.mp hm.ready)

/-- The code of a call is a success only if all statements have been executed, and the number of
affected rows is theirs, exactly when the code of the last statement does not mask a refusal. -/
theorem setPosCall_reports_iff (call : SetPosCall) (s : SetPosStmt) (outcome : ℕ → RowOutcome) :
    call.Reports s outcome ↔ ¬ call.Masked s outcome := by
  cases call with
  | deleteStd irow => exact setposDeleteStd_reports_iff irow
  | updateStd irow =>
    exact iff_of_true (setposUpdateStd_reports irow) fun hm => hm.goes_on irow rfl
  | deleteBookmarkStd =>
    refine bookmark_reports_iff (by simp) rfl Iff.rfl (deleteBookmarkBody_goesThrough outcome) ?_ rfl
    exact fun loop => fixRowsFound_affectedRows _ _
  | updateBookmarkStd =>
    refine bookmark_reports_iff (by simp) rfl Iff.rfl (updateBookmarkBody_goesThrough outcome) ?_ rfl
    exact fun _ => rfl

/-- Of two rows the server refuses to delete the first one, and the deletion is a success. -/
theorem setposDeleteStd_masks : ¬ (SetPosCall.deleteStd 0).Reports
    ⟨true, false, false, 2, fun _ => 0, 0, 0, 2, none, none⟩
    fun pos => ⟨.success, .success, if pos = 1 then none else some 1⟩ := by
  intro h
  have hfirst := h.success (by decide) 1 (by decide)
  exact hfirst

end Reports

end MatrixOdbc.Driver
