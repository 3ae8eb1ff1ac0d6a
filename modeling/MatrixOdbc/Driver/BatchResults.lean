import MatrixOdbc.Driver.DummyParams
import MatrixOdbc.Driver.ErrorTable
import MatrixOdbc.Driver.Transact
import MatrixOdbc.Foundations.Registry
import Mathlib.Data.List.Infix

/-!
# The results of a batch

The server answers each statement of a batch, and the answers wait at the connection.
`SQLMoreResults` of `driver/results.cc` takes the next one, whichever statement handle it is called
with, and `STMT::free_all_results` of `driver/my_prepared_stmt.cc` takes all that are left. These
are the statement handles of one connection with `do_query` and `my_SQLExecute` of
`driver/execute.cc`, `my_SQLFreeStmtExtended` of `driver/handle.cc` and `translate_error` of
`driver/error.cc`, for queries without parameters that are sent as text and whose results are
stored. The time since the last query, the limit on the rows and the log are left out.
-/

namespace MatrixOdbc.Driver

variable {Q C ρ : Type}

/-- `myodbc3_errors` with the states in force, and `st_error_prefix`. -/
structure ErrorTexts where
  sqlstate : MyodbcErrid → List Char
  stErrorPrefix : List Char

/-- `CR_OUT_OF_MEMORY`. -/
def CR_OUT_OF_MEMORY : ℕ := 2008

/-- `CR_COMMANDS_OUT_OF_SYNC`. -/
def CR_COMMANDS_OUT_OF_SYNC : ℕ := 2014

/-- `strstr` for a word in the text of an error. -/
def hasWord (text : List Char) (word : String) : Bool := word.toList <:+: text

/-- `translate_error`, for an error with a text. -/
def translateError (texts : ErrorTexts) (errid : MyodbcErrid) (mysqlErr : ℕ) (text : List Char) :
    List Char :=
  if mysqlErr ∈ [1044, 1045] then "28000".toList
  else if mysqlErr = 1058 then "21S01".toList
  else if mysqlErr ∈ [1062, 1022] then "23000".toList
  else if mysqlErr ∈ [1046, 1049] then "3D000".toList
  else if mysqlErr ∈ [1064, 1305] then texts.sqlstate .MYERR_42000
  else if mysqlErr = 1050 then texts.sqlstate .MYERR_42S01
  else if mysqlErr ∈ [1017, 1146, 1016, 1051] then texts.sqlstate .MYERR_42S02
  else if mysqlErr ∈ [1082, 1091] then texts.sqlstate .MYERR_42S12
  else if mysqlErr = 1060 then texts.sqlstate .MYERR_42S21
  else if mysqlErr = 1054 then texts.sqlstate .MYERR_42S22
  else if mysqlErr ∈ [2001, 2003, 2004, 2005] then "08001".toList
  else if mysqlErr ∈ [2012, 2002, 2006, 2013, 4031] then "08S01".toList
  else if mysqlErr ∈ [1862, 2059] then "08004".toList
  else if mysqlErr = 3024 then texts.sqlstate .MYERR_HYT00
  else if mysqlErr = 1317 then texts.sqlstate .MYERR_HY008
  else if mysqlErr = 1105 && hasWord text "context canceled" then texts.sqlstate .MYERR_HY008
  else if hasWord text "there is no user" then "28000".toList
  else texts.sqlstate errid

/-- `MYERROR` with an error of the driver: its state and its number, which begin at
`MYODBC_ERROR_CODE_START`. -/
def ErrorTexts.driverError (texts : ErrorTexts) (errid : MyodbcErrid) : List Char × ℕ :=
  (texts.sqlstate errid, 500 + errid.ctorIdx)

/-- What the server answers to a statement: the rows of a result set, the number of rows that it
changed, or the number and the text of an error. -/
inductive BatchReply (ρ : Type) where
  | rows (data : List ρ)
  | changed (count : BitVec 64)
  | failed (errno : ℕ) (text : List Char)

namespace BatchReply

/-- The rows of a result set. -/
def data : BatchReply ρ → Option (List ρ)
  | rows data => some data
  | _ => none

/-- Whether the statement failed. -/
def isFailed : BatchReply ρ → Bool
  | failed _ _ => true
  | _ => false

end BatchReply

/-- A count of the client library that is not known. -/
def noCount : BitVec 64 := -1

/-- What is known of a connection of the client library: the answer taken last, whether its rows
are still to be read, the answers behind it, and the count of `mysql_affected_rows`. -/
structure ClientView (ρ : Type) where
  current : Option (BatchReply ρ)
  reading : Bool
  pending : List (BatchReply ρ)
  affected : BitVec 64

/-- Nothing of the rows of the answer has been read. -/
def ClientView.Fresh (v : ClientView ρ) : Prop :=
  v.reading = (v.current.bind BatchReply.data).isSome

/-- The first of some answers is taken. An error ends the batch. -/
def ClientView.take : List (BatchReply ρ) → ClientView ρ
  | [] => ⟨none, false, [], noCount⟩
  | .rows data :: pending => ⟨some (.rows data), true, pending, noCount⟩
  | .changed count :: pending => ⟨some (.changed count), false, pending, count⟩
  | .failed errno text :: _ => ⟨some (.failed errno text), false, [], noCount⟩

/-- The client library with the server behind a connection, which answers a batch with at least
one answer, and reports no error of the client library itself. -/
structure ClientLib (Q C ρ : Type) where
  answers : Q → List (BatchReply ρ)
  view : C → ClientView ρ
  mysqlRealQuery : C → Q → ℤ × C
  mysqlNextResult : C → ℤ × C
  mysqlStoreResult : C → Option (List ρ) × C
  mysqlUseResult : C → Bool × C
  mysqlFreeResult : C → C
  mysqlFieldCount : C → ℕ
  mysqlAffectedRows : C → BitVec 64
  mysqlErrno : C → ℕ
  mysqlError : C → List Char
  answers_ne_nil : ∀ q, answers q ≠ []
  errno_ne : ∀ q errno text, .failed errno text ∈ answers q → errno ≠ CR_COMMANDS_OUT_OF_SYNC
  realQuery_busy : ∀ c q, (view c).pending ≠ [] →
    (mysqlRealQuery c q).1 ≠ 0 ∧ mysqlErrno (mysqlRealQuery c q).2 = CR_COMMANDS_OUT_OF_SYNC
  realQuery_idle : ∀ c q, (view c).reading = false → (view c).pending = [] →
    ((mysqlRealQuery c q).1 = 0 ↔ ∀ a ∈ (answers q).head?, a.isFailed = false) ∧
      view (mysqlRealQuery c q).2 = .take (answers q)
  nextResult_reading : ∀ c, (view c).reading = true → 0 < (mysqlNextResult c).1
  nextResult_none : ∀ c, (view c).reading = false → (view c).pending = [] →
    (mysqlNextResult c).1 < 0
  nextResult_some : ∀ c a rest, (view c).reading = false → (view c).pending = a :: rest →
    0 ≤ (mysqlNextResult c).1 ∧ ((mysqlNextResult c).1 = 0 ↔ a.isFailed = false)
  view_nextResult : ∀ c, (view c).reading = false →
    view (mysqlNextResult c).2 = .take (view c).pending
  storeResult : ∀ c, (view c).Fresh →
    (mysqlStoreResult c).1 = (view c).current.bind BatchReply.data ∧
      view (mysqlStoreResult c).2 = { view c with
        reading := false
        affected := ((mysqlStoreResult c).1.map fun data => BitVec.ofNat 64 data.length).getD
          (view c).affected }
  useResult : ∀ c, (view c).Fresh →
    (mysqlUseResult c).1 = (view c).reading ∧ view (mysqlUseResult c).2 = view c
  view_freeResult : ∀ c, view (mysqlFreeResult c) = { view c with reading := false }
  fieldCount : ∀ c, mysqlFieldCount c = 0 ↔ (view c).current.bind BatchReply.data = none
  affectedRows : ∀ c, mysqlAffectedRows c = (view c).affected
  error_failed : ∀ c errno text, (view c).current = some (.failed errno text) →
    mysqlErrno c = errno ∧ mysqlError c = text

/-- `STMT`: its `state`, `query`, `result` with the rows, `fake_result` and `affected_rows`. -/
structure BatchStmt (Q ρ : Type) where
  state : MyState
  query : Option Q
  result : Option (List ρ)
  fakeResult : Bool
  affectedRows : BitVec 64

/-- The options of `my_SQLFreeStmtExtended` that free the results, but for `SQL_DROP`. -/
inductive FreeOption where
  | resetBuffers | close | reset
  deriving DecidableEq

/-- What a call returns. A statement that has a result set has these rows then. -/
inductive BatchOut (ρ : Type) where
  | success
  | result (data : List ρ)
  | noData
  | rowCount (count : BitVec 64)
  | error (sqlstate : List Char) (native : ℕ)

section Client

variable {lib : ClientLib Q C ρ} {c : C}

theorem ClientView.take_fresh (answers : List (BatchReply ρ)) :
    (ClientView.take answers).Fresh := by
  cases answers with
  | nil => rfl
  | cons a rest => cases a <;> rfl

theorem ClientView.length_pending_take (a : BatchReply ρ) (rest : List (BatchReply ρ)) :
    (ClientView.take (a :: rest)).pending.length ≤ rest.length := by
  cases a with
  | failed errno text => exact Nat.zero_le _
  | _ => exact Nat.le_refl _

/-- When there is a next answer, it is taken. -/
theorem ClientLib.nextResult_eq_zero (h : (lib.mysqlNextResult c).1 = 0) :
    ∃ a rest, (lib.view c).pending = a :: rest ∧ a.isFailed = false ∧
      lib.view (lib.mysqlNextResult c).2 = .take (a :: rest) := by
  have hread : (lib.view c).reading = false := by
    cases hread : (lib.view c).reading with
    | false => rfl
    | true => exact absurd h (lib.nextResult_reading c hread).ne'
  cases hpending : (lib.view c).pending with
  | nil => exact absurd h (lib.nextResult_none c hread hpending).ne
  | cons a rest =>
    refine ⟨a, rest, rfl, ?_, ?_⟩
    · exact (lib.nextResult_some c a rest hread hpending).2.mp h
    · rw [lib.view_nextResult c hread, hpending]

end Client

/-- The loop of `STMT::free_all_results`. `used` says whether the statement has a result whose rows
are not read. -/
def clearPending (lib : ClientLib Q C ρ) (used : Bool) (c : C) : C :=
  let freed := if used then lib.mysqlFreeResult c else c
  if (lib.mysqlNextResult freed).1 = 0 then
    let taken := lib.mysqlUseResult (lib.mysqlNextResult freed).2
    clearPending lib taken.1 taken.2
  else (lib.mysqlNextResult freed).2
termination_by (lib.view c).pending.length
decreasing_by
  rename_i hcode
  obtain ⟨a, rest, hpending, -, hview⟩ := ClientLib.nextResult_eq_zero hcode
  have hfreed : (lib.view freed).pending = (lib.view c).pending := by
    change (lib.view (if used then lib.mysqlFreeResult c else c)).pending = _
    cases used with
    | false => rfl
    | true => rw [if_pos rfl, lib.view_freeResult]
  have hfresh := hview ▸ ClientView.take_fresh (a :: rest)
  rw [(lib.useResult _ hfresh).2, hview, ← hfreed, hpending]
  exact Nat.lt_succ_of_le (ClientView.length_pending_take a rest)

/-- `STMT::free_all_results`. -/
def freeAllResults (lib : ClientLib Q C ρ) (clear : Bool) (c : C) (st : BatchStmt Q ρ) :
    C × BatchStmt Q ρ :=
  (if !st.fakeResult && clear then clearPending lib false c else c, { st with result := none })

/-- `my_SQLFreeStmtExtended`, with `FREE_STMT_CLEAR_RESULT` or without. -/
def mySQLFreeStmtExtended (lib : ClientLib Q C ρ) (option : FreeOption) (clear : Bool) (c : C)
    (st : BatchStmt Q ρ) : C × BatchStmt Q ρ :=
  let (c, st) := freeAllResults lib clear c st
  let st := { st with
    fakeResult := false
    affectedRows := 0 }
  (c, match option with
    | .resetBuffers => st
    | .close => { st with state := .unknown }
    | .reset => { st with state := .unknown, query := none })

/-- `do_query`. -/
def batchDoQuery (lib : ClientLib Q C ρ) (texts : ErrorTexts) (q : Q) (c : C)
    (st : BatchStmt Q ρ) : C × BatchStmt Q ρ × BatchOut ρ :=
  let (code, c) := lib.mysqlRealQuery c q
  if code ≠ 0 then
    (c, st, .error (translateError texts .MYERR_S1000 (lib.mysqlErrno c)
      (texts.stErrorPrefix ++ lib.mysqlError c)) (lib.mysqlErrno c))
  else
    let (result, c) := lib.mysqlStoreResult c
    match result with
    | some data => (c, { st with state := .executed, result := some data }, .result data)
    | none =>
      if lib.mysqlFieldCount c > 0 then
        (c, st, .error (texts.driverError .MYERR_S1000).1 (texts.driverError .MYERR_S1000).2)
      else (c, { st with
        state := .executed
        affectedRows := st.affectedRows + lib.mysqlAffectedRows c }, .success)

/-- `handle_connection_error`: the state of the error it sets. -/
def handleConnectionError (err : ℕ) : Option (List Char) :=
  if err = 0 then none
  else if isConnectionLost err then some "08S01".toList
  else if err = CR_OUT_OF_MEMORY then some "HY001".toList
  else some "HY000".toList

/-- `my_SQLExecute`. -/
def batchExecute (lib : ClientLib Q C ρ) (texts : ErrorTexts) (c : C) (st : BatchStmt Q ρ) :
    C × BatchStmt Q ρ × BatchOut ρ :=
  match st.query with
  | none =>
    (c, st, .error (texts.driverError .MYERR_S1010).1 (texts.driverError .MYERR_S1010).2)
  | some q =>
    let (c, st) := mySQLFreeStmtExtended lib .resetBuffers true c st
    let (c, st, out) := batchDoQuery lib texts q c st
    match out with
    | .error sqlstate native =>
      if isConnectionLost native then
        (c, st, .error ((handleConnectionError (lib.mysqlErrno c)).getD sqlstate) native)
      else (c, st, out)
    | _ => (c, st, out)

/-- `SQLMoreResults`. -/
def sqlMoreResults (lib : ClientLib Q C ρ) (c : C) (st : BatchStmt Q ρ) :
    C × BatchStmt Q ρ × BatchOut ρ :=
  if st.state ≠ .executed then (c, st, .noData)
  else
    let st := { st with result := none }
    let (code, c) := lib.mysqlNextResult c
    if code > 0 then
      let err := lib.mysqlErrno c
      (c, st, .error (if isConnectionLost err then "08S01".toList else "HY000".toList) err)
    else if code < 0 then (c, st, .noData)
    else
      let (c, st) := mySQLFreeStmtExtended lib .close false c st
      let (result, c) := lib.mysqlStoreResult c
      match result with
      | none =>
        if lib.mysqlFieldCount c = 0 then
          (c, { st with state := .executed, affectedRows := lib.mysqlAffectedRows c }, .success)
        else (c, st, .error "HY000".toList (lib.mysqlErrno c))
      | some data => (c, { st with state := .executed, result := some data }, .result data)

/-- `SQLRowCount`. -/
def sqlRowCount (lib : ClientLib Q C ρ) (c : C) (st : BatchStmt Q ρ) : BitVec 64 :=
  match st.result with
  | some data => if st.fakeResult then BitVec.ofNat 64 data.length else lib.mysqlAffectedRows c
  | none => st.affectedRows

/-- `SQLCloseCursor`. -/
def sqlCloseCursor (lib : ClientLib Q C ρ) (c : C) (st : BatchStmt Q ρ) :
    C × BatchStmt Q ρ × BatchOut ρ :=
  let (c, closed) := mySQLFreeStmtExtended lib .close true c st
  (c, closed, if st.result.isNone then .error "24000".toList 0 else .success)

/-- `MySQLGetTypeInfo`, whose rows the driver has itself. -/
def mySQLGetTypeInfo (lib : ClientLib Q C ρ) (data : List ρ) (c : C) (st : BatchStmt Q ρ) :
    C × BatchStmt Q ρ × BatchOut ρ :=
  let (c, st) := mySQLFreeStmtExtended lib .reset true c st
  (c, { st with state := .executed, result := some data, fakeResult := true }, .result data)

/-- `DBC`: the connection of the client library, and the statement handles. -/
structure BatchDbc (Q C ρ : Type) where
  mysql : C
  stmts : Store ℕ (BatchStmt Q ρ)

/-- A call on a statement handle. -/
inductive BatchCall (Q ρ : Type) where
  | allocStmt
  | prepare (q : Q)
  | execute
  | moreResults
  | rowCount
  | close
  | closeCursor
  | drop
  | getTypeInfo (data : List ρ)

/-- What a call does on a handle that there is. -/
def BatchStmt.call (lib : ClientLib Q C ρ) (texts : ErrorTexts) (c : C) (st : BatchStmt Q ρ) :
    BatchCall Q ρ → C × BatchStmt Q ρ × BatchOut ρ
  | .allocStmt => (c, st, .success)
  | .prepare q => (c, { st with query := some q, state := .prepared }, .success)
  | .execute => batchExecute lib texts c st
  | .moreResults => sqlMoreResults lib c st
  | .rowCount => (c, st, .rowCount (sqlRowCount lib c st))
  | .close =>
    ((mySQLFreeStmtExtended lib .close true c st).1,
      (mySQLFreeStmtExtended lib .close true c st).2, .success)
  | .closeCursor => sqlCloseCursor lib c st
  | .drop =>
    ((mySQLFreeStmtExtended lib .reset true c st).1,
      (mySQLFreeStmtExtended lib .reset true c st).2, .success)
  | .getTypeInfo data => mySQLGetTypeInfo lib data c st

/-- The handles behind a call on one of them. -/
def BatchCall.store {α : Type} (call : BatchCall Q ρ) (stmts : Store ℕ α) (id : ℕ) (a : α) :
    Store ℕ α :=
  match call with
  | .drop => stmts.drop id
  | _ => stmts.put id a

/-- A new statement handle. -/
def BatchStmt.new : BatchStmt Q ρ := ⟨.unknown, none, none, false, 0⟩

/-- A call on a handle. There is no result where the driver manager refuses the handle. -/
def BatchDbc.step (lib : ClientLib Q C ρ) (texts : ErrorTexts) (d : BatchDbc Q C ρ)
    (input : ℕ × BatchCall Q ρ) : Option (BatchDbc Q C ρ × BatchOut ρ) :=
  match d.stmts input.1, input.2 with
  | none, .allocStmt => some (⟨d.mysql, d.stmts.put input.1 .new⟩, .success)
  | some _, .allocStmt | none, _ => none
  | some st, call =>
    let (c, st, out) := st.call lib texts d.mysql call
    some (⟨c, call.store d.stmts input.1 st⟩, out)

/-- No rows are left to be read. The answers that are pending, and the count. -/
structure Settled (lib : ClientLib Q C ρ) (c : C) (pending : List (BatchReply ρ))
    (count : BitVec 64) : Prop where
  reading : (lib.view c).reading = false
  pending : (lib.view c).pending = pending
  affected : (lib.view c).affected = count

namespace BatchReply

/-- The rows that a result set has, or the rows that were changed. -/
def count : BatchReply ρ → BitVec 64
  | rows data => BitVec.ofNat 64 data.length
  | changed count => count
  | failed _ _ => noCount

/-- The number of an error. -/
def errno : BatchReply ρ → ℕ
  | failed errno _ => errno
  | _ => 0

/-- What is left of the answers behind this one. -/
def rest (a : BatchReply ρ) (answers : List (BatchReply ρ)) : List (BatchReply ρ) :=
  if a.isFailed then [] else answers

/-- What a call returns with this answer. -/
def out (error : ℕ → List Char → BatchOut ρ) : BatchReply ρ → BatchOut ρ
  | rows data => .result data
  | changed _ => .success
  | failed errno text => error errno text

end BatchReply

namespace BatchStmt

/-- A statement without a result. -/
def unbound (st : BatchStmt Q ρ) : BatchStmt Q ρ :=
  { st with
    result := none
    fakeResult := false
    affectedRows := 0 }

/-- A statement that has got an answer. -/
def answered (st : BatchStmt Q ρ) : BatchReply ρ → BatchStmt Q ρ
  | .rows data => { st.unbound with
      state := .executed
      result := some data }
  | .changed count => { st.unbound with
      state := .executed
      affectedRows := count }
  | .failed _ _ => st

end BatchStmt

/-- The error of a query that is executed, when the server reports it. -/
def ErrorTexts.queryError (texts : ErrorTexts) (errno : ℕ) (text : List Char) : BatchOut ρ :=
  .error (if isConnectionLost errno then "08S01".toList
    else translateError texts .MYERR_S1000 errno (texts.stErrorPrefix ++ text)) errno

/-- The error of a later statement of a batch. -/
def moreError (errno : ℕ) (_ : List Char) : BatchOut ρ :=
  .error (if isConnectionLost errno then "08S01".toList else "HY000".toList) errno

section Settled

variable {lib : ClientLib Q C ρ} {texts : ErrorTexts} {c : C} {st : BatchStmt Q ρ} {q : Q}
variable {a : BatchReply ρ} {rest pending : List (BatchReply ρ)} {count : BitVec 64}

theorem ClientView.take_failed (rest : List (BatchReply ρ)) (h : a.isFailed = true) :
    (ClientView.take (a :: rest)).pending = [] ∧
      (ClientView.take (a :: rest)).reading = false ∧
      (ClientView.take (a :: rest)).affected = noCount := by
  cases a with
  | failed errno text => exact ⟨rfl, rfl, rfl⟩
  | _ => cases h

/-- When there is no next answer, or it is an error, nothing is left. -/
theorem ClientLib.settled_of_nextResult (hread : (lib.view c).reading = false)
    (h : (lib.mysqlNextResult c).1 ≠ 0) : Settled lib (lib.mysqlNextResult c).2 [] noCount := by
  have hview := lib.view_nextResult c hread
  cases hpending : (lib.view c).pending with
  | nil =>
    rw [hpending] at hview
    constructor <;> rw [hview] <;> rfl
  | cons a rest =>
    rw [hpending] at hview
    have hfailed : a.isFailed = true := by
      have hcode := (lib.nextResult_some c a rest hread hpending).2
      exact Bool.not_eq_false _ ▸ fun hnot => h (hcode.mpr hnot)
    obtain ⟨htake, hreading, haffected⟩ := ClientView.take_failed rest hfailed
    constructor <;> rw [hview] <;> assumption

/-- `STMT::free_all_results` leaves nothing. -/
theorem settled_clearPending {used : Bool} (h : used = true ∨ (lib.view c).reading = false) :
    Settled lib (clearPending lib used c) [] noCount := by
  fun_induction clearPending lib used c with
  | case1 used c freed hcode taken ih =>
    obtain ⟨a, rest, -, -, hview⟩ := ClientLib.nextResult_eq_zero hcode
    have hfresh := hview ▸ ClientView.take_fresh (a :: rest)
    obtain ⟨hused, htaken⟩ := lib.useResult _ hfresh
    apply ih
    rw [show taken.1 = _ from hused, show lib.view taken.2 = _ from htaken]
    exact (Bool.eq_false_or_eq_true _)
  | case2 used c freed hcode =>
    refine ClientLib.settled_of_nextResult ?_ hcode
    change (lib.view (if used then lib.mysqlFreeResult c else c)).reading = false
    cases used with
    | false => exact h.resolve_left Bool.false_ne_true
    | true => rw [if_pos rfl, lib.view_freeResult]

/-- The rows of an answer are stored, if it has any. -/
theorem ClientLib.storeResult_take {answers : List (BatchReply ρ)}
    (hview : lib.view c = .take (a :: answers)) (h : a.isFailed = false) :
    (lib.mysqlStoreResult c).1 = a.data ∧
      Settled lib (lib.mysqlStoreResult c).2 answers a.count ∧
      (a.data = none → lib.mysqlFieldCount (lib.mysqlStoreResult c).2 = 0 ∧
        lib.mysqlAffectedRows (lib.mysqlStoreResult c).2 = a.count) := by
  have hfresh : (lib.view c).Fresh := hview ▸ ClientView.take_fresh _
  obtain ⟨hdata, hstored⟩ := lib.storeResult c hfresh
  rw [hview] at hdata
  have hdata : (lib.mysqlStoreResult c).1 = a.data := by
    rw [hdata]
    cases a <;> rfl
  rw [hview, hdata] at hstored
  have hcurrent : (lib.view (lib.mysqlStoreResult c).2).current = some a := by
    rw [hstored]
    cases a <;> rfl
  have haffected : (lib.view (lib.mysqlStoreResult c).2).affected = a.count := by
    rw [hstored]
    cases a <;> rfl
  refine ⟨hdata, ⟨?_, ?_, haffected⟩, fun hnone => ⟨?_, ?_⟩⟩
  · rw [hstored]
  · rw [hstored]
    cases a with
    | failed errno text => cases h
    | _ => rfl
  · rw [lib.fieldCount, hcurrent, Option.bind_some, hnone]
  · rw [lib.affectedRows, haffected]

/-- `do_query` takes the first answer of its batch. -/
theorem batchDoQuery_spec (texts : ErrorTexts) (st : BatchStmt Q ρ)
    {answers : List (BatchReply ρ)} (h : Settled lib c [] count)
    (hanswers : lib.answers q = a :: answers) :
    ∃ c', batchDoQuery lib texts q c st.unbound = (c', st.unbound.answered a,
      a.out fun errno text => .error (translateError texts .MYERR_S1000 errno
        (texts.stErrorPrefix ++ text)) errno) ∧
      (a.isFailed = true → lib.mysqlErrno c' = a.errno) ∧
      Settled lib c' (a.rest answers) a.count := by
  obtain ⟨hcode, hview⟩ := lib.realQuery_idle c q h.reading h.pending
  rw [hanswers] at hcode hview
  have hcode : (lib.mysqlRealQuery c q).1 = 0 ↔ a.isFailed = false := by simpa using hcode
  cases hfailed : a.isFailed with
  | true =>
    cases a with
    | failed errno text =>
      have hne : (lib.mysqlRealQuery c q).1 ≠ 0 := fun heq => by cases hcode.mp heq
      obtain ⟨herrno, herror⟩ := lib.error_failed _ errno text (congrArg ClientView.current hview)
      refine ⟨(lib.mysqlRealQuery c q).2, ?_, fun _ => herrno, ?_⟩
      · rw [batchDoQuery]
        simp only [hne, ne_eq, not_false_eq_true, if_true, herrno, herror]
        rfl
      · constructor <;> rw [hview] <;> rfl
    | _ => cases hfailed
  | false =>
    obtain ⟨hdata, hsettled, hchanged⟩ := ClientLib.storeResult_take hview hfailed
    refine ⟨(lib.mysqlStoreResult (lib.mysqlRealQuery c q).2).2, ?_, ?_, ?_⟩
    · rw [batchDoQuery]
      simp only [hcode.mpr hfailed, ne_eq, not_true_eq_false, if_false, hdata]
      cases a with
      | rows data => rfl
      | changed n =>
        obtain ⟨hfield, haffected⟩ := hchanged rfl
        simp only [BatchReply.data, hfield, haffected]
        simp [BatchStmt.answered, BatchStmt.unbound, BatchReply.out, BatchReply.count]
      | failed errno text => cases hfailed
    · intro h
      cases h
    · rw [BatchReply.rest, hfailed]
      exact hsettled

/-- What is left at the connection when the results of a statement are freed. -/
theorem settled_free (h : Settled lib c pending count) (st : BatchStmt Q ρ)
    (option : FreeOption) :
    Settled lib (mySQLFreeStmtExtended lib option true c st).1
      (if st.fakeResult then pending else []) (if st.fakeResult then count else noCount) := by
  cases hfake : st.fakeResult with
  | false =>
    simp only [mySQLFreeStmtExtended, freeAllResults, hfake, Bool.not_false, Bool.and_self, if_true]
    exact settled_clearPending (Or.inr h.reading)
  | true =>
    simp only [mySQLFreeStmtExtended, freeAllResults, hfake, Bool.not_true, Bool.false_and, if_true]
    exact h

/-- `my_SQLExecute` takes the first answer of its batch when nothing is left from before, or its
own result is not one of the driver. -/
theorem batchExecute_spec (texts : ErrorTexts) {answers : List (BatchReply ρ)}
    (h : Settled lib c pending count) (hq : st.query = some q)
    (hanswers : lib.answers q = a :: answers) (hpending : st.fakeResult = true → pending = []) :
    ∃ c', batchExecute lib texts c st = (c', st.unbound.answered a, a.out texts.queryError) ∧
      Settled lib c' (a.rest answers) a.count := by
  have hfree := settled_free h st .resetBuffers
  have hnone : (if st.fakeResult then pending else []) = [] := by
    split_ifs with hfake
    · exact hpending hfake
    · rfl
  rw [hnone] at hfree
  obtain ⟨c', hrun, herrno, hsettled⟩ :=
    batchDoQuery_spec texts st hfree hanswers
  refine ⟨c', ?_, hsettled⟩
  have hstmt : (mySQLFreeStmtExtended lib .resetBuffers true c st).2 = st.unbound := rfl
  rw [batchExecute, hq]
  simp only [hstmt, hrun]
  cases a with
  | failed errno text =>
    have herrno : lib.mysqlErrno c' = errno := herrno rfl
    simp only [BatchReply.out, ErrorTexts.queryError]
    cases hlost : isConnectionLost errno with
    | false => rfl
    | true =>
      have hne : errno ≠ 0 := by
        rintro rfl
        cases hlost
      simp only [if_true, herrno, handleConnectionError, hne, if_false, hlost]
      rfl
  | _ => rfl

/-- `my_SQLExecute` fails when answers are left and its own result is one of the driver. -/
theorem batchExecute_busy (texts : ErrorTexts) (h : Settled lib c pending count)
    (hq : st.query = some q) (hfake : st.fakeResult = true) (hpending : pending ≠ []) :
    ∃ sqlstate, (batchExecute lib texts c st).2.2 = .error sqlstate CR_COMMANDS_OUT_OF_SYNC := by
  obtain ⟨hcode, herrno⟩ := lib.realQuery_busy c q (h.pending ▸ hpending)
  have hfree : (mySQLFreeStmtExtended lib .resetBuffers true c st).1 = c := by
    simp only [mySQLFreeStmtExtended, freeAllResults, hfake, Bool.not_true, Bool.false_and]
    rfl
  refine ⟨translateError texts .MYERR_S1000 CR_COMMANDS_OUT_OF_SYNC
    (texts.stErrorPrefix ++ lib.mysqlError (lib.mysqlRealQuery c q).2), ?_⟩
  rw [batchExecute, hq]
  simp only [hfree, batchDoQuery, ne_eq, hcode, not_false_eq_true, if_true, herrno]
  rfl

/-- `SQLMoreResults` when no answer is left. -/
theorem sqlMoreResults_nil (h : Settled lib c [] count) (hstate : st.state = .executed) :
    ∃ c', sqlMoreResults lib c st = (c', { st with result := none }, .noData) ∧
      Settled lib c' [] noCount := by
  have hcode := lib.nextResult_none c h.reading h.pending
  refine ⟨(lib.mysqlNextResult c).2, ?_, ClientLib.settled_of_nextResult h.reading hcode.ne⟩
  rw [sqlMoreResults]
  simp only [hstate, ne_eq, not_true_eq_false, if_false, hcode, hcode.not_gt, if_true]

/-- `SQLMoreResults` takes the next answer. -/
theorem sqlMoreResults_cons (h : Settled lib c (a :: pending) count)
    (hstate : st.state = .executed) :
    ∃ c', sqlMoreResults lib c st =
        (c', BatchStmt.answered { st with result := none } a, a.out moreError) ∧
      Settled lib c' (a.rest pending) a.count := by
  obtain ⟨hle, hcode⟩ := lib.nextResult_some c a pending h.reading h.pending
  have hview := lib.view_nextResult c h.reading
  rw [h.pending] at hview
  cases hfailed : a.isFailed with
  | true =>
    have hne : (lib.mysqlNextResult c).1 ≠ 0 := fun heq => by
      rw [hcode.mp heq] at hfailed
      cases hfailed
    have hpos : 0 < (lib.mysqlNextResult c).1 := lt_of_le_of_ne hle hne.symm
    cases a with
    | failed errno text =>
      obtain ⟨herrno, -⟩ := lib.error_failed _ errno text (congrArg ClientView.current hview)
      refine ⟨(lib.mysqlNextResult c).2, ?_, ?_⟩
      · rw [sqlMoreResults]
        simp only [hstate, ne_eq, not_true_eq_false, if_false, gt_iff_lt, hpos, if_true, herrno]
        rfl
      · exact ClientLib.settled_of_nextResult h.reading hne
    | _ => cases hfailed
  | false =>
    obtain ⟨hdata, hsettled, hchanged⟩ := ClientLib.storeResult_take hview hfailed
    refine ⟨(lib.mysqlStoreResult (lib.mysqlNextResult c).2).2, ?_, ?_⟩
    · rw [sqlMoreResults]
      simp only [hstate, ne_eq, not_true_eq_false, if_false, gt_iff_lt, hcode.mpr hfailed,
        lt_self_iff_false, mySQLFreeStmtExtended, freeAllResults, Bool.and_false,
        Bool.false_eq_true, hdata]
      cases a with
      | rows data => rfl
      | changed n =>
        obtain ⟨hfield, haffected⟩ := hchanged rfl
        simp only [BatchReply.data, hfield, haffected, if_true]
        rfl
      | failed errno text => cases hfailed
    · rw [BatchReply.rest, hfailed]
      exact hsettled

end Settled

end MatrixOdbc.Driver
