import Mathlib.Algebra.Order.Ring.Int
import Mathlib.Data.List.Induction
import Mathlib.Tactic.Common

/-!
# The table of errors

`myodbc3_errors` of `driver/error.cc` is one table for the whole driver. The constructor of a
connection writes the states of its environment's version into it, by `myodbc_ov_init` of
`driver/info.cc` with `myodbc_sqlstate2_init` and `myodbc_sqlstate3_init`. So the state of an error
depends on all the connections that were made before.
-/

namespace MatrixOdbc.Driver

/-- `myodbc_errid`. -/
inductive MyodbcErrid where
  | MYERR_01000 | MYERR_01004 | MYERR_01S02 | MYERR_01S03 | MYERR_01S04 | MYERR_01S06
  | MYERR_07001 | MYERR_07005 | MYERR_07006 | MYERR_07009 | MYERR_08002 | MYERR_08003
  | MYERR_24000 | MYERR_25000 | MYERR_25S01 | MYERR_34000 | MYERR_HYT00 | MYERR_S1000
  | MYERR_S1001 | MYERR_S1002 | MYERR_S1003 | MYERR_S1004 | MYERR_S1007 | MYERR_S1009
  | MYERR_S1010 | MYERR_S1011 | MYERR_S1012 | MYERR_S1013 | MYERR_S1015 | MYERR_S1016
  | MYERR_S1017 | MYERR_S1024 | MYERR_S1090 | MYERR_S1091 | MYERR_S1092 | MYERR_S1093
  | MYERR_S1095 | MYERR_S1106 | MYERR_S1107 | MYERR_S1109 | MYERR_S1C00 | MYERR_21S01
  | MYERR_23000 | MYERR_42000 | MYERR_42S01 | MYERR_42S02 | MYERR_42S12 | MYERR_42S21
  | MYERR_42S22 | MYERR_08S01 | MYERR_08004 | MYERR_HY008
  deriving DecidableEq

/-- A row of `myodbc3_errors`: the state, the message, and whether the error is a warning with the
code `SQL_SUCCESS_WITH_INFO`. -/
structure ErrorRow where
  sqlstate : List Char
  message : String
  withInfo : Bool

open MyodbcErrid

/-- `myodbc3_errors`, as it is compiled. -/
def myodbc3Errors : MyodbcErrid → ErrorRow
  | MYERR_01000 => ⟨['0', '1', '0', '0', '0'], "General warning", true⟩
  | MYERR_01004 => ⟨['0', '1', '0', '0', '4'], "String data, right truncated", true⟩
  | MYERR_01S02 => ⟨['0', '1', 'S', '0', '2'], "Option value changed", true⟩
  | MYERR_01S03 => ⟨['0', '1', 'S', '0', '3'], "No rows updated/deleted", true⟩
  | MYERR_01S04 => ⟨['0', '1', 'S', '0', '4'], "More than one row updated/deleted", true⟩
  | MYERR_01S06 => ⟨['0', '1', 'S', '0', '6'],
      "Attempt to fetch before the result set returned the first rowset", true⟩
  | MYERR_07001 => ⟨['0', '7', '0', '0', '1'], "SQLBindParameter not used for all parameters",
      false⟩
  | MYERR_07005 => ⟨['0', '7', '0', '0', '5'], "Prepared statement not a cursor-specification",
      false⟩
  | MYERR_07006 => ⟨['0', '7', '0', '0', '6'], "Restricted data type attribute violation", false⟩
  | MYERR_07009 => ⟨['0', '7', '0', '0', '9'], "Invalid descriptor index", false⟩
  | MYERR_08002 => ⟨['0', '8', '0', '0', '2'], "Connection name in use", false⟩
  | MYERR_08003 => ⟨['0', '8', '0', '0', '3'], "Connection does not exist", false⟩
  | MYERR_24000 => ⟨['2', '4', '0', '0', '0'], "Invalid cursor state", false⟩
  | MYERR_25000 => ⟨['2', '5', '0', '0', '0'], "Invalid transaction state", false⟩
  | MYERR_25S01 => ⟨['2', '5', 'S', '0', '1'], "Transaction state unknown", false⟩
  | MYERR_34000 => ⟨['3', '4', '0', '0', '0'], "Invalid cursor name", false⟩
  | MYERR_HYT00 => ⟨['H', 'Y', 'T', '0', '0'], "Timeout expired", false⟩
  | MYERR_S1000 => ⟨['H', 'Y', '0', '0', '0'], "General driver defined error", false⟩
  | MYERR_S1001 => ⟨['H', 'Y', '0', '0', '1'], "Memory allocation error", false⟩
  | MYERR_S1002 => ⟨['H', 'Y', '0', '0', '2'], "Invalid column number", false⟩
  | MYERR_S1003 => ⟨['H', 'Y', '0', '0', '3'], "Invalid application buffer type", false⟩
  | MYERR_S1004 => ⟨['H', 'Y', '0', '0', '4'], "Invalid SQL data type", false⟩
  | MYERR_S1007 => ⟨['H', 'Y', '0', '0', '7'], "Associated statement is not prepared", false⟩
  | MYERR_S1009 => ⟨['H', 'Y', '0', '0', '9'], "Invalid use of null pointer", false⟩
  | MYERR_S1010 => ⟨['H', 'Y', '0', '1', '0'], "Function sequence error", false⟩
  | MYERR_S1011 => ⟨['H', 'Y', '0', '1', '1'], "Attribute can not be set now", false⟩
  | MYERR_S1012 => ⟨['H', 'Y', '0', '1', '2'], "Invalid transaction operation code", false⟩
  | MYERR_S1013 => ⟨['H', 'Y', '0', '1', '3'], "Memory management error", false⟩
  | MYERR_S1015 => ⟨['H', 'Y', '0', '1', '5'], "No cursor name available", false⟩
  | MYERR_S1016 => ⟨['H', 'Y', '0', '1', '6'], "Cannot modify an implementation row descriptor",
      false⟩
  | MYERR_S1017 => ⟨['H', 'Y', '0', '1', '7'],
      "Invalid use of an automatically allocated descriptor handle", false⟩
  | MYERR_S1024 => ⟨['H', 'Y', '0', '2', '4'], "Invalid attribute value", false⟩
  | MYERR_S1090 => ⟨['H', 'Y', '0', '9', '0'], "Invalid string or buffer length", false⟩
  | MYERR_S1091 => ⟨['H', 'Y', '0', '9', '1'], "Invalid descriptor field identifier", false⟩
  | MYERR_S1092 => ⟨['H', 'Y', '0', '9', '2'], "Invalid attribute/option identifier", false⟩
  | MYERR_S1093 => ⟨['H', 'Y', '0', '9', '3'], "Invalid parameter number", false⟩
  | MYERR_S1095 => ⟨['H', 'Y', '0', '9', '5'], "Function type out of range", false⟩
  | MYERR_S1106 => ⟨['H', 'Y', '1', '0', '6'], "Fetch type out of range", false⟩
  | MYERR_S1107 => ⟨['H', 'Y', '1', '0', '7'], "Row value out of range", false⟩
  | MYERR_S1109 => ⟨['H', 'Y', '1', '0', '9'], "Invalid cursor position", false⟩
  | MYERR_S1C00 => ⟨['H', 'Y', 'C', '0', '0'], "Optional feature not implemented", false⟩
  | MYERR_21S01 => ⟨['2', '1', 'S', '0', '1'], "Column count does not match value count", false⟩
  | MYERR_23000 => ⟨['2', '3', '0', '0', '0'], "Integrity constraint violation", false⟩
  | MYERR_42000 => ⟨['4', '2', '0', '0', '0'], "Syntax error or access violation", false⟩
  | MYERR_42S01 => ⟨['4', '2', 'S', '0', '1'], "Base table or view already exists ", false⟩
  | MYERR_42S02 => ⟨['4', '2', 'S', '0', '2'], "Base table or view not found", false⟩
  | MYERR_42S12 => ⟨['4', '2', 'S', '1', '2'], "Index not found", false⟩
  | MYERR_42S21 => ⟨['4', '2', 'S', '2', '1'], "Column already exists", false⟩
  | MYERR_42S22 => ⟨['4', '2', 'S', '2', '2'], "Column not found", false⟩
  | MYERR_08S01 => ⟨['0', '8', 'S', '0', '1'], "Communication link failure", false⟩
  | MYERR_08004 => ⟨['0', '8', '0', '0', '4'], "Server rejected the connection", false⟩
  | MYERR_HY008 => ⟨['H', 'Y', '0', '0', '8'], "Operation canceled", false⟩

/-- What the driver keeps for all its environments: how many there are, the states of
`myodbc3_errors`, the numbers in the texts `sql_timestamp`, `sql_date` and `sql_time`, and
`myodbc_ov2_inited`. -/
structure OvState where
  myodbcInited : ℕ
  sqlstate : MyodbcErrid → List Char
  sqlTimestamp : ℤ
  sqlDate : ℤ
  sqlTime : ℤ
  myodbcOv2Inited : Bool

/-- The driver when it is loaded. -/
def OvState.loaded : OvState := ⟨0, fun e => (myodbc3Errors e).sqlstate, 0, 0, 0, false⟩

/-- The errors from `MYERR_S1000` to `MYERR_S1C00`. -/
def MyodbcErrid.isS1 (e : MyodbcErrid) : Bool :=
  MYERR_S1000.ctorIdx ≤ e.ctorIdx ∧ e.ctorIdx ≤ MYERR_S1C00.ctorIdx

/-- The first two characters of the states in a range of the table are replaced. -/
def withClass (a b : Char) (sqlstate : MyodbcErrid → List Char) (e : MyodbcErrid) : List Char :=
  if e.isS1 then a :: b :: (sqlstate e).drop 2 else sqlstate e

/-- `myodbc_sqlstate2_init`. -/
def myodbcSqlstate2Init (sqlstate : MyodbcErrid → List Char) : MyodbcErrid → List Char
  | MYERR_07005 => ['2', '4', '0', '0', '0']
  | MYERR_42000 => ['3', '7', '0', '0', '0']
  | MYERR_42S01 => ['S', '0', '0', '0', '1']
  | MYERR_42S02 => ['S', '0', '0', '0', '2']
  | MYERR_42S12 => ['S', '0', '0', '1', '2']
  | MYERR_42S21 => ['S', '0', '0', '2', '1']
  | MYERR_42S22 => ['S', '0', '0', '2', '2']
  | MYERR_HYT00 => ['S', '1', 'T', '0', '0']
  | MYERR_HY008 => ['S', '1', '0', '0', '8']
  | e => withClass 'S' '1' sqlstate e

/-- `myodbc_sqlstate3_init`. -/
def myodbcSqlstate3Init (sqlstate : MyodbcErrid → List Char) : MyodbcErrid → List Char
  | MYERR_07005 => ['0', '7', '0', '0', '5']
  | MYERR_42000 => ['4', '2', '0', '0', '0']
  | MYERR_42S01 => ['4', '2', 'S', '0', '1']
  | MYERR_42S02 => ['4', '2', 'S', '0', '2']
  | MYERR_42S12 => ['4', '2', 'S', '1', '2']
  | MYERR_42S21 => ['4', '2', 'S', '2', '1']
  | MYERR_42S22 => ['4', '2', 'S', '2', '2']
  | e => withClass 'H' 'Y' sqlstate e

/-- `SQL_OV_ODBC2`. -/
def SQL_OV_ODBC2 : ℤ := 2

/-- `SQL_OV_ODBC3`. -/
def SQL_OV_ODBC3 : ℤ := 3

/-- `SQL_OV_ODBC3_80`. -/
def SQL_OV_ODBC3_80 : ℤ := 380

/-- `myodbc_ov_init`. The numbers are `SQL_TIMESTAMP`, `SQL_DATE` and `SQL_TIME`, or
`SQL_TYPE_TIMESTAMP`, `SQL_TYPE_DATE` and `SQL_TYPE_TIME`. -/
def myodbcOvInit (odbcVersion : ℤ) (s : OvState) : OvState :=
  if odbcVersion = SQL_OV_ODBC2 then
    { s with
      sqlTimestamp := 11, sqlDate := 9, sqlTime := 10
      sqlstate := myodbcSqlstate2Init s.sqlstate
      myodbcOv2Inited := true }
  else if !s.myodbcOv2Inited then s
  else
    { s with
      sqlTimestamp := 93, sqlDate := 91, sqlTime := 92
      sqlstate := myodbcSqlstate3Init s.sqlstate
      myodbcOv2Inited := false }

/-- `init_getfunctions`, as far as the version of ODBC changes what it writes. -/
def initGetfunctions (s : OvState) : OvState :=
  { s with sqlTimestamp := 93, sqlTime := 92, sqlDate := 91 }

/-- `myodbc_init`. -/
def myodbcInit (s : OvState) : OvState :=
  let s := { s with myodbcInited := s.myodbcInited + 1 }
  if s.myodbcInited > 1 then s else initGetfunctions s

/-- `myodbc_end`. -/
def myodbcEnd (s : OvState) : OvState := { s with myodbcInited := s.myodbcInited - 1 }

/-- The calls that reach what the driver keeps for all environments: an environment is allocated,
or freed, and a connection is allocated in an environment of a version. -/
inductive OvCall where
  | allocEnv
  | freeEnv
  | allocConnect (odbcVersion : ℤ)
  deriving DecidableEq

/-- What a call does to it. -/
def OvState.step (s : OvState) : OvCall → OvState
  | .allocEnv => myodbcInit s
  | .freeEnv => myodbcEnd s
  | .allocConnect odbcVersion => myodbcOvInit odbcVersion s

/-- What the calls leave behind. -/
def OvState.after (calls : List OvCall) : OvState := calls.foldl OvState.step .loaded

/-- The state an error has in a version of ODBC. -/
def stateIn (odbcVersion : ℤ) : MyodbcErrid → List Char :=
  if odbcVersion = SQL_OV_ODBC2 then myodbcSqlstate2Init fun e => (myodbc3Errors e).sqlstate
  else fun e => (myodbc3Errors e).sqlstate

/-- The versions of the connections, in the order of their allocation. -/
def versions (calls : List OvCall) : List ℤ :=
  calls.filterMap fun call =>
    match call with
    | .allocConnect odbcVersion => some odbcVersion
    | _ => none

/-- `myodbc_sqlstate3_init` leaves these two states alone. -/
def MyodbcErrid.keepsOdbc2 : MyodbcErrid → Bool
  | MYERR_HYT00 => true
  | MYERR_HY008 => true
  | _ => false

/-- The table when the states of ODBC 2 have been taken back. -/
def restoredState (e : MyodbcErrid) : List Char :=
  if e.keepsOdbc2 then stateIn SQL_OV_ODBC2 e else (myodbc3Errors e).sqlstate

/-- The states behind connections of these versions. -/
def tableOf (versions : List ℤ) : MyodbcErrid → List Char :=
  if versions.getLast? = some SQL_OV_ODBC2 then stateIn SQL_OV_ODBC2
  else if SQL_OV_ODBC2 ∈ versions then restoredState
  else fun e => (myodbc3Errors e).sqlstate

/-- The states of ODBC 2 can be written twice. -/
theorem myodbcSqlstate2Init_stateIn :
    myodbcSqlstate2Init (stateIn SQL_OV_ODBC2) = stateIn SQL_OV_ODBC2 := by
  funext e
  cases e <;> rfl

/-- The states of ODBC 2 can be written again. -/
theorem myodbcSqlstate2Init_restoredState :
    myodbcSqlstate2Init restoredState = stateIn SQL_OV_ODBC2 := by
  funext e
  cases e <;> rfl

/-- Two states of ODBC 2 are left when the others are taken back. -/
theorem myodbcSqlstate3Init_stateIn :
    myodbcSqlstate3Init (stateIn SQL_OV_ODBC2) = restoredState := by
  funext e
  cases e <;> rfl

/-- The states of ODBC 2 are written whatever connections were made before. -/
theorem myodbcSqlstate2Init_tableOf (vs : List ℤ) :
    myodbcSqlstate2Init (tableOf vs) = stateIn SQL_OV_ODBC2 := by
  unfold tableOf
  split_ifs
  · exact myodbcSqlstate2Init_stateIn
  · exact myodbcSqlstate2Init_restoredState
  · rfl

theorem getLast?_concat (vs : List ℤ) (v : ℤ) : (vs ++ [v]).getLast? = some v := by simp

/-- What is kept for all environments belongs to the versions of the connections. -/
structure OvState.Keeps (vs : List ℤ) (s : OvState) : Prop where
  sqlstate : s.sqlstate = tableOf vs
  inited : s.myodbcOv2Inited = true ↔ vs.getLast? = some SQL_OV_ODBC2

/-- A connection writes the states of its version, two states of ODBC 2 excepted. -/
theorem OvState.Keeps.myodbcOvInit {vs : List ℤ} {s : OvState} (h : s.Keeps vs) (v : ℤ) :
    (myodbcOvInit v s).Keeps (vs ++ [v]) := by
  have hlast := getLast?_concat vs v
  unfold Driver.myodbcOvInit
  by_cases hv : v = SQL_OV_ODBC2
  · subst hv
    rw [if_pos rfl]
    constructor
    · rw [tableOf, if_pos hlast]
      dsimp only
      rw [h.sqlstate, myodbcSqlstate2Init_tableOf]
    · simp [hlast]
  have hnotlast : ¬ (vs ++ [v]).getLast? = some SQL_OV_ODBC2 := by
    rw [hlast]
    exact fun heq => hv (Option.some.inj heq)
  have hmem : SQL_OV_ODBC2 ∈ vs ++ [v] ↔ SQL_OV_ODBC2 ∈ vs := by
    simp [Ne.symm hv]
  rw [if_neg hv]
  cases hinited : s.myodbcOv2Inited with
  | false =>
    have hbefore : ¬ vs.getLast? = some SQL_OV_ODBC2 := by
      rw [← h.inited, hinited]
      exact Bool.false_ne_true
    refine ⟨?_, ?_⟩
    · simp only [Bool.not_false, if_true]
      rw [h.sqlstate, tableOf, tableOf, if_neg hbefore, if_neg hnotlast]
      simp only [hmem]
    · simpa [hinited] using hv
  | true =>
    have hbefore := h.inited.mp hinited
    have hin : SQL_OV_ODBC2 ∈ vs := List.mem_of_getLast? hbefore
    refine ⟨?_, ?_⟩
    · simp only [Bool.not_true, Bool.false_eq_true, if_false]
      rw [h.sqlstate, tableOf, tableOf, if_pos hbefore, if_neg hnotlast, if_pos (hmem.mpr hin),
        myodbcSqlstate3Init_stateIn]
    · simpa using hv

/-- Environments do not touch the table. -/
theorem OvState.Keeps.step {vs : List ℤ} {s : OvState} (h : s.Keeps vs) (call : OvCall) :
    (s.step call).Keeps (vs ++ versions [call]) := by
  cases call with
  | allocEnv =>
    have hinit : (myodbcInit s).sqlstate = s.sqlstate ∧
        (myodbcInit s).myodbcOv2Inited = s.myodbcOv2Inited := by
      unfold myodbcInit
      dsimp only
      split_ifs <;> exact ⟨rfl, rfl⟩
    rw [show versions [OvCall.allocEnv] = [] from rfl, List.append_nil]
    exact ⟨hinit.1.trans h.sqlstate, (by rw [← h.inited, ← hinit.2]; rfl)⟩
  | freeEnv =>
    rw [show versions [OvCall.freeEnv] = [] from rfl, List.append_nil]
    exact ⟨h.sqlstate, h.inited⟩
  | allocConnect v => exact h.myodbcOvInit v

/-- The table behind any calls is the one of the versions of their connections. -/
theorem OvState.keeps_after (calls : List OvCall) :
    (OvState.after calls).Keeps (versions calls) := by
  induction calls using List.reverseRecOn with
  | nil => exact ⟨rfl, by simp [OvState.after, OvState.loaded, versions]⟩
  | append_singleton calls call ih =>
    have hstep := ih.step call
    rw [OvState.after, List.foldl_append]
    rw [versions, List.filterMap_append]
    exact hstep

/-- The states differ between the versions at an error that both functions write. -/
theorem stateIn_S1000 : stateIn SQL_OV_ODBC2 MYERR_S1000 ≠ (myodbc3Errors MYERR_S1000).sqlstate ∧
    restoredState MYERR_S1000 = (myodbc3Errors MYERR_S1000).sqlstate := by
  decide

/-- The state of a timeout is left as it is in ODBC 2. -/
theorem restoredState_HYT00 :
    restoredState MYERR_HYT00 ≠ (myodbc3Errors MYERR_HYT00).sqlstate := by
  decide

theorem stateIn_of_ne {v : ℤ} (h : v ≠ SQL_OV_ODBC2) :
    stateIn v = fun e => (myodbc3Errors e).sqlstate := if_neg h

theorem restoredState_of_not {e : MyodbcErrid} (h : e.keepsOdbc2 = false) :
    restoredState e = (myodbc3Errors e).sqlstate := by
  rw [restoredState, h]
  exact if_neg Bool.false_ne_true

/-- After any calls, every error has the state that belongs to a version of ODBC exactly when the
version is ODBC 2 and the connection made last was for ODBC 2, or the version is another and no
connection was ever for ODBC 2. Two errors apart, the last connection alone decides. -/
theorem sqlstates_right_iff (calls : List OvCall) (v : ℤ) :
    ((∀ e, (OvState.after calls).sqlstate e = stateIn v e) ↔
      if v = SQL_OV_ODBC2 then (versions calls).getLast? = some SQL_OV_ODBC2
      else SQL_OV_ODBC2 ∉ versions calls) ∧
    ((∀ e, e.keepsOdbc2 = false → (OvState.after calls).sqlstate e = stateIn v e) ↔
      (v = SQL_OV_ODBC2 ↔ (versions calls).getLast? = some SQL_OV_ODBC2)) := by
  rw [(OvState.keeps_after calls).sqlstate]
  generalize versions calls = vs
  obtain ⟨hdiffer, hrestored⟩ := stateIn_S1000
  by_cases hv : v = SQL_OV_ODBC2
  · subst hv
    rw [if_pos rfl]
    by_cases hlast : vs.getLast? = some SQL_OV_ODBC2
    · have htable : tableOf vs = stateIn SQL_OV_ODBC2 := if_pos hlast
      rw [htable]
      exact ⟨iff_of_true (fun e => rfl) hlast, iff_of_true (fun e _ => rfl) (iff_of_true rfl hlast)⟩
    have hwrong : tableOf vs MYERR_S1000 ≠ stateIn SQL_OV_ODBC2 MYERR_S1000 := by
      rw [tableOf, if_neg hlast]
      split_ifs
      · rw [hrestored]
        exact hdiffer.symm
      · exact hdiffer.symm
    exact ⟨iff_of_false (fun h => hwrong (h _)) hlast,
      iff_of_false (fun h => hwrong (h _ rfl)) fun h => hlast (h.mp rfl)⟩
  rw [if_neg hv, stateIn_of_ne hv]
  by_cases hlast : vs.getLast? = some SQL_OV_ODBC2
  · have hmem : SQL_OV_ODBC2 ∈ vs := List.mem_of_getLast? hlast
    have hwrong : tableOf vs MYERR_S1000 ≠ (myodbc3Errors MYERR_S1000).sqlstate := by
      rw [tableOf, if_pos hlast]
      exact hdiffer
    exact ⟨iff_of_false (fun h => hwrong (h _)) fun h => h hmem,
      iff_of_false (fun h => hwrong (h _ rfl)) fun h => hv (h.mpr hlast)⟩
  by_cases hmem : SQL_OV_ODBC2 ∈ vs
  · have htable : tableOf vs = restoredState := by rw [tableOf, if_neg hlast, if_pos hmem]
    rw [htable]
    exact ⟨iff_of_false (fun h => restoredState_HYT00 (h _)) fun h => h hmem,
      iff_of_true (fun e he => restoredState_of_not he) (iff_of_false hv hlast)⟩
  · have htable : tableOf vs = fun e => (myodbc3Errors e).sqlstate := by
      rw [tableOf, if_neg hlast, if_neg hmem]
    rw [htable]
    exact ⟨iff_of_true (fun e => rfl) hmem, iff_of_true (fun e _ => rfl) (iff_of_false hv hlast)⟩

end MatrixOdbc.Driver
