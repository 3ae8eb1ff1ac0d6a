import Mathlib.Algebra.Order.Ring.Int
import Mathlib.Tactic.NormNum

/-!
# The position of SQLGetData

`SQLGetData` delivers a long value in parts: `getdata` keeps the column and the position in its
value between two calls. A fetch and other operations reset it to a column that no result has.
Two assertions of `SQLGetData` say that the column and the parameter are still reset, which only
the first call behind a reset can rely on.
-/

namespace MatrixOdbc.Driver

/-- `OUT_PARAM_STATE`. -/
inductive OutParamState where
  | OPS_UNKNOWN | OPS_BEING_FETCHED | OPS_PREFETCHED | OPS_STREAMS_PENDING
  deriving DecidableEq

/-- `(uint)~0L`. -/
def noColumn : ℕ := 4294967295

/-- What `SQLGetData` reads and writes of a statement handle. -/
structure GetDataStmt where
  /-- The columns of the open result, if there is one. -/
  result : Option (Fin 32768)
  /-- `current_values` points to a row. -/
  currentValues : Bool
  outParamsState : OutParamState
  currentParam : ℕ
  /-- `getdata.column`. -/
  column : ℕ
  /-- `getdata.source` with the other fields of `getdata`: the position in the value, none in
  front of it. -/
  source : Option ℕ
  /-- `SQL_ATTR_USE_BOOKMARKS` is `SQL_UB_OFF`. -/
  bookmarksOff : Bool
  deriving DecidableEq

/-- A handle as it is allocated. -/
def GetDataStmt.allocated (bookmarksOff : Bool) : GetDataStmt where
  result := none
  currentValues := false
  outParamsState := .OPS_UNKNOWN
  currentParam := 0
  column := 0
  source := none
  bookmarksOff := bookmarksOff

/-- The C types that `SQLGetData` tells apart. `SQL_C_VARBOOKMARK` is `SQL_C_BINARY`. -/
inductive GetDataType where
  | SQL_C_BOOKMARK | SQL_C_BINARY | other
  deriving DecidableEq

/-- A call of `SQLGetData`, with what the conversion of the value does to the position. -/
structure GetDataCall where
  columnNumber : Fin 65536
  targetType : GetDataType
  moves : Option ℕ → Option ℕ

/-- What `SQLGetData` does: it refuses the call, an assertion fails, or it converts the value of
a column from a position on. -/
inductive GetDataOutcome where
  | refuses
  | aborts
  | converts (column : ℤ) (source : Option ℕ)
  deriving DecidableEq

/-- A number of 32 bits as an `int`. -/
def toInt32 (n : ℕ) : ℤ := if n < 2147483648 then n else (n : ℤ) - 4294967296

/-- An `int` as a number of 32 bits. -/
def ofInt32 (i : ℤ) : ℕ := (i % 4294967296).toNat

theorem toInt32_noColumn : toInt32 noColumn = -1 := by decide

theorem ofInt32_neg_one : ofInt32 (-1) = noColumn := by decide

namespace GetDataStmt

variable (s : GetDataStmt)

/-- `reset_getdata_position`. -/
def resetGetdataPosition : GetDataStmt := { s with column := noColumn, source := none }

/-- The checks in front of the assertions. A column of a result is below 32768, so that its number
is the same as an `SQLSMALLINT`. -/
def admits (call : GetDataCall) : Bool :=
  (s.result.any fun rcount => call.columnNumber.val ≤ rcount.val) &&
    (s.currentValues || s.outParamsState = .OPS_STREAMS_PENDING) &&
    !(call.columnNumber.val < 1 && s.bookmarksOff) &&
    !(call.columnNumber.val = 0 && call.targetType = .other)

/-- `SQLGetData` behind the part for streams. A failed assertion aborts in a build with assertions;
a release defines `NDEBUG`. -/
def getColumn (call : GetDataCall) (sColNum : ℤ) : GetDataOutcome × GetDataStmt :=
  -- `assert(stmt->getdata.column > INT_MAX)`
  if s.column ≤ 2147483647 then (.aborts, s)
  else
    let s := if sColNum ≠ toInt32 s.column then
        { s.resetGetdataPosition with column := ofInt32 sColNum }
      else s
    (.converts sColNum s.source, { s with source := call.moves s.source })

/-- `SQLGetData`. -/
def getData (call : GetDataCall) : GetDataOutcome × GetDataStmt :=
  if !s.admits call then (.refuses, s)
  else
    let sColNum : ℤ := call.columnNumber.val - 1
    if s.outParamsState = .OPS_STREAMS_PENDING then
      -- `assert(stmt->current_param > INT_MAX)`
      if s.currentParam ≤ 2147483647 then (.aborts, s)
      else if sColNum ≠ toInt32 s.currentParam then (.refuses, s)
      else if call.targetType ≠ .SQL_C_BINARY then (.refuses, s)
      else s.getColumn call (Int.bmod s.column 65536)
    else s.getColumn call sColNum

end GetDataStmt

/-- The operations on a statement that touch what `SQLGetData` reads, with what the server and
the application contribute to them. -/
inductive StmtOp where
  /-- The result is freed, and another one with so many columns may be opened: execution,
  `SQLMoreResults`, `SQLFreeStmt` with `SQL_CLOSE`. -/
  | openResult (rcount : Option (Fin 32768))
  /-- `ssps_get_out_params`: there are streams or not, and where the conversion of the last bound
  parameter leaves the position, if there is one. -/
  | ssps_get_out_params (streams : Bool) (bound : Option (Option ℕ))
  /-- `SQLFreeStmt` with `SQL_RESET_PARAMS`. -/
  | resetParams
  /-- `my_SQLExtendedFetch` that returns before it resets the position. -/
  | refusedFetch
  /-- `my_SQLExtendedFetch`: it found rows or not, and where the conversion of the last bound
  column leaves the position. -/
  | extendedFetch (found : Bool) (left : Option ℕ)
  /-- `myodbc_single_fetch`. -/
  | singleFetch (found : Bool) (left : Option ℕ)
  /-- `SQLSetPos` with `SQL_POSITION`. -/
  | setPosition (found : Bool)
  /-- `SQLSetPos` with `SQL_ADD` and a bound bookmark, which is converted last. -/
  | addRows (left : Option ℕ)
  /-- A data-at-execution parameter is recorded: `SQLExecute`, `SQLSetPos`, `SQLParamData`. -/
  | needData (param : Fin 65536)
  /-- `find_next_out_stream` for the next streamed parameter and its column, or behind the last
  one. -/
  | findNextOutStream (stream : Option (Fin 65536 × Fin 65536))
  | getData (call : GetDataCall)

namespace GetDataStmt

variable (s : GetDataStmt)

/-- The fetch of a row that resets the position. -/
def fetched (found : Bool) (left : Option ℕ) : GetDataStmt :=
  { s.resetGetdataPosition with
    currentValues := found
    source := if found then left else none }

/-- One operation. -/
def step : StmtOp → GetDataStmt
  | .openResult rcount =>
    { s with result := rcount, currentValues := false, outParamsState := .OPS_UNKNOWN }
  | .ssps_get_out_params streams bound =>
    let s := { s with currentValues := true }
    let s :=
      if streams then
        { s.resetGetdataPosition with
          outParamsState := .OPS_STREAMS_PENDING
          currentParam := noColumn }
      else { s with outParamsState := .OPS_PREFETCHED }
    match bound with
    | some left => { s.resetGetdataPosition with source := left }
    | none => s
  | .resetParams => { s with outParamsState := .OPS_UNKNOWN }
  | .refusedFetch =>
    if s.result.isSome ∧ s.outParamsState ≠ .OPS_UNKNOWN then
      { s with outParamsState := .OPS_BEING_FETCHED }
    else s
  | .extendedFetch found left =>
    if s.result.isNone then s
    else
      match s.outParamsState with
      | .OPS_BEING_FETCHED => s
      | .OPS_UNKNOWN => s.fetched found left
      | _ => { s with outParamsState := .OPS_BEING_FETCHED }.fetched found left
  | .singleFetch found left => if s.result.isNone then s else s.fetched found left
  | .setPosition found => if s.result.isNone then s else s.fetched found none
  | .addRows left =>
    if s.result.isNone then s else { s.resetGetdataPosition with source := left }
  | .needData param => { s with currentParam := param.val }
  | .findNextOutStream stream =>
    if s.outParamsState = .OPS_STREAMS_PENDING then
      match stream with
      | some (param, column) =>
        { s.resetGetdataPosition with currentParam := param.val, column := column.val }
      | none => { s with outParamsState := .OPS_PREFETCHED }
    else s
  | .getData call => (s.getData call).2

end GetDataStmt

/-- What the operations on a statement did so far, as far as `SQLGetData` depends on it. -/
structure GetDataHistory where
  /-- The position was reset, and since then no column of the result was converted by
  `SQLGetData` and no stream was found. -/
  fresh : Bool
  /-- Where the conversions of bound columns and of bookmarks left the position since then. -/
  left : Option ℕ
  /-- A parameter was recorded since the streams came. -/
  announced : Bool
  /-- The column of the preceding call for the row, and where it left the position. -/
  last : Option (ℤ × Option ℕ)

namespace GetDataHistory

/-- Nothing happened. -/
def start : GetDataHistory := ⟨false, none, false, none⟩

variable (h : GetDataHistory)

/-- A row is fetched. -/
def fetched (found : Bool) (left : Option ℕ) : GetDataHistory :=
  { h with fresh := true, left := if found then left else none, last := none }

/-- What an operation on a statement adds. -/
def after (s : GetDataStmt) : StmtOp → GetDataHistory
  | .openResult _ => { h with last := none }
  | .ssps_get_out_params streams bound =>
    { fresh := streams || bound.isSome || h.fresh
      left := bound.getD (if streams then none else h.left)
      announced := !streams && h.announced
      last := none }
  | .extendedFetch found left =>
    if s.result.isNone ∨ s.outParamsState = .OPS_BEING_FETCHED then h else h.fetched found left
  | .singleFetch found left => if s.result.isNone then h else h.fetched found left
  | .setPosition found => if s.result.isNone then h else h.fetched found none
  | .addRows left => if s.result.isNone then h else { h with fresh := true, left := left }
  | .needData _ => { h with announced := true }
  | .findNextOutStream (some _) =>
    if s.outParamsState = .OPS_STREAMS_PENDING then { h with fresh := false, announced := true }
    else h
  | .getData call =>
    match (s.getData call).1 with
    | .converts column source =>
      if column = -1 then
        { h with left := call.moves source, last := some (column, call.moves source) }
      else { h with fresh := false, last := some (column, call.moves source) }
    | _ => h
  | _ => h

/-- The position where a column goes on: where the preceding call left it, if that was a call for
the same column of the same row, and the start if not. -/
def position (column : ℤ) : Option ℕ :=
  match h.last with
  | some (lastColumn, source) => if lastColumn = column then source else none
  | none => none

/-- The assertions hold, and the conversion begins where the column goes on. -/
def Upholds : GetDataOutcome → Prop
  | .refuses => True
  | .aborts => False
  | .converts column source => source = h.position column

end GetDataHistory

/-- A call that the checks let through is the first one for a column of the result since the
position was reset, where the reset lost no position and left none that belongs to another
column, and comes before the first stream was found. -/
def GetDataStmt.Safe (s : GetDataStmt) (h : GetDataHistory) (call : GetDataCall) : Prop :=
  s.admits call = true →
    if s.outParamsState = .OPS_STREAMS_PENDING then
      h.announced = false ∧ (call.columnNumber.val = 0 → call.targetType = .SQL_C_BINARY →
        h.fresh = true ∧ h.left = h.position (-1))
    else
      h.fresh = true ∧ (if call.columnNumber.val = 0 then h.left else none) =
        h.position (call.columnNumber.val - 1)

/-- Every call of a run upholds the assertions and the position. -/
def RunUpholds (s : GetDataStmt) (h : GetDataHistory) : List StmtOp → Prop
  | [] => True
  | op :: ops =>
    (∀ call, op = .getData call → h.Upholds (s.getData call).1) ∧
      RunUpholds (s.step op) (h.after s op) ops

/-- Every call of a run is safe. -/
def RunSafe (s : GetDataStmt) (h : GetDataHistory) : List StmtOp → Prop
  | [] => True
  | op :: ops =>
    (∀ call, op = .getData call → s.Safe h call) ∧ RunSafe (s.step op) (h.after s op) ops

/-- What the handle knows of its history. -/
structure GetDataStmt.Agrees (s : GetDataStmt) (h : GetDataHistory) : Prop where
  reset : h.fresh = true → s.column = noColumn ∧ s.source = h.left
  used : h.fresh = false → s.column ≤ 2147483647
  param : s.outParamsState = .OPS_STREAMS_PENDING →
    h.announced = false ∧ s.currentParam = noColumn ∨
      h.announced = true ∧ s.currentParam ≤ 2147483647

namespace GetDataStmt

variable {s : GetDataStmt} {h : GetDataHistory}

theorem agrees_start (bookmarksOff : Bool) : (allocated bookmarksOff).Agrees .start where
  reset := nofun
  used := fun _ => Nat.zero_le _
  param := nofun

/-- Behind a reset the assertion holds, and the position is the start for a column of the result
and the one that was left for the bookmark. -/
theorem getColumn_fresh (hagrees : s.Agrees h) (hfresh : h.fresh = true) (call : GetDataCall)
    (column : ℤ) :
    s.getColumn call column =
      (.converts column (if column = -1 then h.left else none),
        { s with
          column := ofInt32 column
          source := call.moves (if column = -1 then h.left else none) }) := by
  obtain ⟨hreset, hsource⟩ := hagrees.reset hfresh
  have hsentinel : ¬ s.column ≤ 2147483647 := by
    rw [hreset]
    decide
  have hint : toInt32 s.column = -1 := by rw [hreset, toInt32_noColumn]
  rw [getColumn, if_neg hsentinel, hint]
  by_cases hbookmark : column = -1
  · have hof : ofInt32 column = s.column := by
      rw [hbookmark, hreset]
      decide
    simp only [hbookmark, ne_eq, not_true_eq_false, if_false, if_true, hsource]
    rw [← hbookmark, hof]
  · simp only [ne_eq, hbookmark, not_false_eq_true, if_true, if_false]
    rfl

/-- Behind a call for a column of the result the assertion fails. -/
theorem getColumn_used (hagrees : s.Agrees h) (hused : h.fresh = false) (call : GetDataCall)
    (column : ℤ) : s.getColumn call column = (.aborts, s) := by
  rw [getColumn, if_pos (hagrees.used hused)]

/-- A call while streams are pending, before the first one was found. -/
theorem getData_pending (hagrees : s.Agrees h) (call : GetDataCall) (hadmits : s.admits call = true)
    (hpending : s.outParamsState = .OPS_STREAMS_PENDING) (hannounced : h.announced = false) :
    s.getData call =
      if call.columnNumber.val = 0 ∧ call.targetType = .SQL_C_BINARY then
        s.getColumn call (Int.bmod s.column 65536)
      else (.refuses, s) := by
  have hparam : s.currentParam = noColumn := by
    obtain ⟨-, hparam⟩ | ⟨hfound, -⟩ := hagrees.param hpending
    · exact hparam
    · rw [hannounced] at hfound
      contradiction
  have hint : toInt32 s.currentParam = -1 := by rw [hparam, toInt32_noColumn]
  have hlarge : ¬ s.currentParam ≤ 2147483647 := by
    rw [hparam]
    decide
  rw [getData, if_neg (by simp [hadmits]), if_pos hpending, if_neg hlarge, hint]
  by_cases hzero : call.columnNumber.val = 0
  · by_cases htype : call.targetType = .SQL_C_BINARY <;> simp [hzero, htype]
  · have hcolumn : (call.columnNumber.val : ℤ) - 1 ≠ -1 := by omega
    rw [if_pos hcolumn, if_neg fun hboth => hzero hboth.1]

/-- A call while streams are pending, behind the first one. -/
theorem getData_announced (hagrees : s.Agrees h) (call : GetDataCall) (hadmits : s.admits call = true)
    (hpending : s.outParamsState = .OPS_STREAMS_PENDING) (hannounced : h.announced = true) :
    s.getData call = (.aborts, s) := by
  have hparam : s.currentParam ≤ 2147483647 := by
    obtain ⟨hnone, -⟩ | ⟨-, hparam⟩ := hagrees.param hpending
    · rw [hannounced] at hnone
      contradiction
    · exact hparam
  rw [getData, if_neg (by simp [hadmits]), if_pos hpending, if_pos hparam]

/-- A call while no streams are pending. -/
theorem getData_column (call : GetDataCall) (hadmits : s.admits call = true)
    (hpending : s.outParamsState ≠ .OPS_STREAMS_PENDING) :
    s.getData call = s.getColumn call (call.columnNumber.val - 1) := by
  rw [getData, if_neg (by simp [hadmits]), if_neg hpending]

/-- A call upholds the assertions and the position exactly when it is safe. -/
theorem getData_upholds_iff (hagrees : s.Agrees h) (call : GetDataCall) :
    h.Upholds (s.getData call).1 ↔ s.Safe h call := by
  unfold Safe
  by_cases hadmits : s.admits call = true
  · rw [forall_prop_of_true hadmits]
    by_cases hpending : s.outParamsState = .OPS_STREAMS_PENDING
    · rw [if_pos hpending]
      cases hannounced : h.announced with
      | true =>
        rw [getData_announced hagrees call hadmits hpending hannounced]
        exact iff_of_false id fun hsafe => nomatch hsafe.1
      | false =>
        rw [getData_pending hagrees call hadmits hpending hannounced]
        by_cases hbookmark : call.columnNumber.val = 0 ∧ call.targetType = .SQL_C_BINARY
        · rw [if_pos hbookmark]
          simp only [hbookmark.1, hbookmark.2, true_imp_iff, true_and]
          cases hfresh : h.fresh with
          | false =>
            rw [getColumn_used hagrees hfresh]
            exact iff_of_false id fun hsafe => nomatch hsafe.1
          | true =>
            have hcolumn : Int.bmod s.column 65536 = -1 := by
              rw [(hagrees.reset hfresh).1]
              decide
            rw [hcolumn, getColumn_fresh hagrees hfresh call, if_pos rfl]
            simp only [GetDataHistory.Upholds, true_and]
        · rw [if_neg hbookmark]
          exact iff_of_true trivial ⟨rfl, fun hzero htype => absurd ⟨hzero, htype⟩ hbookmark⟩
    · rw [if_neg hpending, getData_column call hadmits hpending]
      cases hfresh : h.fresh with
      | false =>
        rw [getColumn_used hagrees hfresh]
        exact iff_of_false id fun hsafe => nomatch hsafe.1
      | true =>
        rw [getColumn_fresh hagrees hfresh call]
        have hbookmark : (call.columnNumber.val : ℤ) - 1 = -1 ↔ call.columnNumber.val = 0 := by
          omega
        simp only [GetDataHistory.Upholds, hbookmark, true_and]
  · rw [getData, if_pos (by simpa using hadmits)]
    exact iff_of_true trivial fun h => absurd h hadmits

/-- A call changes the handle only when it converts, and then the position was reset. -/
theorem getData_cases (hagrees : s.Agrees h) (call : GetDataCall) :
    (∃ outcome, s.getData call = (outcome, s) ∧ ∀ column source, outcome ≠ .converts column source) ∨
      h.fresh = true ∧ ∃ column : ℤ, (column = -1 ∨ 0 ≤ column ∧ column < 2147483648) ∧
        s.getData call = s.getColumn call column := by
  by_cases hadmits : s.admits call = true
  · have hlt := call.columnNumber.isLt
    by_cases hpending : s.outParamsState = .OPS_STREAMS_PENDING
    · cases hannounced : h.announced with
      | true => exact .inl ⟨_, getData_announced hagrees call hadmits hpending hannounced, nofun⟩
      | false =>
        rw [getData_pending hagrees call hadmits hpending hannounced]
        split_ifs
        · cases hfresh : h.fresh with
          | false => exact .inl ⟨_, getColumn_used hagrees hfresh call _, nofun⟩
          | true =>
            have hcolumn : Int.bmod s.column 65536 = -1 := by
              rw [(hagrees.reset hfresh).1]
              decide
            exact .inr ⟨rfl, _, .inl hcolumn, rfl⟩
        · exact .inl ⟨_, rfl, nofun⟩
    · rw [getData_column call hadmits hpending]
      cases hfresh : h.fresh with
      | false => exact .inl ⟨_, getColumn_used hagrees hfresh call _, nofun⟩
      | true => exact .inr ⟨rfl, _, by omega, rfl⟩
  · exact .inl ⟨.refuses, by rw [getData, if_pos (by simpa using hadmits)], nofun⟩

/-- A conversion is known to the history. -/
theorem Agrees.getData (hagrees : s.Agrees h) (call : GetDataCall) :
    (s.step (.getData call)).Agrees (h.after s (.getData call)) := by
  unfold GetDataStmt.step GetDataHistory.after
  obtain ⟨outcome, hrun, hnone⟩ | ⟨hfresh, column, hcolumn, hrun⟩ := getData_cases hagrees call
  · dsimp only
    rw [hrun]
    cases outcome with
    | refuses | aborts => exact hagrees
    | converts column source => exact absurd rfl (hnone column source)
  · dsimp only
    rw [hrun, getColumn_fresh hagrees hfresh]
    obtain ⟨hreset, -⟩ := hagrees.reset hfresh
    obtain rfl | ⟨hlow, hhigh⟩ := hcolumn
    · simp only [if_true, ofInt32_neg_one]
      refine ⟨fun _ => ⟨rfl, rfl⟩, fun hused => ?_, hagrees.param⟩
      exact Bool.noConfusion (hfresh.symm.trans hused)
    · have hdata : column ≠ -1 := by omega
      have hof : ofInt32 column = column.toNat := by
        unfold ofInt32
        rw [Int.emod_eq_of_lt hlow (by omega)]
      simp only [hdata, if_false]
      refine ⟨nofun, fun _ => ?_, hagrees.param⟩
      dsimp only
      omega

/-- A row is fetched: the position is reset and left by the conversions of the bound columns. -/
theorem Agrees.fetched (found : Bool) (left : Option ℕ) (hagrees : s.Agrees h) :
    (s.fetched found left).Agrees (h.fetched found left) where
  reset := fun _ => ⟨rfl, rfl⟩
  used := nofun
  param := hagrees.param

/-- The state of the output parameters is left. -/
theorem Agrees.leaveStreams (hagrees : s.Agrees h) (outParamsState : OutParamState)
    (hstate : outParamsState ≠ .OPS_STREAMS_PENDING) :
    ({ s with outParamsState := outParamsState } : GetDataStmt).Agrees h where
  reset := hagrees.reset
  used := hagrees.used
  param := fun hpending => absurd hpending hstate

/-- Every operation is known to the history. -/
theorem Agrees.step (hagrees : s.Agrees h) (op : StmtOp) : (s.step op).Agrees (h.after s op) := by
  cases op with
  | openResult rcount => exact ⟨hagrees.reset, hagrees.used, nofun⟩
  | ssps_get_out_params streams bound =>
    cases streams with
    | true =>
      cases bound with
      | none => exact ⟨fun _ => ⟨rfl, rfl⟩, nofun, fun _ => .inl ⟨rfl, rfl⟩⟩
      | some left => exact ⟨fun _ => ⟨rfl, rfl⟩, nofun, fun _ => .inl ⟨rfl, rfl⟩⟩
    | false =>
      cases bound with
      | none => exact ⟨hagrees.reset, hagrees.used, nofun⟩
      | some left => exact ⟨fun _ => ⟨rfl, rfl⟩, nofun, nofun⟩
  | resetParams => exact hagrees.leaveStreams _ nofun
  | refusedFetch =>
    unfold GetDataStmt.step
    dsimp only
    split_ifs
    · exact hagrees.leaveStreams _ nofun
    · exact hagrees
  | extendedFetch found left =>
    unfold GetDataStmt.step GetDataHistory.after
    dsimp only
    by_cases hnone : s.result.isNone = true
    · rw [if_pos hnone, if_pos (.inl hnone)]
      exact hagrees
    · rw [if_neg hnone]
      cases hstate : s.outParamsState with
      | OPS_BEING_FETCHED =>
        rw [if_pos (.inr rfl)]
        exact hagrees
      | OPS_UNKNOWN =>
        rw [if_neg (by simp [hnone])]
        exact hagrees.fetched found left
      | OPS_PREFETCHED | OPS_STREAMS_PENDING =>
        rw [if_neg (by simp [hnone])]
        have hleft := hagrees.leaveStreams .OPS_BEING_FETCHED nofun
        exact hleft.fetched found left
  | singleFetch found left =>
    unfold GetDataStmt.step GetDataHistory.after
    dsimp only
    split_ifs
    · exact hagrees
    · exact hagrees.fetched found left
  | setPosition found =>
    unfold GetDataStmt.step GetDataHistory.after
    dsimp only
    split_ifs
    · exact hagrees
    · exact hagrees.fetched found none
  | addRows left =>
    unfold GetDataStmt.step GetDataHistory.after
    dsimp only
    split_ifs
    · exact hagrees
    · exact ⟨fun _ => ⟨rfl, rfl⟩, nofun, hagrees.param⟩
  | needData param =>
    have hparam := param.isLt
    exact ⟨hagrees.reset, hagrees.used, fun _ => .inr ⟨rfl, by
      change param.val ≤ _
      omega⟩⟩
  | findNextOutStream stream =>
    cases stream with
    | none =>
      unfold GetDataStmt.step GetDataHistory.after
      dsimp only
      split_ifs
      · exact hagrees.leaveStreams _ nofun
      · exact hagrees
    | some stream =>
      obtain ⟨param, column⟩ := stream
      have hparam := param.isLt
      have hcolumn := column.isLt
      unfold GetDataStmt.step GetDataHistory.after
      dsimp only
      split_ifs
      · refine ⟨nofun, fun _ => ?_, fun _ => .inr ⟨rfl, ?_⟩⟩
        · dsimp only
          omega
        · dsimp only
          omega
      · exact hagrees
  | getData call => exact hagrees.getData call

end GetDataStmt

/-- The assertions hold in every call of a run, and every call begins where its column goes on,
exactly when every call is safe. -/
theorem runUpholds_iff_runSafe (bookmarksOff : Bool) (ops : List StmtOp) :
    RunUpholds (.allocated bookmarksOff) .start ops ↔
      RunSafe (.allocated bookmarksOff) .start ops := by
  have hagrees := GetDataStmt.agrees_start bookmarksOff
  generalize GetDataStmt.allocated bookmarksOff = s at hagrees ⊢
  generalize GetDataHistory.start = h at hagrees ⊢
  induction ops generalizing s h with
  | nil => exact Iff.rfl
  | cons op ops ih =>
    refine and_congr (forall_congr' fun call => imp_congr_right fun _ => ?_)
      (ih _ _ (hagrees.step op))
    exact GetDataStmt.getData_upholds_iff hagrees call

/-- A call for a column of a long value that is read on by one byte. -/
def readByte (columnNumber : Fin 65536) : GetDataCall where
  columnNumber := columnNumber
  targetType := .SQL_C_BINARY
  moves source := some (source.getD 0 + 1)

/-- The second part of a long value: the assertion fails. -/
theorem getData_secondPart_aborts :
    ¬ ∀ (bookmarksOff : Bool) (ops : List StmtOp), RunUpholds (.allocated bookmarksOff) .start ops := by
  intro hclaim
  obtain ⟨-, -, -, hsecond, -⟩ := hclaim true [.openResult (some 1), .extendedFetch true none,
    .getData (readByte 1), .getData (readByte 1)]
  have haborts : (((((GetDataStmt.allocated true).step (.openResult (some 1))).step
      (.extendedFetch true none)).step (.getData (readByte 1))).getData (readByte 1)).1 = .aborts := by
    decide
  have hupholds := hsecond (readByte 1) rfl
  rw [haborts] at hupholds
  exact hupholds

end MatrixOdbc.Driver
