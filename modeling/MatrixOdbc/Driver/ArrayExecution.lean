import Mathlib.Data.List.Range
import Mathlib.Logic.Function.Basic
import Mathlib.Tactic.Common

/-!
# Executing a statement with arrays of parameters

`my_SQLExecute` of `driver/execute.cc` for a statement that is not positioned, with
`map_error_to_param_status`: the loop over the sets of parameters, its flags, the status
array, and the code that is returned. How the insertion of a set and the execution of a
query end is an argument of the call.
-/

namespace MatrixOdbc.Driver

/-- How the insertion of a set of parameters or the execution of a query ends. -/
inductive ParamOutcome where
  | success | successWithInfo | error
  deriving DecidableEq

/-- `SQL_PARAM_SUCCESS` up to `SQL_PARAM_DIAG_UNAVAILABLE`. -/
inductive ParamStatus where
  | success | successWithInfo | error | unused | diagUnavailable
  deriving DecidableEq

/-- What `my_SQLExecute` returns. -/
inductive ExecuteReturn where
  | success | successWithInfo | error | needData
  deriving DecidableEq

/-- A code as it is returned. -/
def ParamOutcome.code : ParamOutcome → ExecuteReturn
  | success => .success
  | successWithInfo => .successWithInfo
  | error => .error

/-- The status `map_error_to_param_status` writes. -/
def ParamOutcome.status : ParamOutcome → ParamStatus
  | success => .success
  | successWithInfo => .successWithInfo
  | error => .diagUnavailable

/-- The statement, and how its sets of parameters fare. `ignored` is the operation array;
`statusArray` says whether there is a status array, and `dataAtExec` whether a parameter
wants its data at execution. `connectionLost` says whether the connection is found lost
behind the query of a set. -/
structure ExecuteCall where
  paramCount : ℕ
  arraySize : ℕ
  ignored : ℕ → Bool
  statusArray : Bool
  isSelect : Bool
  dataAtExec : Bool
  insertParams : ℕ → ParamOutcome
  doQuery : ℕ → ParamOutcome
  connectionLost : ℕ → Bool

/-- How the loop over the sets is left. -/
inductive LoopExit where
  | running
  | broken (row : ℕ)
  | needData
  deriving DecidableEq

/-- The variables of the loop. The status array has what was written to it. -/
structure ExecuteState where
  rc : ExecuteReturn
  oneNotSucceeded : Bool
  allFailed : Bool
  connectionFailure : Bool
  lastError : Option ℕ
  status : ℕ → Option ParamStatus
  rowsProcessed : ℕ
  exit : LoopExit

/-- What comes of the call: the code, the writes to the status array, and the number of
sets that were processed. -/
structure ExecuteResult where
  code : ExecuteReturn
  status : ℕ → Option ParamStatus
  rowsProcessed : ℕ

namespace ExecuteCall

variable (call : ExecuteCall)

/-- There is a status pointer: it is set in the loop, for a statement with parameters. -/
def hasStatus : Bool := call.statusArray && 0 < call.paramCount

/-- A query is executed behind the insertion of this set. -/
def executesAt (row : ℕ) : Bool := !call.isSelect || row + 1 = call.arraySize

/-- The variables in front of the loop. -/
def initial : ExecuteState where
  rc := .success
  oneNotSucceeded := false
  allFailed := 1 < call.arraySize
  connectionFailure := false
  lastError := none
  status := fun _ => none
  rowsProcessed := 0
  exit := .running

/-- `map_error_to_param_status`, and the pointer to the last error. -/
def mapErrorToParamStatus (row : ℕ) (rc : ParamOutcome) (st : ExecuteState) : ExecuteState :=
  if call.hasStatus then
    { st with
      status := Function.update st.status row (some rc.status)
      lastError := if rc = .error then some row else st.lastError }
  else st

/-- The part of a round behind the insertion of the parameters. -/
def queryRow (row : ℕ) (st : ExecuteState) : ExecuteState :=
  let rc := if st.connectionFailure then .error else call.doQuery row
  let st := call.mapErrorToParamStatus row rc st
  { st with
    rc := rc.code
    connectionFailure := st.connectionFailure || call.connectionLost row
    oneNotSucceeded := st.oneNotSucceeded || rc ≠ .success
    allFailed := st.allFailed && rc ≠ .success }

/-- The insertion of the parameters of a set, and its query. -/
def insertRow (row : ℕ) (st : ExecuteState) : ExecuteState :=
  let rc := call.insertParams row
  let st := call.mapErrorToParamStatus row rc st
  let st := { st with
    rc := rc.code
    oneNotSucceeded := st.oneNotSucceeded || rc ≠ .success }
  if rc = .error then st
  else if call.executesAt row then call.queryRow row st
  else st

/-- One round of the loop. -/
def executeRow (row : ℕ) (st : ExecuteState) : ExecuteState :=
  if call.paramCount = 0 then
    if call.executesAt row then call.queryRow row st else st
  else
    let st := { st with rowsProcessed := st.rowsProcessed + 1 }
    if call.ignored row then
      if call.statusArray then
        { st with status := Function.update st.status row (some .unused) }
      else st
    else if call.dataAtExec then
      if 1 < call.arraySize then
        { st with
          rc := .error
          lastError := if call.statusArray then some row else none
          oneNotSucceeded := true
          exit := .broken row }
      else { st with exit := .needData }
    else call.insertRow row st

/-- The loop over the first sets. -/
def executeRows : ℕ → ExecuteState
  | 0 => call.initial
  | row + 1 =>
    if (executeRows row).exit = .running then call.executeRow row (executeRows row)
    else executeRows row

/-- The status array behind the loop: the last error has diagnostics, and the sets behind a
break are not used. -/
def finishStatus (st : ExecuteState) : ℕ → Option ParamStatus := fun row =>
  match st.exit with
  | .broken stop =>
    if call.hasStatus ∧ stop < row ∧ row < call.arraySize then some .unused
    else if st.lastError = some row then some .error
    else st.status row
  | _ => if st.lastError = some row then some .error else st.status row

/-- The code that is returned behind the loop. -/
def finishCode (st : ExecuteState) : ExecuteReturn :=
  if 1 < call.arraySize then
    if st.allFailed then .error
    else if st.oneNotSucceeded then .successWithInfo
    else st.rc
  else st.rc

/-- `my_SQLExecute`. -/
def mySQLExecute : ExecuteResult :=
  let st := call.executeRows call.arraySize
  if st.exit = .needData then ⟨.needData, st.status, st.rowsProcessed⟩
  else ⟨call.finishCode st, call.finishStatus st, st.rowsProcessed⟩

/-- The set is to be ignored. Without parameters the operation array is not read. -/
def skips (row : ℕ) : Bool := call.paramCount ≠ 0 && call.ignored row

/-- A parameter of the statement wants its data at execution. -/
def wantsData : Bool := call.paramCount ≠ 0 && call.dataAtExec

/-- How the insertion of a set ends. -/
def inserted (row : ℕ) : ParamOutcome :=
  if call.paramCount = 0 then .success else call.insertParams row

/-- A query is executed for the set. -/
def executed (row : ℕ) : Bool :=
  !call.skips row && !call.wantsData && call.inserted row ≠ .error && call.executesAt row

/-- The connection was found lost in front of a set. -/
def failedBefore : ℕ → Bool
  | 0 => false
  | row + 1 => failedBefore row || (call.executed row && call.connectionLost row)

/-- How the execution for a set ends; without a connection it fails. -/
def queried (row : ℕ) : ParamOutcome :=
  if call.failedBefore row then .error else call.doQuery row

end ExecuteCall

/-- The outcome of a set whose insertion and execution end in these ways. -/
def ParamOutcome.andThen : ParamOutcome → ParamOutcome → ParamOutcome
  | error, _ => error
  | _, error => error
  | success, success => success
  | _, _ => successWithInfo

namespace ExecuteCall

variable (call : ExecuteCall)

/-- The outcome of a set; a set that is ignored or not processed has none. Where data is
wanted at execution only the first set is processed, and fails. -/
def outcome (row : ℕ) : Option ParamOutcome :=
  if call.skips row then none
  else if call.wantsData then
    if (List.range row).all call.skips then some .error else none
  else if call.executed row then some ((call.inserted row).andThen (call.queried row))
  else some (call.inserted row)

/-- The outcomes of the sets. -/
def outcomes : List ParamOutcome := (List.range call.arraySize).filterMap call.outcome

end ExecuteCall

/-- The code that tells how the sets fared: success if all of them succeeded without
information, an error if all of them failed. -/
def expectedCode (outcomes : List ParamOutcome) : ExecuteReturn :=
  if ∀ o ∈ outcomes, o = .success then .success
  else if ∀ o ∈ outcomes, o = .error then .error
  else .successWithInfo

/-- The status of a set tells its outcome. An error has diagnostics or not. -/
def ParamStatus.Tells (status : ParamStatus) : Option ParamOutcome → Prop
  | none => status = .unused
  | some .success => status = .success
  | some .successWithInfo => status = .successWithInfo
  | some .error => status = .error ∨ status = .diagUnavailable

/-- The result of a call tells how every set fared. -/
structure ReportsSets (call : ExecuteCall) (result : ExecuteResult) : Prop where
  code : result.code = expectedCode call.outcomes
  status : call.statusArray = true → ∀ row < call.arraySize,
    ∃ status, result.status row = some status ∧ status.Tells (call.outcome row)

namespace ExecuteCall

variable {call : ExecuteCall}

/-- The status that the loop writes for a set. -/
def statusOf (call : ExecuteCall) (row : ℕ) : ParamStatus :=
  if call.skips row then .unused
  else if call.executed row then (call.queried row).status
  else (call.inserted row).status

/-- The set did not succeed without information. -/
def Imperfect (call : ExecuteCall) (row : ℕ) : Prop :=
  ∃ o, call.outcome row = some o ∧ o ≠ .success

/-- What is known in front of a set, when no data is wanted at execution. -/
structure Looping (call : ExecuteCall) (row : ℕ) (st : ExecuteState) : Prop where
  exit : st.exit = .running
  connectionFailure : st.connectionFailure = call.failedBefore row
  oneNotSucceeded : st.oneNotSucceeded = true ↔ ∃ i < row, call.Imperfect i
  allFailed : st.allFailed = true ↔ 1 < call.arraySize ∧
    ∀ i < row, call.executed i = true → call.queried i ≠ .success
  rc : st.oneNotSucceeded = false → st.rc = .success
  status : call.hasStatus = true → ∀ i < row, st.status i = some (call.statusOf i)
  unwritten : call.hasStatus = false → (∀ i, st.status i = none) ∧ st.lastError = none
  lastError : ∀ i, st.lastError = some i → i < row ∧ call.outcome i = some .error

theorem looping_initial : Looping call 0 call.initial where
  exit := rfl
  connectionFailure := rfl
  oneNotSucceeded := by simp [initial]
  allFailed := by simp [initial]
  rc := fun _ => rfl
  status := fun _ i hi => absurd hi (Nat.not_lt_zero i)
  unwritten := fun _ => ⟨fun _ => rfl, rfl⟩
  lastError := fun i hi => by cases hi

theorem andThen_eq_success {first second : ParamOutcome} :
    first.andThen second = .success ↔ first = .success ∧ second = .success := by
  cases first <;> cases second <;> simp [ParamOutcome.andThen]

theorem andThen_eq_error {first second : ParamOutcome} :
    first.andThen second = .error ↔ first = .error ∨ second = .error := by
  cases first <;> cases second <;> simp [ParamOutcome.andThen]

/-- A set that is ignored. -/
theorem executeRow_skip {row : ℕ} {st : ExecuteState} (hskip : call.skips row = true) :
    call.executeRow row st = { st with
      rowsProcessed := st.rowsProcessed + 1
      status := if call.hasStatus then Function.update st.status row (some .unused)
        else st.status } := by
  simp only [skips, Bool.and_eq_true, decide_eq_true_eq] at hskip
  obtain ⟨hparams, hignored⟩ := hskip
  unfold executeRow hasStatus
  rw [if_neg hparams, if_pos hignored]
  cases call.statusArray <;> simp [Nat.pos_of_ne_zero hparams]

/-- The part of a round up to the query, for a set that is not ignored. -/
def insertPart (call : ExecuteCall) (row : ℕ) (st : ExecuteState) : ExecuteState :=
  if call.paramCount = 0 then st
  else
    { call.mapErrorToParamStatus row (call.insertParams row)
        { st with rowsProcessed := st.rowsProcessed + 1 } with
      rc := (call.insertParams row).code
      oneNotSucceeded := st.oneNotSucceeded || call.insertParams row ≠ .success }

/-- The status map changes the status array and the last error only. -/
theorem mapErrorToParamStatus_eq (call : ExecuteCall) (row : ℕ) (rc : ParamOutcome)
    (st : ExecuteState) :
    call.mapErrorToParamStatus row rc st = { st with
      status := if call.hasStatus then Function.update st.status row (some rc.status)
        else st.status
      lastError := if call.hasStatus = true ∧ rc = .error then some row else st.lastError } := by
  unfold mapErrorToParamStatus
  cases call.hasStatus <;> simp

/-- A set that is taken: its parameters are inserted, and its query is executed. -/
theorem executeRow_take {row : ℕ} {st : ExecuteState} (hskip : call.skips row = false)
    (hdata : call.wantsData = false) :
    call.executeRow row st =
      if call.executed row then call.queryRow row (call.insertPart row st)
      else call.insertPart row st := by
  by_cases hparams : call.paramCount = 0
  · simp [executeRow, executed, inserted, insertPart, hparams, hskip, hdata]
  · have hignored : call.ignored row = false := by simpa [skips, hparams] using hskip
    have hnone : call.dataAtExec = false := by simpa [wantsData, hparams] using hdata
    by_cases herror : call.insertParams row = .error
    · simp [executeRow, insertRow, executed, inserted, insertPart, hparams, hskip, hdata, hignored,
        hnone, herror, mapErrorToParamStatus_eq]
    · simp [executeRow, insertRow, executed, inserted, insertPart, hparams, hskip, hdata, hignored,
        hnone, herror, mapErrorToParamStatus_eq]

/-- What is known of the flags behind the insertion of a set. -/
theorem insertPart_spec (call : ExecuteCall) (row : ℕ) (st : ExecuteState) :
    (call.insertPart row st).exit = st.exit ∧
      (call.insertPart row st).connectionFailure = st.connectionFailure ∧
      (call.insertPart row st).allFailed = st.allFailed ∧
      (call.insertPart row st).oneNotSucceeded =
        (st.oneNotSucceeded || call.inserted row ≠ .success) ∧
      (call.insertPart row st).rc =
        (if call.paramCount = 0 then st.rc else (call.inserted row).code) ∧
      (call.insertPart row st).status = (if call.hasStatus then
        Function.update st.status row (some (call.inserted row).status) else st.status) ∧
      (call.insertPart row st).lastError = (if call.hasStatus = true ∧ call.inserted row = .error
        then some row else st.lastError) := by
  unfold insertPart inserted
  by_cases hparams : call.paramCount = 0
  · have hstatus : call.hasStatus = false := by simp [hasStatus, hparams]
    simp [hparams, hstatus]
  · simp [hparams, mapErrorToParamStatus_eq]

/-- What is known of the flags behind the query of a set. -/
theorem queryRow_spec (call : ExecuteCall) {row : ℕ} {st : ExecuteState}
    (hfailure : st.connectionFailure = call.failedBefore row) :
    (call.queryRow row st).exit = st.exit ∧
      (call.queryRow row st).connectionFailure =
        (st.connectionFailure || call.connectionLost row) ∧
      (call.queryRow row st).allFailed = (st.allFailed && call.queried row ≠ .success) ∧
      (call.queryRow row st).oneNotSucceeded =
        (st.oneNotSucceeded || call.queried row ≠ .success) ∧
      (call.queryRow row st).rc = (call.queried row).code ∧
      (call.queryRow row st).status = (if call.hasStatus then
        Function.update st.status row (some (call.queried row).status) else st.status) ∧
      (call.queryRow row st).lastError = (if call.hasStatus = true ∧ call.queried row = .error
        then some row else st.lastError) := by
  unfold queryRow queried
  rw [← hfailure]
  simp [mapErrorToParamStatus_eq]

/-- The outcome of a set that is not ignored. -/
theorem outcome_take {row : ℕ} (hskip : call.skips row = false) (hdata : call.wantsData = false) :
    call.outcome row = some (if call.executed row then
      (call.inserted row).andThen (call.queried row) else call.inserted row) := by
  simp only [outcome, hskip, hdata, Bool.false_eq_true, if_false]
  split <;> rfl

/-- An entry of the status array behind a write to it. -/
theorem update_status {status : ℕ → Option ParamStatus} {statusOf : ℕ → ParamStatus} {row : ℕ}
    (h : ∀ i < row, status i = some (statusOf i)) {last : ParamStatus}
    (hlast : last = statusOf row) :
    ∀ i < row + 1, Function.update status row (some last) i = some (statusOf i) := by
  intro i hi
  by_cases heq : i = row
  · rw [heq, Function.update_self, hlast]
  · rw [Function.update_of_ne heq]
    exact h i (by omega)

/-- An ignored set keeps what is known. -/
theorem Looping.skip {row : ℕ} {st : ExecuteState} (h : Looping call row st)
    (hskip : call.skips row = true) : Looping call (row + 1) (call.executeRow row st) := by
  have houtcome : call.outcome row = none := by simp [outcome, hskip]
  have hexecuted : call.executed row = false := by simp [executed, hskip]
  have himperfect : ¬ call.Imperfect row := by simp [Imperfect, houtcome]
  rw [executeRow_skip hskip]
  constructor
  · exact h.exit
  · rw [failedBefore, hexecuted, Bool.false_and, Bool.or_false]
    exact h.connectionFailure
  · rw [Nat.exists_lt_succ_right, or_iff_left himperfect]
    exact h.oneNotSucceeded
  · rw [Nat.forall_lt_succ_right, hexecuted]
    simpa using h.allFailed
  · exact h.rc
  · intro hstatus
    simp only [hstatus, if_true]
    exact update_status (h.status hstatus) (by simp [statusOf, hskip])
  · intro hstatus
    simpa [hstatus] using h.unwritten hstatus
  · intro i hi
    obtain ⟨hlt, houtcome⟩ := h.lastError i hi
    exact ⟨by omega, houtcome⟩

/-- A set that is taken keeps what is known. -/
theorem Looping.take {row : ℕ} {st : ExecuteState} (h : Looping call row st)
    (hskip : call.skips row = false) (hdata : call.wantsData = false) :
    Looping call (row + 1) (call.executeRow row st) := by
  have houtcome := outcome_take hskip hdata
  obtain ⟨hexit, hfailure, hall, hone, hrc, hstatus, hlast⟩ := insertPart_spec call row st
  rw [executeRow_take hskip hdata]
  by_cases hexecuted : call.executed row = true
  · obtain ⟨hexit', hfailure', hall', hone', hrc', hstatus', hlast'⟩ :=
      queryRow_spec call (hfailure.trans h.connectionFailure)
    have hinserted : call.inserted row ≠ .error := by
      simp only [executed, Bool.and_eq_true, decide_eq_true_eq] at hexecuted
      exact hexecuted.1.2
    rw [if_pos hexecuted] at houtcome ⊢
    have himperfect : call.Imperfect row ↔
        call.inserted row ≠ .success ∨ call.queried row ≠ .success := by
      simp only [Imperfect, houtcome, Option.some.injEq, exists_eq_left', ne_eq,
        andThen_eq_success]
      tauto
    constructor
    · rw [hexit', hexit, h.exit]
    · rw [hfailure', hfailure, h.connectionFailure, failedBefore, hexecuted, Bool.true_and]
    · rw [Nat.exists_lt_succ_right, ← h.oneNotSucceeded, himperfect, hone', hone]
      simp only [Bool.or_eq_true, decide_eq_true_eq]
      tauto
    · rw [Nat.forall_lt_succ_right, hall', hall]
      simp only [Bool.and_eq_true, decide_eq_true_eq, h.allFailed, hexecuted, true_imp_iff]
      tauto
    · intro hnone
      rw [hone', hone] at hnone
      simp only [Bool.or_eq_false_iff, decide_eq_false_iff_not, not_not] at hnone
      rw [hrc', hnone.2]
      rfl
    · intro hpresent
      rw [hstatus', hstatus]
      simp only [hpresent, if_true, Function.update_idem]
      exact update_status (h.status hpresent) (by simp [statusOf, hskip, hexecuted])
    · intro habsent
      rw [hstatus', hstatus, hlast', hlast]
      simpa [habsent] using h.unwritten habsent
    · intro i hi
      rw [hlast', hlast] at hi
      split at hi
      · next herror =>
        obtain rfl : row = i := by simpa using hi
        refine ⟨by omega, ?_⟩
        rw [houtcome, andThen_eq_error.mpr (Or.inr herror.2)]
      · rw [if_neg fun herror => hinserted herror.2] at hi
        obtain ⟨hlt, hbefore⟩ := h.lastError i hi
        exact ⟨by omega, hbefore⟩
  · rw [if_neg hexecuted] at houtcome ⊢
    have himperfect : call.Imperfect row ↔ call.inserted row ≠ .success := by
      simp only [Imperfect, houtcome, Option.some.injEq, exists_eq_left']
    constructor
    · rw [hexit, h.exit]
    · rw [hfailure, h.connectionFailure, failedBefore, Bool.eq_false_iff.mpr hexecuted,
        Bool.false_and, Bool.or_false]
    · rw [Nat.exists_lt_succ_right, ← h.oneNotSucceeded, himperfect, hone]
      simp only [Bool.or_eq_true, decide_eq_true_eq]
    · rw [Nat.forall_lt_succ_right, hall, h.allFailed]
      simp [hexecuted]
    · intro hnone
      rw [hone] at hnone
      simp only [Bool.or_eq_false_iff, decide_eq_false_iff_not, not_not] at hnone
      rw [hrc, hnone.2]
      split
      · exact h.rc hnone.1
      · rfl
    · intro hpresent
      rw [hstatus]
      simp only [hpresent, if_true]
      exact update_status (h.status hpresent) (by simp [statusOf, hskip, hexecuted])
    · intro habsent
      rw [hstatus, hlast]
      simpa [habsent] using h.unwritten habsent
    · intro i hi
      rw [hlast] at hi
      split at hi
      · next herror =>
        obtain rfl : row = i := by simpa using hi
        exact ⟨by omega, by rw [houtcome, herror.2]⟩
      · obtain ⟨hlt, hbefore⟩ := h.lastError i hi
        exact ⟨by omega, hbefore⟩

/-- What is known in front of every set. -/
theorem looping_executeRows (hdata : call.wantsData = false) (row : ℕ) :
    Looping call row (call.executeRows row) := by
  induction row with
  | zero => exact looping_initial
  | succ row ih =>
    rw [executeRows, if_pos ih.exit]
    cases hskip : call.skips row with
    | true => exact ih.skip hskip
    | false => exact ih.take hskip hdata

/-- What is known in front of a set when data is wanted at execution: the sets so far were
ignored, or the first one that was not ended the loop. -/
inductive Waiting (call : ExecuteCall) (row : ℕ) (st : ExecuteState) : Prop
  | skipped (all : ∀ i < row, call.skips i = true) (looping : Looping call row st)
  | left (stop : ℕ) (before : stop < row) (all : ∀ i < stop, call.skips i = true)
      (taken : call.skips stop = false)
      (exit : st.exit = if 1 < call.arraySize then .broken stop else .needData)
      (allFailed : st.allFailed = decide (1 < call.arraySize))
      (status : call.hasStatus = true → ∀ i < stop, st.status i = some .unused)
      (lastError : 1 < call.arraySize → call.hasStatus = true → st.lastError = some stop)

theorem waiting_executeRows (hdata : call.wantsData = true) (row : ℕ) :
    Waiting call row (call.executeRows row) := by
  induction row with
  | zero => exact .skipped (fun i hi => absurd hi (Nat.not_lt_zero i)) looping_initial
  | succ row ih =>
    obtain ⟨hparams, hwants⟩ : call.paramCount ≠ 0 ∧ call.dataAtExec = true := by
      simpa [wantsData] using hdata
    cases ih with
    | skipped all looping =>
      rw [executeRows, if_pos looping.exit]
      cases hskip : call.skips row with
      | true =>
        refine .skipped ?_ (looping.skip hskip)
        rw [Nat.forall_lt_succ_right]
        exact ⟨all, hskip⟩
      | false =>
        have hignored : call.ignored row = false := by simpa [skips, hparams] using hskip
        have hexecuted : ∀ i, call.executed i = false := by simp [executed, hdata]
        have hfailed : (call.executeRows row).allFailed = decide (1 < call.arraySize) := by
          rw [Bool.eq_iff_iff, looping.allFailed, decide_eq_true_iff]
          simp [hexecuted]
        have hstatus : call.hasStatus = true → ∀ i < row,
            (call.executeRows row).status i = some .unused := by
          intro hpresent i hi
          rw [looping.status hpresent i hi, statusOf, if_pos (all i hi)]
        have hrow : call.executeRow row (call.executeRows row) =
            if 1 < call.arraySize then
              { call.executeRows row with
                rowsProcessed := (call.executeRows row).rowsProcessed + 1
                rc := .error
                lastError := if call.statusArray then some row else none
                oneNotSucceeded := true
                exit := .broken row }
            else
              { call.executeRows row with
                rowsProcessed := (call.executeRows row).rowsProcessed + 1
                exit := .needData } := by
          simp [executeRow, hparams, hignored, hwants]
        refine .left row (by omega) all hskip ?_ ?_ ?_ ?_
        · rw [hrow]
          split <;> rfl
        · rw [hrow]
          split <;> exact hfailed
        · rw [hrow]
          split <;> exact hstatus
        · intro harray hpresent
          have hgiven : call.statusArray = true := by
            simp only [hasStatus, Bool.and_eq_true] at hpresent
            exact hpresent.1
          rw [hrow, if_pos harray]
          simp [hgiven]
    | left stop before all taken exit allFailed status lastError =>
      have hleft : (call.executeRows row).exit ≠ .running := by
        rw [exit]
        split <;> exact nofun
      rw [executeRows, if_neg hleft]
      exact .left stop (by omega) all taken exit allFailed status lastError

theorem mem_outcomes {o : ParamOutcome} :
    o ∈ call.outcomes ↔ ∃ i < call.arraySize, call.outcome i = some o := by
  simp [outcomes]

/-- The condition under which a call tells how its sets fared. -/
structure Reported (call : ExecuteCall) : Prop where
  /-- A single set does not want data at execution. -/
  dataWanted : call.arraySize = 1 → call.wantsData = true → call.skips 0 = true
  /-- With a status array there are parameters. -/
  parameters : call.statusArray = true → 0 < call.arraySize → 0 < call.paramCount
  /-- No information of an insertion is lost behind a query without information. -/
  information : call.statusArray = true ∨ call.arraySize = 1 → ∀ i < call.arraySize,
    call.executed i = true → call.inserted i = .successWithInfo → call.queried i ≠ .success
  /-- In an array the query of a set succeeds without information, or all sets fail. -/
  succeeded : 1 < call.arraySize →
    (∃ i < call.arraySize, call.executed i = true ∧ call.queried i = .success) ∨
      call.outcomes ≠ [] ∧ ∀ o ∈ call.outcomes, o = .error

/-- The status that is written tells the outcome exactly if no information is lost. -/
theorem statusOf_tells (hdata : call.wantsData = false) (row : ℕ) :
    (call.statusOf row).Tells (call.outcome row) ↔
      (call.executed row = true → call.inserted row = .successWithInfo →
        call.queried row ≠ .success) := by
  cases hskip : call.skips row with
  | true => simp [statusOf, outcome, hskip, ParamStatus.Tells, executed]
  | false =>
    rw [outcome_take hskip hdata, statusOf]
    by_cases hexecuted : call.executed row = true
    · have hinserted : call.inserted row ≠ .error := by
        simp only [executed, Bool.and_eq_true, decide_eq_true_eq] at hexecuted
        exact hexecuted.1.2
      simp only [hskip, Bool.false_eq_true, if_false, hexecuted, true_imp_iff]
      cases hins : call.inserted row <;> cases hque : call.queried row <;>
        simp_all [ParamOutcome.andThen, ParamStatus.Tells, ParamOutcome.status]
    · simp only [hskip, Bool.false_eq_true, if_false, hexecuted, false_imp_iff, iff_true]
      cases call.inserted row <;> simp [ParamStatus.Tells, ParamOutcome.status]

/-- The expected code of outcomes that are not all a success. -/
theorem expectedCode_eq_error {outcomes : List ParamOutcome} :
    expectedCode outcomes = .error ↔ outcomes ≠ [] ∧ ∀ o ∈ outcomes, o = .error := by
  unfold expectedCode
  cases outcomes with
  | nil => simp
  | cons o outcomes =>
    by_cases hall : ∀ o' ∈ o :: outcomes, o' = .success
    · have ho := hall o List.mem_cons_self
      rw [if_pos hall]
      simp [ho]
    · rw [if_neg hall]
      split
      · next herror => exact iff_of_true rfl ⟨List.cons_ne_nil _ _, herror⟩
      · next herror => exact iff_of_false nofun fun h => herror h.2

/-- An array of sets in which the query of one succeeds without information. -/
theorem expectedCode_of_succeeded {i : ℕ} {imperfect : Bool} (hi : i < call.arraySize)
    (hexecuted : call.executed i = true) (hqueried : call.queried i = .success)
    (himperfect : imperfect = true ↔ ∃ i < call.arraySize, call.Imperfect i) :
    expectedCode call.outcomes = if imperfect then .successWithInfo else .success := by
  have hsplit := hexecuted
  simp only [executed, Bool.and_eq_true, Bool.not_eq_eq_eq_not, Bool.not_true,
    decide_eq_true_eq] at hsplit
  have houtcome := outcome_take hsplit.1.1.1 hsplit.1.1.2
  rw [if_pos hexecuted, hqueried] at houtcome
  have hnot : ¬ ∀ o ∈ call.outcomes, o = .error := by
    intro hall
    have herror := hall _ (mem_outcomes.mpr ⟨i, hi, houtcome⟩)
    rw [andThen_eq_error] at herror
    exact hsplit.1.2 (herror.resolve_right nofun)
  have hperfect : (∀ o ∈ call.outcomes, o = .success) ↔ ¬ imperfect = true := by
    rw [himperfect]
    constructor
    · rintro hall ⟨j, hj, o, ho, hne⟩
      exact hne (hall o (mem_outcomes.mpr ⟨j, hj, ho⟩))
    · intro hnone o ho
      obtain ⟨j, hj, houtcome⟩ := mem_outcomes.mp ho
      by_contra hne
      exact hnone ⟨j, hj, o, houtcome, hne⟩
  unfold expectedCode
  by_cases hall : ∀ o ∈ call.outcomes, o = .success
  · rw [if_pos hall, if_neg (hperfect.mp hall)]
  · rw [if_neg hall, if_neg hnot, if_pos]
    by_contra hnone
    exact hall (hperfect.mpr hnone)

/-- The code for an array of sets. -/
theorem finishCode_array (harray : 1 < call.arraySize) {st : ExecuteState}
    (h : Looping call call.arraySize st) :
    call.finishCode st = expectedCode call.outcomes ↔
      (∃ i < call.arraySize, call.executed i = true ∧ call.queried i = .success) ∨
        call.outcomes ≠ [] ∧ ∀ o ∈ call.outcomes, o = .error := by
  unfold finishCode
  rw [if_pos harray]
  by_cases hfailed : st.allFailed = true
  · have hnone := (h.allFailed.mp hfailed).2
    rw [if_pos hfailed, eq_comm, expectedCode_eq_error]
    constructor
    · exact Or.inr
    · rintro (⟨i, hi, hexecuted, hqueried⟩ | hall)
      · exact absurd hqueried (hnone i hi hexecuted)
      · exact hall
  · have hsome : ∃ i < call.arraySize, call.executed i = true ∧ call.queried i = .success := by
      by_contra hnone
      refine hfailed (h.allFailed.mpr ⟨harray, ?_⟩)
      intro i hi hexecuted hqueried
      exact hnone ⟨i, hi, hexecuted, hqueried⟩
    obtain ⟨i, hi, hexecuted, hqueried⟩ := hsome
    rw [if_neg hfailed, expectedCode_of_succeeded hi hexecuted hqueried h.oneNotSucceeded]
    refine iff_of_true ?_ (Or.inl ⟨i, hi, hexecuted, hqueried⟩)
    by_cases hone : st.oneNotSucceeded = true
    · rw [if_pos hone, if_pos hone]
    · rw [if_neg hone, if_neg hone]
      exact h.rc (by simpa using hone)

/-- The status array behind the loop. -/
theorem finishStatus_tells (hdata : call.wantsData = false) {st : ExecuteState}
    (h : Looping call call.arraySize st) :
    (call.statusArray = true → ∀ row < call.arraySize, ∃ status,
        call.finishStatus st row = some status ∧ status.Tells (call.outcome row)) ↔
      (call.statusArray = true → 0 < call.arraySize → 0 < call.paramCount) ∧
      (call.statusArray = true → ∀ i < call.arraySize, call.executed i = true →
        call.inserted i = .successWithInfo → call.queried i ≠ .success) := by
  have hfinish : ∀ row, call.finishStatus st row =
      if st.lastError = some row then some .error else st.status row := by
    intro row
    simp only [finishStatus, h.exit]
  cases hgiven : call.statusArray with
  | false => simp
  | true =>
    simp only [true_imp_iff]
    by_cases hparams : 0 < call.paramCount
    · have hpresent : call.hasStatus = true := by simp [hasStatus, hgiven, hparams]
      rw [and_iff_right fun _ => hparams]
      refine forall₂_congr fun row hrow => ?_
      rw [hfinish]
      by_cases hlast : st.lastError = some row
      · have houtcome := (h.lastError row hlast).2
        rw [if_pos hlast]
        refine iff_of_true ⟨_, rfl, ?_⟩ ?_
        · rw [houtcome]
          exact Or.inl rfl
        · intro hexecuted hinserted hqueried
          have hskip : call.skips row = false := by
            simp only [executed, Bool.and_eq_true, Bool.not_eq_eq_eq_not, Bool.not_true]
              at hexecuted
            exact hexecuted.1.1.1
          rw [outcome_take hskip hdata, if_pos hexecuted, hinserted, hqueried] at houtcome
          cases houtcome
      · rw [if_neg hlast, h.status hpresent row hrow, ← statusOf_tells hdata]
        simp
    · have habsent : call.hasStatus = false := by simp [hasStatus, hparams]
      obtain ⟨hnone, hlast⟩ := h.unwritten habsent
      constructor
      · intro hall
        have hempty : ¬ 0 < call.arraySize := by
          intro hpos
          obtain ⟨status, hstatus, -⟩ := hall 0 hpos
          rw [hfinish, hlast, hnone] at hstatus
          cases hstatus
        exact ⟨fun hpos => absurd hpos hempty, fun i hi => absurd hi (by omega)⟩
      · rintro ⟨hneeded, -⟩ row hrow
        exact absurd (hneeded (by omega)) hparams

/-- The code for a single set. -/
theorem finishCode_single (hsize : call.arraySize = 1) (hdata : call.wantsData = false) :
    call.finishCode (call.executeRows 1) = expectedCode call.outcomes ↔
      (call.executed 0 = true → call.inserted 0 = .successWithInfo →
        call.queried 0 ≠ .success) := by
  have hlast : call.executesAt 0 = true := by simp [executesAt, hsize]
  have hcode : call.finishCode (call.executeRows 1) = (call.executeRow 0 call.initial).rc := by
    rw [finishCode, if_neg (by omega)]
    rfl
  have houtcomes : call.outcomes = (call.outcome 0).toList := by
    rw [outcomes, hsize]
    cases houtcome : call.outcome 0 <;> simp [List.range_succ, houtcome]
  rw [hcode, houtcomes]
  cases hskip : call.skips 0 with
  | true =>
    have hexecuted : call.executed 0 = false := by simp [executed, hskip]
    rw [executeRow_skip hskip, outcome, if_pos hskip, hexecuted]
    simp [initial, expectedCode]
  | false =>
    rw [outcome_take hskip hdata, executeRow_take hskip hdata]
    obtain ⟨-, hfailure, -, -, hrc, -, -⟩ := insertPart_spec call 0 call.initial
    by_cases herror : call.inserted 0 = .error
    · have hexecuted : call.executed 0 = false := by simp [executed, herror]
      have hparams : call.paramCount ≠ 0 := by
        intro hzero
        simp [inserted, hzero] at herror
      rw [hexecuted]
      simp [hrc, herror, hparams, ParamOutcome.code, expectedCode]
    · have hexecuted : call.executed 0 = true := by simp [executed, hskip, hdata, herror, hlast]
      obtain ⟨-, -, -, -, hrc', -, -⟩ := @queryRow_spec call 0 _ hfailure
      simp only [hexecuted, if_true, hrc', true_imp_iff]
      cases hins : call.inserted 0 <;> cases hque : call.queried 0 <;>
        simp_all [ParamOutcome.andThen, ParamOutcome.code, expectedCode]

/-- Where data is wanted at execution no query is executed. -/
theorem executed_of_wantsData (hdata : call.wantsData = true) (row : ℕ) :
    call.executed row = false := by
  simp [executed, hdata]

/-- A call in which no data is wanted at execution. -/
theorem reportsSets_iff_of_inserted (hdata : call.wantsData = false) :
    ReportsSets call call.mySQLExecute ↔ call.Reported := by
  have h := looping_executeRows hdata call.arraySize
  have hresult : call.mySQLExecute = ⟨call.finishCode (call.executeRows call.arraySize),
      call.finishStatus (call.executeRows call.arraySize),
      (call.executeRows call.arraySize).rowsProcessed⟩ := by
    rw [mySQLExecute]
    simp [h.exit]
  have hstatus := finishStatus_tells hdata h
  have hcode : call.finishCode (call.executeRows call.arraySize) = expectedCode call.outcomes ↔
      (call.arraySize = 1 → ∀ i < call.arraySize, call.executed i = true →
        call.inserted i = .successWithInfo → call.queried i ≠ .success) ∧
      (1 < call.arraySize →
        (∃ i < call.arraySize, call.executed i = true ∧ call.queried i = .success) ∨
          call.outcomes ≠ [] ∧ ∀ o ∈ call.outcomes, o = .error) := by
    obtain hsize | hsize | hsize : call.arraySize = 0 ∨ call.arraySize = 1 ∨
        1 < call.arraySize := by omega
    · have houtcomes : call.outcomes = [] := by simp [outcomes, hsize]
      rw [houtcomes, hsize]
      refine iff_of_true ?_ ⟨fun h => absurd h (by decide), fun h => absurd h (by decide)⟩
      rw [finishCode, if_neg (by omega)]
      rfl
    · have hsingle := finishCode_single hsize hdata
      simp only [hsize, lt_irrefl, false_imp_iff, and_true, true_imp_iff, Nat.lt_one_iff,
        forall_eq]
      exact hsingle
    · rw [finishCode_array hsize h]
      have hone : call.arraySize ≠ 1 := by omega
      simp [hsize, hone]
  rw [hresult]
  constructor
  · rintro ⟨hcode', hstatus'⟩
    obtain ⟨hsingle, harray⟩ := hcode.mp hcode'
    obtain ⟨hparams, hinformation⟩ := hstatus.mp hstatus'
    refine ⟨fun _ hwants => ?_, hparams, ?_, harray⟩
    · rw [hdata] at hwants
      cases hwants
    · rintro (hgiven | hsize)
      · exact hinformation hgiven
      · exact hsingle hsize
  · intro hreported
    exact ⟨hcode.mpr ⟨fun hsize => hreported.information (Or.inr hsize), hreported.succeeded⟩,
      hstatus.mpr ⟨hreported.parameters, fun hgiven => hreported.information (Or.inl hgiven)⟩⟩

/-- Data is wanted at execution, but every set is ignored. -/
theorem reportsSets_iff_of_skipped (hdata : call.wantsData = true)
    (all : ∀ i < call.arraySize, call.skips i = true)
    (h : Looping call call.arraySize (call.executeRows call.arraySize)) :
    ReportsSets call call.mySQLExecute ↔ call.Reported := by
  have hparams : call.paramCount ≠ 0 := by
    simp only [wantsData, Bool.and_eq_true, decide_eq_true_eq] at hdata
    exact hdata.1
  have hexecuted := executed_of_wantsData hdata
  have houtcome : ∀ i < call.arraySize, call.outcome i = none := by
    intro i hi
    simp [outcome, all i hi]
  have houtcomes : call.outcomes = [] := by
    rw [List.eq_nil_iff_forall_not_mem]
    intro o ho
    obtain ⟨i, hi, hsome⟩ := mem_outcomes.mp ho
    rw [houtcome i hi] at hsome
    cases hsome
  have hresult : call.mySQLExecute = ⟨call.finishCode (call.executeRows call.arraySize),
      call.finishStatus (call.executeRows call.arraySize),
      (call.executeRows call.arraySize).rowsProcessed⟩ := by
    rw [mySQLExecute]
    simp [h.exit]
  rw [hresult]
  constructor
  · rintro ⟨hcode, -⟩
    have hsize : ¬ 1 < call.arraySize := by
      intro harray
      have hfailed := h.allFailed.mpr ⟨harray, fun i _ hi => by simp [hexecuted] at hi⟩
      rw [houtcomes] at hcode
      simp [finishCode, harray, hfailed, expectedCode] at hcode
    refine ⟨fun hone _ => all 0 (by omega), fun _ _ => by omega, ?_,
      fun harray => absurd harray hsize⟩
    intro _ i _ hi
    simp [hexecuted] at hi
  · intro hreported
    have hsize : ¬ 1 < call.arraySize := by
      intro harray
      obtain ⟨i, -, hi, -⟩ | ⟨hne, -⟩ := hreported.succeeded harray
      · simp [hexecuted] at hi
      · exact hne houtcomes
    have hone : (call.executeRows call.arraySize).oneNotSucceeded = false := by
      rw [Bool.eq_false_iff]
      intro hone
      obtain ⟨i, hi, o, ho, -⟩ := h.oneNotSucceeded.mp hone
      rw [houtcome i hi] at ho
      cases ho
    constructor
    · rw [houtcomes, finishCode, if_neg hsize, h.rc hone]
      rfl
    · intro hgiven row hrow
      have hpresent : call.hasStatus = true := by
        simp [hasStatus, hgiven, Nat.pos_of_ne_zero hparams]
      have hlast : (call.executeRows call.arraySize).lastError ≠ some row := by
        intro hlast
        have hsome := (h.lastError row hlast).2
        rw [houtcome row hrow] at hsome
        cases hsome
      refine ⟨.unused, ?_, by rw [houtcome row hrow]; rfl⟩
      simp only [finishStatus, h.exit, if_neg hlast]
      rw [h.status hpresent row hrow, statusOf, if_pos (all row hrow)]

/-- Data is wanted at execution, and the first set that is not ignored ends the loop. -/
theorem reportsSets_iff_of_left (hdata : call.wantsData = true) {stop : ℕ} {st : ExecuteState}
    (hst : call.executeRows call.arraySize = st) (before : stop < call.arraySize)
    (all : ∀ i < stop, call.skips i = true) (taken : call.skips stop = false)
    (exit : st.exit = if 1 < call.arraySize then .broken stop else .needData)
    (allFailed : st.allFailed = decide (1 < call.arraySize))
    (status : call.hasStatus = true → ∀ i < stop, st.status i = some .unused)
    (lastError : 1 < call.arraySize → call.hasStatus = true → st.lastError = some stop) :
    ReportsSets call call.mySQLExecute ↔ call.Reported := by
  have hparams : call.paramCount ≠ 0 := by
    simp only [wantsData, Bool.and_eq_true, decide_eq_true_eq] at hdata
    exact hdata.1
  have hexecuted := executed_of_wantsData hdata
  by_cases harray : 1 < call.arraySize
  · have houtcome : ∀ i, call.outcome i = if i = stop then some .error else none := by
      intro i
      obtain hlt | rfl | hgt := lt_trichotomy i stop
      · rw [outcome, if_pos (all i hlt), if_neg (by omega)]
      · have hall : (List.range i).all call.skips = true := by simpa using all
        rw [outcome, taken, if_pos hdata, if_pos hall]
        simp
      · have hnot : (List.range i).all call.skips = false := by
          rw [List.all_eq_false]
          exact ⟨stop, List.mem_range.mpr hgt, by simp [taken]⟩
        simp [outcome, hdata, hnot, Nat.ne_of_gt hgt]
    have houtcomes : ∀ o, o ∈ call.outcomes ↔ o = .error := by
      intro o
      rw [mem_outcomes]
      constructor
      · rintro ⟨i, -, hi⟩
        rw [houtcome] at hi
        split at hi
        · exact (Option.some.inj hi).symm
        · cases hi
      · rintro rfl
        exact ⟨stop, before, by rw [houtcome, if_pos rfl]⟩
    rw [if_pos harray] at exit
    have hresult : call.mySQLExecute =
        ⟨call.finishCode st, call.finishStatus st, st.rowsProcessed⟩ := by
      rw [mySQLExecute, hst]
      simp [exit]
    have hfailed : call.outcomes ≠ [] ∧ ∀ o ∈ call.outcomes, o = .error :=
      ⟨List.ne_nil_of_mem ((houtcomes .error).mpr rfl), fun o ho => (houtcomes o).mp ho⟩
    rw [hresult]
    refine iff_of_true ⟨?_, ?_⟩ ⟨fun hone => by omega, fun _ _ => by omega, ?_,
      fun _ => Or.inr hfailed⟩
    · rw [expectedCode_eq_error.mpr hfailed, finishCode, if_pos harray, allFailed,
        if_pos (decide_eq_true harray)]
    · intro hgiven row hrow
      have hpresent : call.hasStatus = true := by
        simp [hasStatus, hgiven, Nat.pos_of_ne_zero hparams]
      rw [houtcome]
      simp only [finishStatus, exit, hpresent, true_and, lastError harray hpresent,
        Option.some.injEq]
      obtain hlt | rfl | hgt := lt_trichotomy row stop
      · refine ⟨.unused, ?_, by rw [if_neg (by omega)]; rfl⟩
        rw [if_neg (by omega), if_neg (by omega), status hpresent row hlt]
      · refine ⟨.error, ?_, by rw [if_pos rfl]; exact Or.inl rfl⟩
        rw [if_neg (by omega), if_pos rfl]
      · refine ⟨.unused, ?_, by rw [if_neg (by omega)]; rfl⟩
        rw [if_pos ⟨hgt, hrow⟩]
    · intro _ i _ hi
      simp [hexecuted] at hi
  · have hone : call.arraySize = 1 := by omega
    obtain rfl : stop = 0 := by omega
    rw [if_neg harray] at exit
    have hcode : call.mySQLExecute.code = .needData := by
      rw [mySQLExecute, hst]
      simp [exit]
    apply iff_of_false
    · rintro ⟨hcode', -⟩
      rw [hcode, expectedCode] at hcode'
      split at hcode'
      · cases hcode'
      · split at hcode' <;> cases hcode'
    · intro hreported
      have hskip := hreported.dataWanted hone hdata
      rw [taken] at hskip
      cases hskip

/-- A call in which data is wanted at execution. -/
theorem reportsSets_iff_of_wantsData (hdata : call.wantsData = true) :
    ReportsSets call call.mySQLExecute ↔ call.Reported := by
  cases waiting_executeRows hdata call.arraySize with
  | skipped all looping => exact reportsSets_iff_of_skipped hdata all looping
  | left stop before all taken exit allFailed status lastError =>
    exact reportsSets_iff_of_left hdata rfl before all taken exit allFailed status lastError

end ExecuteCall

/-- A call tells how its sets of parameters fared exactly under that condition. -/
theorem reportsSets_iff (call : ExecuteCall) :
    ReportsSets call call.mySQLExecute ↔ call.Reported := by
  cases hdata : call.wantsData with
  | true => exact ExecuteCall.reportsSets_iff_of_wantsData hdata
  | false => exact ExecuteCall.reportsSets_iff_of_inserted hdata

/-- Two sets of parameters: the conversion of the first one gives information, and both
queries succeed. -/
def convertedCall : ExecuteCall where
  paramCount := 1
  arraySize := 2
  ignored := fun _ => false
  statusArray := true
  isSelect := false
  dataAtExec := false
  insertParams := fun row => if row = 0 then .successWithInfo else .success
  doQuery := fun _ => .success
  connectionLost := fun _ => false

/-- The information about the first set is lost in the status array. -/
theorem information_lost : ¬ ∀ call : ExecuteCall, ReportsSets call call.mySQLExecute := by
  intro hall
  obtain ⟨status, hstatus, htells⟩ := (hall convertedCall).status rfl 0 (by decide)
  have hwritten : convertedCall.mySQLExecute.status 0 = some .success := by decide
  rw [hwritten] at hstatus
  cases hstatus
  have hinformation : convertedCall.outcome 0 = some .successWithInfo := by decide
  rw [hinformation] at htells
  cases htells

end MatrixOdbc.Driver
