import MatrixOdbc.Foundations.Refinement
import Mathlib.Order.MinMax

/-!
# Parameters bound for the metadata

A statement between `SQLPrepare` and `SQLExecute`. Asked for the columns of its result before it is
executed, the driver binds a text `NULL` to each parameter that is not bound, and executes a query
that returns a result with one row. This is the state of a statement in `driver/handle.cc`,
`driver/prepare.cc`, `driver/my_stmt.cc`, `driver/execute.cc` and `driver/results.cc`, for one set
of parameters that are not given at execution, and for queries that are not positioned. There is no
result where the record of a parameter is missed that is not there.
-/

namespace MatrixOdbc.Driver

/-- `MY_STATE`. -/
inductive MyState where
  | unknown | prepared | preExecuted | executed
  deriving DecidableEq

/-- `MY_DUMMY_STATE`. -/
inductive MyDummyState where
  | unknown | prepared | executed
  deriving DecidableEq

/-- What is known of a query: its parameters, whether its type returns a result, whether the server
prepares it, and the columns of its result. -/
structure LifeQuery where
  paramCount : ℕ
  returnsResult : Bool
  ssps : Bool
  columns : ℕ
  deriving DecidableEq

/-- A record of the descriptor for parameters: as it is made, with the text `NULL`, or as the
application binds it, which is `real_param_done`. -/
inductive ParamRec where
  | fresh | dummy
  | real (value : ℕ)
  deriving DecidableEq

/-- The value of a parameter that the application bound. -/
def ParamRec.value : ParamRec → Option ℕ
  | real value => some value
  | _ => none

/-- `STMT`: the number of records of its `ird`, whether it has a `result`, and `max_rows`. -/
structure LifeStmt where
  state : MyState
  dummyState : MyDummyState
  query : Option LifeQuery
  apd : List ParamRec
  ird : ℕ
  result : Bool
  maxRows : ℕ
  deriving DecidableEq

/-- The errors, in the order of their states: 07001, 07005, 07009, 24000, HY000 and HY010. -/
inductive LifeError where
  | unboundParameter | noResultSet | invalidIndex | invalidCursorState | serverError | notPrepared
  deriving DecidableEq

/-- What a call returns. -/
inductive LifeReply where
  | success
  | columns (count : ℕ)
  | error (e : LifeError)
  deriving DecidableEq

/-- What is handed to `do_query`. -/
structure SentQuery where
  query : LifeQuery
  params : List ParamRec
  maxRows : ℕ
  deriving DecidableEq

/-- Records are added until there are so many. -/
def expandTo : ℕ → List ParamRec → List ParamRec
  | 0, apd => apd
  | n + 1, [] => .fresh :: expandTo n []
  | n + 1, r :: apd => r :: expandTo n apd

/-- A parameter is bound. -/
def bindAt : ℕ → ℕ → List ParamRec → List ParamRec
  | 0, value, [] => [.real value]
  | 0, value, _ :: apd => .real value :: apd
  | i + 1, value, [] => .fresh :: bindAt i value []
  | i + 1, value, r :: apd => r :: bindAt i value apd

/-- The loop of `do_dummy_parambind`. -/
def bindDummies : ℕ → List ParamRec → List ParamRec
  | 0, apd => apd
  | n + 1, [] => .dummy :: bindDummies n []
  | n + 1, r :: apd => (if r.value = none then .dummy else r) :: bindDummies n apd

/-- The loop of `insert_params`: the parameters that are inserted, or `none` for error 07001. -/
def insertParamsFrom (dummyState : MyDummyState) :
    ℕ → List ParamRec → Option (Option (List ParamRec))
  | 0, _ => some (some [])
  | _ + 1, [] => if dummyState ≠ .prepared then some none else none
  | n + 1, r :: apd =>
    if dummyState ≠ .prepared ∧ r.value = none then some none
    else (insertParamsFrom dummyState n apd).map fun params => params.map (r :: ·)

namespace LifeStmt

/-- A new statement. -/
def new : LifeStmt := ⟨.unknown, .unknown, none, [], 0, false, 0⟩

variable (s : LifeStmt)

/-- `param_count`. -/
def paramCount : ℕ := s.query.elim 0 (·.paramCount)

/-- `ssps_used`. -/
def sspsUsed : Bool := s.query.any (·.ssps)

/-- `stmt_returns_result`. -/
def returnsResult : Bool := s.query.any (·.returnsResult)

/-- `fix_result_types`: records are added to the `ird`, and none is taken away. -/
def fixResultTypes (columns : ℕ) : LifeStmt :=
  { s with state := .executed, ird := max s.ird columns }

/-- `MySQLPrepare`. The server answers a query that it prepares. -/
def prepare (query : LifeQuery) (answered : Bool) : LifeStmt × LifeReply :=
  let s := { s with query := some query }
  if query.ssps && !answered then (s, .error .serverError)
  else
    let s := if query.ssps then { s with result := query.columns ≠ 0 } else s
    let s := if query.ssps && query.columns ≠ 0 then s.fixResultTypes query.columns else s
    ({ s with apd := expandTo query.paramCount s.apd, state := .prepared }, .success)

/-- `my_SQLFreeStmt` with `SQL_CLOSE`. -/
def close : LifeStmt :=
  { s with state := .unknown, dummyState := .unknown, ird := 0, result := false }

/-- `do_query`. -/
def doQuery (query : LifeQuery) (answered : Bool) : LifeStmt × LifeReply :=
  if !answered then (s, .error .serverError)
  else if query.columns = 0 then ({ s with state := .executed }, .success)
  else ({ s.fixResultTypes query.columns with result := true }, .success)

/-- The query with its parameters, unless one is not bound. -/
def sendQuery (query : LifeQuery) (answered : Bool) :
    Option (List ParamRec) → LifeStmt × LifeReply × List SentQuery
  | none => (s, .error .unboundParameter, [])
  | some params =>
    ((s.doQuery query answered).1, (s.doQuery query answered).2, [⟨query, params, s.maxRows⟩])

/-- What `my_SQLExecute` ends with. -/
def endDummy : LifeStmt :=
  { s with dummyState := if s.dummyState = .prepared then .executed else s.dummyState }

/-- `my_SQLExecute`. -/
def mySQLExecute (answered : Bool) : Option (LifeStmt × LifeReply × List SentQuery) :=
  match s.query with
  | none => some (s, .error .notPrepared, [])
  | some query =>
    let s := { s with ird := 0, result := false }
    (insertParamsFrom s.dummyState query.paramCount s.apd).map fun inserted =>
      ((s.sendQuery query answered inserted).1.endDummy, (s.sendQuery query answered inserted).2)

/-- `check_result`. -/
def checkResult (answered : Bool) : Option (LifeStmt × LifeReply × List SentQuery) :=
  match s.state with
  | .unknown => some (s, .error .invalidCursorState, [])
  | .prepared =>
    if !s.sspsUsed && s.returnsResult then
      (mySQLExecute { s with maxRows := 1 } answered).map fun (s', reply, sent) =>
        ({ s' with
          state := if reply = .success then .preExecuted else s'.state
          maxRows := s.maxRows }, reply, sent)
    else some (s, .success, [])
  | .preExecuted | .executed => some (s, .success, [])

/-- `do_dummy_parambind`. -/
def doDummyParambind : LifeStmt :=
  { s with apd := bindDummies s.paramCount s.apd, dummyState := .prepared }

/-- What `SQLNumResultCols`, `MySQLDescribeCol` and `MySQLColAttribute` begin with. -/
def metadata (answered : Bool) : Option (LifeStmt × LifeReply × List SentQuery) :=
  if s.sspsUsed then some (s, .success, [])
  else if 0 < s.paramCount ∧ s.dummyState = .unknown then s.doDummyParambind.checkResult answered
  else s.checkResult answered

/-- `SQLNumResultCols`. -/
def sqlNumResultCols (answered : Bool) : Option (LifeStmt × LifeReply × List SentQuery) :=
  (s.metadata answered).map fun (s, reply, sent) =>
    (s, if reply = .success then .columns s.ird else reply, sent)

/-- `MySQLDescribeCol`, but for the description. -/
def mySQLDescribeCol (column : ℕ) (answered : Bool) :
    Option (LifeStmt × LifeReply × List SentQuery) :=
  (s.metadata answered).map fun (s, reply, sent) =>
    (s, if reply ≠ .success then reply
      else if !s.sspsUsed && !s.result then .error .noResultSet
      else if column = 0 ∨ s.ird < column then .error .invalidIndex
      else .success, sent)

end LifeStmt

/-- A call on a statement. The server answers or not where it is asked. -/
inductive LifeCall where
  | prepare (query : LifeQuery) (answered : Bool)
  | bindParameter (i value : ℕ)
  | resetParams
  | close
  | numResultCols (answered : Bool)
  | describeCol (column : ℕ) (answered : Bool)
  | setMaxRows (rows : ℕ)
  | execute (answered : Bool)
  deriving DecidableEq

/-- What a call does, and what is handed to the server. -/
def LifeStmt.step (s : LifeStmt) : LifeCall → Option (LifeStmt × LifeReply × List SentQuery)
  | .prepare query answered =>
    some ((s.prepare query answered).1, (s.prepare query answered).2, [])
  | .bindParameter i value => some ({ s with apd := bindAt i value s.apd }, .success, [])
  | .resetParams => some ({ s with apd := [] }, .success, [])
  | .close => some (s.close, .success, [])
  | .numResultCols answered => s.sqlNumResultCols answered
  | .describeCol column answered => s.mySQLDescribeCol column answered
  | .setMaxRows rows => some ({ s with maxRows := rows }, .success, [])
  | .execute answered => s.mySQLExecute answered

/-- What an application knows: its query, the values it bound, and the attribute. -/
structure ParamView where
  query : Option LifeQuery
  bound : ℕ → Option ℕ
  maxRows : ℕ

namespace ParamView

variable (v : ParamView)

/-- Every parameter of the query is bound. -/
def AllBound : Prop := ∀ query, v.query = some query → ∀ i < query.paramCount, v.bound i ≠ none

/-- The parameters as they are bound. -/
def params (n : ℕ) : List ParamRec := (List.range n).map fun i => (v.bound i).elim .fresh .real

open Classical in
/-- What `SQLExecute` should do. -/
noncomputable def execute (answered : Bool) : LifeReply × List SentQuery :=
  match v.query with
  | none => (.error .notPrepared, [])
  | some query =>
    if v.AllBound then
      (if answered then .success else .error .serverError,
        [⟨query, v.params query.paramCount, v.maxRows⟩])
    else (.error .unboundParameter, [])

end ParamView

/-- What an application knows of a statement. -/
def LifeStmt.view (s : LifeStmt) : ParamView where
  query := s.query
  bound i := (s.apd[i]?).bind ParamRec.value
  maxRows := s.maxRows

section Records

variable {n i j value : ℕ} {apd : List ParamRec} {dummyState : MyDummyState}

theorem value_expandTo : ((expandTo n apd)[i]?).bind ParamRec.value =
    (apd[i]?).bind ParamRec.value := by
  induction n generalizing apd i with
  | zero => rfl
  | succ n ih =>
    cases apd with
    | nil =>
      cases i with
      | zero => rfl
      | succ i => exact (@ih i []).trans rfl
    | cons r apd =>
      cases i with
      | zero => rfl
      | succ i => exact @ih i apd

theorem length_expandTo : (expandTo n apd).length = max apd.length n := by
  induction n generalizing apd with
  | zero => exact (Nat.max_zero _).symm
  | succ n ih =>
    cases apd with
    | nil => exact (congrArg Nat.succ ih).trans (by simp)
    | cons r apd => exact (congrArg Nat.succ ih).trans (Nat.succ_max_succ _ _).symm

theorem value_bindDummies : ((bindDummies n apd)[i]?).bind ParamRec.value =
    (apd[i]?).bind ParamRec.value := by
  induction n generalizing apd i with
  | zero => rfl
  | succ n ih =>
    cases apd with
    | nil =>
      cases i with
      | zero => rfl
      | succ i => exact (@ih i []).trans rfl
    | cons r apd =>
      cases i with
      | zero => cases r <;> rfl
      | succ i => exact @ih i apd

theorem length_bindDummies : (bindDummies n apd).length = max apd.length n := by
  induction n generalizing apd with
  | zero => exact (Nat.max_zero _).symm
  | succ n ih =>
    cases apd with
    | nil => exact (congrArg Nat.succ ih).trans (by simp)
    | cons r apd => exact (congrArg Nat.succ ih).trans (Nat.succ_max_succ _ _).symm

theorem value_bindAt : ((bindAt i value apd)[j]?).bind ParamRec.value =
    if j = i then some value else (apd[j]?).bind ParamRec.value := by
  induction i generalizing apd j with
  | zero => cases apd <;> cases j <;> rfl
  | succ i ih =>
    cases apd with
    | nil =>
      cases j with
      | zero => rfl
      | succ j =>
        apply (@ih j []).trans
        simp
    | cons r apd =>
      cases j with
      | zero => rfl
      | succ j =>
        apply (@ih j apd).trans
        simp

theorem length_bindAt : (bindAt i value apd).length = max apd.length (i + 1) := by
  induction i generalizing apd with
  | zero => cases apd <;> simp [bindAt]
  | succ i ih =>
    cases apd with
    | nil => exact (congrArg Nat.succ ih).trans (by simp)
    | cons r apd => exact (congrArg Nat.succ ih).trans (Nat.succ_max_succ _ _).symm

/-- The first parameters are bound by the application. -/
def FirstBound (n : ℕ) (apd : List ParamRec) : Prop :=
  ∀ i < n, (apd[i]?).bind ParamRec.value ≠ none

theorem firstBound_cons {r : ParamRec} :
    FirstBound (n + 1) (r :: apd) ↔ r.value ≠ none ∧ FirstBound n apd := by
  constructor
  · intro h
    exact ⟨h 0 (Nat.succ_pos n), fun i hi => h (i + 1) (Nat.succ_lt_succ hi)⟩
  · rintro ⟨hr, h⟩ i hi
    cases i with
    | zero => exact hr
    | succ i => exact h i (Nat.lt_of_succ_lt_succ hi)

theorem FirstBound.length_le (h : FirstBound n apd) : n ≤ apd.length := by
  by_contra hlt
  exact h apd.length (Nat.lt_of_not_le hlt) (by simp)

open Classical in
/-- Without dummies only bound parameters are inserted. -/
theorem insertParamsFrom_of_ne (h : dummyState ≠ .prepared) :
    insertParamsFrom dummyState n apd =
      some (if FirstBound n apd then some (apd.take n) else none) := by
  induction n generalizing apd with
  | zero =>
    have hbound : FirstBound 0 apd := fun i hi => absurd hi (Nat.not_lt_zero i)
    rw [if_pos hbound]
    rfl
  | succ n ih =>
    cases apd with
    | nil =>
      rw [insertParamsFrom, if_pos h, if_neg]
      exact fun hbound => hbound 0 (Nat.succ_pos n) rfl
    | cons r apd =>
      rw [insertParamsFrom, ih]
      by_cases hr : r.value = none
      · rw [if_pos ⟨h, hr⟩, if_neg fun hbound => (firstBound_cons.mp hbound).1 hr]
      · rw [if_neg fun hand => hr hand.2]
        by_cases hrest : FirstBound n apd
        · rw [if_pos hrest, if_pos (firstBound_cons.mpr ⟨hr, hrest⟩)]
          rfl
        · rw [if_neg hrest, if_neg fun hbound => hrest (firstBound_cons.mp hbound).2]
          rfl

/-- With dummies all records are inserted as they are. -/
theorem insertParamsFrom_prepared : insertParamsFrom .prepared n apd =
    if n ≤ apd.length then some (some (apd.take n)) else none := by
  induction n generalizing apd with
  | zero => rw [if_pos (Nat.zero_le _)]; rfl
  | succ n ih =>
    cases apd with
    | nil => simp [insertParamsFrom]
    | cons r apd =>
      rw [insertParamsFrom, ih, if_neg fun hand => hand.1 rfl]
      simp only [List.length_cons, Nat.succ_le_succ_iff]
      split_ifs <;> rfl

/-- Bound parameters are inserted in any case. -/
theorem FirstBound.insertParamsFrom (h : FirstBound n apd) :
    insertParamsFrom dummyState n apd = some (some (apd.take n)) := by
  by_cases hdummy : dummyState = .prepared
  · rw [hdummy, insertParamsFrom_prepared, if_pos h.length_le]
  · rw [insertParamsFrom_of_ne hdummy, if_pos h]

/-- What is inserted are the first records. -/
theorem insertParamsFrom_eq {params : List ParamRec}
    (h : insertParamsFrom dummyState n apd = some (some params)) :
    n ≤ apd.length ∧ params = apd.take n := by
  by_cases hdummy : dummyState = .prepared
  · rw [hdummy, insertParamsFrom_prepared] at h
    split_ifs at h with hlength
    cases h
    exact ⟨hlength, rfl⟩
  · rw [insertParamsFrom_of_ne hdummy] at h
    split_ifs at h with hbound
    · cases h
      exact ⟨hbound.length_le, rfl⟩
    · cases h

theorem map_value_take (h : n ≤ apd.length) : (apd.take n).map ParamRec.value =
    (List.range n).map fun i => (apd[i]?).bind ParamRec.value := by
  refine List.ext_getElem (by simp [h]) fun i hi hrange => ?_
  have hlt : i < apd.length := by
    rw [List.length_map, List.length_take] at hi
    omega
  rw [List.getElem_map, List.getElem_map, List.getElem_take, List.getElem_range,
    List.getElem?_eq_getElem hlt]
  rfl

/-- The records of bound parameters are those an application knows. -/
theorem FirstBound.take_eq (h : FirstBound n apd) :
    (List.range n).map (fun i => ((apd[i]?).bind ParamRec.value).elim .fresh .real) =
      apd.take n := by
  induction n generalizing apd with
  | zero => rfl
  | succ n ih =>
    cases apd with
    | nil => exact absurd rfl (h 0 (Nat.succ_pos n))
    | cons r apd =>
      obtain ⟨hr, hrest⟩ := firstBound_cons.mp h
      rw [List.range_succ_eq_map, List.map_cons, List.map_map, List.take_succ_cons, ← ih hrest]
      cases r with
      | fresh => exact absurd rfl hr
      | dummy => exact absurd rfl hr
      | real value => rfl

end Records

namespace LifeStmt

variable {s : LifeStmt} {query : LifeQuery} {answered : Bool}

theorem allBound_iff (hquery : s.query = some query) :
    s.view.AllBound ↔ FirstBound query.paramCount s.apd := by
  constructor
  · exact fun h => h query hquery
  · intro h query' hquery'
    obtain rfl := Option.some.inj (hquery.symm.trans hquery')
    exact h

theorem allBound_of_none (hquery : s.query = none) : s.view.AllBound := by
  intro query' hquery'
  cases hquery.symm.trans hquery'

/-- What is handed to the server when all parameters are bound. -/
theorem execute_of_bound (hquery : s.query = some query) (hbound : s.view.AllBound) :
    s.view.execute answered = (if answered then .success else .error .serverError,
      [⟨query, s.apd.take query.paramCount, s.maxRows⟩]) := by
  have hview : s.view.query = some query := hquery
  rw [ParamView.execute, hview]
  dsimp only
  rw [if_pos hbound, ParamView.params]
  exact congrArg (fun params => (_, [SentQuery.mk query params s.maxRows]))
    ((allBound_iff hquery).mp hbound).take_eq

theorem execute_of_unbound (hquery : s.query = some query) (hbound : ¬ s.view.AllBound) :
    s.view.execute answered = (.error .unboundParameter, []) := by
  have hview : s.view.query = some query := hquery
  rw [ParamView.execute, hview]
  exact if_neg hbound

theorem doQuery_reply (s : LifeStmt) (query : LifeQuery) :
    (s.doQuery query answered).2 = if answered then .success else .error .serverError := by
  unfold doQuery
  cases answered
  · rfl
  · rw [Bool.not_true, if_neg Bool.false_ne_true, if_pos rfl]
    split_ifs <;> rfl

/-- The outcome of an execution when it is known what is inserted. -/
theorem mySQLExecute_eq (hquery : s.query = some query) {inserted : Option (List ParamRec)}
    (hinsert : insertParamsFrom s.dummyState query.paramCount s.apd = some inserted) :
    (s.mySQLExecute answered).map (·.2) = some (inserted.elim (.error .unboundParameter, [])
      fun params => (if answered then .success else .error .serverError,
        [⟨query, params, s.maxRows⟩])) := by
  rw [mySQLExecute, hquery]
  dsimp only
  rw [hinsert, Option.map_some, Option.map_some]
  cases inserted with
  | none => rfl
  | some params => exact congrArg (fun reply => some (reply, _)) (doQuery_reply _ _)

/-- What `SQLExecute` returns and hands to the server is what it should exactly when all parameters
are bound or no dummies are. -/
theorem mySQLExecute_right_iff : (s.mySQLExecute answered).map (·.2) =
    some (s.view.execute answered) ↔ (s.dummyState = .prepared → s.view.AllBound) := by
  cases hquery : s.query with
  | none =>
    refine iff_of_true ?_ fun _ => allBound_of_none hquery
    have hview : s.view.query = none := hquery
    rw [mySQLExecute, hquery, ParamView.execute, hview]
    rfl
  | some query =>
    by_cases hbound : s.view.AllBound
    · refine iff_of_true ?_ fun _ => hbound
      rw [mySQLExecute_eq hquery ((allBound_iff hquery).mp hbound).insertParamsFrom,
        execute_of_bound hquery hbound]
      rfl
    · have hfirst := (allBound_iff hquery).not.mp hbound
      rw [execute_of_unbound hquery hbound]
      by_cases hdummy : s.dummyState = .prepared
      · refine iff_of_false ?_ fun h => hbound (h hdummy)
        by_cases hlength : query.paramCount ≤ s.apd.length
        · have hinsert := @insertParamsFrom_prepared query.paramCount s.apd
          rw [if_pos hlength, ← hdummy] at hinsert
          rw [mySQLExecute_eq hquery hinsert]
          simp
        · have hinsert := @insertParamsFrom_prepared query.paramCount s.apd
          rw [if_neg hlength, ← hdummy] at hinsert
          simp [mySQLExecute, hquery, hinsert]
      · refine iff_of_true ?_ fun h => absurd h hdummy
        have hinsert := @insertParamsFrom_of_ne query.paramCount s.apd s.dummyState hdummy
        rw [if_neg hfirst] at hinsert
        rw [mySQLExecute_eq hquery hinsert]
        rfl

/-- `check_result` executes the query. -/
def Previews (s : LifeStmt) : Prop :=
  s.state = .prepared ∧ s.sspsUsed = false ∧ s.returnsResult = true

/-- Asking for the metadata binds dummies that stay, or uses up those that are bound. -/
def Disturbs (s : LifeStmt) : Prop :=
  s.sspsUsed = false ∧ match s.dummyState with
    | .unknown => ¬ s.Previews
    | .prepared => s.Previews ∧ s.paramCount ≤ s.apd.length
    | .executed => False

theorem view_doDummyParambind : s.doDummyParambind.view = s.view := by
  have hbound : s.doDummyParambind.view.bound = s.view.bound :=
    funext fun i => value_bindDummies
  exact congrArg (fun bound => ParamView.mk s.query bound s.maxRows) hbound

theorem checkResult_of_previews (h : s.Previews) : s.checkResult answered =
    (mySQLExecute { s with maxRows := 1 } answered).map fun result =>
      ({ result.1 with
        state := if result.2.1 = .success then .preExecuted else result.1.state
        maxRows := s.maxRows }, result.2) := by
  obtain ⟨hstate, hssps, hresult⟩ := h
  rw [checkResult, hstate]
  dsimp only
  rw [hssps, hresult]
  rfl

theorem checkResult_of_not_previews (h : ¬ s.Previews) : s.checkResult answered =
    some (s, if s.state = .unknown then .error .invalidCursorState else .success, []) := by
  rw [checkResult]
  cases hstate : s.state with
  | prepared =>
    have hnot : (!s.sspsUsed && s.returnsResult) = false := by
      by_contra hne
      rw [Bool.not_eq_false, Bool.and_eq_true, Bool.not_eq_true'] at hne
      exact h ⟨hstate, hne⟩
    dsimp only
    rw [hnot]
    rfl
  | unknown => rfl
  | preExecuted => rfl
  | executed => rfl

theorem sendQuery_keeps (s : LifeStmt) (inserted : Option (List ParamRec)) :
    (s.sendQuery query answered inserted).1.apd = s.apd ∧
      (s.sendQuery query answered inserted).1.view = s.view ∧
      (s.sendQuery query answered inserted).1.dummyState = s.dummyState := by
  cases inserted with
  | none => exact ⟨rfl, rfl, rfl⟩
  | some params =>
    change (s.doQuery query answered).1.apd = s.apd ∧ (s.doQuery query answered).1.view = s.view ∧
      _ = s.dummyState
    unfold sendQuery doQuery
    split_ifs <;> exact ⟨rfl, rfl, rfl⟩

/-- An execution keeps what an application knows, and no dummies stay. -/
theorem mySQLExecute_keeps {s' : LifeStmt} {out : LifeReply × List SentQuery}
    (h : s.mySQLExecute answered = some (s', out)) : s'.apd = s.apd ∧ s'.view = s.view ∧
      (s'.dummyState = .prepared → s.dummyState = .prepared ∧ s.query = none) := by
  obtain ⟨state, dummyState, query, apd, ird, result, maxRows⟩ := s
  cases query with
  | none =>
    cases h
    exact ⟨rfl, rfl, fun h => ⟨h, rfl⟩⟩
  | some query =>
    obtain ⟨inserted, -, heq⟩ := Option.map_eq_some_iff.mp h
    obtain ⟨hapd, hview, hdummy⟩ := @sendQuery_keeps query answered
      ⟨state, dummyState, some query, apd, 0, false, maxRows⟩ inserted
    cases heq
    refine ⟨hapd, hview, fun h => ?_⟩
    dsimp only [endDummy] at h
    rw [hdummy] at h
    dsimp only at h
    split_ifs at h with hprepared
    exact absurd h hprepared

theorem query_of_previews (h : s.Previews) : ∃ query, s.query = some query := by
  cases hquery : s.query with
  | none =>
    have hresult := h.2.2
    rw [returnsResult, hquery] at hresult
    cases hresult
  | some query => exact ⟨query, rfl⟩

/-- A preview keeps what an application knows, and no dummies stay. -/
theorem checkResult_keeps {s' : LifeStmt} {out : LifeReply × List SentQuery} (h : s.Previews)
    (hrun : s.checkResult answered = some (s', out)) :
    s'.apd = s.apd ∧ s'.view = s.view ∧ s'.dummyState ≠ .prepared := by
  obtain ⟨query, hquery⟩ := query_of_previews h
  rw [checkResult_of_previews h] at hrun
  obtain ⟨⟨after, out'⟩, hexecute, heq⟩ := Option.map_eq_some_iff.mp hrun
  obtain ⟨hapd, hview, hdummy⟩ := mySQLExecute_keeps hexecute
  cases heq
  obtain ⟨hq, hb, -⟩ := ParamView.mk.inj hview
  refine ⟨hapd, congrArg₂ (fun q b => ParamView.mk q b s.maxRows) hq hb, fun h => ?_⟩
  cases hquery.symm.trans (hdummy h).2

/-- A record is missed when there are dummies and fewer records than parameters. -/
theorem mySQLExecute_eq_none_iff : s.mySQLExecute answered = none ↔
    s.dummyState = .prepared ∧ s.apd.length < s.paramCount := by
  cases hquery : s.query with
  | none =>
    rw [mySQLExecute, hquery, paramCount, hquery]
    exact iff_of_false (Option.some_ne_none _) fun h => Nat.not_lt_zero _ h.2
  | some query =>
    have hcount : s.paramCount = query.paramCount := by rw [paramCount, hquery]; rfl
    rw [mySQLExecute, hquery, hcount]
    dsimp only
    rw [Option.map_eq_none_iff]
    by_cases hdummy : s.dummyState = .prepared
    · rw [hdummy, insertParamsFrom_prepared]
      by_cases hlength : query.paramCount ≤ s.apd.length
      · rw [if_pos hlength]
        exact iff_of_false (Option.some_ne_none _) fun h => absurd h.2 (Nat.not_lt.mpr hlength)
      · rw [if_neg hlength]
        exact iff_of_true rfl ⟨rfl, Nat.lt_of_not_le hlength⟩
    · rw [insertParamsFrom_of_ne hdummy]
      exact iff_of_false (Option.some_ne_none _) fun h => hdummy h.1

theorem checkResult_eq_none_iff (h : s.Previews) : s.checkResult answered = none ↔
    s.dummyState = .prepared ∧ s.apd.length < s.paramCount := by
  rw [checkResult_of_previews h, Option.map_eq_none_iff, mySQLExecute_eq_none_iff]
  rfl

/-- What asking for the metadata leaves behind: nothing that an application knows is changed, and
dummies stay where nothing is executed. -/
theorem metadata_keeps {s' : LifeStmt} {out : LifeReply × List SentQuery}
    (h : s.metadata answered = some (s', out)) :
    s.apd.length ≤ s'.apd.length ∧ s'.view = s.view ∧
      (s'.dummyState = .prepared ↔ ¬ s.Previews ∧ (s.dummyState = .prepared ∨
        s.sspsUsed = false ∧ 0 < s.paramCount ∧ s.dummyState = .unknown)) := by
  have hkeep : ∀ {t : LifeStmt}, t.checkResult answered = some (s', out) →
      s'.apd = t.apd ∧ s'.view = t.view ∧
        (s'.dummyState = .prepared ↔ ¬ t.Previews ∧ t.dummyState = .prepared) := by
    intro t hrun
    by_cases hpreviews : t.Previews
    · obtain ⟨hapd, hview, hdummy⟩ := checkResult_keeps hpreviews hrun
      exact ⟨hapd, hview, iff_of_false hdummy fun h => h.1 hpreviews⟩
    · rw [checkResult_of_not_previews hpreviews] at hrun
      cases hrun
      exact ⟨rfl, rfl, (and_iff_right hpreviews).symm⟩
  unfold metadata at h
  split_ifs at h with hssps hasked
  · cases h
    refine ⟨le_rfl, rfl, ?_⟩
    have hpreviews : ¬ s.Previews := fun h => Bool.false_ne_true (h.2.1.symm.trans hssps)
    simp [hpreviews, hssps]
  · obtain ⟨hapd, hview, hdummy⟩ := hkeep h
    refine ⟨?_, hview.trans view_doDummyParambind, hdummy.trans ?_⟩
    · rw [hapd]
      exact (le_max_left _ _).trans length_bindDummies.ge
    · have hsame : s.doDummyParambind.Previews ↔ s.Previews := Iff.rfl
      rw [hsame, and_congr_right_iff]
      intro hpreviews
      exact iff_of_true rfl (Or.inr ⟨eq_false_of_ne_true hssps, hasked⟩)
  · obtain ⟨hapd, hview, hdummy⟩ := hkeep h
    refine ⟨hapd ▸ le_rfl, hview, hdummy.trans (and_congr_right fun _ => ?_)⟩
    exact (or_iff_left fun h => hasked h.2).symm

/-- A record is missed when dummies are used up for fewer records than parameters. -/
theorem metadata_eq_none_iff : s.metadata answered = none ↔
    s.Previews ∧ s.dummyState = .prepared ∧ s.apd.length < s.paramCount := by
  have hnone : ∀ t : LifeStmt, t.checkResult answered = none ↔
      t.Previews ∧ t.dummyState = .prepared ∧ t.apd.length < t.paramCount := by
    intro t
    by_cases hpreviews : t.Previews
    · rw [checkResult_eq_none_iff hpreviews, and_iff_right hpreviews]
    · rw [checkResult_of_not_previews hpreviews]
      exact iff_of_false (Option.some_ne_none _) fun h => hpreviews h.1
  unfold metadata
  split_ifs with hssps hasked
  · refine iff_of_false (not_false_iff.mpr trivial) fun h => ?_
    exact Bool.false_ne_true (h.1.2.1.symm.trans hssps)
  · refine (hnone _).trans (iff_of_false ?_ ?_)
    · exact fun h => Nat.not_lt.mpr ((le_max_right _ _).trans length_bindDummies.ge) h.2.2
    · intro h
      cases hasked.2.symm.trans h.2.1
  · exact hnone s

/-- Nothing changes where there are dummies and nothing is executed. -/
theorem metadata_of_not_previews (hpreviews : ¬ s.Previews) (hdummy : s.dummyState ≠ .unknown) :
    ∃ out, s.metadata answered = some (s, out) := by
  unfold metadata
  split_ifs with hssps hasked
  · exact ⟨_, rfl⟩
  · exact absurd hasked.2 hdummy
  · exact ⟨_, checkResult_of_not_previews hpreviews⟩

theorem paramCount_pos_of_unbound (hbound : ¬ s.view.AllBound) : 0 < s.paramCount := by
  by_contra hzero
  refine hbound fun query hquery i hi => ?_
  have hcount : s.paramCount = query.paramCount := by
    rw [paramCount, show s.query = some query from hquery]
    rfl
  omega

/-- Asking for the metadata changes nothing for the next execution exactly when all parameters are
bound or no dummies are left behind or used up. -/
theorem metadata_transparent_iff {again : Bool} :
    ((s.metadata answered).bind fun asked => (asked.1.mySQLExecute again).map (·.2)) =
      (s.mySQLExecute again).map (·.2) ↔ s.view.AllBound ∨ ¬ s.Disturbs := by
  by_cases hbound : s.view.AllBound
  · refine iff_of_true ?_ (Or.inl hbound)
    have hright := (@mySQLExecute_right_iff s again).mpr fun _ => hbound
    cases hrun : s.metadata answered with
    | none =>
      obtain ⟨hpreviews, hdummy, hlength⟩ := metadata_eq_none_iff.mp hrun
      obtain ⟨query, hquery⟩ := query_of_previews hpreviews
      have hle := ((allBound_iff hquery).mp hbound).length_le
      rw [paramCount, hquery] at hlength
      exact absurd hlength (Nat.not_lt.mpr hle)
    | some asked =>
      obtain ⟨-, hview, -⟩ := metadata_keeps hrun
      rw [hright, Option.bind_some, ← hview]
      exact mySQLExecute_right_iff.mpr fun _ => hview ▸ hbound
  · rw [or_iff_right hbound]
    have hcount := paramCount_pos_of_unbound hbound
    cases hrun : s.metadata answered with
    | none =>
      obtain ⟨hpreviews, hdummy, hlength⟩ := metadata_eq_none_iff.mp hrun
      apply iff_of_true
      · rw [mySQLExecute_eq_none_iff.mpr ⟨hdummy, hlength⟩]
        rfl
      · rw [Disturbs, hdummy]
        exact fun h => absurd h.2.2 (Nat.not_le.mpr hlength)
    | some asked =>
      obtain ⟨s', out⟩ := asked
      obtain ⟨-, hview, hdummies⟩ := metadata_keeps hrun
      -- what is executed afterwards is right exactly when no dummies are left behind
      have hafter : (s'.mySQLExecute again).map (·.2) = some (s.view.execute again) ↔
          s'.dummyState ≠ .prepared := by
        rw [← hview, mySQLExecute_right_iff]
        exact ⟨fun h hdummy => hbound (hview ▸ h hdummy), fun h hdummy => absurd hdummy h⟩
      have hbefore : (s.mySQLExecute again).map (·.2) = some (s.view.execute again) ↔
          s.dummyState ≠ .prepared := by
        rw [mySQLExecute_right_iff]
        exact ⟨fun h hdummy => hbound (h hdummy), fun h hdummy => absurd hdummy h⟩
      rw [Option.bind_some]
      by_cases hdummy : s.dummyState = .prepared
      · rw [Disturbs, hdummy]
        by_cases hpreviews : s.Previews
        · have hlength : s.paramCount ≤ s.apd.length := by
            by_contra hlt
            have hnone := (@metadata_eq_none_iff s answered).mpr
              ⟨hpreviews, hdummy, Nat.lt_of_not_le hlt⟩
            cases hrun.symm.trans hnone
          refine iff_of_false (fun hsame => ?_) fun h => h ⟨hpreviews.2.1, hpreviews, hlength⟩
          exact hbefore.mp (hsame ▸ hafter.mpr fun h => (hdummies.mp h).1 hpreviews) hdummy
        · obtain ⟨out', hsame⟩ := @metadata_of_not_previews s answered hpreviews
            fun h => by cases hdummy.symm.trans h
          cases hrun.symm.trans hsame
          exact iff_of_true rfl fun h => hpreviews h.2.1
      · rw [hbefore.mpr hdummy, hafter, Ne, hdummies, or_iff_right hdummy, Disturbs]
        cases hstate : s.dummyState with
        | unknown => simp [hcount, and_comm]
        | prepared => exact absurd hstate hdummy
        | executed => simp

theorem ird_mySQLExecute {s' : LifeStmt} {out : LifeReply × List SentQuery}
    (hquery : s.query = some query) (h : s.mySQLExecute answered = some (s', out)) :
    out.1 = .success → s'.ird = query.columns := by
  obtain ⟨state, dummyState, _, apd, ird, result, maxRows⟩ := s
  dsimp only at hquery
  subst hquery
  obtain ⟨inserted, -, heq⟩ := Option.map_eq_some_iff.mp h
  cases heq
  cases inserted with
  | none =>
    intro h
    cases h
  | some params =>
    change (doQuery _ query answered).2 = _ → (doQuery _ query answered).1.ird = _
    unfold doQuery
    split_ifs with hanswer hcolumns
    · intro h
      cases h
    · exact fun _ => hcolumns.symm
    · exact fun _ => Nat.zero_max _

theorem firstBound_expandTo {n m : ℕ} {apd : List ParamRec} :
    FirstBound n (expandTo m apd) ↔ FirstBound n apd := by
  refine forall₂_congr fun i _ => ?_
  rw [value_expandTo]

/-- A preview that is inserted tells the columns when the server answers. -/
theorem checkResult_columns_iff (h : s.Previews) (hquery : s.query = some query)
    (hlength : query.paramCount ≤ s.apd.length) :
    ((s.checkResult answered).map fun result =>
      if result.2.1 = .success then LifeReply.columns result.1.ird else result.2.1) =
        some (.columns query.columns) ↔
      answered = true ∧ (s.dummyState ≠ .prepared → FirstBound query.paramCount s.apd) := by
  have hpreview : ({ s with maxRows := 1 } : LifeStmt).query = some query := hquery
  have hinserted : ∃ inserted, insertParamsFrom s.dummyState query.paramCount s.apd =
      some inserted ∧ (inserted.isSome = true ↔
        (s.dummyState ≠ .prepared → FirstBound query.paramCount s.apd)) := by
    by_cases hdummy : s.dummyState = .prepared
    · refine ⟨some (s.apd.take query.paramCount), ?_, iff_of_true rfl (absurd hdummy)⟩
      rw [hdummy, insertParamsFrom_prepared, if_pos hlength]
    · refine ⟨_, insertParamsFrom_of_ne hdummy, ?_⟩
      rw [imp_iff_right hdummy]
      split_ifs with hbound
      · exact iff_of_true rfl hbound
      · exact iff_of_false Bool.false_ne_true hbound
  obtain ⟨inserted, hinsert, hbound⟩ := hinserted
  have hreply := @mySQLExecute_eq { s with maxRows := 1 } query answered hpreview inserted hinsert
  obtain ⟨⟨after, reply, sent⟩, hexecute, hout⟩ := Option.map_eq_some_iff.mp hreply
  rw [checkResult_of_previews h, hexecute, ← hbound]
  dsimp only [Option.map_some]
  have hird := ird_mySQLExecute hpreview hexecute
  dsimp only at hout hird
  cases inserted with
  | none =>
    obtain ⟨rfl, -⟩ := Prod.mk.inj hout
    refine iff_of_false (fun h => ?_) fun h => Bool.false_ne_true h.2
    cases Option.some.inj h
  | some params =>
    obtain ⟨rfl, -⟩ := Prod.mk.inj hout
    cases answered with
    | true =>
      refine iff_of_true ?_ ⟨rfl, rfl⟩
      exact congrArg (fun n => some (LifeReply.columns n)) (hird rfl)
    | false =>
      refine iff_of_false (fun h => ?_) fun h => Bool.false_ne_true h.1
      cases Option.some.inj h

theorem sqlNumResultCols_reply : (s.sqlNumResultCols answered).map (·.2.1) =
    (s.metadata answered).map fun result =>
      if result.2.1 = .success then LifeReply.columns result.1.ird else result.2.1 := by
  rw [sqlNumResultCols, Option.map_map]
  rfl

/-- The number of columns of a query that the client prepares. -/
theorem sqlNumResultCols_client_iff (hstate : s.state = .prepared) (hquery : s.query = some query)
    (hssps : query.ssps = false) (hlength : query.paramCount ≤ s.apd.length) :
    (s.sqlNumResultCols answered).map (·.2.1) = some (.columns query.columns) ↔
      if query.returnsResult then
        answered = true ∧ (s.dummyState = .executed → FirstBound query.paramCount s.apd)
      else s.ird = query.columns := by
  have hused : s.sspsUsed = false := by rw [sspsUsed, hquery]; exact hssps
  have hresult : s.returnsResult = query.returnsResult := by rw [returnsResult, hquery]; rfl
  have hcount : s.paramCount = query.paramCount := by rw [paramCount, hquery]; rfl
  rw [sqlNumResultCols_reply, metadata, hused, if_neg Bool.false_ne_true]
  by_cases hpreviews : s.Previews
  · rw [if_pos (hresult.symm.trans hpreviews.2.2)]
    split_ifs with hasked
    · rw [@checkResult_columns_iff s.doDummyParambind query answered hpreviews hquery
        (hcount ▸ (le_max_right _ _).trans length_bindDummies.ge)]
      refine and_congr_right fun _ => iff_of_true (absurd rfl) fun h => ?_
      cases h.symm.trans hasked.2
    · rw [checkResult_columns_iff hpreviews hquery hlength]
      refine and_congr_right fun _ => ⟨fun h hexecuted => h ?_, fun h hne => ?_⟩
      · rw [hexecuted]
        exact MyDummyState.noConfusion
      · cases hdummy : s.dummyState with
        | unknown =>
          have hzero : ¬ 0 < query.paramCount := fun hpos => hasked ⟨hcount ▸ hpos, hdummy⟩
          intro i hi
          omega
        | prepared => exact absurd hdummy hne
        | executed => exact h hdummy
  · have hreturns : query.returnsResult ≠ true := fun h =>
      hpreviews ⟨hstate, hused, hresult.trans h⟩
    have hdummy : ¬ s.doDummyParambind.Previews := hpreviews
    have hprepared : s.doDummyParambind.state = .prepared := hstate
    rw [if_neg hreturns, checkResult_of_not_previews hpreviews, checkResult_of_not_previews hdummy,
      hstate, hprepared,
      if_neg (show ¬ MyState.prepared = .unknown from MyState.noConfusion)]
    split_ifs
    · exact Option.some_inj.trans (LifeReply.columns.injEq _ _).to_iff
    · exact Option.some_inj.trans (LifeReply.columns.injEq _ _).to_iff

/-- What a prepared query is asked for its columns returns their number: of one prepared at the
server when no more are left from before, of one that returns a result when it can be executed, and
of another when as many are left. -/
theorem sqlNumResultCols_prepare_iff :
    ((s.prepare query true).1.sqlNumResultCols answered).map (·.2.1) =
        some (.columns query.columns) ↔
      if query.ssps then s.ird ≤ query.columns
      else if query.returnsResult then
        answered = true ∧ (s.dummyState = .executed → FirstBound query.paramCount s.apd)
      else s.ird = query.columns := by
  cases hssps : query.ssps with
  | true =>
    have hmeta : (s.prepare query true).1.metadata answered =
        some ((s.prepare query true).1, .success, []) := by
      apply if_pos
      simp [prepare, hssps, sspsUsed, fixResultTypes, apply_ite]
    have hird : (s.prepare query true).1.ird =
        if query.columns = 0 then s.ird else max s.ird query.columns := by
      by_cases hcolumns : query.columns = 0 <;> simp [prepare, hssps, fixResultTypes, hcolumns]
    rw [sqlNumResultCols_reply, hmeta]
    simp only [Option.map_some, if_true, hird, Option.some.injEq, LifeReply.columns.injEq]
    split_ifs with hcolumns
    · rw [hcolumns, Nat.le_zero]
    · omega
  | false =>
    have hprepare : (s.prepare query true).1 = LifeStmt.mk .prepared s.dummyState (some query)
        (expandTo query.paramCount s.apd) s.ird s.result s.maxRows := by
      simp [prepare, hssps]
    have hlength := (le_max_right _ _).trans (@length_expandTo query.paramCount s.apd).ge
    rw [hprepare, sqlNumResultCols_client_iff rfl rfl hssps hlength, firstBound_expandTo]
    rfl

end LifeStmt

/-- What an application knows, with the records there are at least, and whether it asked for the
metadata since the statement was closed. -/
structure LifeView where
  params : ParamView
  records : ℕ
  asked : Bool

namespace LifeView

/-- What an application knows at the beginning. -/
def new : LifeView := ⟨⟨none, fun _ => none, 0⟩, 0, false⟩

variable (v : LifeView)

/-- The parameters of the query. -/
def paramCount : ℕ := v.params.query.elim 0 (·.paramCount)

/-- What an application knows after a call. -/
def next : LifeCall → LifeView
  | .prepare query answered =>
    { v with
      params := { v.params with query := some query }
      records := if query.ssps && !answered then v.records else max v.records query.paramCount }
  | .bindParameter i value =>
    { v with
      params := { v.params with bound := fun j => if j = i then some value else v.params.bound j }
      records := max v.records (i + 1) }
  | .resetParams => { v with params := { v.params with bound := fun _ => none }, records := 0 }
  | .close => { v with asked := false }
  | .numResultCols _ | .describeCol _ _ => { v with asked := true }
  | .setMaxRows rows => { v with params := { v.params with maxRows := rows } }
  | .execute _ => v

/-- A statement that was asked for its metadata is executed with all parameters bound, and is asked
while there are records for its parameters. -/
def Allowed : LifeCall → Prop
  | .numResultCols _ | .describeCol _ _ => v.paramCount ≤ v.records
  | .execute _ => v.asked = true → v.params.AllBound
  | _ => True

/-- A query that is sent for the metadata returns a result, of one row at most. The parameters that
are bound are sent as they are. -/
def RightPreview (sent : SentQuery) : Prop :=
  v.params.query = some sent.query ∧ sent.query.ssps = false ∧ sent.query.returnsResult = true ∧
    sent.maxRows = 1 ∧
    sent.params.map ParamRec.value = (List.range sent.query.paramCount).map v.params.bound

/-- An execution does what it should, and nothing else is executed but for the metadata. -/
def Right : LifeCall → LifeReply × List SentQuery → Prop
  | .execute answered, out => out = v.params.execute answered
  | .numResultCols _, out | .describeCol _ _, out => ∀ sent ∈ out.2, v.RightPreview sent
  | _, out => out.2 = []

/-- What an application may rely on. -/
def spec : Refinement.Spec LifeView LifeCall (LifeReply × List SentQuery) where
  next := next
  allowed := Allowed
  right := Right

end LifeView

/-- What an application knows is so. -/
structure LifeStmt.Known (s : LifeStmt) (v : LifeView) : Prop where
  view : s.view = v.params
  records : v.records ≤ s.apd.length
  asked : s.dummyState = .prepared → v.asked = true

namespace LifeStmt

variable {s s' : LifeStmt} {v : LifeView} {out : LifeReply × List SentQuery} {answered : Bool}

theorem Known.new : LifeStmt.new.Known LifeView.new where
  view := rfl
  records := le_rfl
  asked := MyDummyState.noConfusion

theorem Known.paramCount (h : s.Known v) : s.paramCount = v.paramCount :=
  congrArg (fun view => view.query.elim 0 (·.paramCount)) h.view

/-- What a preview sends. -/
theorem checkResult_sends (h : s.checkResult answered = some (s', out)) :
    ∀ sent ∈ out.2, s.query = some sent.query ∧ sent.query.ssps = false ∧
      sent.query.returnsResult = true ∧ sent.maxRows = 1 ∧ sent.params.map ParamRec.value =
        (List.range sent.query.paramCount).map s.view.bound := by
  by_cases hpreviews : s.Previews
  · obtain ⟨query, hquery⟩ := query_of_previews hpreviews
    have hpreview : ({ s with maxRows := 1 } : LifeStmt).query = some query := hquery
    rw [checkResult_of_previews hpreviews] at h
    obtain ⟨⟨after, out'⟩, hexecute, heq⟩ := Option.map_eq_some_iff.mp h
    cases heq
    obtain ⟨-, hssps, hreturns⟩ := hpreviews
    rw [sspsUsed, hquery] at hssps
    rw [returnsResult, hquery] at hreturns
    rw [mySQLExecute, hpreview] at hexecute
    obtain ⟨inserted, hinsert, heq⟩ := Option.map_eq_some_iff.mp hexecute
    cases heq
    cases inserted with
    | none =>
      intro sent hsent
      cases hsent
    | some params =>
      intro sent hsent
      cases List.mem_singleton.mp hsent
      obtain ⟨hlength, hparams⟩ := insertParamsFrom_eq hinsert
      refine ⟨hquery, hssps, hreturns, rfl, ?_⟩
      rw [hparams]
      exact map_value_take hlength
  · rw [checkResult_of_not_previews hpreviews] at h
    cases h
    intro sent hsent
    cases hsent

/-- What asking for the metadata sends is right. -/
theorem Known.metadata (h : s.Known v) (hrun : s.metadata answered = some (s', out)) :
    s'.Known { v with asked := true } ∧ ∀ sent ∈ out.2, v.RightPreview sent := by
  obtain ⟨hlength, hview, -⟩ := metadata_keeps hrun
  refine ⟨⟨hview.trans h.view, h.records.trans hlength, fun _ => rfl⟩, ?_⟩
  have hsends : ∀ {t : LifeStmt}, t.view = v.params → t.checkResult answered = some (s', out) →
      ∀ sent ∈ out.2, v.RightPreview sent := by
    intro t ht hrun sent hsent
    obtain ⟨hquery, hssps, hreturns, hrows, hparams⟩ := checkResult_sends hrun sent hsent
    rw [LifeView.RightPreview, ← ht]
    exact ⟨hquery, hssps, hreturns, hrows, hparams⟩
  unfold LifeStmt.metadata at hrun
  split_ifs at hrun
  · cases hrun
    intro sent hsent
    cases hsent
  · exact hsends (view_doDummyParambind.trans h.view) hrun
  · exact hsends h.view hrun

/-- There is a record for every parameter when the metadata is asked for. -/
theorem Known.metadata_isSome (h : s.Known v) (hrecords : v.paramCount ≤ v.records) :
    ∃ result, s.metadata answered = some result := by
  rw [← Option.isSome_iff_exists, ← Option.ne_none_iff_isSome]
  intro hnone
  obtain ⟨-, -, hlength⟩ := metadata_eq_none_iff.mp hnone
  exact absurd hlength (Nat.not_lt.mpr (h.paramCount.le.trans (hrecords.trans h.records)))

/-- An execution does what it should. -/
theorem Known.execute (h : s.Known v) (hallowed : v.asked = true → v.params.AllBound) :
    ∃ s', s.mySQLExecute answered = some (s', v.params.execute answered) ∧ s'.Known v := by
  have hright := (@mySQLExecute_right_iff s answered).mpr fun hdummy =>
    h.view ▸ hallowed (h.asked hdummy)
  obtain ⟨⟨s', out⟩, hrun, hout⟩ := Option.map_eq_some_iff.mp hright
  obtain ⟨hapd, hview, hdummy⟩ := mySQLExecute_keeps hrun
  refine ⟨s', hrun.trans ?_, hview.trans h.view, hapd ▸ h.records, fun h' => h.asked (hdummy h').1⟩
  rw [← h.view, ← hout]

/-- What preparing a query leaves of a statement. -/
theorem prepare_keeps {query : LifeQuery} :
    (s.prepare query answered).1.view = { s.view with query := some query } ∧
      (s.prepare query answered).1.dummyState = s.dummyState ∧
      (s.prepare query answered).1.apd.length =
        if query.ssps && !answered then s.apd.length else max s.apd.length query.paramCount := by
  have hbound : (fun i => ((expandTo query.paramCount s.apd)[i]?).bind ParamRec.value) =
      s.view.bound := funext fun i => value_expandTo
  have hexpand := congrArg (fun bound => ParamView.mk (some query) bound s.maxRows) hbound
  unfold LifeStmt.prepare
  by_cases hanswer : (query.ssps && !answered) = true
  · rw [if_pos hanswer, if_pos hanswer]
    exact ⟨rfl, rfl, rfl⟩
  · rw [if_neg hanswer, if_neg hanswer]
    split_ifs <;> exact ⟨hexpand, rfl, length_expandTo⟩

theorem Known.prepare (h : s.Known v) {query : LifeQuery} :
    (s.prepare query answered).1.Known (v.next (.prepare query answered)) := by
  obtain ⟨hview, hdummy, hlength⟩ := @prepare_keeps s answered query
  refine ⟨hview.trans ?_, ?_, fun hprepared => h.asked (hdummy ▸ hprepared)⟩
  · rw [h.view]
    rfl
  · rw [hlength]
    unfold LifeView.next
    dsimp only
    split_ifs
    · exact h.records
    · exact max_le_max_right _ h.records

theorem Known.bindParameter (h : s.Known v) {i value : ℕ} :
    LifeStmt.Known { s with apd := bindAt i value s.apd } (v.next (.bindParameter i value)) where
  view := by
    have hbound : (fun j => ((bindAt i value s.apd)[j]?).bind ParamRec.value) =
        fun j => if j = i then some value else s.view.bound j := funext fun j => value_bindAt
    have hparams := h.view
    rw [LifeView.next, ← hparams]
    exact congrArg (fun bound => ParamView.mk s.query bound s.maxRows) hbound
  records := (max_le_max_right _ h.records).trans length_bindAt.ge
  asked := h.asked

/-- The statement refines what an application may rely on. -/
theorem refines : Refinement.Refines LifeStmt.step LifeView.spec LifeStmt.Known := by
  intro s v call h hallowed
  cases call with
  | prepare query answered =>
    exact ⟨_, _, rfl, rfl, h.prepare⟩
  | bindParameter i value => exact ⟨_, _, rfl, rfl, h.bindParameter⟩
  | resetParams =>
    refine ⟨_, _, rfl, rfl, ?_, Nat.zero_le _, h.asked⟩
    have hview := h.view
    change ParamView.mk s.query (fun _ => none) s.maxRows = { v.params with bound := fun _ => none }
    rw [← hview]
    rfl
  | close => exact ⟨_, _, rfl, rfl, h.view, h.records, MyDummyState.noConfusion⟩
  | numResultCols answered =>
    obtain ⟨⟨s', out⟩, hrun⟩ := @Known.metadata_isSome s v answered h hallowed
    obtain ⟨hknown, hsends⟩ := h.metadata hrun
    exact ⟨s', (_, out.2), congrArg (Option.map _) hrun, hsends, hknown⟩
  | describeCol column answered =>
    obtain ⟨⟨s', out⟩, hrun⟩ := @Known.metadata_isSome s v answered h hallowed
    obtain ⟨hknown, hsends⟩ := h.metadata hrun
    exact ⟨s', (_, out.2), congrArg (Option.map _) hrun, hsends, hknown⟩
  | setMaxRows rows =>
    refine ⟨_, _, rfl, rfl, ?_, h.records, h.asked⟩
    exact congrArg (fun view => { view with maxRows := rows }) h.view
  | execute answered =>
    obtain ⟨s', hrun, hknown⟩ := @Known.execute s v answered h hallowed
    exact ⟨s', _, hrun, rfl, hknown⟩

/-- In every run in which metadata are asked for while there are records for all parameters, and a
statement that was asked for them is executed with all parameters bound, every execution does what
it should, and for the metadata only queries that return a result are sent, for one row. -/
theorem run_right {calls : List LifeCall} (h : LifeView.spec.Allowed LifeView.new calls) :
    ∃ s outs, Refinement.run LifeStmt.step LifeStmt.new calls = some (s, outs) ∧
      LifeView.spec.Right LifeView.new calls outs :=
  (refines.run Known.new h).imp fun _ => Exists.imp fun _ h => ⟨h.1, h.2.1⟩

/-- A query is prepared, asked for its columns, bound and executed, and executed again. -/
def lifeCalls : List LifeCall :=
  [.setMaxRows 9, .prepare ⟨1, true, false, 2⟩ true, .numResultCols true, .bindParameter 0 7,
    .execute true, .describeCol 1 true, .close, .resetParams, .execute true]

theorem run_right_lifeCalls : LifeView.spec.Allowed LifeView.new lifeCalls ∧
    ∃ s outs, Refinement.run LifeStmt.step LifeStmt.new lifeCalls = some (s, outs) ∧
      LifeView.spec.Right LifeView.new lifeCalls outs := by
  have h : LifeView.spec.Allowed LifeView.new lifeCalls := by
    refine ⟨trivial, trivial, le_max_right 0 1, trivial, ?_, le_max_right _ 1, trivial, trivial, ?_,
      trivial⟩
    · intro _ query hquery i hi
      cases hquery
      obtain rfl := Nat.lt_one_iff.mp hi
      exact Option.some_ne_none 7
    · intro h
      cases h
  exact ⟨h, run_right h⟩

end LifeStmt

end MatrixOdbc.Driver
