import Mathlib.Algebra.Order.Ring.Int
import Mathlib.Data.List.Basic

/-!
# The end of a transaction

`my_transact` and `end_transaction` of `driver/transact.cc`, with
`check_if_server_is_alive`. The transactions of one connection or of all connections of
an environment are committed or rolled back. Locks and the query log are left out.
-/

namespace MatrixOdbc.Driver

/-- `SQL_COMMIT`, `SQL_ROLLBACK` and the values that are neither. -/
inductive CompletionType where
  | commit | rollback
  | other (value : ℤ)
  deriving DecidableEq

/-- What `SQLEndTran` returns. -/
inductive EndTranReturn where
  | success | error | invalidHandle
  deriving DecidableEq

/-- `MYERROR`. -/
structure TransactError where
  sqlstate : String
  message : String
  nativeError : ℕ
  deriving DecidableEq

/-- `MYODBC_ERROR_PREFIX`, as far as it does not name the version. -/
def errorPrefix : String := "[MySQL][ODBC Driver]"

/-- An error of the server: its number and its text. -/
structure ServerError where
  errno : ℕ
  text : String
  deriving DecidableEq

/-- `MYSQL`: the capabilities of the server, the answer to a ping and the one to a
query. -/
structure MysqlHandle where
  serverCapabilities : ℕ
  ping : Option ServerError
  realQuery : String → Option ServerError

/-- `DBC`, as far as the end of a transaction reads and writes it. `sent` has the queries
that were sent in the session of the connection. There is no `MYSQL` before the
connection is made and behind its end. -/
structure TransactDbc where
  optNoTransactions : Bool
  lastQueryTime : ℤ
  mysql : Option MysqlHandle
  error : Option TransactError
  sent : List String

/-- `CLIENT_TRANSACTIONS`. -/
def CLIENT_TRANSACTIONS : ℕ := 8192

/-- `CHECK_IF_ALIVE`. -/
def CHECK_IF_ALIVE : ℤ := 1800

/-- `trans_supported`. -/
def transSupported (mysql : MysqlHandle) : Bool :=
  mysql.serverCapabilities &&& CLIENT_TRANSACTIONS ≠ 0

/-- `is_connection_lost`. -/
def isConnectionLost (errcode : ℕ) : Bool :=
  errcode = 2006 ∨ errcode = 2013 ∨ errcode = 4031

/-- The error of the ping, if the connection is pinged at this time. -/
def pinged (dbc : TransactDbc) (mysql : MysqlHandle) (seconds : ℤ) : Option ServerError :=
  if CHECK_IF_ALIVE ≤ (seconds - dbc.lastQueryTime) % 2 ^ 64 then mysql.ping else none

/-- `check_if_server_is_alive`: the error that tells that the server is not alive. -/
def checkIfServerIsAlive (dbc : TransactDbc) (mysql : MysqlHandle) (seconds : ℤ) :
    Option ServerError × TransactDbc :=
  ((pinged dbc mysql seconds).filter fun failure => isConnectionLost failure.errno,
    { dbc with lastQueryTime := seconds })

/-- The internal errors of this file, with their place in the table of errors. -/
inductive TransactErrId where
  | S1000 | S1012 | S1C00
  deriving DecidableEq

/-- The place of an error in `myodbc3_errors`. -/
def TransactErrId.code : TransactErrId → ℕ
  | S1000 => 17
  | S1012 => 26
  | S1C00 => 40

/-- The state of an error in `myodbc3_errors`. -/
def TransactErrId.sqlstate : TransactErrId → String
  | S1000 => "HY000"
  | S1012 => "HY012"
  | S1C00 => "HYC00"

/-- `DBC::set_error`; every error of this file has the code `SQL_ERROR`. -/
def TransactDbc.setError (dbc : TransactDbc) (errid : TransactErrId) (errtext : String)
    (errcode : ℕ) : EndTranReturn × TransactDbc :=
  (.error, { dbc with
    error := some ⟨errid.sqlstate, errorPrefix ++ errtext,
      if errcode ≠ 0 then errcode else errid.code + 500⟩ })

/-- The part of `my_transact` behind the choice of the query. -/
def sendTransact (dbc : TransactDbc) (mysql : MysqlHandle) (query : String) (seconds : ℤ) :
    EndTranReturn × TransactDbc :=
  match checkIfServerIsAlive dbc mysql seconds with
  | (some failure, dbc) => dbc.setError .S1000 failure.text failure.errno
  | (none, dbc) =>
    let dbc := { dbc with sent := dbc.sent ++ [query] }
    match mysql.realQuery query with
    | some failure => dbc.setError .S1000 failure.text failure.errno
    | none => (.success, dbc)

/-- `my_transact` at a time. There is no result where a connection without a `MYSQL` is
used. -/
def myTransact (completionType : CompletionType) (seconds : ℤ) (dbc : TransactDbc) :
    Option (EndTranReturn × TransactDbc) :=
  if dbc.optNoTransactions then some (.success, dbc)
  else match completionType, dbc.mysql with
    | .other _, _ => some (dbc.setError .S1012 "Invalid transaction operation code" 0)
    | _, none => none
    | .commit, some mysql => some (sendTransact dbc mysql "COMMIT" seconds)
    | .rollback, some mysql =>
      if transSupported mysql then some (sendTransact dbc mysql "ROLLBACK" seconds)
      else some (dbc.setError .S1C00 ("Underlying server does not support transactions, " ++
        "upgrade to version >= 3.23.38") 0)

/-- The loop of `end_transaction` over the connections of an environment. `clock` has the
time of each turn. -/
def transactAll (completionType : CompletionType) (clock : ℕ → ℤ) :
    ℕ → List TransactDbc → Option (List TransactDbc)
  | _, [] => some []
  | turn, dbc :: conns => do
    let (_, dbc) ← myTransact completionType (clock turn) dbc
    let conns ← transactAll completionType clock (turn + 1) conns
    return dbc :: conns

/-- The handle `SQLEndTran` is called with: the connections of an environment, one
connection, or a handle of another type. -/
inductive TransactHandle where
  | env (connList : List TransactDbc)
  | dbc (dbc : TransactDbc)
  | other

/-- `end_transaction`. The error of a handle of another type is left out. -/
def endTransaction (handle : TransactHandle) (completionType : CompletionType) (clock : ℕ → ℤ) :
    Option (EndTranReturn × TransactHandle) :=
  match handle with
  | .env connList => do
    let connList ← transactAll completionType clock 0 connList
    return (.success, .env connList)
  | .dbc dbc => do
    let (result, dbc) ← myTransact completionType (clock 0) dbc
    return (result, .dbc dbc)
  | .other => some (.error, .other)

/-- `SQLEndTran`; a null handle is `none`. -/
def sqlEndTran (handle : Option TransactHandle) (completionType : CompletionType)
    (clock : ℕ → ℤ) : Option (EndTranReturn × Option TransactHandle) :=
  match handle with
  | none => some (.invalidHandle, none)
  | some handle => (endTransaction handle completionType clock).map fun (result, handle) =>
    (result, some handle)

/-- The statement that ends a transaction of this kind on a server. -/
def CompletionType.statement (completionType : CompletionType) (mysql : MysqlHandle) :
    Option String :=
  match completionType with
  | .commit => some "COMMIT"
  | .rollback => if transSupported mysql then some "ROLLBACK" else none
  | .other _ => none

/-- The server of the connection is found alive at a time. -/
def TransactDbc.alive (dbc : TransactDbc) (mysql : MysqlHandle) (seconds : ℤ) : Bool :=
  (checkIfServerIsAlive dbc mysql seconds).1.isNone

/-- The statements an attempt to end the transaction sends: one if transactions are not
disabled, the server can end one in this way and is alive. -/
def TransactDbc.attempt (dbc : TransactDbc) (completionType : CompletionType) (seconds : ℤ) :
    List String :=
  if dbc.optNoTransactions then []
  else match dbc.mysql with
    | none => []
    | some mysql => if dbc.alive mysql seconds then (completionType.statement mysql).toList else []

/-- The end of the transaction succeeds on the connection: transactions are disabled, or
the server can end one in this way, is alive and accepts the statement. -/
def TransactDbc.Ends (dbc : TransactDbc) (completionType : CompletionType) (seconds : ℤ) : Prop :=
  dbc.optNoTransactions = true ∨
    ∃ mysql query, dbc.mysql = some mysql ∧ completionType.statement mysql = some query ∧
      dbc.alive mysql seconds = true ∧ mysql.realQuery query = none

/-- What `my_transact` does with its query. -/
theorem sendTransact_spec {dbc after : TransactDbc} {mysql : MysqlHandle} {query : String}
    {seconds : ℤ} {result : EndTranReturn}
    (h : sendTransact dbc mysql query seconds = (result, after)) :
    after.sent = dbc.sent ++ (if dbc.alive mysql seconds then [query] else []) ∧
      (result = .success ↔ dbc.alive mysql seconds = true ∧ mysql.realQuery query = none) := by
  have halive : (checkIfServerIsAlive dbc mysql seconds).1.isNone = dbc.alive mysql seconds := rfl
  have hsent : (checkIfServerIsAlive dbc mysql seconds).2.sent = dbc.sent := rfl
  unfold sendTransact at h
  rcases hchecked : checkIfServerIsAlive dbc mysql seconds with ⟨failure, dbc'⟩
  rw [hchecked] at halive hsent h
  cases failure with
  | some failure =>
    cases h
    simp only [Option.isNone_some] at halive
    simpa [← halive] using hsent
  | none =>
    simp only [Option.isNone_none] at halive
    simp only at hsent h
    cases hanswer : mysql.realQuery query with
    | some failure =>
      rw [hanswer] at h
      cases h
      simp [← halive, hsent]
    | none =>
      rw [hanswer] at h
      cases h
      simp [← halive, hsent]

/-- An attempt sends its statement once, and its result tells whether the end of the
transaction succeeds. -/
theorem myTransact_spec {dbc after : TransactDbc} {completionType : CompletionType}
    {seconds : ℤ} {result : EndTranReturn}
    (h : myTransact completionType seconds dbc = some (result, after)) :
    after.sent = dbc.sent ++ dbc.attempt completionType seconds ∧
      (result = .success ↔ dbc.Ends completionType seconds) := by
  unfold myTransact at h
  unfold TransactDbc.attempt TransactDbc.Ends
  by_cases hdisabled : dbc.optNoTransactions = true
  · rw [if_pos hdisabled] at h
    cases h
    simp [hdisabled]
  · rw [if_neg hdisabled] at h
    cases completionType with
    | other value =>
      cases h
      cases hmysql : dbc.mysql <;> simp [hdisabled, CompletionType.statement]
    | commit =>
      cases hmysql : dbc.mysql with
      | none => simp [hmysql] at h
      | some mysql =>
        simp only [hmysql, Option.some.injEq] at h
        obtain ⟨hsent, hsuccess⟩ := sendTransact_spec h
        simp [hdisabled, CompletionType.statement, hsent, hsuccess]
    | rollback =>
      cases hmysql : dbc.mysql with
      | none => simp [hmysql] at h
      | some mysql =>
        simp only [hmysql] at h
        by_cases hsupported : transSupported mysql = true
        · simp only [hsupported, if_true, Option.some.injEq] at h
          obtain ⟨hsent, hsuccess⟩ := sendTransact_spec h
          simp [hdisabled, CompletionType.statement, hsupported, hsent, hsuccess]
        · simp only [hsupported, Bool.false_eq_true, if_false, Option.some.injEq] at h
          cases h
          simp [hdisabled, CompletionType.statement, hsupported]

/-- Where the end of the transaction succeeds, there is a result. -/
theorem TransactDbc.Ends.myTransact {dbc : TransactDbc} {completionType : CompletionType}
    {seconds : ℤ} (h : dbc.Ends completionType seconds) :
    ∃ after, myTransact completionType seconds dbc = some (.success, after) := by
  have hresult : ∃ outcome, Driver.myTransact completionType seconds dbc = some outcome := by
    unfold Driver.myTransact
    obtain hdisabled | ⟨mysql, query, hmysql, hquery, -, -⟩ := h
    · exact ⟨_, if_pos hdisabled⟩
    · rw [hmysql]
      cases completionType with
      | other value => cases hquery
      | commit => split <;> exact ⟨_, rfl⟩
      | rollback =>
        split
        · exact ⟨_, rfl⟩
        · dsimp only
          split <;> exact ⟨_, rfl⟩
  obtain ⟨⟨result, after⟩, hresult⟩ := hresult
  obtain rfl := (myTransact_spec hresult).2.mpr h
  exact ⟨after, hresult⟩

/-- The loop takes every connection once, in its turn. -/
theorem transactAll_spec {completionType : CompletionType} {clock : ℕ → ℤ} {turn : ℕ}
    {conns after : List TransactDbc}
    (h : transactAll completionType clock turn conns = some after) :
    after.length = conns.length ∧ ∀ i before, conns[i]? = some before →
      ∃ result now, after[i]? = some now ∧
        myTransact completionType (clock (turn + i)) before = some (result, now) := by
  induction conns generalizing turn after with
  | nil =>
    cases h
    exact ⟨rfl, nofun⟩
  | cons dbc conns ih =>
    simp only [transactAll, Option.bind_eq_bind, Option.bind_eq_some_iff, Option.pure_def,
      Option.some.injEq, Prod.exists] at h
    obtain ⟨result, now, hdbc, conns', hconns, rfl⟩ := h
    obtain ⟨hlength, hturns⟩ := ih hconns
    refine ⟨by simp only [List.length_cons, hlength], ?_⟩
    intro i before hbefore
    cases i with
    | zero =>
      obtain rfl : dbc = before := by simpa using hbefore
      exact ⟨result, now, rfl, hdbc⟩
    | succ i =>
      obtain ⟨result', now', hnow', hturn⟩ := hturns i before (by simpa using hbefore)
      refine ⟨result', now', by simpa using hnow', ?_⟩
      rw [← hturn, Nat.add_right_comm, Nat.add_assoc]

/-- The loop comes to its end where every connection ends its transaction. -/
theorem transactAll_of_ends {completionType : CompletionType} {clock : ℕ → ℤ} {turn : ℕ}
    {conns : List TransactDbc}
    (h : ∀ (i : ℕ) (dbc : TransactDbc), conns[i]? = some dbc →
      dbc.Ends completionType (clock (turn + i))) :
    ∃ after, transactAll completionType clock turn conns = some after := by
  induction conns generalizing turn with
  | nil => exact ⟨[], rfl⟩
  | cons dbc conns ih =>
    obtain ⟨now, hnow⟩ := (h 0 dbc rfl).myTransact
    have hfurther : ∀ (i : ℕ) (dbc : TransactDbc), conns[i]? = some dbc →
        dbc.Ends completionType (clock (turn + 1 + i)) := by
      intro i dbc hdbc
      rw [Nat.add_assoc, Nat.add_comm 1 i]
      exact h (i + 1) dbc (by simpa using hdbc)
    obtain ⟨after, hafter⟩ := ih hfurther
    rw [Nat.add_zero] at hnow
    exact ⟨now :: after, by simp [transactAll, hnow, hafter]⟩

/-- Every connection is attempted once, in its turn, and success is reported only if the
transaction ends on all of them. -/
structure AllEnded (completionType : CompletionType) (clock : ℕ → ℤ)
    (conns after : List TransactDbc) (result : EndTranReturn) : Prop where
  conns_kept : after.length = conns.length
  attempted : ∀ (i : ℕ) (before : TransactDbc), conns[i]? = some before →
    ∃ now : TransactDbc, after[i]? = some now ∧
      now.sent = before.sent ++ before.attempt completionType (clock i)
  reported : result = .success → ∀ (i : ℕ) (dbc : TransactDbc), conns[i]? = some dbc →
    dbc.Ends completionType (clock i)

/-- `SQLEndTran` ends the transactions of an environment with these connections. -/
def EndsEnvironment (completionType : CompletionType) (clock : ℕ → ℤ)
    (conns : List TransactDbc) : Prop :=
  ∃ result after, sqlEndTran (some (.env conns)) completionType clock =
      some (result, some (.env after)) ∧ AllEnded completionType clock conns after result

/-- The call for an environment comes to its end with success. -/
theorem sqlEndTran_env {completionType : CompletionType} {clock : ℕ → ℤ}
    {conns after : List TransactDbc} {result : EndTranReturn} :
    sqlEndTran (some (.env conns)) completionType clock = some (result, some (.env after)) ↔
      result = .success ∧ transactAll completionType clock 0 conns = some after := by
  cases htransact : transactAll completionType clock 0 conns with
  | none => simp [sqlEndTran, endTransaction, htransact]
  | some conns' =>
    simp only [sqlEndTran, endTransaction, htransact, Option.bind_eq_bind, Option.bind_some,
      Option.pure_def, Option.map_some, Option.some.injEq, Prod.mk.injEq,
      TransactHandle.env.injEq]
    exact and_congr_left' eq_comm

/-- The transactions of an environment are ended as they should exactly if the end
succeeds on every connection: the results of the connections are not looked at. -/
theorem endsEnvironment_iff (completionType : CompletionType) (clock : ℕ → ℤ)
    (conns : List TransactDbc) :
    EndsEnvironment completionType clock conns ↔
      ∀ (i : ℕ) (dbc : TransactDbc), conns[i]? = some dbc → dbc.Ends completionType (clock i) := by
  constructor
  · rintro ⟨result, after, hcall, hended⟩
    obtain ⟨hresult, -⟩ := sqlEndTran_env.mp hcall
    exact hended.reported hresult
  · intro hends
    obtain ⟨after, hafter⟩ := @transactAll_of_ends completionType clock 0 conns
      (fun i dbc hdbc => by simpa using hends i dbc hdbc)
    obtain ⟨hlength, hturns⟩ := transactAll_spec hafter
    refine ⟨.success, after, sqlEndTran_env.mpr ⟨rfl, hafter⟩, hlength, ?_, fun _ => hends⟩
    intro i before hbefore
    obtain ⟨result, now, hnow, hturn⟩ := hturns i before hbefore
    rw [Nat.zero_add] at hturn
    exact ⟨now, hnow, (myTransact_spec hturn).1⟩

/-- A connection to a server that answers every query in this way. -/
def answeringDbc (answer : Option ServerError) : TransactDbc where
  optNoTransactions := false
  lastQueryTime := 0
  mysql := some ⟨CLIENT_TRANSACTIONS, none, fun _ => answer⟩
  error := none
  sent := []

/-- A refused `COMMIT` of the second connection is reported as success. -/
theorem refused_commit_reported :
    ¬ ∀ completionType clock conns, EndsEnvironment completionType clock conns := by
  intro hall
  obtain ⟨result, after, hcall, hended⟩ := hall .commit (fun _ => 0)
    [answeringDbc none, answeringDbc (some ⟨1180, "Got error during COMMIT"⟩)]
  obtain ⟨hresult, -⟩ := sqlEndTran_env.mp hcall
  obtain hdisabled | ⟨mysql, query, hmysql, -, -, hanswer⟩ := hended.reported hresult 1 _ rfl
  · cases hdisabled
  · cases hmysql
    cases hanswer

end MatrixOdbc.Driver
