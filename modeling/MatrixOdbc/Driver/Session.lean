import Mathlib.Algebra.Order.Ring.Int
import Mathlib.Data.Nat.Digits.Defs
import Mathlib.Logic.Function.Basic

/-!
# The session behind a connection

`set_sql_select_limit` and `set_query_timeout` of `driver/utility.cc`, the reset of a
connection in `driver/handle.cc`, and the transaction isolation of `driver/options.cc`
and `driver/connect.cc`. The driver keeps what it has set in the session of the server,
the row limit and the isolation level with the connection and the time limit with each
statement, and leaves out a `SET` that would set the same value again.
-/

namespace MatrixOdbc.Driver

/-- The transaction isolation levels. -/
inductive TxnIsolation where
  | readUncommitted | readCommitted | repeatableRead | serializable
  deriving DecidableEq

/-- `SQL_TXN_READ_UNCOMMITTED` up to `SQL_TXN_SERIALIZABLE`. -/
def TxnIsolation.code : TxnIsolation → ℕ
  | readUncommitted => 1
  | readCommitted => 2
  | repeatableRead => 4
  | serializable => 8

/-- The level `MySQLSetConnectAttr` sets for an attribute value. -/
def TxnIsolation.ofCode (value : ℕ) : Option TxnIsolation :=
  if value = 8 then some serializable
  else if value = 4 then some repeatableRead
  else if value = 2 then some readCommitted
  else if value = 1 then some readUncommitted
  else none

/-- The level a new connection sets when `value` was asked for before. -/
def TxnIsolation.ofBits (value : ℕ) : TxnIsolation :=
  if value &&& 8 ≠ 0 then serializable
  else if value &&& 4 ≠ 0 then repeatableRead
  else if value &&& 2 ≠ 0 then readCommitted
  else readUncommitted

/-- The session variables the driver sets: `max_execution_time` in milliseconds,
`sql_select_limit` and the isolation level. -/
structure SessionVars where
  maxExecutionTime : ℕ
  sqlSelectLimit : ℕ
  txnIsolation : TxnIsolation
  deriving DecidableEq

/-- The server of a connection. A number `max_execution_time` is set to is kept up to
4294967295; what becomes of a larger one is left to the server. -/
structure SqlServer where
  defaults : SessionVars
  hasMaxExecutionTime : Bool
  transSupported : Bool
  storedTime : ℕ → ℕ
  storedTime_of_le : ∀ n, n ≤ 4294967295 → storedTime n = n

/-- `sql_select_unlimited`, which is also the initial value of `query_timeout`. -/
def sqlSelectUnlimited : ℕ := 2 ^ 64 - 1

/-- `STMT_OPTIONS`, as far as it concerns the session. -/
structure StmtLimits where
  queryTimeout : ℕ
  maxRows : ℕ
  deriving DecidableEq

/-- `DBC`, with its statements and the session of the server. -/
structure DbcState where
  sqlSelectLimit : ℕ
  txnIsolation : ℕ
  needToWakeup : Bool
  stmts : ℕ → Option StmtLimits
  session : SessionVars

/-- A connection right after `connect`. The isolation level `asked` for before is set in
the session; 0 stands for none. -/
def connected (server : SqlServer) (asked : ℕ) : DbcState where
  sqlSelectLimit := sqlSelectUnlimited
  txnIsolation := if asked ≠ 0 ∧ server.transSupported = false then 1 else asked
  needToWakeup := false
  stmts := fun _ => none
  session :=
    if asked ≠ 0 ∧ server.transSupported then
      { server.defaults with txnIsolation := .ofBits asked }
    else server.defaults

/-- `set_sql_select_limit`: whether it succeeds. `answered` says whether the server
carries out the `SET`. -/
def setSqlSelectLimit (server : SqlServer) (limValue : ℕ) (answered : Bool) (dbc : DbcState) :
    Bool × DbcState :=
  if limValue = dbc.sqlSelectLimit ∨ limValue = sqlSelectUnlimited ∧ dbc.sqlSelectLimit = 0 then
    (true, dbc)
  else if answered = false then (false, dbc)
  else if 0 < limValue ∧ limValue < sqlSelectUnlimited then
    (true, { dbc with
      sqlSelectLimit := limValue
      session := { dbc.session with sqlSelectLimit := limValue } })
  else
    (true, { dbc with
      sqlSelectLimit := 0
      session := { dbc.session with sqlSelectLimit := server.defaults.sqlSelectLimit } })

/-- What `snprintf` leaves of a decimal number that has room for `room` digits. -/
def printedNumber (room n : ℕ) : ℕ := n / 10 ^ ((Nat.digits 10 n).length - room)

/-- The `max_execution_time` the session gets when a time limit in seconds is set. The
buffer of `set_query_timeout` has room for 18 digits. -/
def sessionTime (server : SqlServer) (newValue : ℕ) : ℕ :=
  if 0 < newValue then server.storedTime (printedNumber 18 (newValue * 1000 % 2 ^ 64))
  else server.defaults.maxExecutionTime

/-- `set_query_timeout` for a statement with these options. -/
def setQueryTimeout (server : SqlServer) (stmt : ℕ) (options : StmtLimits) (newValue : ℕ)
    (answered : Bool) (dbc : DbcState) : Bool × DbcState :=
  if newValue = options.queryTimeout ∨ server.hasMaxExecutionTime = false then (true, dbc)
  else if answered = false then (false, dbc)
  else
    (true, { dbc with
      stmts := Function.update dbc.stmts stmt (some { options with queryTimeout := newValue })
      session := { dbc.session with maxExecutionTime := sessionTime server newValue } })

/-- `reset_connection`: the statements are freed. -/
def resetConnection (dbc : DbcState) : DbcState :=
  { dbc with stmts := fun _ => none, needToWakeup := true }

/-- `WAKEUP_CONN_IF_NEEDED`: `woken` says whether `mysql_change_user` succeeds, which
gives the session the variables of a new one. -/
def wakeupConnIfNeeded (server : SqlServer) (woken : Bool) (dbc : DbcState) : Option DbcState :=
  if dbc.needToWakeup then
    if woken then some { dbc with needToWakeup := false, session := server.defaults } else none
  else some dbc

/-- Calls of the application. A statement handle is a number. -/
inductive SessionCall where
  | allocStmt (stmt : ℕ)
  | freeStmt (stmt : ℕ)
  | setQueryTimeout (stmt value : ℕ)
  | setMaxRows (stmt value : ℕ)
  | prepare (stmt : ℕ)
  | execute (stmt : ℕ)
  | setTxnIsolation (value : ℕ)
  | getTxnIsolation
  | resetConnection
  deriving DecidableEq

/-- A call, with the answers of the server during it: whether it carries out a query of
the driver's own, and whether it changes the user of the session. -/
structure SessionInput where
  call : SessionCall
  answered : Bool
  woken : Bool

/-- What comes of a call. When a query of a statement is sent, `sent` tells the row limit
the connection believes in and the session the query finds; `isolation` is an attribute
value with the session it is about. -/
inductive SessionOutput where
  | success
  | error
  | invalidHandle
  | sent (limit : ℕ) (session : SessionVars)
  | isolation (value : ℕ) (session : SessionVars)
  deriving DecidableEq

/-- `SQLAllocHandle` for a statement. -/
def allocSessionStmt (server : SqlServer) (stmt : ℕ) (woken : Bool) (dbc : DbcState) :
    DbcState × SessionOutput :=
  match wakeupConnIfNeeded server woken dbc with
  | none => (dbc, .error)
  | some dbc =>
    if (dbc.stmts stmt).isSome then (dbc, .invalidHandle)
    else ({ dbc with
      stmts := Function.update dbc.stmts stmt (some ⟨sqlSelectUnlimited, 0⟩) }, .success)

/-- The query of a statement is sent with a row limit. `required` says whether the row
limit has to be set first. -/
def sendQuery (server : SqlServer) (limit : ℕ) (answered required : Bool) (dbc : DbcState) :
    DbcState × SessionOutput :=
  let (succeeded, dbc) := setSqlSelectLimit server limit answered dbc
  if succeeded || !required then (dbc, .sent dbc.sqlSelectLimit dbc.session) else (dbc, .error)

/-- `MySQLSetConnectAttr` with `SQL_ATTR_TXN_ISOLATION`. -/
def setTxnIsolation (server : SqlServer) (value : ℕ) (answered woken : Bool) (dbc : DbcState) :
    DbcState × SessionOutput :=
  match wakeupConnIfNeeded server woken dbc with
  | none => (dbc, .error)
  | some dbc =>
    if server.transSupported then
      match TxnIsolation.ofCode value with
      | none => (dbc, .error)
      | some level =>
        if answered then
          ({ dbc with
            txnIsolation := value
            session := { dbc.session with txnIsolation := level } }, .success)
        else (dbc, .error)
    else (dbc, .success)

/-- `MySQLGetConnectAttr` with `SQL_ATTR_TXN_ISOLATION`. -/
def getTxnIsolation (server : SqlServer) (answered woken : Bool) (dbc : DbcState) :
    DbcState × SessionOutput :=
  match wakeupConnIfNeeded server woken dbc with
  | none => (dbc, .error)
  | some dbc =>
    if dbc.txnIsolation = 0 then
      if answered then
        ({ dbc with txnIsolation := dbc.session.txnIsolation.code },
          .isolation dbc.session.txnIsolation.code dbc.session)
      else (dbc, .error)
    else (dbc, .isolation dbc.txnIsolation dbc.session)

/-- One call. The driver manager answers calls with a handle that is not allocated. -/
def sessionStep (server : SqlServer) (dbc : DbcState) (input : SessionInput) :
    DbcState × SessionOutput :=
  match input.call with
  | .allocStmt stmt => allocSessionStmt server stmt input.woken dbc
  | .freeStmt stmt => ({ dbc with stmts := Function.update dbc.stmts stmt none }, .success)
  | .setQueryTimeout stmt value =>
    match dbc.stmts stmt with
    | none => (dbc, .invalidHandle)
    | some options =>
      let (succeeded, dbc) := setQueryTimeout server stmt options value input.answered dbc
      (dbc, if succeeded then .success else .error)
  | .setMaxRows stmt value =>
    match dbc.stmts stmt with
    | none => (dbc, .invalidHandle)
    | some options =>
      ({ dbc with
        stmts := Function.update dbc.stmts stmt (some { options with maxRows := value }) }, .success)
  | .prepare stmt =>
    match dbc.stmts stmt with
    | none => (dbc, .invalidHandle)
    | some _ => sendQuery server 0 input.answered false dbc
  | .execute stmt =>
    match dbc.stmts stmt with
    | none => (dbc, .invalidHandle)
    | some options => sendQuery server options.maxRows input.answered true dbc
  | .setTxnIsolation value => setTxnIsolation server value input.answered input.woken dbc
  | .getTxnIsolation => getTxnIsolation server input.answered input.woken dbc
  | .resetConnection =>
    match wakeupConnIfNeeded server input.woken dbc with
    | none => (dbc, .error)
    | some dbc => (resetConnection dbc, .success)

end MatrixOdbc.Driver
