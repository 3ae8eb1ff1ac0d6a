import MatrixOdbc.Driver.Descriptor
import MatrixOdbc.Driver.ErrorTable
import MatrixOdbc.Foundations.Refinement
import MatrixOdbc.Foundations.Registry

/-!
# Handles

Environments, connections, statements and descriptors as `driver/handle.cc` allocates and frees
them, with `SQLDisconnect` of `driver/connect.cc`, `SQLSetEnvAttr` and the application descriptors
in `MySQLSetStmtAttr` of `driver/options.cc`, and `MySQLCopyDesc` of `driver/desc.cc`. An
environment lists its connections, a connection its statements and the descriptors the application
allocated, and such a descriptor the statements that use it. An address is never given out twice.
There is no result where freed memory is used. Locks, threads and the memory allocation that
fails are left out.
-/

namespace MatrixOdbc.Driver

open MyodbcErrid

/-- `SQL_DESC_ALLOC_AUTO` and `SQL_DESC_ALLOC_USER`. -/
inductive AllocType where
  | auto | user
  deriving DecidableEq

/-- The descriptors that are part of a statement: `m_ard`, `m_ird`, `m_apd` and `m_ipd`. -/
inductive DescKind where
  | ard | ird | apd | ipd
  deriving DecidableEq

/-- The reference type a descriptor of a statement is made with. -/
def DescKind.refType : DescKind → DescRefType
  | ard => .app
  | ird => .imp
  | apd => .app
  | ipd => .imp

/-- The type a descriptor of a statement is made with. -/
def DescKind.descType : DescKind → DescDescType
  | ard => .row
  | ird => .row
  | apd => .param
  | ipd => .param

/-- The address of a `DESC`: in a statement, or a block of its own. -/
inductive DescPtr where
  | own (stmt : ℕ) (kind : DescKind)
  | user (block : ℕ)
  deriving DecidableEq

/-- `SQL_ATTR_APP_PARAM_DESC` and `SQL_ATTR_APP_ROW_DESC`. -/
inductive AppSlot where
  | param | row
  deriving DecidableEq

/-- The type of descriptor the attribute takes. -/
def AppSlot.descType : AppSlot → DescDescType
  | param => .param
  | row => .row

/-- The implicit descriptor: `imp_apd` and `imp_ard`. -/
def AppSlot.imp : AppSlot → DescKind
  | param => .apd
  | row => .ard

/-- `DESC`, but for its header fields and its records. -/
structure DescHandle where
  allocType : AllocType
  refType : DescRefType
  descType : DescDescType
  stmt : Option ℕ
  dbc : ℕ
  stmtList : List ℕ
  deriving DecidableEq

/-- `STMT`: its connection, its descriptors, and `apd` and `ard`. -/
structure StmtHandle where
  dbc : ℕ
  desc : DescKind → DescHandle
  app : AppSlot → DescPtr

/-- `DBC`: its environment and its lists. -/
structure DbcHandle where
  env : ℕ
  stmtList : List ℕ
  descList : List ℕ

/-- `ENV`: its version and its list. -/
structure EnvHandle where
  odbcVer : ℤ
  connList : List ℕ

/-- All objects, and the address that is given out next. -/
@[ext] structure Handles where
  next : ℕ
  envs : Store ℕ EnvHandle
  dbcs : Store ℕ DbcHandle
  stmts : Store ℕ StmtHandle
  descs : Store ℕ DescHandle

/-- An error: its place in the table of errors and the text that is given with it. -/
structure HandleError where
  errid : MyodbcErrid
  text : Option String
  deriving DecidableEq

/-- What a call returns. -/
inductive HandleReply where
  | success
  | handle (block : ℕ)
  | descriptor (p : DescPtr)
  | error (e : HandleError)
  deriving DecidableEq

namespace Handles

/-- No object. -/
def empty : Handles := ⟨0, fun _ => none, fun _ => none, fun _ => none, fun _ => none⟩

/-- The descriptor at an address. -/
def descAt (h : Handles) : DescPtr → Option DescHandle
  | .own s kind => (h.stmts s).map fun st => st.desc kind
  | .user d => h.descs d

/-- A descriptor is written at an address. -/
def setDesc (h : Handles) (p : DescPtr) (desc : DescHandle) : Handles :=
  match p with
  | .own s kind =>
    match h.stmts s with
    | none => h
    | some st =>
      { h with stmts := h.stmts.put s { st with desc := Function.update st.desc kind desc } }
  | .user d => { h with descs := h.descs.put d desc }

/-- `stmt_list_remove`. -/
def stmtListRemove (h : Handles) (p : DescPtr) (s : ℕ) : Option Handles :=
  (h.descAt p).map fun desc =>
    if desc.allocType = .user then
      h.setDesc p { desc with stmtList := desc.stmtList.filter (· ≠ s) }
    else h

/-- `my_SQLAllocEnv`. -/
def mySQLAllocEnv (h : Handles) : Option (Handles × HandleReply) :=
  some ({ h with next := h.next + 1, envs := h.envs.put h.next ⟨SQL_OV_ODBC3_80, []⟩ },
    .handle h.next)

/-- `my_SQLFreeEnv`. -/
def mySQLFreeEnv (h : Handles) (e : ℕ) : Option (Handles × HandleReply) := do
  let _ ← h.envs e
  some ({ h with envs := h.envs.drop e }, .success)

/-- `SQL_ATTR_ODBC_VERSION`. -/
def SQL_ATTR_ODBC_VERSION : ℤ := 200

/-- `SQL_ATTR_OUTPUT_NTS`. -/
def SQL_ATTR_OUTPUT_NTS : ℤ := 10001

/-- The switch of `SQLSetEnvAttr`: the new version. -/
def envAttr (attr value odbcVer : ℤ) : ℤ × HandleReply :=
  if attr = SQL_ATTR_ODBC_VERSION then
    if value = SQL_OV_ODBC2 ∨ value = SQL_OV_ODBC3 ∨ value = SQL_OV_ODBC3_80 then (value, .success)
    else (odbcVer, .error ⟨MYERR_S1024, none⟩)
  else if attr = SQL_ATTR_OUTPUT_NTS ∧ value = 1 then (odbcVer, .success)
  else (odbcVer, .error ⟨MYERR_S1C00, none⟩)

/-- `SQLSetEnvAttr`. -/
def sqlSetEnvAttr (h : Handles) (e : ℕ) (attr value : ℤ) : Option (Handles × HandleReply) := do
  let env ← h.envs e
  if env.connList ≠ [] then some (h, .error ⟨MYERR_S1010, none⟩)
  else
    let (odbcVer, reply) := envAttr attr value env.odbcVer
    some ({ h with envs := h.envs.put e { env with odbcVer := odbcVer } }, reply)

/-- `my_SQLAllocConnect`. -/
def mySQLAllocConnect (h : Handles) (e : ℕ) : Option (Handles × HandleReply) := do
  let env ← h.envs e
  if env.odbcVer = 0 then
    some (h, .error ⟨MYERR_S1010, "Can't allocate connection until ODBC version specified."⟩)
  else
    some ({ h with
      next := h.next + 1
      dbcs := h.dbcs.put h.next ⟨e, [], []⟩
      envs := h.envs.put e { env with connList := env.connList ++ [h.next] } }, .handle h.next)

/-- The loop of `free_explicit_descriptors` over the list. -/
def deleteDescs : List ℕ → Handles → Option Handles
  | [], h => some h
  | d :: rest, h => do
    let _ ← h.descs d
    deleteDescs rest { h with descs := h.descs.drop d }

/-- `free_explicit_descriptors`. -/
def freeExplicitDescriptors (h : Handles) (c : ℕ) : Option Handles := do
  let dbc ← h.dbcs c
  let h ← deleteDescs dbc.descList h
  some { h with dbcs := h.dbcs.put c { dbc with descList := [] } }

/-- `my_SQLFreeConnect`, with `DBC::~DBC`. -/
def mySQLFreeConnect (h : Handles) (c : ℕ) : Option (Handles × HandleReply) := do
  let dbc ← h.dbcs c
  let env ← h.envs dbc.env
  let env := { env with connList := env.connList.filter (· ≠ c) }
  let h ← freeExplicitDescriptors { h with envs := h.envs.put dbc.env env } c
  some ({ h with dbcs := h.dbcs.drop c }, .success)

/-- A descriptor of a new statement. -/
def ownDesc (s c : ℕ) (kind : DescKind) : DescHandle where
  allocType := .auto
  refType := kind.refType
  descType := kind.descType
  stmt := some s
  dbc := c
  stmtList := []

/-- `my_SQLAllocStmt`, with `STMT::STMT`. -/
def mySQLAllocStmt (h : Handles) (c : ℕ) : Option (Handles × HandleReply) := do
  let dbc ← h.dbcs c
  some ({ h with
    next := h.next + 1
    stmts := h.stmts.put h.next ⟨c, ownDesc h.next c, fun slot => .own h.next slot.imp⟩
    dbcs := h.dbcs.put c { dbc with stmtList := dbc.stmtList ++ [h.next] } }, .handle h.next)

/-- `my_SQLFreeStmt` with `SQL_DROP`, and `STMT::~STMT`. -/
def mySQLFreeStmtDrop (h : Handles) (s : ℕ) : Option Handles := do
  let st ← h.stmts s
  let h ← h.stmtListRemove (st.app .param) s
  let h ← h.stmtListRemove (st.app .row) s
  let dbc ← h.dbcs st.dbc
  some { h with
    dbcs := h.dbcs.put st.dbc { dbc with stmtList := dbc.stmtList.filter (· ≠ s) }
    stmts := h.stmts.drop s }

/-- The loop of `free_connection_stmts`: the statement at the front of the list is taken out of it
and dropped. -/
def dropStmts (c : ℕ) : ℕ → Handles → Option Handles
  | 0, h => some h
  | turns + 1, h => do
    let dbc ← h.dbcs c
    match dbc.stmtList with
    | [] => some h
    | s :: rest =>
      let h ← mySQLFreeStmtDrop { h with dbcs := h.dbcs.put c { dbc with stmtList := rest } } s
      dropStmts c turns h

/-- `free_connection_stmts`. Every turn of the loop takes one statement out of the list. -/
def freeConnectionStmts (h : Handles) (c : ℕ) : Option Handles := do
  let dbc ← h.dbcs c
  let h ← dropStmts c dbc.stmtList.length h
  let dbc ← h.dbcs c
  some { h with dbcs := h.dbcs.put c { dbc with stmtList := [] } }

/-- `SQLDisconnect`. -/
def sqlDisconnect (h : Handles) (c : ℕ) : Option (Handles × HandleReply) := do
  let h ← freeConnectionStmts h c
  some (h, .success)

/-- `reset_connection`. -/
def resetConnection (h : Handles) (c : ℕ) : Option (Handles × HandleReply) := do
  let h ← freeConnectionStmts h c
  let h ← freeExplicitDescriptors h c
  some (h, .success)

/-- `my_SQLAllocDesc`. -/
def mySQLAllocDesc (h : Handles) (c : ℕ) : Option (Handles × HandleReply) := do
  let dbc ← h.dbcs c
  some ({ h with
    next := h.next + 1
    descs := h.descs.put h.next ⟨.user, .app, .unknown, none, c, []⟩
    dbcs := h.dbcs.put c { dbc with descList := dbc.descList ++ [h.next] } }, .handle h.next)

/-- The attribute whose descriptors have these types: `IS_APD` and `IS_ARD`. -/
def DescHandle.slot (desc : DescHandle) : Option AppSlot :=
  match desc.refType, desc.descType with
  | .app, .param => some .param
  | .app, .row => some .row
  | _, _ => none

/-- The loop of `my_SQLFreeDesc`: the statements in the list go back to their own descriptor. -/
def detachAll (slot : Option AppSlot) : List ℕ → Handles → Option Handles
  | [], h => some h
  | s :: rest, h => do
    let st ← h.stmts s
    let app := slot.elim st.app fun slot => Function.update st.app slot (.own s slot.imp)
    detachAll slot rest { h with stmts := h.stmts.put s { st with app := app } }

/-- `my_SQLFreeDesc`. A descriptor inside a statement cannot be deleted. -/
def mySQLFreeDesc (h : Handles) (p : DescPtr) : Option (Handles × HandleReply) := do
  let desc ← h.descAt p
  let dbc ← h.dbcs desc.dbc
  if desc.allocType ≠ .user then
    some (h, .error ⟨MYERR_S1017,
      "Invalid use of an automatically allocated descriptor handle."⟩)
  else match p with
    | .own _ _ => none
    | .user d =>
      let dbc := { dbc with descList := dbc.descList.filter (· ≠ d) }
      let h ← detachAll (DescHandle.slot desc) desc.stmtList
        { h with dbcs := h.dbcs.put desc.dbc dbc }
      some ({ h with descs := h.descs.drop d }, .success)

/-- The checks of `MySQLSetStmtAttr` on a descriptor for a statement of a connection. -/
def refusal (s c : ℕ) (slot : AppSlot) (desc : DescHandle) : Option HandleError :=
  if desc.allocType = .auto ∧ desc.stmt ≠ some s then
    some ⟨MYERR_S1017, "Invalid use of an automatically allocated descriptor handle"⟩
  else if desc.allocType = .user ∧ c ≠ desc.dbc then some ⟨MYERR_S1024, "Invalid attribute value"⟩
  else if desc.descType ≠ .unknown ∧ desc.descType ≠ slot.descType then
    some ⟨MYERR_S1024, "Descriptor type mismatch"⟩
  else none

/-- The statement has another descriptor. -/
def setApp (h : Handles) (s : ℕ) (slot : AppSlot) (p : DescPtr) : Option Handles := do
  let st ← h.stmts s
  some { h with stmts := h.stmts.put s { st with app := Function.update st.app slot p } }

/-- `MySQLSetStmtAttr` for an application descriptor. The statement is taken out of the list of the
descriptor that it has before the new one is looked at. -/
def mySQLSetStmtAttrDesc (h : Handles) (s : ℕ) (slot : AppSlot) (value : Option DescPtr) :
    Option (Handles × HandleReply) := do
  let st ← h.stmts s
  let h ← h.stmtListRemove (st.app slot) s
  match value with
  | none =>
    let h ← h.setApp s slot (.own s slot.imp)
    some (h, .success)
  | some p =>
    let desc ← h.descAt p
    match refusal s st.dbc slot desc with
    | some e => some (h, .error e)
    | none =>
      let stmtList := if desc.allocType = .user then desc.stmtList ++ [s] else desc.stmtList
      let h ← (h.setDesc p { desc with stmtList := stmtList, descType := slot.descType }).setApp
        s slot p
      some (h, .success)

/-- `MySQLGetStmtAttr` for an application descriptor. -/
def mySQLGetStmtAttrDesc (h : Handles) (s : ℕ) (slot : AppSlot) :
    Option (Handles × HandleReply) := do
  let st ← h.stmts s
  some (h, .descriptor (st.app slot))

/-- `IS_IRD`. -/
def DescHandle.isIrd (desc : DescHandle) : Bool := desc.descType = .row ∧ desc.refType = .imp

/-- `MySQLCopyDesc`. All fields are copied. Whether the statement of the source is prepared is an
argument. -/
def mySQLCopyDesc (h : Handles) (src dest : DescPtr) (prepared : Bool) :
    Option (Handles × HandleReply) := do
  let source ← h.descAt src
  let target ← h.descAt dest
  if DescHandle.isIrd target then
    some (h, .error ⟨MYERR_S1016, "Cannot modify an implementation row descriptor"⟩)
  else if DescHandle.isIrd source then
    let stmt ← source.stmt
    let _ ← h.stmts stmt
    if prepared then some (h.setDesc dest source, .success)
    else some (h, .error ⟨MYERR_S1007, "Associated statement is not prepared"⟩)
  else some (h.setDesc dest source, .success)

end Handles

/-- A call with the handles it is given. -/
inductive HandleCall where
  | allocEnv
  | freeEnv (env : ℕ)
  | setEnvAttr (env : ℕ) (attr value : ℤ)
  | allocConnect (env : ℕ)
  | freeConnect (dbc : ℕ)
  | disconnect (dbc : ℕ)
  | resetConnection (dbc : ℕ)
  | allocStmt (dbc : ℕ)
  | dropStmt (stmt : ℕ)
  | allocDesc (dbc : ℕ)
  | freeDesc (desc : DescPtr)
  | setAppDesc (stmt : ℕ) (slot : AppSlot) (value : Option DescPtr)
  | getAppDesc (stmt : ℕ) (slot : AppSlot)
  | copyDesc (src dest : DescPtr) (prepared : Bool)

/-- What a call does. -/
def Handles.step (h : Handles) : HandleCall → Option (Handles × HandleReply)
  | .allocEnv => h.mySQLAllocEnv
  | .freeEnv env => h.mySQLFreeEnv env
  | .setEnvAttr env attr value => h.sqlSetEnvAttr env attr value
  | .allocConnect env => h.mySQLAllocConnect env
  | .freeConnect dbc => h.mySQLFreeConnect dbc
  | .disconnect dbc => h.sqlDisconnect dbc
  | .resetConnection dbc => h.resetConnection dbc
  | .allocStmt dbc => h.mySQLAllocStmt dbc
  | .dropStmt stmt => (h.mySQLFreeStmtDrop stmt).map fun h => (h, .success)
  | .allocDesc dbc => h.mySQLAllocDesc dbc
  | .freeDesc desc => h.mySQLFreeDesc desc
  | .setAppDesc stmt slot value => h.mySQLSetStmtAttrDesc stmt slot value
  | .getAppDesc stmt slot => h.mySQLGetStmtAttrDesc stmt slot
  | .copyDesc src dest prepared => h.mySQLCopyDesc src dest prepared

end MatrixOdbc.Driver
