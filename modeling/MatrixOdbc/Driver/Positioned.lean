import MatrixOdbc.Driver.Prepare
import MatrixOdbc.Driver.UniqueKey

/-!
# The text of a positioned statement

`my_SQLExecute`, `do_my_pos_cursor_std`, `my_pos_update_std` and `execute_dae` of
`driver/execute.cc` and `driver/cursor.cc`, as far as they touch the text of a prepared
`UPDATE` or `DELETE` with `WHERE CURRENT OF`. The text is chopped in place, it may be
replaced by one without the clause, and it is put back in one place only, at the end of
`do_query`.
-/

namespace MatrixOdbc.Driver

/-- A statement of the connection, as a cursor is looked up among them. -/
structure CursorStmt where
  hasResult : Bool
  name : List UInt8
  forwardCache : Bool

/-- How the execution of a text ended that is not positioned: it stopped for data,
`insert_params` failed, or `do_query` was called and succeeded or failed. -/
inductive PlainOutcome where
  | needData
  | insertFailed
  | queried (ok : Bool)

/-- What a call returns. -/
inductive ExecReply where
  | success
  | error
  | needData
  deriving DecidableEq

/-- What the rest of the driver and the server contribute to one execution: the
statements of the connection, the clause of `build_where_clause_std` for the row of the
cursor, whether the `DELETE`, the allocation and the copy of the descriptors succeed, how
the temporary statement ends, and how a text ends that is not positioned. -/
structure ExecuteAnswers where
  stmtList : List CursorStmt
  whereClause : Option (List UInt8)
  deleted : Bool
  allocated : Bool
  descCopied : Bool
  tempExecuted : ExecReply
  plain : PlainOutcome

/-- The prepared statement with the saved query and `dae_type == DAE_NORMAL`. -/
structure PosStmt extends PreparedStmt where
  origQuery : Option ParsedQuery
  daeNormal : Bool

/-- What `check_if_positioned_cursor_exists` hands back: the place of the byte before
`WHERE`, the statement it stopped at, and whether that one is the cursor. -/
structure PositionedCursor where
  cursorPos : ℕ
  cursor : Option CursorStmt
  found : Bool

/-- The characters from an offset up to the terminator. -/
def cString (query : List UInt8) (offset : ℕ) : List UInt8 :=
  (query.drop offset).takeWhile (· ≠ 0)

/-- `check_if_positioned_cursor_exists`. When no statement fits it has gone through the
whole list. -/
def checkIfPositionedCursorExists (stmtList : List CursorStmt) (pq : ParsedQuery) :
    Option PositionedCursor :=
  pq.getCursorName.map fun name =>
    let wherePos := (pq.tokenFromEnd 4).getD 0 - 1
    match stmtList.find? fun stmt =>
        stmt.hasResult && stmt.name ≠ [] && strcaseEq stmt.name (cString pq.query name) with
    | some cursor => ⟨wherePos, some cursor, true⟩
    | none => ⟨wherePos, stmtList.getLast?, false⟩

/-- `*cursor_pos= '\0'`; the tokens stay. -/
def chop (cursorPos : ℕ) (pq : ParsedQuery) : ParsedQuery :=
  { pq with query := pq.query.set cursorPos 0 }

/-- The text that `do_my_pos_cursor_std` goes on with. -/
def pszQuery (pq : ParsedQuery) : List UInt8 := (cString pq.query 0).dropWhile isspace

/-- `myodbc_casecmp` of the beginning of a text with an upper-case word. -/
def startsWith (text : List UInt8) (word : List Char) : Bool := caseCompare text (some 0) word

/-- A statement that has just been allocated. -/
def allocStmt : PreparedStmt := ⟨ParsedQuery.reset [], false, 0, 0⟩

namespace PosStmt

/-- The end of `do_query`: a saved query is put back. -/
def restore (s : PosStmt) : PosStmt :=
  match s.origQuery with
  | some origQuery => { s with query := origQuery, origQuery := none }
  | none => s

/-- `my_pos_update_std` for the text without its clause. -/
def myPosUpdateStd (dbc : PrepareDbc) (answers : ExecuteAnswers) (text : List UInt8) (s : PosStmt) :
    ExecReply × PosStmt :=
  match answers.whereClause with
  | none => (.error, s)
  | some clause =>
    let temp := prepare dbc allocStmt (text ++ clause) false
    if !answers.allocated then (.error, s)
    else if !temp.1 then (.error, s)
    else if temp.2.paramCount ≠ 0 && !answers.descCopied then (.error, s)
    else
      match answers.tempExecuted with
      | .success => (.success, s)
      | .error => (.error, s)
      | .needData =>
        let again := prepare dbc s.toPreparedStmt (text ++ clause) false
        if again.1 then (.needData, { s with toPreparedStmt := again.2, daeNormal := true })
        else (.error, { s with toPreparedStmt := again.2 })

/-- `do_my_pos_cursor_std`. -/
def doMyPosCursorStd (dbc : PrepareDbc) (answers : ExecuteAnswers) (found : Bool) (s : PosStmt) :
    ExecReply × PosStmt :=
  let text := pszQuery s.query
  if !found then (.error, s)
  else if startsWith text ['D', 'E', 'L', 'E', 'T', 'E'] then
    (if answers.whereClause.isSome && answers.deleted then .success else .error, s)
  else if startsWith text ['U', 'P', 'D', 'A', 'T', 'E'] then myPosUpdateStd dbc answers text s
  else (.error, s)

/-- The part of `my_SQLExecute` and `execute_dae` for a text that is not positioned. -/
def executePlain (outcome : PlainOutcome) (s : PosStmt) : ExecReply × PosStmt :=
  match outcome with
  | .needData => (.needData, { s with daeNormal := true })
  | .insertFailed => (.error, { s with daeNormal := false })
  | .queried ok => (if ok then .success else .error, { s.restore with daeNormal := false })

/-- `my_SQLExecute`. -/
def execute (dbc : PrepareDbc) (answers : ExecuteAnswers) (s : PosStmt) : ExecReply × PosStmt :=
  match checkIfPositionedCursorExists answers.stmtList s.query with
  | some c =>
    let s := { s with origQuery := some s.query }
    if c.cursor.any CursorStmt.forwardCache then (.error, s)
    else doMyPosCursorStd dbc answers c.found { s with query := chop c.cursorPos s.query }
  | none => executePlain answers.plain { s with daeNormal := false }

/-- Calls that follow an execution that stopped for data. -/
inductive Call where
  | paramData (outcome : PlainOutcome)
  | putData
  | close

/-- `SQLParamData`, `SQLPutData`, and `SQLCancel` or `SQLFreeStmt(SQL_CLOSE)`. -/
def step (s : PosStmt) : Call → PosStmt
  | .paramData outcome => if s.daeNormal then (executePlain outcome s).2 else s
  | .putData => s
  | .close => { s with daeNormal := false }

/-- An execution with the calls that follow it when it stops for data. -/
structure Episode where
  answers : ExecuteAnswers
  calls : List Call

/-- One execution from its beginning to its end. -/
def runEpisode (dbc : PrepareDbc) (s : PosStmt) (e : Episode) : PosStmt :=
  match execute dbc e.answers s with
  | (.needData, s) => e.calls.foldl step s
  | (_, s) => s

end PosStmt

end MatrixOdbc.Driver
