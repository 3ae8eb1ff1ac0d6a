import MatrixOdbc.Driver.ParamMarkers
import MatrixOdbc.Foundations.Loop

/-!
# Preparing a statement

`prepare` of `driver/my_stmt.cc`: the text is copied into the parsed query of the
statement, rewritten for some servers and parsed, and then it is decided whether the
server prepares it. The decision reads the field `is_batch`, which `reset` clears and
the copy operator carries over, but which the parser never sets.
-/

namespace MatrixOdbc.Driver

open MysqlStrings Lexis WhileLoop

/-- A server version as `is_minimum_version` reads it. -/
structure Version where
  major : ℕ
  minor : ℕ
  build : ℕ

/-- `is_minimum_version`. -/
def isMinimumVersion (serverVersion version : Version) : Bool :=
  if serverVersion.major ≠ version.major then version.major < serverVersion.major
  else if serverVersion.minor ≠ version.minor then version.minor < serverVersion.minor
  else version.build ≤ serverVersion.build

/-- The column `preparable_on_server` of `query_types_array`, with the version. -/
def QueryTypeEnum.preparable : QueryTypeEnum → Bool × Option Version
  | .myqtCall => (true, some ⟨5, 5, 3⟩)
  | .myqtOptimize => (true, some ⟨5, 0, 23⟩)
  | .myqtSelect | .myqtInsert | .myqtUpdate | .myqtShow | .myqtOther => (true, none)
  | .myqtUse | .myqtCreateTable | .myqtCreateProc | .myqtCreateFunc | .myqtDropProc
  | .myqtDropFunc => (false, none)

/-- `MY_PARSED_QUERY` with the beginning of the second statement of a batch. -/
structure ParsedQuery extends MyParsedQuery where
  isBatch : Option ℕ

namespace ParsedQuery

/-- `reset` to a text. -/
def reset (query : List UInt8) : ParsedQuery := ⟨⟨query, [], [], none, .myqtOther⟩, none⟩

/-- `parse`: everything but `is_batch` is written. -/
def parse (cs : Ctype) (pq : ParsedQuery) : ParsedQuery :=
  { pq with toMyParsedQuery := Driver.parse cs pq.query }

/-- `preparable_on_server`. -/
def preparableOnServer (pq : ParsedQuery) (serverVersion : Version) : Bool :=
  match pq.queryType.preparable with
  | (true, none) => true
  | (true, some version) => isMinimumVersion serverVersion version
  | (false, _) => false

/-- The token at an index counted from the end; it begins at the offset that is kept. -/
def tokenFromEnd (pq : ParsedQuery) (i : ℕ) : Option ℕ := pq.token2[pq.token2.length - i]?

/-- `get_cursor_name`: the offset of the name behind `WHERE CURRENT OF`. -/
def getCursorName (pq : ParsedQuery) : Option ℕ :=
  if 4 < pq.token2.length ∧
      caseCompare pq.query (pq.tokenFromEnd 4) ['W', 'H', 'E', 'R', 'E'] ∧
      caseCompare pq.query (pq.tokenFromEnd 3) ['C', 'U', 'R', 'R', 'E', 'N', 'T'] ∧
      caseCompare pq.query (pq.tokenFromEnd 2) ['O', 'F'] then
    pq.tokenFromEnd 1
  else none

end ParsedQuery

/-- `isspace` of a byte in the C locale. -/
def isspace (c : UInt8) : Bool := c == 0x20 || (0x09 ≤ c && c ≤ 0x0d)

/-- The local variables of `rewrite_odbc_function_escapes`. -/
structure FnEscapeState where
  query : List UInt8
  i : ℕ
  quote : Option UInt8
  lineComment : Bool
  blockComment : Bool
  escapes : List Bool

/-- The offset of the first byte from `i` on that is not a blank. -/
def skipBlanks (query : List UInt8) (i : ℕ) : ℕ := i + ((query.drop i).takeWhile isspace).length

/-- One round of the loop of `rewrite_odbc_function_escapes`. -/
def rewriteBody (s : FnEscapeState) : Step FnEscapeState (List UInt8) :=
  match s.query.drop s.i with
  | [] => .done s.query
  | ch :: rest =>
    if s.lineComment then
      .next { s with i := s.i + 1, lineComment := !(ch == 0x0a || ch == 0x0d) }
    else if s.blockComment then
      if ch = 0x2a ∧ rest.head? = some 0x2f then .next { s with i := s.i + 2, blockComment := false }
      else .next { s with i := s.i + 1 }
    else
      match s.quote with
      | some quote =>
        if ch = 0x5c ∧ rest ≠ [] then .next { s with i := s.i + 2 }
        else if ch = quote then
          if rest.head? = some quote then .next { s with i := s.i + 2 }
          else .next { s with i := s.i + 1, quote := none }
        else .next { s with i := s.i + 1 }
      | none =>
        if ch = 0x23 ∨ ch = 0x2d ∧ rest.head? = some 0x2d ∧ (rest.drop 1).head?.any isspace then
          .next { s with i := s.i + 1, lineComment := true }
        else if ch = 0x2f ∧ rest.head? = some 0x2a then
          .next { s with i := s.i + 2, blockComment := true }
        else if ch = 0x27 ∨ ch = 0x22 ∨ ch = 0x60 then
          .next { s with i := s.i + 1, quote := some ch }
        else if ch = 0x7b then
          let keyword := skipBlanks s.query (s.i + 1)
          let isFunction := ((s.query.drop keyword).head?.map toupper == some 0x46) &&
            ((s.query.drop (keyword + 1)).head?.map toupper == some 0x4e) &&
            (s.query.drop (keyword + 2)).head?.any isspace
          .next { s with
            i := s.i + 1
            escapes := isFunction :: s.escapes
            query :=
              if isFunction then
                ((s.query.set s.i 0x20).set keyword 0x20).set (keyword + 1) 0x20
              else s.query }
        else if ch = 0x7d then
          match s.escapes with
          | isFunction :: escapes =>
            .next { s with
              i := s.i + 1
              escapes := escapes
              query := if isFunction then s.query.set s.i 0x20 else s.query }
          | [] => .next { s with i := s.i + 1 }
        else .next { s with i := s.i + 1 }

/-- `rewrite_odbc_function_escapes`: `{fn` and its `}` become blanks. Every round
moves on in the text. -/
def rewriteOdbcFunctionEscapes (query : List UInt8) : List UInt8 :=
  (run rewriteBody (query.length + 1) ⟨query, 0, none, false, false, []⟩).getD query

/-- The connection as far as `prepare` uses it. `serverPrepare` is the answer of
`mysql_stmt_prepare` to a text, the number of parameters or an error. -/
structure PrepareDbc where
  optNoSsps : Bool
  serverVersion : Version
  matrixOne : Bool
  cxnCharset : Ctype
  serverPrepare : List UInt8 → Option ℕ

/-- The statement as far as `prepare` writes it; `ssps` tells whether a prepared
statement of the server is in use. -/
structure PreparedStmt where
  query : ParsedQuery
  ssps : Bool
  paramCount : ℕ
  currentParam : ℕ

/-- `prepare`: whether it succeeds, and the statement afterwards. -/
def prepare (dbc : PrepareDbc) (stmt : PreparedStmt) (query : List UInt8) (forcePrepare : Bool) :
    Bool × PreparedStmt :=
  let text := ParsedQuery.reset query
  let text := if dbc.matrixOne then
    { text with query := rewriteOdbcFunctionEscapes text.query } else text
  let pq := text.parse dbc.cxnCharset
  let stmt := { stmt with query := pq, ssps := false, paramCount := uint pq.paramPos.length }
  if !dbc.optNoSsps && (pq.paramPos.length ≠ 0 || forcePrepare) && !pq.isBatch.isSome &&
      pq.preparableOnServer dbc.serverVersion then
    let stmt := { stmt with ssps := true }
    if pq.getCursorName.isNone then
      match dbc.serverPrepare pq.query with
      | none => (false, stmt)
      | some paramCount => (true, { stmt with paramCount := paramCount, currentParam := 0 })
    else (true, { stmt with currentParam := 0 })
  else (true, { stmt with currentParam := 0 })

end MatrixOdbc.Driver
