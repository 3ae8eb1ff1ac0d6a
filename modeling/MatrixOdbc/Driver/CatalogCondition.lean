import MatrixOdbc.Driver.Escape

/-!
# Name conditions of the catalog functions

The functions of `driver/catalog.cc` that put the names given by the application
into the queries on `INFORMATION_SCHEMA`. Each writes the escaped name to a buffer
of 1024 bytes and appends as many bytes as `myodbc_escape_string` returns, without a
look at the value for an overflow. The callers refuse names over `NAME_LEN` first,
so that a name always fits; whether it is read back depends on what it contains.
-/

namespace MatrixOdbc.Driver

open MysqlStrings QuotedText

/-- The bytes of a text of the source. -/
def sqlText (s : String) : List UInt8 := s.toUTF8.data.toList

/-- `NAME_LEN` of `mysql_com.h`. -/
def NAME_LEN : ℕ := 192

/-- A name that is given with its length, an `SQLSMALLINT`, or ended by NUL. `behind` is the
byte in memory behind the name. -/
structure CatalogName where
  bytes : List UInt8
  behind : UInt8
  length_le : bytes.length ≤ 32767

/-- `*name`. -/
def CatalogName.firstByte (name : CatalogName) : UInt8 := name.bytes.headD name.behind

/-- What the escaping needs of the connection. -/
structure CatalogConn where
  cs : Charset
  noBackslashEscapes : Bool
  charIsSigned : Bool

/-- The mode for a string literal. -/
def CatalogConn.mode (conn : CatalogConn) (escWildcard : Bool) : EscapeMode :=
  ⟨false, escWildcard, conn.noBackslashEscapes, conn.charIsSigned⟩

/-- `sizeof(tmpbuff)`, and the length of the buffer of an `ODBC_CATALOG`. -/
def escapeBuffer : ℕ := 1024

/-- The escaped name is written to the buffer, and as many bytes as the function returns are
appended. After an overflow that is `(size_t)-1`, and nothing is defined. -/
def appendEscaped (conn : CatalogConn) (escWildcard : Bool) (query name : List UInt8) :
    Option (List UInt8) :=
  match myodbcEscapeString conn.cs (conn.mode escWildcard) escapeBuffer name with
  | some (text, false) => some (query ++ text)
  | _ => none

/-- `add_name_condition_oa_id` and `add_name_condition_pv_id`, which differ in the operator.
The number is the return value. -/
def addNameCondition (operator : String) (conn : CatalogConn) (metadataId : Bool)
    (query : List UInt8) (name : Option CatalogName) (default : Option String) :
    Option (List UInt8 × ℕ) :=
  match name with
  | some name => do
    let query := query ++ sqlText (if metadataId then "=" else operator)
    let query ← appendEscaped conn false (query ++ sqlText "'") name.bytes
    return (query ++ sqlText "' ", 0)
  | none =>
    match default with
    | some default => some (if metadataId then (query, 1) else (query ++ sqlText default, 0))
    | none => some (query, 1)

/-- `add_name_condition_oa_id`. -/
def addNameConditionOaId : CatalogConn → Bool → List UInt8 → Option CatalogName →
    Option String → Option (List UInt8 × ℕ) :=
  addNameCondition "= BINARY "

/-- `add_name_condition_pv_id`. -/
def addNameConditionPvId : CatalogConn → Bool → List UInt8 → Option CatalogName →
    Option String → Option (List UInt8 × ℕ) :=
  addNameCondition " LIKE BINARY "

/-- `ODBC_CATALOG::add_param`. -/
def addParam (conn : CatalogConn) (query : List UInt8) (qstr : String) (data : CatalogName) :
    Option (List UInt8) := do
  let query ← appendEscaped conn false (query ++ sqlText qstr ++ sqlText "'") data.bytes
  return query ++ sqlText "'"

/-- The condition on the schema in `db_status`. -/
def addSchemaName (conn : CatalogConn) (query db : List UInt8) : Option (List UInt8) :=
  if db.length ≠ 0 then do
    let query ← appendEscaped conn false (query ++ sqlText "SCHEMA_NAME LIKE '") db
    return query ++ sqlText "' "
  else some (query ++ sqlText "SCHEMA_NAME=DATABASE() ")

/-- The condition on the schema in `table_status_i_s`. -/
def addTableSchema (conn : CatalogConn) (query : List UInt8) (dbName : Option CatalogName) :
    Option (List UInt8) :=
  match dbName with
  | some db =>
    if db.firstByte ≠ 0 then do
      let query ← appendEscaped conn false (query ++ sqlText "TABLE_SCHEMA LIKE '") db.bytes
      return query ++ sqlText "' "
    else some (query ++ sqlText "TABLE_SCHEMA=DATABASE() ")
  | none => some (query ++ sqlText "TABLE_SCHEMA=DATABASE() ")

/-- What comes out of a function: a query, the null pointer for an empty result, an error
with its state, or nothing that is defined. -/
inductive CatalogOutcome where
  | query (text : List UInt8)
  | noRows
  | error (sqlstate : String)
  | undefined
  deriving DecidableEq

/-- A query, if one is defined. -/
def CatalogOutcome.ofQuery : Option (List UInt8) → CatalogOutcome
  | some text => .query text
  | none => .undefined

/-- The condition on the table in `table_status_i_s`. As a pattern, an empty name never
matches anything. -/
def addTableName (conn : CatalogConn) (wildcard : Bool) (query : List UInt8)
    (tableName : Option CatalogName) : CatalogOutcome :=
  match tableName with
  | some table =>
    if wildcard ∧ table.firstByte = 0 then .noRows
    else if table.firstByte ≠ 0 then
      .ofQuery do
        let query ← appendEscaped conn (!wildcard) (query ++ sqlText "AND TABLE_NAME LIKE '")
          table.bytes
        return query ++ sqlText "'"
    else .query query
  | none => .query query

/-- The places where a name becomes a condition. `table_status_i_s` is only called for
patterns. -/
inductive NamePlace where
  | oaId (metadataId : Bool) (default : Option String)
  | pvId (metadataId : Bool) (default : Option String)
  | param (qstr : String)
  | schemaName
  | tableSchema
  | tableName

/-- The name is appended at its place. -/
def NamePlace.append (conn : CatalogConn) (query : List UInt8) (name : CatalogName) :
    NamePlace → CatalogOutcome
  | .oaId metadataId default =>
    .ofQuery ((addNameConditionOaId conn metadataId query (some name) default).map Prod.fst)
  | .pvId metadataId default =>
    .ofQuery ((addNameConditionPvId conn metadataId query (some name) default).map Prod.fst)
  | .param qstr => .ofQuery (addParam conn query qstr name)
  | .schemaName => .ofQuery (addSchemaName conn query name.bytes)
  | .tableSchema => .ofQuery (addTableSchema conn query (some name))
  | .tableName => addTableName conn true query (some name)

/-- A call of a catalog function, with `GET_NAME_LEN` for the name. -/
def NamePlace.call (conn : CatalogConn) (query : List UInt8) (name : CatalogName)
    (place : NamePlace) : CatalogOutcome :=
  if NAME_LEN < name.bytes.length then .error "HY090" else place.append conn query name

/-- The condition up to the opening quote. -/
def NamePlace.intro : NamePlace → List UInt8
  | .oaId metadataId _ => sqlText (if metadataId then "=" else "= BINARY ")
  | .pvId metadataId _ => sqlText (if metadataId then "=" else " LIKE BINARY ")
  | .param qstr => sqlText qstr
  | .schemaName => sqlText "SCHEMA_NAME LIKE "
  | .tableSchema => sqlText "TABLE_SCHEMA LIKE "
  | .tableName => sqlText "AND TABLE_NAME LIKE "

/-- The condition behind the closing quote. -/
def NamePlace.outro : NamePlace → List UInt8
  | .param _ | .tableName => []
  | _ => sqlText " "

/-- The condition in place of an empty name, which stands for the current database. -/
def NamePlace.absent : NamePlace → Option (List UInt8)
  | .schemaName => some (sqlText "SCHEMA_NAME=DATABASE() ")
  | .tableSchema => some (sqlText "TABLE_SCHEMA=DATABASE() ")
  | _ => none

/-- The place where the first byte decides whether there is a name. -/
def NamePlace.testsFirstByte : NamePlace → Bool
  | .tableSchema | .tableName => true
  | _ => false

/-- The text between the quotes is read as the name, up to the closing quote. -/
def QuotesName (conn : CatalogConn) (text name : List UInt8) : Prop :=
  ∀ after : List UInt8, after.head? ≠ some 0x27 →
    Reads (mysqlDialect conn.cs (conn.mode false)) (text ++ 0x27 :: after) name after

/-- The condition is a complete quoted literal of the name, or an error is reported. An empty
name may stand for the current database, or for a pattern that matches nothing. -/
def NamePlace.Upholds (conn : CatalogConn) (query : List UInt8) (name : CatalogName)
    (place : NamePlace) : CatalogOutcome → Prop
  | .query text =>
    (∃ literal, text = query ++ place.intro ++ 0x27 :: literal ++ 0x27 :: place.outro ∧
      QuotesName conn literal name.bytes) ∨
    (name.bytes = [] ∧ ∃ condition ∈ place.absent, text = query ++ condition)
  | .noRows => name.bytes = []
  | .error _ => True
  | .undefined => False

variable {conn : CatalogConn} {query : List UInt8} {name : CatalogName} {place : NamePlace}

/-- From any round of the loop on, the rest of the text is written, or there is an overflow
because it does not fit. -/
theorem returns_escape (cs : Charset) (m : EscapeMode) {room : ℕ} (s : List UInt8)
    {text : List UInt8} (htext : text.length ≤ room) :
    ∃ out, WhileLoop.Returns (escapeBody cs m room) ⟨s, text⟩ out ∧
      if text.length + (escapeText cs m s).length ≤ room then
        out = (text ++ escapeText cs m s, false) else out.2 = true := by
  induction s using escapeText.induct cs generalizing text with
  | case1 =>
    refine ⟨(text, false), WhileLoop.returns_of_done rfl, ?_⟩
    rw [escapeText, List.length_nil, Nat.add_zero, if_pos htext, List.append_nil]
  | case2 c s ih =>
    have hbody : escapeBody cs m room ⟨c :: s, text⟩ = _ := escapeBody_cons room text
    rw [escapeText, List.length_append, ← Nat.add_assoc]
    by_cases hfull : room < text.length + (escapeToken cs m (c :: s)).length
    · rw [if_pos hfull] at hbody
      refine ⟨(text, true), WhileLoop.returns_of_done hbody, ?_⟩
      rw [if_neg (by omega)]
    · rw [if_neg hfull] at hbody
      have hroom : (text ++ escapeToken cs m (c :: s)).length ≤ room := by
        rw [List.length_append]
        omega
      obtain ⟨out, hreturns, hout⟩ := ih hroom
      refine ⟨out, (WhileLoop.returns_next_iff hbody).mpr hreturns, ?_⟩
      rwa [List.length_append, List.append_assoc] at hout

/-- What is appended is the whole escaped name, when it fits the buffer with a terminator. -/
theorem appendEscaped_eq (conn : CatalogConn) (escWildcard : Bool) (query name : List UInt8) :
    appendEscaped conn escWildcard query name =
      if (escapeText conn.cs (conn.mode escWildcard) name).length < escapeBuffer then
        some (query ++ escapeText conn.cs (conn.mode escWildcard) name) else none := by
  generalize hm : conn.mode escWildcard = m
  have hroom : escapeRoom escapeBuffer name.length = 1023 := rfl
  have hempty : ([] : List UInt8).length ≤ 1023 := Nat.zero_le _
  obtain ⟨out, hreturns, hout⟩ := returns_escape conn.cs m name hempty
  obtain ⟨r, hrun⟩ : ∃ r, WhileLoop.run (escapeBody conn.cs m 1023) (name.length + 1)
      ⟨name, []⟩ = some r :=
    WhileLoop.run_eq_some_of_measure (fun st => st.source.length)
      (fun _ _ _ hnext => escapeBody_next hnext) (Nat.lt_succ_self _)
  obtain rfl : r = out := WhileLoop.Returns.unique ⟨_, hrun⟩ hreturns
  rw [List.length_nil, Nat.zero_add, List.nil_append] at hout
  rw [appendEscaped, hm, myodbcEscapeString, hroom, hrun]
  have hbuffer : (escapeText conn.cs m name).length < escapeBuffer ↔
      (escapeText conn.cs m name).length ≤ 1023 := by
    unfold escapeBuffer
    omega
  by_cases hfits : (escapeText conn.cs m name).length ≤ 1023
  · rw [if_pos hfits] at hout
    rw [if_pos (hbuffer.mpr hfits), hout]
  · rw [if_neg hfits] at hout
    obtain ⟨text, overflow⟩ := r
    obtain rfl : overflow = true := hout
    rw [if_neg (fun h => hfits (hbuffer.mp h))]

/-- A name that the calls let through is escaped within the buffer. -/
theorem escapeText_fits (conn : CatalogConn) (escWildcard : Bool) {name : List UInt8}
    (hlen : name.length ≤ NAME_LEN) :
    (escapeText conn.cs (conn.mode escWildcard) name).length < escapeBuffer := by
  have := escapeText_length_le conn.cs (conn.mode escWildcard) name
  unfold NAME_LEN escapeBuffer at *
  omega

/-- The escaped text is read as the name exactly if the name is clean. -/
theorem quotesName_escapeText_iff (conn : CatalogConn) (name : List UInt8) :
    QuotesName conn (escapeText conn.cs (conn.mode false) name) name ↔
      Clean conn.cs (conn.mode false) name := by
  have hread (after : List UInt8) (hafter : after.head? ≠ some 0x27) :
      Reads (mysqlDialect conn.cs (conn.mode false))
        (escapeText conn.cs (conn.mode false) name ++ 0x27 :: after) name after ↔
        Clean conn.cs (conn.mode false) name :=
    reads_quotedText_iff hafter
  constructor
  · intro h
    exact (hread [] (by simp)).mp (h [] (by simp))
  · intro h after hafter
    exact (hread after hafter).mpr h

/-- The query with the escaped name at its place. -/
def NamePlace.quoted (conn : CatalogConn) (query name : List UInt8) (place : NamePlace) :
    List UInt8 :=
  query ++ place.intro ++ 0x27 :: escapeText conn.cs (conn.mode false) name ++
    0x27 :: place.outro

/-- Where a name is written, it is the escaped text between quotes. -/
theorem NamePlace.append_eq (conn : CatalogConn) (query : List UInt8) (name : CatalogName)
    (place : NamePlace) (hschema : place.absent.isSome → name.bytes ≠ [] ∨ place.testsFirstByte)
    (hfirst : place.testsFirstByte = true → name.firstByte ≠ 0) :
    place.append conn query name =
      if (escapeText conn.cs (conn.mode false) name.bytes).length < escapeBuffer then
        .query (place.quoted conn query name.bytes) else .undefined := by
  have hquote : sqlText "'" = [0x27] := rfl
  have hclose : sqlText "' " = [0x27, 0x20] := rfl
  have hspace : sqlText " " = [0x20] := rfl
  cases place with
  | oaId metadataId default =>
    simp only [append, addNameConditionOaId, addNameCondition, appendEscaped_eq]
    split_ifs <;> simp [quoted, intro, outro, CatalogOutcome.ofQuery, *]
  | pvId metadataId default =>
    simp only [append, addNameConditionPvId, addNameCondition, appendEscaped_eq]
    split_ifs <;> simp [quoted, intro, outro, CatalogOutcome.ofQuery, *]
  | param qstr =>
    simp only [append, addParam, appendEscaped_eq]
    split_ifs <;> simp [quoted, intro, outro, CatalogOutcome.ofQuery, *]
  | schemaName =>
    have hname : name.bytes.length ≠ 0 := by
      rcases hschema rfl with h | h
      · exact List.length_eq_zero_iff.not.mpr h
      · exact absurd h (by decide)
    have hintro : sqlText "SCHEMA_NAME LIKE '" = sqlText "SCHEMA_NAME LIKE " ++ [0x27] := rfl
    simp only [append, addSchemaName, if_pos hname, appendEscaped_eq, hintro]
    split_ifs <;> simp [quoted, intro, outro, CatalogOutcome.ofQuery, *]
  | tableSchema =>
    have hintro : sqlText "TABLE_SCHEMA LIKE '" = sqlText "TABLE_SCHEMA LIKE " ++ [0x27] := rfl
    simp only [append, addTableSchema, if_pos (hfirst rfl), appendEscaped_eq, hintro]
    split_ifs <;> simp [quoted, intro, outro, CatalogOutcome.ofQuery, *]
  | tableName =>
    have hintro : sqlText "AND TABLE_NAME LIKE '" = sqlText "AND TABLE_NAME LIKE " ++ [0x27] :=
      rfl
    simp only [append, addTableName, hfirst rfl, and_false, if_false, ne_eq, not_false_eq_true,
      if_true, Bool.not_true, appendEscaped_eq, hintro]
    split_ifs <;> simp [quoted, intro, outro, CatalogOutcome.ofQuery, *]

/-- An empty name is fine as far as its bytes go. -/
theorem empty_name_fine (conn : CatalogConn) (place : NamePlace) :
    (place.testsFirstByte = true → ([] : List UInt8).head? ≠ some 0) ∧
      (escapeText conn.cs (conn.mode false) []).length < escapeBuffer ∧
        Clean conn.cs (conn.mode false) [] := by
  refine ⟨by simp, ?_, clean_nil⟩
  rw [escapeText]
  decide

/-- A query with the escaped name between quotes is right when the name is clean. -/
theorem NamePlace.upholds_quoted_iff (conn : CatalogConn) (query : List UInt8)
    (name : CatalogName) (place : NamePlace) :
    place.Upholds conn query name (.query (place.quoted conn query name.bytes)) ↔
      Clean conn.cs (conn.mode false) name.bytes := by
  rw [← quotesName_escapeText_iff]
  constructor
  · rintro (⟨literal, heq, hquotes⟩ | ⟨hempty, -⟩)
    · have hliteral : escapeText conn.cs (conn.mode false) name.bytes = literal := by
        rw [quoted] at heq
        simpa using heq
      rwa [hliteral]
    · rw [hempty]
      exact (quotesName_escapeText_iff conn []).mpr clean_nil
  · intro hquotes
    exact Or.inl ⟨_, rfl, hquotes⟩

/-- A name that begins with NUL where the first byte decides is taken for an empty one. -/
theorem NamePlace.append_firstByte (conn : CatalogConn) (query : List UInt8)
    (name : CatalogName) (place : NamePlace) (htests : place.testsFirstByte = true)
    (hfirst : name.firstByte = 0) :
    place.Upholds conn query name (place.append conn query name) ↔ name.bytes = [] := by
  cases place with
  | tableSchema =>
    simp only [append, addTableSchema, hfirst, ne_eq, not_true, if_false,
      CatalogOutcome.ofQuery]
    constructor
    · rintro (⟨literal, heq, -⟩ | ⟨hempty, -⟩)
      · rw [List.append_assoc, List.append_assoc] at heq
        have hcondition := List.append_cancel_left heq
        have hlong : 13 ≤ (tableSchema.intro).length := by decide
        have hstart := congrArg (List.take 13) hcondition
        rw [List.take_append_of_le_length hlong] at hstart
        exact absurd hstart (by decide)
      · exact hempty
    · intro hempty
      exact Or.inr ⟨hempty, _, rfl, rfl⟩
  | tableName => simp [append, addTableName, hfirst, Upholds]
  | _ => simp [testsFirstByte] at htests

/-- Each function appends a complete literal of the name exactly if the escaped name fits
the buffer, the name is clean, and it does not look empty. -/
theorem NamePlace.append_upholds_iff (conn : CatalogConn) (query : List UInt8)
    (name : CatalogName) (place : NamePlace) :
    place.Upholds conn query name (place.append conn query name) ↔
      (place.testsFirstByte = true → name.bytes.head? ≠ some 0) ∧
        (escapeText conn.cs (conn.mode false) name.bytes).length < escapeBuffer ∧
          Clean conn.cs (conn.mode false) name.bytes := by
  by_cases hfirst : place.testsFirstByte = true → name.firstByte ≠ 0
  · by_cases hschema : place.absent.isSome → name.bytes ≠ [] ∨ place.testsFirstByte
    · have hhead : place.testsFirstByte = true → name.bytes.head? ≠ some 0 := by
        intro htests hhead
        exact hfirst htests (by simp [CatalogName.firstByte, List.headD_eq_head?_getD, hhead])
      rw [append_eq conn query name place hschema hfirst]
      split_ifs with hfits
      · rw [upholds_quoted_iff]
        exact ⟨fun hclean => ⟨hhead, hfits, hclean⟩, fun h => h.2.2⟩
      · simp [Upholds, hfits]
    · -- an empty name for the condition of `db_status`
      obtain ⟨habsent, hempty, htests⟩ : place.absent.isSome ∧ name.bytes = [] ∧
          ¬ place.testsFirstByte := by
        simpa using hschema
      rw [hempty]
      refine iff_of_true ?_ (empty_name_fine conn place)
      cases place with
      | schemaName =>
        rw [append, addSchemaName, hempty]
        exact Or.inr ⟨hempty, _, rfl, rfl⟩
      | tableSchema => exact absurd rfl htests
      | _ => simp [absent] at habsent
  · obtain ⟨htests, hzero⟩ : place.testsFirstByte = true ∧ name.firstByte = 0 := by
      simpa using hfirst
    rw [append_firstByte conn query name place htests hzero]
    constructor
    · intro hempty
      rw [hempty]
      exact empty_name_fine conn place
    · rintro ⟨hhead, -, -⟩
      cases hbytes : name.bytes with
      | nil => rfl
      | cons c s =>
        rw [CatalogName.firstByte, hbytes] at hzero
        exact absurd (by rw [hbytes, List.head?_cons]; exact congrArg some hzero) (hhead htests)

/-- For every connection, every place and every name, the call appends a complete literal of
the name or reports an error exactly if a name that is not too long is clean and, where the
first byte decides, does not begin with NUL. -/
theorem NamePlace.call_upholds_iff (conn : CatalogConn) (query : List UInt8)
    (name : CatalogName) (place : NamePlace) :
    place.Upholds conn query name (place.call conn query name) ↔
      (name.bytes.length ≤ NAME_LEN →
        (place.testsFirstByte = true → name.bytes.head? ≠ some 0) ∧
          Clean conn.cs (conn.mode false) name.bytes) := by
  rw [NamePlace.call]
  split_ifs with hlong
  · simp [NamePlace.Upholds, not_le.mpr hlong]
  · have hlen := not_lt.mp hlong
    rw [append_upholds_iff]
    simp [hlen, escapeText_fits conn false hlen]

/-- In `gb18030`, the name `81 0a` is read back as another one where it is appended; and a
name in `utf8mb4` that begins with NUL is taken for the current database. -/
theorem NamePlace.call_not_upholds :
    ¬ (NamePlace.oaId false none).Upholds ⟨gb18030, false, true⟩ [] ⟨[0x81, 0x0a], 0, by decide⟩
        ((NamePlace.oaId false none).call ⟨gb18030, false, true⟩ [] ⟨[0x81, 0x0a], 0, by decide⟩) ∧
      ¬ NamePlace.tableSchema.Upholds ⟨charsetUtf8 true, false, true⟩ []
        ⟨[0, 0x61], 0, by decide⟩
        (NamePlace.tableSchema.call ⟨charsetUtf8 true, false, true⟩ []
          ⟨[0, 0x61], 0, by decide⟩) := by
  constructor
  · rw [call, if_neg (by decide), append_upholds_iff]
    rintro ⟨-, -, hclean⟩
    exact absurd (clean_iff.mp hclean).1 (by decide)
  · rw [call, if_neg (by decide), append_upholds_iff]
    rintro ⟨hhead, -, -⟩
    exact hhead rfl rfl

end MatrixOdbc.Driver
