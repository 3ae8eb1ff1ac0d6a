import MatrixOdbc.Driver.CatalogCondition
import MatrixOdbc.Driver.WhereFaithful

/-!
# Names in the statements of a cursor

`myodbc_append_quoted_name_std` of `driver/utility.cc` and the statements that
`driver/cursor.cc` builds for the row a cursor is on: `DELETE` and `UPDATE` of `my_SQLSetPos`
with `build_set_clause_std` and the WHERE clause, its `INSERT`, and the clause behind a
positioned statement. A name is put between backquotes as it is, and only the `INSERT`
names the database.
-/

namespace MatrixOdbc.Driver

open QuotedText

/-- `myodbc_append_quoted_name_std`. -/
def appendQuotedName (str name : List UInt8) : List UInt8 := str ++ [0x60] ++ name ++ [0x60]

/-- What `build_set_clause_std` finds for a column: it is left out, its value cannot be copied, or
`copy_rowdata` leaves a text in the buffer, to which it adds a comma. -/
inductive SetValue where
  | ignored
  | failed
  | copied (text : List UInt8)

/-- A column in `build_set_clause_std`. -/
structure SetColumn where
  orgName : List UInt8
  value : SetValue

/-- The loop of `build_set_clause_std`, with the number of columns left out. -/
def setLoop : List SetColumn → List UInt8 → ℕ → Option (List UInt8 × ℕ)
  | [], query, ignoreCount => some (query, ignoreCount)
  | column :: columns, query, ignoreCount =>
    match column.value with
    | .ignored => setLoop columns query (ignoreCount + 1)
    | .failed => none
    | .copied text =>
      setLoop columns (appendQuotedName query column.orgName ++ [0x3d] ++ (text ++ [0x2c]))
        ignoreCount

/-- `build_set_clause_std`. There is no clause if all columns are left out. -/
def buildSetClause (columns : List SetColumn) (query : List UInt8) : Option (List UInt8) :=
  (setLoop columns (query ++ sqlText " SET ") 0).bind fun r =>
    if r.2 = columns.length then none else some r.1.dropLast

/-- The list of columns of an `INSERT`. -/
def insertNames : List (List UInt8) → List UInt8 → List UInt8
  | [], query => query
  | [name], query => appendQuotedName query name
  | name :: name' :: names, query =>
    insertNames (name' :: names) (appendQuotedName query name ++ [0x2c])

/-- The beginning of the `INSERT` of `my_SQLSetPos`. -/
def insertHead (db table : List UInt8) (names : List (List UInt8)) : List UInt8 :=
  let query := sqlText "INSERT INTO "
  let query := if db ≠ [] then appendQuotedName query db ++ [0x2e] else query
  insertNames names (appendQuotedName query table ++ [0x28]) ++ sqlText ") VALUES "

/-- The result set of a cursor with a current row, the database of its first column, and the
database of the connection. -/
structure CursorContext where
  call : WhereCall
  columns : List CurrentColumn
  columns_eq : call.columns = some columns
  db : List UInt8
  currentDb : List UInt8
  srcOffset : Option ℕ

/-- The database of the table, which is that of the connection if the columns do not say. -/
def CursorContext.database (ctx : CursorContext) : List UInt8 :=
  if ctx.db = [] then ctx.currentDb else ctx.db

/-- The WHERE clause behind a text. -/
def CursorContext.addWhere (ctx : CursorContext) (query : List UInt8) : Option (List UInt8) :=
  match ctx.call.buildWhereClause query ⟨[], ctx.srcOffset⟩ with
  | .ok (some p) => some p.1
  | _ => none

/-- What is done with the row: `SQL_DELETE` and `SQL_UPDATE`, also by bookmark, `SQL_ADD` with the
text of its rows, and the text of a positioned statement without its own clause. -/
inductive CursorQuery where
  | delete
  | update (columns : List SetColumn)
  | insert (rows : List UInt8)
  | positioned (text : List UInt8)

namespace CursorQuery

/-- The statement that is sent. -/
def build (ctx : CursorContext) : CursorQuery → Option (List UInt8)
  | delete => (ctx.call.findUsedTable ctx.columns).bind fun table =>
      ctx.addWhere (appendQuotedName (sqlText "DELETE FROM ") table)
  | update columns => (ctx.call.findUsedTable ctx.columns).bind fun table =>
      (buildSetClause columns (appendQuotedName (sqlText "UPDATE ") table)).bind ctx.addWhere
  | insert rows => (ctx.call.findUsedTable ctx.columns).map fun table =>
      insertHead ctx.db table (ctx.columns.map CurrentColumn.orgName) ++ rows
  | positioned text => ctx.addWhere text

/-- The text in front of the first name. -/
def head : CursorQuery → List UInt8
  | delete => sqlText "DELETE FROM "
  | update _ => sqlText "UPDATE "
  | insert _ => sqlText "INSERT INTO "
  | positioned text => text ++ whereText

/-- The names of the columns of the WHERE clause. -/
def whereNames (ctx : CursorContext) : List (List UInt8) :=
  (ctx.call.usedColumns ctx.columns).map CurrentColumn.orgName

/-- The column is set. -/
def setName (column : SetColumn) : Option (List UInt8) :=
  match column.value with
  | .copied _ => some column.orgName
  | _ => none

/-- The names that are meant: the table, with its database in an `INSERT`, and the columns. -/
def names (ctx : CursorContext) : CursorQuery → List (List UInt8)
  | delete => (ctx.call.findUsedTable ctx.columns).getD [] :: whereNames ctx
  | update columns => (ctx.call.findUsedTable ctx.columns).getD [] ::
      (columns.filterMap setName ++ whereNames ctx)
  | insert _ => (if ctx.db ≠ [] then [ctx.db] else []) ++
      (ctx.call.findUsedTable ctx.columns).getD [] :: ctx.columns.map CurrentColumn.orgName
  | positioned _ => whereNames ctx

/-- The database in which the server looks for the table. -/
def database (ctx : CursorContext) : CursorQuery → List UInt8
  | insert _ => if ctx.db ≠ [] then ctx.db else ctx.currentDb
  | positioned _ => ctx.database
  | _ => ctx.currentDb

/-- The statement names a table without its database. -/
def Unqualified : CursorQuery → Prop
  | delete => True
  | update _ => True
  | _ => False

end CursorQuery

/-- A name and the text behind it. -/
structure NamedText where
  name : List UInt8
  behind : List UInt8

/-- Names as the driver quotes them, each with the text behind it. -/
def namedTexts (segs : List NamedText) : List UInt8 :=
  segs.flatMap fun s => quotedName s.name ++ s.behind

/-- The text behind a name does not begin with a backquote. -/
def NamedText.Delimited (s : NamedText) : Prop := ∃ c t, s.behind = c :: t ∧ c ≠ 0x60

/-- The server reads a name at the front of a text. -/
def ReadsName (env : ParamEnv) (text name rest : List UInt8) : Prop :=
  ∃ t, text = 0x60 :: t ∧ QuotedText.Reads (mysqlDialect env.cs env.identifierMode) t name rest

/-- The server reads one name after the other, each up to the text behind it. -/
def ReadsNames (env : ParamEnv) : List NamedText → Prop
  | [] => True
  | s :: segs => ReadsName env (namedTexts (s :: segs)) s.name (s.behind ++ namedTexts segs) ∧
      ReadsNames env segs

/-- The statement is the head and the names, each with a text behind it; the server reads the
names as what they are, and the table is in the database that is meant. -/
def CursorQuery.NamesIntended (q : CursorQuery) (ctx : CursorContext) (statement : List UInt8) :
    Prop :=
  (∃ segs, statement = q.head ++ namedTexts segs ∧ segs.map NamedText.name = q.names ctx ∧
    (∀ s ∈ segs, s.Delimited) ∧ ReadsNames ctx.call.env segs) ∧
  q.database ctx = ctx.database

variable {env : ParamEnv} {call : WhereCall} {ctx : CursorContext} {segs : List NamedText}
  {name rest str query text : List UInt8} {offset : Option ℕ}

/-- What is appended is the quoted name. -/
theorem appendQuotedName_eq (str name : List UInt8) : appendQuotedName str name = str ++ quotedName name := by
  simp [appendQuotedName, quotedName]

/-- A quoted name is read as the name exactly if no backquote ends it. -/
theorem readsName_iff (hrest : rest.head? ≠ some 0x60) :
    ReadsName env (quotedName name ++ rest) name rest ↔ PlainName env.cs name := by
  have htext : quotedName name ++ rest = 0x60 :: (name ++ 0x60 :: rest) := by simp [quotedName]
  have hread : QuotedText.Reads (mysqlDialect env.cs env.identifierMode) (name ++ 0x60 :: rest)
      name rest ↔ _ := reads_name_iff rfl hrest
  rw [ReadsName, htext]
  constructor
  · rintro ⟨t, ht, h⟩
    rw [← (List.cons.inj ht).2] at h
    exact (hread.mp h).1
  · exact fun h => ⟨_, rfl, hread.mpr ⟨h, rfl⟩⟩

/-- So names are read as themselves exactly if all of them are plain. -/
theorem readsNames_iff (hdelimited : ∀ s ∈ segs, s.Delimited) :
    ReadsNames env segs ↔ ∀ s ∈ segs, PlainName env.cs s.name := by
  induction segs with
  | nil => exact iff_of_true trivial fun s hs => absurd hs List.not_mem_nil
  | cons s segs ih =>
    obtain ⟨c, t, hbehind, hc⟩ := hdelimited s List.mem_cons_self
    have hhead : (s.behind ++ namedTexts segs).head? ≠ some 0x60 := by
      rw [hbehind, List.cons_append, List.head?_cons]
      exact fun h => hc (Option.some_inj.mp h)
    have htext : namedTexts (s :: segs) = quotedName s.name ++ (s.behind ++ namedTexts segs) := by
      rw [namedTexts, List.flatMap_cons, List.append_assoc, namedTexts]
    rw [ReadsNames, htext, readsName_iff hhead, ih fun s' hs' => hdelimited s' (List.mem_cons_of_mem _ hs'),
      List.forall_mem_cons]

/-- What is added for a column begins with its name, and nothing is left in the buffer. -/
theorem insertField_named {column : CurrentColumn} {p : List UInt8 × ParamBuffer}
    (hok : call.insertField column (str ++ quotedName column.orgName ++ [0x3d]) ⟨[], offset⟩ =
      .ok p) :
    ∃ s : NamedText, s.name = column.orgName ∧ s.Delimited ∧
      p.1 = str ++ (quotedName s.name ++ s.behind) ++ andText ∧ p.2.buf = [] := by
  rw [WhereCall.insertField] at hok
  cases htext : call.getString column with
  | none =>
    rw [htext] at hok
    obtain rfl := Except.ok.inj hok
    refine ⟨⟨column.orgName, isNullText⟩, rfl, ⟨_, _, rfl, by decide⟩, ?_, rfl⟩
    simp
  | some value =>
    rw [htext] at hok
    dsimp only at hok
    cases hinsert : insertParam call.env (getSqlDataType call.types column.field) (cStringOf value)
      ⟨[], offset⟩ with
    | error =>
      rw [hinsert] at hok
      cases hok
    | ok st =>
      rw [hinsert] at hok
      obtain rfl := Except.ok.inj hok
      refine ⟨⟨column.orgName, 0x3d :: st.buf⟩, rfl, ⟨_, _, rfl, by decide⟩, ?_, rfl⟩
      simp [ParamBuffer.add]

/-- What is added for all columns. -/
theorem insertColumns_named {used : List CurrentColumn} {p : List UInt8 × ParamBuffer}
    (hok : insertColumns call used str ⟨[], offset⟩ = .ok p) :
    ∃ segs : List NamedText, segs.map NamedText.name = used.map CurrentColumn.orgName ∧
      (∀ s ∈ segs, s.Delimited) ∧
      p.1 = str ++ segs.flatMap fun s => quotedName s.name ++ s.behind ++ andText := by
  induction used generalizing str offset with
  | nil =>
    obtain rfl := Except.ok.inj hok
    exact ⟨[], rfl, fun s hs => absurd hs List.not_mem_nil, by simp⟩
  | cons column used ih =>
    rw [insertColumns] at hok
    cases hinsert : call.insertField column (str ++ quotedName column.orgName ++ [0x3d])
      ⟨[], offset⟩ with
    | error =>
      rw [hinsert] at hok
      cases hok
    | ok q =>
      rw [hinsert] at hok
      obtain ⟨s, hname, hdelimited, hq, hbuf⟩ := insertField_named hinsert
      obtain ⟨str', buf, offset'⟩ := q
      dsimp only at hq hbuf
      subst hbuf
      obtain ⟨segs, hnames, hall, hp⟩ := ih hok
      refine ⟨s :: segs, ?_, ?_, ?_⟩
      · rw [List.map_cons, List.map_cons, hname, hnames]
      · exact List.forall_mem_cons.mpr ⟨hdelimited, hall⟩
      · rw [hp, hq, List.flatMap_cons]
        simp only [List.append_assoc]

/-- The texts with something between them and something behind the last one. -/
def closeTerms (sep tail : List UInt8) : List NamedText → List NamedText
  | [] => []
  | [s] => [⟨s.name, s.behind ++ tail⟩]
  | s :: s' :: segs => ⟨s.name, s.behind ++ sep⟩ :: closeTerms sep tail (s' :: segs)

/-- The names stay. -/
theorem closeTerms_names (sep tail : List UInt8) (segs : List NamedText) :
    (closeTerms sep tail segs).map NamedText.name = segs.map NamedText.name := by
  induction segs using closeTerms.induct with
  | case1 => rfl
  | case2 => rfl
  | case3 s s' segs ih =>
    rw [closeTerms, List.map_cons, ih]
    rfl

/-- The separator behind the last text is replaced. -/
theorem namedTexts_closeTerms (sep tail : List UInt8) (hne : segs ≠ []) :
    ∃ body, (segs.flatMap fun s => quotedName s.name ++ s.behind ++ sep) = body ++ sep ∧
      namedTexts (closeTerms sep tail segs) = body ++ tail := by
  induction segs using closeTerms.induct with
  | case1 => exact absurd rfl hne
  | case2 s => exact ⟨quotedName s.name ++ s.behind, by simp, by simp [closeTerms, namedTexts]⟩
  | case3 s s' segs ih =>
    obtain ⟨body, hbody, hclosed⟩ := ih (List.cons_ne_nil _ _)
    refine ⟨quotedName s.name ++ s.behind ++ sep ++ body, ?_, ?_⟩
    · rw [List.flatMap_cons, hbody]
      simp only [List.append_assoc]
    · rw [closeTerms, namedTexts, List.flatMap_cons]
      rw [namedTexts] at hclosed
      rw [hclosed]
      simp only [List.append_assoc]

/-- With what is put behind them the texts do not begin with a backquote. -/
theorem closeTerms_delimited {sep tail : List UInt8}
    (hsep : ∀ s : NamedText, s ∈ segs → (⟨s.name, s.behind ++ sep⟩ : NamedText).Delimited)
    (htail : ∀ s : NamedText, s ∈ segs → (⟨s.name, s.behind ++ tail⟩ : NamedText).Delimited) :
    ∀ s ∈ closeTerms sep tail segs, s.Delimited := by
  induction segs using closeTerms.induct with
  | case1 => exact fun s hs => absurd hs List.not_mem_nil
  | case2 s =>
    rw [closeTerms, List.forall_mem_singleton]
    exact htail s List.mem_cons_self
  | case3 s s' segs ih =>
    rw [closeTerms, List.forall_mem_cons]
    exact ⟨hsep s List.mem_cons_self, ih (fun s'' hs'' => hsep s'' (List.mem_cons_of_mem _ hs''))
      fun s'' hs'' => htail s'' (List.mem_cons_of_mem _ hs'')⟩

/-- A text stays delimited with something behind it. -/
theorem NamedText.Delimited.append {s : NamedText} (h : s.Delimited) (tail : List UInt8) :
    (⟨s.name, s.behind ++ tail⟩ : NamedText).Delimited := by
  obtain ⟨c, t, hbehind, hc⟩ := h
  exact ⟨c, t ++ tail, by rw [hbehind, List.cons_append], hc⟩

/-- The clause is ` WHERE ` and the names of the columns, each with a text behind it. -/
theorem CursorContext.addWhere_named {statement : List UInt8} (h : ctx.addWhere query = some statement) :
    ∃ segs, statement = query ++ whereText ++ namedTexts segs ∧
      segs.map NamedText.name = CursorQuery.whereNames ctx ∧ ∀ s ∈ segs, s.Delimited := by
  rw [CursorContext.addWhere, WhereCall.buildWhereClause, ctx.columns_eq] at h
  dsimp only at h
  cases hterms : ctx.call.insertTerms ctx.columns (query ++ whereText) ⟨[], ctx.srcOffset⟩ with
  | error =>
    rw [hterms] at h
    cases h
  | ok p =>
    rw [hterms] at h
    have hinsert : insertColumns ctx.call (ctx.call.usedColumns ctx.columns) (query ++ whereText)
        ⟨[], ctx.srcOffset⟩ = .ok p := by
      obtain ⟨sqlstate, message, herror⟩ | heq :=
        insertTerms_eq ctx.call ctx.columns (query ++ whereText) ctx.srcOffset
      · rw [herror] at hterms
        cases hterms
      · rw [← heq, hterms]
    obtain ⟨segs, hnames, hall, hp⟩ := insertColumns_named hinsert
    have hne : segs ≠ [] := by
      rintro rfl
      exact usedColumns_ne_nil hterms (List.map_eq_nil_iff.mp hnames.symm)
    obtain ⟨body, hbody, hclosed⟩ := namedTexts_closeTerms andText ctx.call.limitText hne
    refine ⟨closeTerms andText ctx.call.limitText segs, ?_, ?_, ?_⟩
    · rw [hbody] at hp
      have hlen : p.1.length = (query ++ whereText ++ body).length + 5 := by
        rw [hp, ← List.append_assoc, List.length_append]
        rfl
      have hlong : 5 < p.1.length := by
        rw [hlen, List.length_append, List.length_append]
        have hwhere : whereText.length = 7 := rfl
        omega
      have hcut : p.1.take (p.1.length - 5) = query ++ whereText ++ body := by
        rw [hlen, Nat.add_sub_cancel, hp, ← List.append_assoc, List.take_left]
      have hstatement : (if 5 < p.1.length then p.1.take (p.1.length - 5) else p.1) ++
          ctx.call.limitText = statement := Option.some_inj.mp h
      rw [← hstatement, if_pos hlong, hcut, hclosed]
      simp only [List.append_assoc]
    · rw [closeTerms_names, hnames]
      rfl
    · exact closeTerms_delimited (fun s hs => (hall s hs).append _) fun s hs => (hall s hs).append _

/-- What the loop adds for the columns that are set. -/
theorem setLoop_named {columns : List SetColumn} {n : ℕ} {r : List UInt8 × ℕ}
    (h : setLoop columns query n = some r) :
    ∃ segs : List NamedText, r.1 = query ++ (segs.flatMap fun s => quotedName s.name ++ s.behind ++ [0x2c]) ∧
      segs.map NamedText.name = columns.filterMap CursorQuery.setName ∧
      (∀ s ∈ segs, s.Delimited) ∧ r.2 + segs.length = n + columns.length := by
  induction columns generalizing query n with
  | nil =>
    obtain rfl := Option.some_inj.mp h
    exact ⟨[], by simp, rfl, fun s hs => absurd hs List.not_mem_nil, rfl⟩
  | cons column columns ih =>
    rw [setLoop] at h
    cases hvalue : column.value with
    | failed =>
      rw [hvalue] at h
      cases h
    | ignored =>
      rw [hvalue] at h
      obtain ⟨segs, hr, hnames, hall, hcount⟩ := ih h
      have hname : CursorQuery.setName column = none := by rw [CursorQuery.setName, hvalue]
      refine ⟨segs, hr, ?_, hall, ?_⟩
      · rw [List.filterMap_cons_none hname, hnames]
      · rw [hcount, List.length_cons]
        omega
    | copied text =>
      rw [hvalue] at h
      obtain ⟨segs, hr, hnames, hall, hcount⟩ := ih h
      have hname : CursorQuery.setName column = some column.orgName := by
        rw [CursorQuery.setName, hvalue]
      refine ⟨⟨column.orgName, 0x3d :: text⟩ :: segs, ?_, ?_, ?_, ?_⟩
      · rw [hr, appendQuotedName_eq, List.flatMap_cons]
        simp
      · rw [List.filterMap_cons_some hname, List.map_cons, hnames]
      · exact List.forall_mem_cons.mpr ⟨⟨_, _, rfl, by decide⟩, hall⟩
      · rw [List.length_cons, List.length_cons]
        omega

/-- The clause without its last comma. -/
theorem buildSetClause_named {columns : List SetColumn} {clause : List UInt8} (tail : List UInt8)
    (h : buildSetClause columns query = some clause) :
    ∃ segs, clause ++ tail = query ++ sqlText " SET " ++ namedTexts segs ∧
      segs.map NamedText.name = columns.filterMap CursorQuery.setName ∧
      ∀ s ∈ segs, s.Delimited := by
  rw [buildSetClause] at h
  cases hloop : setLoop columns (query ++ sqlText " SET ") 0 with
  | none =>
    rw [hloop] at h
    cases h
  | some r =>
    rw [hloop, Option.bind_some] at h
    split_ifs at h with hall
    obtain ⟨segs, hr, hnames, hdelimited, hcount⟩ := setLoop_named hloop
    obtain rfl := Option.some_inj.mp h
    have hne : segs ≠ [] := by
      rintro rfl
      rw [List.length_nil] at hcount
      omega
    obtain ⟨body, hbody, hclosed⟩ := namedTexts_closeTerms [0x2c] tail hne
    refine ⟨closeTerms [0x2c] tail segs, ?_, ?_, ?_⟩
    · rw [hr, hbody, ← List.append_assoc, List.dropLast_concat, hclosed, List.append_assoc]
    · rw [closeTerms_names, hnames]
    · exact closeTerms_delimited (fun s hs => (hdelimited s hs).append _)
        fun s hs => (hdelimited s hs).append _

/-- The names of the columns, with commas between them. -/
theorem insertNames_named (names : List (List UInt8)) (query tail : List UInt8) (hne : names ≠ []) :
    insertNames names query ++ tail =
      query ++ namedTexts (closeTerms [0x2c] tail (names.map fun name => ⟨name, []⟩)) := by
  induction names, query using insertNames.induct with
  | case1 => exact absurd rfl hne
  | case2 query name => simp [insertNames, closeTerms, namedTexts, appendQuotedName_eq]
  | case3 query name name' names ih =>
    have hrest := ih (List.cons_ne_nil _ _)
    rw [List.map_cons, namedTexts] at hrest
    rw [insertNames, hrest, List.map_cons, List.map_cons, closeTerms, namedTexts, List.flatMap_cons,
      appendQuotedName_eq]
    simp only [List.append_assoc, List.nil_append]

/-- The names of an `INSERT`, each with the text behind it. -/
theorem insertHead_named (db table : List UInt8) (names : List (List UInt8)) (rows : List UInt8) :
    ∃ segs, insertHead db table names ++ rows = sqlText "INSERT INTO " ++ namedTexts segs ∧
      segs.map NamedText.name = (if db ≠ [] then [db] else []) ++ table :: names ∧
      ∀ s ∈ segs, s.Delimited := by
  have htable : ∃ segs, (∀ query, insertNames names (appendQuotedName query table ++ [0x28]) ++
      (sqlText ") VALUES " ++ rows) = query ++ namedTexts segs) ∧
      segs.map NamedText.name = table :: names ∧ ∀ s ∈ segs, s.Delimited := by
    have hclose : ∃ t, sqlText ") VALUES " ++ rows = 0x29 :: t := ⟨_, rfl⟩
    obtain ⟨t, ht⟩ := hclose
    by_cases hnil : names = []
    · subst hnil
      refine ⟨[⟨table, 0x28 :: (sqlText ") VALUES " ++ rows)⟩], fun query => ?_, rfl, ?_⟩
      · simp [insertNames, namedTexts, appendQuotedName_eq]
      · rw [List.forall_mem_singleton]
        exact ⟨_, _, rfl, by decide⟩
    · refine ⟨⟨table, [0x28]⟩ :: closeTerms [0x2c] (sqlText ") VALUES " ++ rows)
        (names.map fun name => ⟨name, []⟩), fun query => ?_, ?_, ?_⟩
      · rw [insertNames_named _ _ _ hnil, appendQuotedName_eq, namedTexts, namedTexts,
          List.flatMap_cons]
        simp only [List.append_assoc]
      · rw [List.map_cons, closeTerms_names, List.map_map]
        exact congrArg _ (List.map_id _)
      · rw [List.forall_mem_cons]
        refine ⟨⟨_, _, rfl, by decide⟩, closeTerms_delimited (fun s hs => ?_) fun s hs => ?_⟩
        · obtain ⟨name, -, rfl⟩ := List.mem_map.mp hs
          exact ⟨_, _, rfl, by decide⟩
        · obtain ⟨name, -, rfl⟩ := List.mem_map.mp hs
          exact ⟨0x29, t, by rw [ht]; rfl, by decide⟩
  obtain ⟨segs, hsegs, hnames, hall⟩ := htable
  by_cases hdb : db = []
  · refine ⟨segs, ?_, ?_, hall⟩
    · rw [insertHead, List.append_assoc]
      simp only [hdb, ne_eq, not_true_eq_false, if_false]
      exact hsegs _
    · rw [if_neg (not_not.mpr hdb), hnames, List.nil_append]
  · refine ⟨⟨db, [0x2e]⟩ :: segs, ?_, ?_, ?_⟩
    · rw [insertHead, List.append_assoc]
      simp only [ne_eq, hdb, not_false_eq_true, if_true]
      rw [hsegs, appendQuotedName_eq, namedTexts, namedTexts, List.flatMap_cons]
      simp only [List.append_assoc]
    · rw [if_pos hdb, List.map_cons, hnames, List.singleton_append]
    · exact List.forall_mem_cons.mpr ⟨⟨_, _, rfl, by decide⟩, hall⟩

/-- A statement that is sent is its head and the names that are meant, each with a text behind it. -/
theorem CursorQuery.build_named {q : CursorQuery} {statement : List UInt8}
    (h : q.build ctx = some statement) :
    ∃ segs, statement = q.head ++ namedTexts segs ∧ segs.map NamedText.name = q.names ctx ∧
      ∀ s ∈ segs, s.Delimited := by
  cases q with
  | delete =>
    obtain ⟨table, htable, h⟩ := Option.bind_eq_some_iff.mp h
    obtain ⟨segs, rfl, hnames, hall⟩ := ctx.addWhere_named h
    refine ⟨⟨table, whereText⟩ :: segs, ?_, ?_, ?_⟩
    · rw [head, appendQuotedName_eq, namedTexts, namedTexts, List.flatMap_cons]
      simp only [List.append_assoc]
    · rw [names, htable, Option.getD_some, List.map_cons, hnames]
    · exact List.forall_mem_cons.mpr ⟨⟨_, _, rfl, by decide⟩, hall⟩
  | update columns =>
    obtain ⟨table, htable, h⟩ := Option.bind_eq_some_iff.mp h
    obtain ⟨clause, hclause, h⟩ := Option.bind_eq_some_iff.mp h
    obtain ⟨segs, rfl, hnames, hall⟩ := ctx.addWhere_named h
    obtain ⟨segs', hset, hnames', hall'⟩ :=
      buildSetClause_named whereText hclause
    refine ⟨⟨table, sqlText " SET "⟩ :: (segs' ++ segs), ?_, ?_, ?_⟩
    · rw [hset, head, appendQuotedName_eq, namedTexts, namedTexts, namedTexts, List.flatMap_cons,
        List.flatMap_append]
      simp only [List.append_assoc]
    · rw [names, htable, Option.getD_some, List.map_cons, List.map_append, hnames, hnames']
    · have hspace : sqlText " SET " = 0x20 :: sqlText "SET " := by decide
      refine List.forall_mem_cons.mpr ⟨⟨_, _, hspace, by decide⟩, ?_⟩
      exact List.forall_mem_append.mpr ⟨hall', hall⟩
  | insert rows =>
    obtain ⟨table, htable, rfl⟩ := Option.map_eq_some_iff.mp h
    obtain ⟨segs, hsegs, hnames, hall⟩ :=
      insertHead_named ctx.db table (ctx.columns.map CurrentColumn.orgName) rows
    refine ⟨segs, hsegs, ?_, hall⟩
    rw [names, htable, Option.getD_some, hnames]
  | positioned text =>
    obtain ⟨segs, rfl, hnames, hall⟩ := ctx.addWhere_named h
    exact ⟨segs, rfl, hnames, hall⟩

/-- The database in which the server looks is the one that is meant, unless the table is named
without it and the connection is on another one. -/
theorem CursorQuery.database_eq_iff (q : CursorQuery) :
    q.database ctx = ctx.database ↔ (q.Unqualified → ctx.db = [] ∨ ctx.db = ctx.currentDb) := by
  have hcurrent : ctx.currentDb = ctx.database ↔ ctx.db = [] ∨ ctx.db = ctx.currentDb := by
    rw [CursorContext.database]
    by_cases hdb : ctx.db = []
    · rw [if_pos hdb]
      exact iff_of_true rfl (Or.inl hdb)
    · rw [if_neg hdb, or_iff_right hdb, eq_comm]
  cases q with
  | delete => exact hcurrent.trans ⟨fun h _ => h, fun h => h trivial⟩
  | update => exact hcurrent.trans ⟨fun h _ => h, fun h => h trivial⟩
  | positioned => exact iff_of_true rfl fun h => h.elim
  | insert =>
    refine iff_of_true ?_ fun h => h.elim
    rw [database, CursorContext.database, ite_not]

/-- Names that are read as what is meant are plain. -/
theorem CursorQuery.NamesIntended.plain {q : CursorQuery} {statement : List UInt8}
    (h : q.NamesIntended ctx statement) : ∀ name ∈ q.names ctx, PlainName ctx.call.env.cs name := by
  obtain ⟨⟨segs, -, hnames, hdelimited, hread⟩, -⟩ := h
  rw [readsNames_iff hdelimited] at hread
  rw [← hnames, List.forall_mem_map]
  exact hread

/-- A name that is appended is read as itself exactly if no backquote is in it; and a statement that
is sent names what is meant exactly if all its names are of this kind, and the table, where it is
named without its database, is in that of the connection. -/
theorem cursorQuery_namesIntended_iff (ctx : CursorContext) (q : CursorQuery)
    (statement name rest : List UInt8) (hbuilt : q.build ctx = some statement)
    (hrest : rest.head? ≠ some 0x60) :
    (ReadsName ctx.call.env (appendQuotedName [] name ++ rest) name rest ↔
      PlainName ctx.call.env.cs name) ∧
    (q.NamesIntended ctx statement ↔ (∀ name ∈ q.names ctx, PlainName ctx.call.env.cs name) ∧
      (q.Unqualified → ctx.db = [] ∨ ctx.db = ctx.currentDb)) := by
  refine ⟨readsName_iff hrest, ?_⟩
  rw [← q.database_eq_iff]
  constructor
  · exact fun h => ⟨h.plain, h.2⟩
  · rintro ⟨hplain, hdatabase⟩
    obtain ⟨segs, hstatement, hnames, hdelimited⟩ := CursorQuery.build_named hbuilt
    refine ⟨⟨segs, hstatement, hnames, hdelimited, (readsNames_iff hdelimited).mpr ?_⟩, hdatabase⟩
    rw [← hnames, List.forall_mem_map] at hplain
    exact hplain

/-- A row with a text and a `NULL`, in the table `t`, is deleted. -/
theorem cursorQuery_namesIntended_quoteRow : ∃ (ctx : CursorContext) (statement : List UInt8),
    CursorQuery.delete.build ctx = some statement ∧ [0x20].head? ≠ some (0x60 : UInt8) ∧
    (ReadsName ctx.call.env (appendQuotedName [] [0x74] ++ [0x20]) [0x74] [0x20] ↔
      PlainName ctx.call.env.cs [0x74]) ∧
    (CursorQuery.delete.NamesIntended ctx statement ↔
      (∀ name ∈ CursorQuery.delete.names ctx, PlainName ctx.call.env.cs name) ∧
      (CursorQuery.delete.Unqualified → ctx.db = [] ∨ ctx.db = ctx.currentDb)) := by
  have hsome : (CursorQuery.delete.build ⟨keylessCall quoteRow (List.cons_ne_nil _ _), quoteRow, rfl,
      [0x64], [0x64], none⟩).isSome = true := by
    decide +kernel
  obtain ⟨statement, hbuilt⟩ := Option.isSome_iff_exists.mp hsome
  have hhead : [0x20].head? ≠ some (0x60 : UInt8) := by decide
  exact ⟨_, statement, hbuilt, hhead, cursorQuery_namesIntended_iff _ _ _ _ _ hbuilt hhead⟩

/-- A name with a backquote is read as another one; a row of a table with such a name, and a row of
a table in another database, are deleted from a table that is not meant. -/
theorem cursorQuery_failures :
    (∃ env : ParamEnv, ¬ ReadsName env (appendQuotedName [] (sqlText "a`b") ++ [0x20])
      (sqlText "a`b") [0x20]) ∧
    (∃ ctx statement, ctx.call.findUsedTable ctx.columns = some (sqlText "a`b") ∧
      ctx.db = ctx.currentDb ∧ CursorQuery.delete.build ctx = some statement ∧
      ¬ CursorQuery.delete.NamesIntended ctx statement) ∧
    ∃ ctx statement, ctx.db = sqlText "d" ∧ ctx.currentDb = sqlText "e" ∧
      CursorQuery.delete.build ctx = some statement ∧
      ¬ CursorQuery.delete.NamesIntended ctx statement := by
  have hnot : ¬ PlainName latin1Env.cs (sqlText "a`b") := by
    intro h
    exact (h 1 rfl).1 rfl
  refine ⟨⟨latin1Env, fun h => hnot ((readsName_iff (by decide)).mp h)⟩, ?_, ?_⟩
  · have hsome : (CursorQuery.delete.build ⟨{ keylessCall quoteRow (List.cons_ne_nil _ _) with
        tableName := sqlText "a`b" }, quoteRow, rfl, [], [], none⟩).isSome = true := by
      decide +kernel
    obtain ⟨statement, hbuilt⟩ := Option.isSome_iff_exists.mp hsome
    refine ⟨_, statement, rfl, rfl, hbuilt, ?_⟩
    exact fun h => hnot (h.plain _ List.mem_cons_self)
  · have hsome : (CursorQuery.delete.build ⟨keylessCall quoteRow (List.cons_ne_nil _ _), quoteRow,
        rfl, sqlText "d", sqlText "e", none⟩).isSome = true := by
      decide +kernel
    obtain ⟨statement, hbuilt⟩ := Option.isSome_iff_exists.mp hsome
    refine ⟨_, statement, rfl, rfl, hbuilt, ?_⟩
    rintro ⟨-, hdatabase⟩
    exact absurd hdatabase (by decide)

end MatrixOdbc.Driver
