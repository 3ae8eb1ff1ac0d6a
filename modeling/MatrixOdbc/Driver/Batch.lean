import MatrixOdbc.Driver.Prepare

/-!
# Batches of statements

Which texts hold more than one statement, by the lexical reading of the text, and
which of them `prepare` recognises. The field for the beginning of the second
statement keeps the null pointer of `reset` through `parse`, so no text is
recognised as a batch.
-/

namespace MatrixOdbc.Driver

open MysqlStrings Lexis

/-- The separator that begins at a place outside quotes and comments. -/
def separatorAt (place : Place UInt8) : Option (List UInt8) :=
  match place.context with
  | .plain _ => ansiSyntaxMarkers.querySep.find? (·.isPrefixOf place.text)
  | _ => none

/-- The place opens a comment. -/
def opensComment (place : Place UInt8) : Bool :=
  match place.text with
  | [] => false
  | c :: rest =>
    match (sqlLexicon.read place.context c rest).1 with
    | .line _ | .block _ => true
    | _ => false

/-- Some separator covers the offset. -/
def inSeparator (places : List (Place UInt8)) (offset : ℕ) : Bool :=
  places.any fun place => (separatorAt place).any fun sep =>
    place.offset ≤ offset && offset < place.offset + sep.length

/-- The place belongs to a statement: it is outside comments, and it is neither a blank
nor in a separator. Quotes belong to a statement. -/
def inStatement (places : List (Place UInt8)) (place : Place UInt8) : Bool :=
  match place.context with
  | .plain _ =>
    !opensComment place && !inSeparator places place.offset && !place.text.head?.any isspace
  | .quoted _ _ => true
  | _ => false

/-- Outside quotes and comments, the text has a separator with a statement behind it. -/
def IsBatchText (query : List UInt8) : Prop :=
  ((sqlLexicon.scan (.plain false) 0 query).any fun place => (separatorAt place).isSome &&
    (sqlLexicon.scan (.plain false) 0 query).any fun place' => decide (place.offset < place'.offset) &&
      inStatement (sqlLexicon.scan (.plain false) 0 query) place') = true

instance (query : List UInt8) : Decidable (IsBatchText query) :=
  inferInstanceAs (Decidable (_ = true))

/-- `;` and `\g` separate statements: behind them, `a` is a further statement. Neither
separates in quotes or comments, or with only blanks, comments or separators behind it. -/
example : IsBatchText "a; b".toUTF8.toList ∧ IsBatchText "a\\gb".toUTF8.toList ∧
    ¬ IsBatchText "a;".toUTF8.toList ∧ ¬ IsBatchText "a\\g;\\g /*b*/ # c".toUTF8.toList ∧
    ¬ IsBatchText "';' /*;*/ b".toUTF8.toList := by decide +kernel

/-- `IS_BATCH`. -/
def ParsedQuery.IsBatch (pq : ParsedQuery) : Prop := pq.isBatch.isSome = true

/-- A batch is recognised and kept from the server; nothing else is recognised. -/
structure BatchRecognised (dbc : PrepareDbc) (stmt : PreparedStmt) (query : List UInt8)
    (forcePrepare : Bool) : Prop where
  batch : IsBatchText query → (prepare dbc stmt query forcePrepare).2.query.IsBatch ∧
    (prepare dbc stmt query forcePrepare).2.ssps = false
  single : ¬ IsBatchText query → ¬ (prepare dbc stmt query forcePrepare).2.query.IsBatch

/-- Whatever is decided about a text, `is_batch` is as `reset` left it. -/
theorem prepare_isBatch (dbc : PrepareDbc) (stmt : PreparedStmt) (query : List UInt8)
    (forcePrepare : Bool) : (prepare dbc stmt query forcePrepare).2.query.isBatch = none := by
  simp only [prepare]
  generalize htext : (if dbc.matrixOne = true then
    ({ ParsedQuery.reset query with
      query := rewriteOdbcFunctionEscapes (ParsedQuery.reset query).query } : ParsedQuery)
    else ParsedQuery.reset query) = text
  have hnone : text.isBatch = none := by
    subst htext
    cases dbc.matrixOne with
    | false => rfl
    | true => rfl
  split_ifs
  · split
    · exact hnone
    · exact hnone
  · exact hnone
  · exact hnone

/-- No text is taken for a batch. -/
theorem not_isBatch (dbc : PrepareDbc) (stmt : PreparedStmt) (query : List UInt8)
    (forcePrepare : Bool) : ¬ (prepare dbc stmt query forcePrepare).2.query.IsBatch := by
  rw [ParsedQuery.IsBatch, prepare_isBatch]
  simp

/-- For every connection, statement and text, batches are recognised as claimed exactly
if the text is none. -/
theorem batchRecognised_iff (dbc : PrepareDbc) (stmt : PreparedStmt) (query : List UInt8)
    (forcePrepare : Bool) :
    BatchRecognised dbc stmt query forcePrepare ↔ ¬ IsBatchText query := by
  constructor
  · intro h hbatch
    exact not_isBatch _ _ _ _ (h.batch hbatch).1
  · intro h
    exact ⟨fun hbatch => absurd hbatch h, fun _ => not_isBatch _ _ _ _⟩

/-- A connection to a server that prepares every text with one parameter. -/
def latin1Dbc : PrepareDbc where
  optNoSsps := false
  serverVersion := ⟨8, 0, 0⟩
  matrixOne := false
  cxnCharset := ctypeLatin1
  serverPrepare := fun _ => some 1

/-- `DO ?;DO 1`. -/
def batchQuery : List UInt8 := [0x44, 0x4f, 0x20, 0x3f, 0x3b, 0x44, 0x4f, 0x20, 0x31]

/-- The two statements of `DO ?;DO 1` go to the server as one to prepare. -/
theorem prepare_batchQuery_not_recognised :
    IsBatchText batchQuery ∧
      (prepare latin1Dbc ⟨ParsedQuery.reset [], false, 0, 0⟩ batchQuery false).2.ssps = true ∧
      ¬ BatchRecognised latin1Dbc ⟨ParsedQuery.reset [], false, 0, 0⟩ batchQuery false := by
  have hbatch : IsBatchText batchQuery := by decide +kernel
  have hssps : (prepare latin1Dbc ⟨ParsedQuery.reset [], false, 0, 0⟩ batchQuery false).2.ssps =
      true := by decide +kernel
  refine ⟨hbatch, hssps, fun h => ?_⟩
  have hnone := (h.batch hbatch).2
  rw [hssps] at hnone
  exact absurd hnone (by decide)

end MatrixOdbc.Driver
