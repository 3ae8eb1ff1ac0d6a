import MatrixOdbc.Driver.Positioned

/-!
# When the text comes back

For a statement that holds a positioned text, which executions leave that text behind.
An execution that does not stop for data leaves the chopped text; one that stops leaves
the text without the clause until a `do_query` puts the saved one back.
-/

namespace MatrixOdbc.Driver

open MysqlStrings

namespace PosStmt

variable {dbc : PrepareDbc} {answers : ExecuteAnswers} {s : PosStmt} {p : ParsedQuery}
  {c : PositionedCursor} {e : Episode} {calls : List Call} {found : Bool}

/-- The execution of a positioned text goes as far as its cursor and stops there, because
the cursor keeps its rows on the server. -/
def RefusedByCursor (p : ParsedQuery) (answers : ExecuteAnswers) : Prop :=
  ∃ c, checkIfPositionedCursorExists answers.stmtList p = some c ∧
    c.cursor.any CursorStmt.forwardCache

/-- An `UPDATE` stops for data in its temporary statement. -/
structure UpdateStops (dbc : PrepareDbc) (text : List UInt8) (answers : ExecuteAnswers) : Prop where
  isUpdate : startsWith text ['U', 'P', 'D', 'A', 'T', 'E'] ∧
    ¬startsWith text ['D', 'E', 'L', 'E', 'T', 'E']
  allocated : answers.allocated
  stops : answers.tempExecuted = .needData
  clause : ∃ clause, answers.whereClause = some clause ∧
    (prepare dbc allocStmt (text ++ clause) false).1 ∧
    ((prepare dbc allocStmt (text ++ clause) false).2.paramCount = 0 ∨ answers.descCopied)

/-- The execution of a positioned text stops for data. -/
def StopsForData (dbc : PrepareDbc) (p : ParsedQuery) (answers : ExecuteAnswers) : Prop :=
  ∃ c, checkIfPositionedCursorExists answers.stmtList p = some c ∧
    ¬c.cursor.any CursorStmt.forwardCache ∧ c.found ∧
    UpdateStops dbc (pszQuery (chop c.cursorPos p)) answers

/-- The calls after a stop come to a `do_query`: requests and data, then the last
`SQLParamData` with all parameters inserted. -/
def Finished : List Call → Prop
  | .putData :: calls | .paramData .needData :: calls => Finished calls
  | .paramData (.queried _) :: _ => True
  | _ => False

/-- The byte before `WHERE` is a terminator already. -/
def ChoppedAlready (p : ParsedQuery) (answers : ExecuteAnswers) : Prop :=
  ∃ c, checkIfPositionedCursorExists answers.stmtList p = some c ∧ p.query[c.cursorPos]? = some 0

/-- The executions of a positioned text that leave it as it was prepared. -/
def Keeps (dbc : PrepareDbc) (p : ParsedQuery) (e : Episode) : Prop :=
  RefusedByCursor p e.answers ∨ (StopsForData dbc p e.answers ∧ Finished e.calls) ∨
    (¬StopsForData dbc p e.answers ∧ ChoppedAlready p e.answers)

/-- A call outside an execution changes nothing. -/
theorem step_of_not_dae (h : s.daeNormal = false) (call : Call) : (s.step call).query = s.query ∧
    (s.step call).daeNormal = false := by
  cases call <;> simp [step, h]

theorem foldl_step_of_not_dae (h : s.daeNormal = false) (calls : List Call) :
    (calls.foldl step s).query = s.query := by
  induction calls generalizing s with
  | nil => rfl
  | cons call calls ih =>
    obtain ⟨hquery, hdae⟩ := step_of_not_dae h call
    rw [List.foldl_cons, ih hdae, hquery]

/-- A request changes nothing. -/
theorem step_needData (hdae : s.daeNormal) : s.step (.paramData .needData) = s := by
  rw [step, if_pos hdae, executePlain, ← hdae]

/-- What is finished has the saved text again. -/
theorem foldl_step_finished (hdae : s.daeNormal) (horig : s.origQuery = some p)
    (h : Finished calls) : (calls.foldl step s).query = p := by
  induction calls with
  | nil => exact h.elim
  | cons call calls ih =>
    rw [List.foldl_cons]
    match call with
    | .putData => exact ih h
    | .close => exact h.elim
    | .paramData .needData =>
      rw [step_needData hdae]
      exact ih h
    | .paramData .insertFailed => exact h.elim
    | .paramData (.queried ok) =>
      rw [foldl_step_of_not_dae (by simp [step, executePlain, hdae])]
      simp [step, executePlain, hdae, restore, horig]

/-- What is given up or fails in the insertion keeps the text it had when it stopped. -/
theorem foldl_step_not_finished (hdae : s.daeNormal) (h : ¬Finished calls) :
    (calls.foldl step s).query = s.query := by
  induction calls with
  | nil => rfl
  | cons call calls ih =>
    rw [List.foldl_cons]
    match call with
    | .putData => exact ih h
    | .close => exact foldl_step_of_not_dae (s := s.step .close) rfl calls
    | .paramData .needData =>
      rw [step_needData hdae]
      exact ih h
    | .paramData .insertFailed =>
      rw [foldl_step_of_not_dae (by simp [step, executePlain, hdae])]
      simp [step, executePlain, hdae]
    | .paramData (.queried _) => exact absurd trivial h

/-- Preparing a text gives the same success and the same query for every statement. -/
theorem prepare_eq_allocStmt (dbc : PrepareDbc) (stmt : PreparedStmt) (text : List UInt8) :
    (prepare dbc stmt text false).1 = (prepare dbc allocStmt text false).1 ∧
      (prepare dbc stmt text false).2.query = (prepare dbc allocStmt text false).2.query := by
  simp only [prepare]
  split_ifs <;> (try split) <;> exact ⟨rfl, rfl⟩

/-- An `UPDATE` that does not stop keeps the statement; one that stops replaces its text. -/
theorem myPosUpdateStd_cases (dbc : PrepareDbc) (answers : ExecuteAnswers) (text : List UInt8)
    (s : PosStmt) (hupdate : startsWith text ['U', 'P', 'D', 'A', 'T', 'E'])
    (hdelete : ¬startsWith text ['D', 'E', 'L', 'E', 'T', 'E']) :
    (UpdateStops dbc text answers ∧
      ∃ s', myPosUpdateStd dbc answers text s = (.needData, s') ∧ s'.daeNormal ∧
        s'.origQuery = s.origQuery ∧ ∃ clause, answers.whereClause = some clause ∧
          s'.query = (prepare dbc allocStmt (text ++ clause) false).2.query) ∨
    (¬UpdateStops dbc text answers ∧ ∃ reply, reply ≠ .needData ∧
      myPosUpdateStd dbc answers text s = (reply, s)) := by
  cases hclause : answers.whereClause with
  | none =>
    refine .inr ⟨fun h => ?_, .error, by decide, by simp [myPosUpdateStd, hclause]⟩
    obtain ⟨clause, hsome, -⟩ := h.clause
    rw [hclause] at hsome
    contradiction
  | some clause =>
    obtain ⟨hok, hquery⟩ := prepare_eq_allocStmt dbc s.toPreparedStmt (text ++ clause)
    by_cases hstops : UpdateStops dbc text answers
    · obtain ⟨clause', hclause', hprepared, hcopied⟩ := hstops.clause
      obtain rfl : clause = clause' := Option.some.inj (hclause.symm.trans hclause')
      refine .inl ⟨hstops, { s with
        toPreparedStmt := (prepare dbc s.toPreparedStmt (text ++ clause) false).2
        daeNormal := true }, ?_, rfl, rfl, clause, rfl, hquery⟩
      simp [myPosUpdateStd, hclause, hstops.allocated, hprepared, hstops.stops, hok]
      exact or_iff_not_imp_left.1 hcopied
    · refine .inr ⟨hstops, ?_⟩
      simp only [myPosUpdateStd, hclause]
      split_ifs with hallocated hprepared hcopied hagain
      · exact ⟨.error, by decide, rfl⟩
      · exact ⟨.error, by decide, rfl⟩
      · exact ⟨.error, by decide, rfl⟩
      · cases htemp : answers.tempExecuted with
        | success => exact ⟨.success, by decide, rfl⟩
        | error => exact ⟨.error, by decide, rfl⟩
        | needData =>
          refine absurd ⟨⟨hupdate, hdelete⟩, by simpa using hallocated, htemp, clause, hclause,
            by simpa using hprepared, ?_⟩ hstops
          simpa [← or_iff_not_imp_left] using hcopied
      · rw [hok] at hagain
        exact absurd (by simpa using hprepared) hagain

/-- What an execution of a positioned text leaves. -/
theorem execute_cases (dbc : PrepareDbc) (answers : ExecuteAnswers) (s : PosStmt)
    (hcursor : checkIfPositionedCursorExists answers.stmtList s.query = some c) :
    (RefusedByCursor s.query answers ∧ ∃ s', execute dbc answers s = (.error, s') ∧
      s'.query = s.query) ∨
    (StopsForData dbc s.query answers ∧ ∃ s', execute dbc answers s = (.needData, s') ∧
      s'.daeNormal ∧ s'.origQuery = some s.query ∧ ∃ clause, answers.whereClause = some clause ∧
        s'.query = (prepare dbc allocStmt
          (pszQuery (chop c.cursorPos s.query) ++ clause) false).2.query) ∨
    (¬RefusedByCursor s.query answers ∧ ¬StopsForData dbc s.query answers ∧
      ∃ reply s', reply ≠ .needData ∧ execute dbc answers s = (reply, s') ∧
        s'.query = chop c.cursorPos s.query) := by
  unfold execute
  rw [hcursor]
  by_cases hforward : c.cursor.any CursorStmt.forwardCache
  · exact .inl ⟨⟨c, hcursor, hforward⟩, _, if_pos hforward, rfl⟩
  have hrefused : ¬RefusedByCursor s.query answers := by
    rintro ⟨c', hc', hforward'⟩
    obtain rfl : c = c' := Option.some.inj (hcursor.symm.trans hc')
    exact hforward hforward'
  have hstops : StopsForData dbc s.query answers ↔
      c.found ∧ UpdateStops dbc (pszQuery (chop c.cursorPos s.query)) answers := by
    constructor
    · rintro ⟨c', hc', -, hrest⟩
      obtain rfl : c = c' := Option.some.inj (hcursor.symm.trans hc')
      exact hrest
    · exact fun h => ⟨c, hcursor, hforward, h⟩
  simp only [if_neg hforward]
  obtain ⟨t, ht⟩ : ∃ t : PosStmt, t = { s with
      query := chop c.cursorPos s.query, origQuery := some s.query } := ⟨_, rfl⟩
  have hquery : t.query = chop c.cursorPos s.query := by rw [ht]
  rw [← ht, ← hquery]
  rw [← hquery] at hstops
  right
  by_cases hfound : c.found
  swap
  · refine .inr ⟨hrefused, fun h => hfound (hstops.1 h).1, .error, t, by decide, ?_, rfl⟩
    simp [doMyPosCursorStd, hfound]
  by_cases hdelete : startsWith (pszQuery t.query) ['D', 'E', 'L', 'E', 'T', 'E']
  · refine .inr ⟨hrefused, fun h => (hstops.1 h).2.isUpdate.2 hdelete, _, t, ?_,
      by rw [doMyPosCursorStd, hfound, if_neg (by decide), if_pos hdelete], rfl⟩
    split <;> decide
  by_cases hupdate : startsWith (pszQuery t.query) ['U', 'P', 'D', 'A', 'T', 'E']
  · have hrun : doMyPosCursorStd dbc answers c.found t =
        myPosUpdateStd dbc answers (pszQuery t.query) t := by
      rw [doMyPosCursorStd, hfound, if_neg (by decide), if_neg hdelete, if_pos hupdate]
    rw [hrun]
    obtain ⟨hupdateStops, s', heq, hdae, horig, hclause⟩ | ⟨hnot, reply, hreply, heq⟩ :=
      myPosUpdateStd_cases dbc answers (pszQuery t.query) t hupdate hdelete
    · refine .inl ⟨hstops.2 ⟨hfound, hupdateStops⟩, s', heq, hdae, ?_, hclause⟩
      rw [horig, ht]
    · exact .inr ⟨hrefused, fun h => hnot (hstops.1 h).2, reply, t, hreply, heq, rfl⟩
  · refine .inr ⟨hrefused, fun h => hupdate (hstops.1 h).2.isUpdate.1, .error, t, by decide, ?_, rfl⟩
    rw [doMyPosCursorStd, hfound, if_neg (by decide), if_neg hdelete, if_neg hupdate]

/-- The byte that is overwritten is in the text. -/
theorem cursorPos_lt {stmtList : List CursorStmt}
    (h : checkIfPositionedCursorExists stmtList p = some c) : c.cursorPos < p.query.length := by
  obtain ⟨name, hname, hc⟩ := Option.map_eq_some_iff.1 h
  have hwhere : caseCompare p.query (p.tokenFromEnd 4) ['W', 'H', 'E', 'R', 'E'] := by
    unfold ParsedQuery.getCursorName at hname
    split_ifs at hname with hif
    exact hif.2.1
  have hpos : c.cursorPos = (p.tokenFromEnd 4).getD 0 - 1 := by
    rw [← hc]
    split <;> rfl
  cases htoken : p.tokenFromEnd 4 with
  | none => simp [htoken, caseCompare] at hwhere
  | some pos =>
    rw [htoken, caseCompare] at hwhere
    have hlength := (List.isPrefixOf_iff_prefix.1 hwhere).length_le
    simp only [List.length_map, List.length_cons, List.length_nil, List.length_drop] at hlength
    rw [hpos, htoken, Option.getD_some]
    omega

/-- The chopped text is the old one exactly when the byte was a terminator already. -/
theorem chop_eq_iff {cursorPos : ℕ} (h : cursorPos < p.query.length) :
    chop cursorPos p = p ↔ p.query[cursorPos]? = some 0 := by
  constructor
  · intro heq
    have hbyte : (chop cursorPos p).query[cursorPos]? = some 0 := by simp [chop, h]
    rwa [heq] at hbyte
  · intro hbyte
    rw [List.getElem?_eq_getElem h, Option.some.injEq] at hbyte
    have hset : p.query.set cursorPos 0 = p.query := by
      rw [← hbyte]
      exact List.set_getElem_self h
    rw [chop, hset]

/-- An execution that its cursor refuses does not stop for data. -/
theorem RefusedByCursor.not_stopsForData (h : RefusedByCursor p answers) :
    ¬StopsForData dbc p answers := by
  rintro ⟨c', hc', hforward', -⟩
  obtain ⟨c, hc, hforward⟩ := h
  obtain rfl : c = c' := Option.some.inj (hc.symm.trans hc')
  exact hforward' hforward

/-- The three ways in which an execution of a positioned text ends. -/
theorem runEpisode_cases (dbc : PrepareDbc) (s : PosStmt) (e : Episode)
    (hcursor : checkIfPositionedCursorExists e.answers.stmtList s.query = some c) :
    (RefusedByCursor s.query e.answers ∧ (runEpisode dbc s e).query = s.query) ∨
    (StopsForData dbc s.query e.answers ∧
      (Finished e.calls → (runEpisode dbc s e).query = s.query) ∧
      (¬Finished e.calls → ∃ clause, e.answers.whereClause = some clause ∧
        (runEpisode dbc s e).query =
          (prepare dbc allocStmt (pszQuery (chop c.cursorPos s.query) ++ clause) false).2.query)) ∨
    (¬RefusedByCursor s.query e.answers ∧ ¬StopsForData dbc s.query e.answers ∧
      (runEpisode dbc s e).query = chop c.cursorPos s.query) := by
  obtain ⟨hrefused, s', heq, hquery⟩ | ⟨hstops, s', heq, hdae, horig, clause, hclause, hquery⟩ |
    ⟨hrefused, hstops, reply, s', hreply, heq, hquery⟩ := execute_cases dbc e.answers s hcursor
  · refine .inl ⟨hrefused, ?_⟩
    rw [runEpisode, heq]
    exact hquery
  · refine .inr (.inl ⟨hstops, ?_⟩)
    rw [runEpisode, heq]
    constructor
    · exact foldl_step_finished hdae horig
    · intro hfinished
      exact ⟨clause, hclause, (foldl_step_not_finished hdae hfinished).trans hquery⟩
  · refine .inr (.inr ⟨hrefused, hstops, ?_⟩)
    rw [runEpisode, heq]
    cases reply with
    | success => exact hquery
    | error => exact hquery
    | needData => exact absurd rfl hreply

/-- Whatever keeps the text is an execution of a positioned text. -/
theorem Keeps.positioned (h : Keeps dbc p e) :
    ∃ c, checkIfPositionedCursorExists e.answers.stmtList p = some c := by
  obtain ⟨c, hc, -⟩ | ⟨⟨c, hc, -⟩, -⟩ | ⟨-, c, hc, -⟩ := h <;> exact ⟨c, hc⟩

/-- An execution under `Keeps` leaves the text it found. -/
theorem runEpisode_of_keeps (s : PosStmt) (e : Episode) (h : Keeps dbc s.query e) :
    (runEpisode dbc s e).query = s.query := by
  obtain ⟨c, hcursor⟩ := h.positioned
  obtain ⟨-, hquery⟩ | ⟨hstops, hquery, -⟩ | ⟨hrefused, hstops, hquery⟩ :=
    runEpisode_cases dbc s e hcursor
  · exact hquery
  · obtain hrefused | ⟨-, hfinished⟩ | ⟨hnot, -⟩ := h
    · exact absurd hstops hrefused.not_stopsForData
    · exact hquery hfinished
    · exact absurd hstops hnot
  · obtain hrefused' | ⟨hstops', -⟩ | ⟨-, c', hc', hbyte⟩ := h
    · exact absurd hrefused' hrefused
    · exact absurd hstops' hstops
    · obtain rfl : c = c' := Option.some.inj (hcursor.symm.trans hc')
      rw [hquery, (chop_eq_iff (cursorPos_lt hcursor)).2 hbyte]

/-- In every run whose executions all keep the text, it is the prepared one after each of
them, so the next execution looks for the cursor of the prepared text again. -/
theorem run_keeps_prepared (s : PosStmt) (hs : s.query = p) (episodes : List Episode)
    (h : ∀ e ∈ episodes, Keeps dbc p e) (n : ℕ) :
    ((episodes.take n).foldl (runEpisode dbc) s).query = p := by
  have hsub : ∀ e ∈ episodes.take n, Keeps dbc p e := fun e he => h e (List.mem_of_mem_take he)
  revert hsub
  generalize episodes.take n = done
  intro hsub
  induction done generalizing s with
  | nil => exact hs
  | cons e done ih =>
    have hkeeps : Keeps dbc s.query e := hs ▸ hsub e List.mem_cons_self
    exact ih (runEpisode dbc s e) ((runEpisode_of_keeps s e hkeeps).trans hs)
      fun e' he' => hsub e' (List.mem_cons_of_mem _ he')

/-- A connection on which parameters are inserted by the driver. -/
def clientDbc : PrepareDbc where
  optNoSsps := true
  serverVersion := ⟨8, 0, 0⟩
  matrixOne := false
  cxnCharset := ctypeLatin1
  serverPrepare := fun _ => none

/-- The statement after `SQLPrepare` of `UPDATE t SET a=? WHERE CURRENT OF c`. -/
def preparedUpdate : PosStmt where
  toPreparedStmt := (prepare clientDbc allocStmt
    "UPDATE t SET a=? WHERE CURRENT OF c".toUTF8.toList false).2
  origQuery := none
  daeNormal := false

/-- The cursor `c` stands on a row with `1` in the column `a`, and the parameter wants data. -/
def stopAtRow : ExecuteAnswers where
  stmtList := [⟨true, "C".toUTF8.toList, false⟩]
  whereClause := some " WHERE `a`=1 LIMIT 1".toUTF8.toList
  deleted := false
  allocated := true
  descCopied := true
  tempExecuted := .needData
  plain := .queried true

/-- The execution stops for the data of the parameter. -/
theorem preparedUpdate_stops : StopsForData clientDbc preparedUpdate.query stopAtRow := by
  have hall : ((checkIfPositionedCursorExists stopAtRow.stmtList preparedUpdate.query).any fun c =>
      !c.cursor.any CursorStmt.forwardCache && c.found &&
      startsWith (pszQuery (chop c.cursorPos preparedUpdate.query)) ['U', 'P', 'D', 'A', 'T', 'E'] &&
      !startsWith (pszQuery (chop c.cursorPos preparedUpdate.query))
        ['D', 'E', 'L', 'E', 'T', 'E'] &&
      (prepare clientDbc allocStmt (pszQuery (chop c.cursorPos preparedUpdate.query) ++
        " WHERE `a`=1 LIMIT 1".toUTF8.toList) false).1) = true := by decide +kernel
  obtain ⟨c, hc, hchecks⟩ := (Option.any_eq_true _ _).1 hall
  simp only [Bool.and_eq_true, Bool.not_eq_true'] at hchecks
  obtain ⟨⟨⟨⟨hforward, hfound⟩, hupdate⟩, hdelete⟩, hprepared⟩ := hchecks
  exact ⟨c, hc, by simp [hforward], hfound, ⟨hupdate, by simp [hdelete]⟩, rfl, rfl, _, rfl, hprepared,
    .inr rfl⟩

/-- The data are put and the update is executed, twice. -/
theorem run_keeps_prepared_update :
    ((List.replicate 2 (Episode.mk stopAtRow
      [.paramData .needData, .putData, .paramData (.queried true)])).foldl (runEpisode clientDbc)
        preparedUpdate).query = preparedUpdate.query := by
  have hkeeps : ∀ e ∈ List.replicate 2 (Episode.mk stopAtRow
      [.paramData .needData, .putData, .paramData (.queried true)]),
      Keeps clientDbc preparedUpdate.query e := by
    intro e he
    obtain rfl := List.eq_of_mem_replicate he
    exact .inr (.inl ⟨preparedUpdate_stops, trivial⟩)
  have hrun := run_keeps_prepared preparedUpdate rfl _ hkeeps 2
  rwa [List.take_of_length_le (by simp)] at hrun

/-- The update is given up after the request. What is left is the update of the row on
which the cursor stood, without a cursor. -/
theorem runEpisode_cancelled_not_prepared :
    preparedUpdate.query.getCursorName.isSome ∧
      (runEpisode clientDbc preparedUpdate
        ⟨stopAtRow, [.paramData .needData, .close]⟩).query.query =
        "UPDATE t SET a=? WHERE `a`=1 LIMIT 1".toUTF8.toList ∧
      (runEpisode clientDbc preparedUpdate
        ⟨stopAtRow, [.paramData .needData, .close]⟩).query ≠ preparedUpdate.query := by
  have hprepared : preparedUpdate.query.getCursorName.isSome := by decide +kernel
  have htext : (runEpisode clientDbc preparedUpdate
      ⟨stopAtRow, [.paramData .needData, .close]⟩).query.query =
        "UPDATE t SET a=? WHERE `a`=1 LIMIT 1".toUTF8.toList := by decide +kernel
  have hdifferent : "UPDATE t SET a=? WHERE `a`=1 LIMIT 1".toUTF8.toList ≠
      preparedUpdate.query.query := by decide +kernel
  refine ⟨hprepared, htext, fun h => hdifferent ?_⟩
  rw [← htext, h]

end PosStmt

end MatrixOdbc.Driver
