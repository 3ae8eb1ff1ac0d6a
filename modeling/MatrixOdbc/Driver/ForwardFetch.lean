import MatrixOdbc.Driver.FetchLoop

/-!
# Fetching forward

Which rows a run of forward fetches delivers. The position of the next rowset is
spread over the statement handle, the row pointer of the client library and the
scroller; the invariant below says that they agree on the rows still to come,
whatever the kind of the cursor.
-/

namespace MatrixOdbc.Driver

variable {ρ : Type*}

namespace Stmt

variable (stmt : Stmt ρ)

/-- The rows are read from the server as they are fetched. -/
def unbuffered : Bool := stmt.ifForwardCache && !stmt.resultArray

/-- The rows of it are not counted. -/
def uncounted : Bool := stmt.unbuffered && stmt.ssps

/-- The row that the statement takes for the next one. -/
def nextRow (d : ℕ) : ℤ := if stmt.uncounted then 0 else d

/-- The client library is positioned where the last rowset ended. -/
def repositions : Bool := !stmt.resultArray && !stmt.ifForwardCache && !stmt.isDynamicCursor

/-- The result as `compute_cur_row` positions it. -/
def sought (curRow : ℤ) : ClientResult ρ :=
  if ¬ stmt.resultArray ∧ ¬ stmt.ifForwardCache then
    if stmt.cursorType ≠ .dynamic ∧ curRow ≠ 0 ∧
        curRow = stmt.currentRow + stmt.rowsFoundInSet then
      (stmt.result.rowSeek stmt.endOfSet).1
    else stmt.result.dataSeek curRow.toNat
  else stmt.result

variable {stmt}

theorem seekRow_eq (stmt : Stmt ρ) (curRow : ℤ) :
    stmt.seekRow curRow = { stmt with result := stmt.sought curRow, currentRow := curRow } := by
  unfold seekRow sought
  split_ifs <;> rfl

@[simp] theorem sought_rows (curRow : ℤ) : (stmt.sought curRow).rows = stmt.result.rows := by
  unfold sought
  split_ifs <;> rfl

theorem sought_of_stays (h : stmt.resultArray ∨ stmt.ifForwardCache) (curRow : ℤ) :
    stmt.sought curRow = stmt.result := by
  unfold sought
  rw [if_neg (by tauto)]

theorem sought_of_dynamic (harray : stmt.resultArray = false) (h : stmt.cursorType = .dynamic)
    (curRow : ℤ) : stmt.sought curRow = stmt.result.dataSeek curRow.toNat := by
  simp [sought, ifForwardCache, harray, h]

theorem sought_first (h : stmt.repositions = true) : stmt.sought 0 = stmt.result.dataSeek 0 := by
  simp only [repositions, Bool.and_eq_true, Bool.not_eq_true'] at h
  simp [sought, h.1.1, h.1.2]

theorem sought_endOfSet (h : stmt.repositions = true) {curRow : ℤ} (hcurRow : curRow ≠ 0)
    (hrow : curRow = stmt.currentRow + stmt.rowsFoundInSet) :
    stmt.sought curRow = { stmt.result with dataCursor := stmt.endOfSet } := by
  simp only [repositions, isDynamicCursor, Bool.and_eq_true, Bool.not_eq_true',
    decide_eq_false_iff_not] at h
  unfold sought
  rw [if_pos ⟨by simp [h.1.1], by simp [h.1.2]⟩, if_pos ⟨h.2, hcurRow, hrow⟩]
  rfl

/-- The number of rows, where they are counted. -/
theorem numRows_of_counted (hcounted : stmt.uncounted = false) :
    stmt.numRows =
      (match stmt.scroller with
        | some s => if 0 < s.nextOffset then s.nextOffset - s.rowCount else 0
        | none => 0) +
      if stmt.unbuffered then stmt.result.rowsRead else stmt.result.rows.length := by
  rw [numRows]
  congr 1
  cases hunbuffered : stmt.unbuffered with
  | false =>
    simp only [unbuffered, Bool.and_eq_false_iff, Bool.not_eq_false'] at hunbuffered
    rcases hunbuffered with hcache | harray <;> simp [*]
  | true =>
    have hssps : stmt.ssps = false := by simpa [uncounted, hunbuffered] using hcounted
    simp only [unbuffered, Bool.and_eq_true, Bool.not_eq_true'] at hunbuffered
    simp [hunbuffered.1, hunbuffered.2, hssps]

/-- The number of rows covers those that have been fetched. -/
theorem le_numRows {rows : List ρ} {d : ℕ} (hcounted : stmt.uncounted = false)
    (hle : d ≤ rows.length) (hs : stmt.Supplied d)
    (hstored : stmt.scroller = none → stmt.result.rows = rows)
    (hstreamed : stmt.unbuffered → stmt.upcoming d = rows.drop d) : (d : ℤ) ≤ stmt.numRows := by
  have hread := stmt.result.length_le_rowsRead
  rw [numRows_of_counted hcounted]
  cases hscroller : stmt.scroller with
  | some s =>
    obtain ⟨-, hconsistent, -, hrow⟩ := hs s hscroller
    have hnext := hconsistent.next
    dsimp only
    split_ifs <;> omega
  | none =>
    have hrows := hstored hscroller
    dsimp only
    split_ifs with hunbuffered
    · have hremaining : stmt.result.remaining = rows.drop d := by
        have harray : stmt.resultArray = false := by
          simp only [unbuffered, Bool.and_eq_true, Bool.not_eq_true'] at hunbuffered
          exact hunbuffered.2
        have hupcoming := hstreamed hunbuffered
        rwa [upcoming_fetched harray, later, hscroller, List.append_nil] at hupcoming
      rw [hrows, hremaining, List.length_drop] at hread
      omega
    · rw [hrows]
      omega

/-- The next seek finds the rows behind a position: the open result still stands there, or
the client library is sent there. -/
theorem seekRow_spec {rows : List ρ} {d : ℕ} (left : ClientResult ρ)
    (hrows : stmt.result.rows = left.rows)
    (hstays : stmt.resultArray ∨ stmt.ifForwardCache → stmt.result = left)
    (hend : stmt.repositions → d ≠ 0 → stmt.endOfSet = left.dataCursor)
    (hrow : stmt.uncounted = false → stmt.currentRow + stmt.rowsFoundInSet = d)
    (hscrolled : stmt.scroller.isSome → stmt.cursorType = .forwardOnly)
    (hstored : stmt.scroller = none → stmt.result.rows = rows)
    (hfirst : d = 0 → stmt.repositions → stmt.result.rows ++ stmt.later = rows)
    (hupcoming : ({ stmt with result := left } : Stmt ρ).upcoming (stmt.nextRow d) = rows.drop d)
    (hsupplied : ({ stmt with result := left } : Stmt ρ).Supplied (stmt.nextRow d)) :
    (stmt.seekRow (stmt.nextRow d)).upcoming (stmt.nextRow d) = rows.drop d ∧
      (stmt.seekRow (stmt.nextRow d)).Supplied (stmt.nextRow d) := by
  have hsame : stmt.sought (stmt.nextRow d) = left →
      (stmt.seekRow (stmt.nextRow d)).upcoming (stmt.nextRow d) = rows.drop d ∧
        (stmt.seekRow (stmt.nextRow d)).Supplied (stmt.nextRow d) := by
    intro hsought
    rw [seekRow_eq, hsought]
    exact ⟨hupcoming, hsupplied⟩
  by_cases hstay : stmt.resultArray ∨ stmt.ifForwardCache
  · exact hsame ((sought_of_stays hstay _).trans (hstays hstay))
  · obtain ⟨harray, hcache⟩ : stmt.resultArray = false ∧ stmt.ifForwardCache = false := by
      simpa using hstay
    have hcounted : stmt.uncounted = false := by simp [uncounted, unbuffered, hcache]
    have hd : stmt.nextRow d = d := by simp [nextRow, hcounted]
    rw [hd] at hsame hsupplied ⊢
    by_cases hdynamic : stmt.cursorType = .dynamic
    · have hscroller : stmt.scroller = none := by
        by_contra hsome
        rw [hscrolled (Option.isSome_iff_ne_none.mpr hsome)] at hdynamic
        contradiction
      rw [seekRow_eq, sought_of_dynamic harray hdynamic]
      refine ⟨?_, fun s hs => ?_⟩
      · rw [upcoming_fetched]
        · simp only [later, hscroller, List.append_nil, ClientResult.remaining_dataSeek,
            Int.toNat_natCast, hstored hscroller]
        · exact harray
      · rw [hscroller] at hs
        contradiction
    · have hrepositions : stmt.repositions = true := by
        simp [repositions, isDynamicCursor, harray, hcache, hdynamic]
      by_cases hzero : d = 0
      · subst hzero
        rw [seekRow_eq, Nat.cast_zero, sought_first hrepositions]
        refine ⟨?_, fun s hs => ?_⟩
        · rw [upcoming_fetched, ClientResult.remaining_dataSeek, List.drop_zero]
          · exact hfirst rfl hrepositions
          · exact harray
        · obtain ⟨-, hconsistent, hlength, -⟩ := hsupplied s hs
          refine ⟨harray, hconsistent, hrows ▸ hlength, ?_⟩
          have hremaining : (stmt.result.dataSeek 0).remaining = stmt.result.rows := by simp
          show (0 : ℤ) + (stmt.result.dataSeek 0).remaining.length ≤ _
          rw [hremaining]
          show (0 : ℤ) + stmt.result.rows.length ≤ s.windowOffset + stmt.result.rows.length
          omega
      · apply hsame
        rw [sought_endOfSet hrepositions (by omega) (hrow hcounted).symm, hend hrepositions hzero]
        show ClientResult.mk stmt.result.rows left.dataCursor = left
        rw [hrows]

/-- The row of the cursor is set on the result of a query that was executed again. -/
theorem setDynamicResult_spec (hnonneg : 0 ≤ stmt.currentRow)
    (hle : stmt.currentRow ≤ stmt.server.length) :
    ∃ (result : ClientResult ρ) (cursorRow : ℤ), result.rows = stmt.server ∧
      stmt.setDynamicResult = some { stmt with result := result, cursorRow := cursorRow } := by
  unfold setDynamicResult setCurrentCursorData
  simp only [ne_eq, not_true_eq_false, if_false]
  rw [if_neg (by omega)]
  split_ifs with hssps hnone hempty hpast
  · exact ⟨_, _, ClientResult.fetchRow_rows, rfl⟩
  · exact ⟨_, _, ClientResult.fetchRow_rows, rfl⟩
  · exact ⟨_, _, rfl, rfl⟩
  · simp only [ClientResult.store] at hpast
    omega
  · exact ⟨_, _, rfl, rfl⟩

end Stmt

/-- Two states of a statement with one kind of cursor. -/
structure SameKind (stmt stmt' : Stmt ρ) : Prop where
  cursorType : stmt'.cursorType = stmt.cursorType
  optNoCache : stmt'.optNoCache = stmt.optNoCache
  ssps : stmt'.ssps = stmt.ssps
  resultArray : stmt'.resultArray = stmt.resultArray

namespace SameKind

variable {stmt stmt₂ stmt' : Stmt ρ}

theorem refl (stmt : Stmt ρ) : SameKind stmt stmt := ⟨rfl, rfl, rfl, rfl⟩

theorem trans (h : SameKind stmt stmt₂) (h' : SameKind stmt₂ stmt') : SameKind stmt stmt' :=
  ⟨h'.cursorType.trans h.cursorType, h'.optNoCache.trans h.optNoCache, h'.ssps.trans h.ssps,
    h'.resultArray.trans h.resultArray⟩

theorem ifForwardCache (h : SameKind stmt stmt') : stmt'.ifForwardCache = stmt.ifForwardCache := by
  simp only [Stmt.ifForwardCache, h.cursorType, h.optNoCache]

theorem isDynamicCursor (h : SameKind stmt stmt') :
    stmt'.isDynamicCursor = stmt.isDynamicCursor := by
  simp only [Stmt.isDynamicCursor, h.cursorType]

theorem uncounted (h : SameKind stmt stmt') : stmt'.uncounted = stmt.uncounted := by
  simp only [Stmt.uncounted, Stmt.unbuffered, h.ifForwardCache, h.resultArray, h.ssps]

theorem repositions (h : SameKind stmt stmt') : stmt'.repositions = stmt.repositions := by
  simp only [Stmt.repositions, h.ifForwardCache, h.resultArray, h.isDynamicCursor]

theorem seekRow (stmt : Stmt ρ) (curRow : ℤ) : SameKind stmt (stmt.seekRow curRow) := by
  rw [Stmt.seekRow_eq]
  exact ⟨rfl, rfl, rfl, rfl⟩

theorem of_fetchedFrom (h : stmt.FetchedFrom stmt') : SameKind stmt stmt' :=
  ⟨by rw [h.same], by rw [h.same], by rw [h.same], by rw [h.same]⟩

end SameKind

/-- The position of a statement in front of a row of its result set. -/
structure Positioned (rows : List ρ) (stmt : Stmt ρ) (d : ℕ) : Prop where
  le : d ≤ rows.length
  resultRows : stmt.resultRows = rows
  nonneg : 0 ≤ stmt.currentRow
  row : stmt.uncounted = false → stmt.currentRow + stmt.rowsFoundInSet = d
  counted : stmt.uncounted = false → (d : ℤ) ≤ stmt.numRows
  scrolled : stmt.scroller.isSome → stmt.cursorType = .forwardOnly ∧ stmt.ssps = false
  stored : stmt.scroller = none → stmt.result.rows = rows
  empty : rows = [] → stmt.result.rows ++ stmt.later = []
  ready : (stmt.seekRow (stmt.nextRow d)).upcoming (stmt.nextRow d) = rows.drop d
  supplied : (stmt.seekRow (stmt.nextRow d)).Supplied (stmt.nextRow d)

namespace Positioned

variable {rows : List ρ} {stmt : Stmt ρ} {d : ℕ} {call : FetchCall ρ}

/-- The row of the next rowset is computed. -/
theorem computeCurRow (h : Positioned rows stmt d) (hnext : call.fetchType = .next) :
    stmt.computeCurRow call = some (stmt.seekRow (stmt.nextRow d), .ok (stmt.nextRow d)) := by
  have htarget : stmt.targetRow call.fetchType call.irow (toLong call.arraySize) =
      stmt.currentRow + stmt.rowsFoundInSet := by
    rw [hnext, Stmt.targetRow]
    exact if_neg (not_lt.mpr h.nonneg)
  have hnonneg := h.nonneg
  unfold Stmt.computeCurRow
  dsimp only
  rw [htarget, if_neg (by omega)]
  cases huncounted : stmt.uncounted with
  | false =>
    have hrow := h.row huncounted
    have hcounted := h.counted huncounted
    have hd : stmt.nextRow d = d := by simp [Stmt.nextRow, huncounted]
    rw [hd, hrow, if_neg (by omega)]
  | true =>
    -- `num_rows` is zero, and the row is set back to it
    obtain ⟨hunbuffered, hssps⟩ : stmt.unbuffered = true ∧ stmt.ssps = true := by
      simpa [Stmt.uncounted] using huncounted
    have hscroller : stmt.scroller = none := by
      by_contra hsome
      have hfalse := (h.scrolled (Option.isSome_iff_ne_none.mpr hsome)).2
      rw [hssps] at hfalse
      contradiction
    have hnumRows : stmt.numRows = 0 := by
      have hcache : stmt.ifForwardCache = true ∧ ¬ stmt.resultArray = true := by
        simpa [Stmt.unbuffered] using hunbuffered
      simp only [Stmt.numRows, hscroller, if_pos hcache, if_pos hssps]
    have hd : stmt.nextRow d = 0 := by simp [Stmt.nextRow, huncounted]
    rw [hd, hnumRows, Nat.cast_zero]
    by_cases hpos : (0 : ℤ) < stmt.currentRow + stmt.rowsFoundInSet
    · rw [if_pos hpos, hscroller]
    · have hzero : stmt.currentRow + stmt.rowsFoundInSet = 0 := by omega
      rw [if_neg hpos, hzero]

end Positioned

/-- A call that fetches the next rowset, in front of a row. Further windows can be opened,
the row count fits into a `uint`, and where the client library is positioned, the
conversion of a single row succeeds. -/
structure ForwardCall (repositions : Bool) (rows : List ρ) (d : ℕ) (call : FetchCall ρ) : Prop where
  next : call.fetchType = .next
  size_pos : 0 < call.arraySize
  size_lt : call.arraySize < 2 ^ 63
  found_lt : ((rows.drop d).take call.arraySize).length < 2 ^ 32
  windows : ∀ i, call.prefetchOk i = true
  converted : repositions → ∀ values, (rows.drop d).take call.arraySize = [values] →
    (call.fill 0 values).succeeded = true

/-- The rowset has the rows from the position on, and there is no data only behind the
last row. -/
def RightRowset (rows : List ρ) (d : ℕ) (call : FetchCall ρ) (out : FetchResult ρ) : Prop :=
  out.rowset = (rows.drop d).take call.arraySize ∧ (out.code = .noDataFound ↔ rows.length ≤ d)

namespace Positioned

variable {rows : List ρ} {stmt : Stmt ρ} {d : ℕ} {call : FetchCall ρ}

/-- The rows are counted and all of them are there. -/
theorem numRows_of_stored (h : Positioned rows stmt d) (hscroller : stmt.scroller = none)
    (hunbuffered : stmt.unbuffered = false) : stmt.numRows = rows.length := by
  have hcounted : stmt.uncounted = false := by rw [Stmt.uncounted, hunbuffered]; rfl
  rw [Stmt.numRows_of_counted hcounted, hscroller, hunbuffered, ← h.stored hscroller]
  simp

/-- The number of rows that the loop is to fetch. -/
theorem rowsToFetch_spec (h : Positioned rows stmt d)
    (hcall : ForwardCall stmt.repositions rows d call) {toFetch : ℕ}
    (htoFetch : toFetch = stmt.rowsToFetch call stmt.numRows (stmt.nextRow d)) :
    (rows.drop d).take toFetch = (rows.drop d).take call.arraySize ∧
      (rows.drop d).drop toFetch = rows.drop (min (d + call.arraySize) rows.length) ∧
      (toFetch = 0 → d = rows.length ∧ stmt.scroller = none ∧ stmt.unbuffered = false) := by
  have hpos := hcall.size_pos
  have hlt := hcall.size_lt
  have hle := h.le
  rw [List.drop_drop]
  unfold Stmt.rowsToFetch at htoFetch
  split_ifs at htoFetch with hall
  · subst htoFetch
    refine ⟨rfl, ?_, fun hzero => absurd hzero hpos.ne'⟩
    rcases le_total (d + call.arraySize) rows.length with hend | hend
    · rw [Nat.min_eq_left hend]
    · rw [Nat.min_eq_right hend, List.drop_length, List.drop_eq_nil_of_le hend]
  · obtain ⟨hscroller, hstreamed, -⟩ := by simpa only [not_or] using hall
    have hnone : stmt.scroller = none := by simpa using hscroller
    have hunbuffered : stmt.unbuffered = false := by
      rw [Stmt.unbuffered]
      by_contra htrue
      exact hstreamed (by simpa using htrue)
    have hd : stmt.nextRow d = d := by simp [Stmt.nextRow, Stmt.uncounted, hunbuffered]
    have hsize : toLong call.arraySize = call.arraySize := if_pos hlt
    have hmin : toFetch = min (rows.length - d) call.arraySize := by
      rw [htoFetch, h.numRows_of_stored hnone hunbuffered, hd, hsize, Int.emod_eq_of_lt] <;> omega
    refine ⟨?_, ?_, fun hzero => ⟨by omega, hnone, hunbuffered⟩⟩
    · rw [hmin, List.take_eq_take_iff, List.length_drop]
      omega
    · congr 1
      omega

/-- The position behind a rowset. -/
theorem of_fetched (h : Positioned rows stmt d) {fetched : Stmt ρ} {found : ℕ}
    (hfetched : (stmt.seekRow (stmt.nextRow d)).FetchedFrom fetched)
    (hle : d + found ≤ rows.length) (hfound : found = 0 → d = rows.length)
    (hupcoming : fetched.upcoming (stmt.nextRow d + found) = rows.drop (d + found))
    (hsupplied : fetched.Supplied (stmt.nextRow d + found))
    {result : ClientResult ρ} {endOfSet : RowOffset} (hrows : result.rows = fetched.result.rows)
    (hstays : stmt.resultArray ∨ stmt.ifForwardCache → result = fetched.result)
    (hend : stmt.repositions → d + found ≠ 0 → endOfSet = fetched.result.dataCursor) :
    Positioned rows
      { fetched with rowsFoundInSet := found, result := result, endOfSet := endOfSet }
      (d + found) := by
  have hkind : SameKind stmt fetched :=
    (SameKind.seekRow stmt _).trans (.of_fetchedFrom hfetched)
  have hmoved := stmt.seekRow_eq (stmt.nextRow d)
  have hcurrent : fetched.currentRow = stmt.nextRow d := by
    rw [hfetched.same, hmoved]
  have hsome : fetched.scroller.isSome = stmt.scroller.isSome := by
    rw [hfetched.isSome, hmoved]
  have hresultRows : fetched.resultRows = rows := by
    rw [hfetched.resultRows, hmoved]
    exact h.resultRows
  have hstored : fetched.scroller = none → fetched.result.rows = rows := by
    intro hnone
    have hstmt : stmt.scroller = none := by simpa [hnone] using hsome.symm
    rw [hfetched.rows (by rw [hmoved]; exact hstmt), hmoved]
    exact (Stmt.sought_rows _).trans (h.stored hstmt)
  have hempty : rows = [] → fetched.result.rows ++ fetched.later = [] := by
    intro hnil
    apply hfetched.empty
    rw [hmoved]
    exact (congrArg (· ++ stmt.later) (Stmt.sought_rows _)).trans (h.empty hnil)
  have hscrolled : fetched.scroller.isSome → stmt.cursorType = .forwardOnly ∧ stmt.ssps = false :=
    fun hscroller => h.scrolled (by rwa [← hsome])
  generalize hafter :
    ({ fetched with rowsFoundInSet := found, result := result, endOfSet := endOfSet } : Stmt ρ) =
      after
  have hkindAfter : SameKind stmt after := by
    subst hafter
    exact ⟨hkind.cursorType, hkind.optNoCache, hkind.ssps, hkind.resultArray⟩
  have hrow : after.uncounted = false → after.currentRow + after.rowsFoundInSet = ↑(d + found) := by
    intro hcounted
    rw [hkindAfter.uncounted] at hcounted
    subst hafter
    simp [hcurrent, Stmt.nextRow, hcounted]
  have hrowsAfter : after.result.rows = fetched.result.rows := by
    subst hafter
    exact hrows
  have hlaterAfter : after.later = fetched.later := by
    subst hafter
    rfl
  have hnextRow : stmt.uncounted = false → after.nextRow (d + found) = stmt.nextRow d + found := by
    intro hcounted
    simp [Stmt.nextRow, hkindAfter.uncounted, hcounted]
  have hupcomingAfter : ({ after with result := fetched.result } : Stmt ρ).upcoming
      (after.nextRow (d + found)) = rows.drop (d + found) := by
    rw [← hupcoming]
    cases hcounted : stmt.uncounted with
    | false =>
      rw [hnextRow hcounted]
      subst hafter
      rfl
    | true =>
      have harray : stmt.resultArray = false := by
        simp only [Stmt.uncounted, Stmt.unbuffered, Bool.and_eq_true, Bool.not_eq_true'] at hcounted
        exact hcounted.1.2
      rw [Stmt.upcoming_fetched (hkind.resultArray.trans harray), Stmt.upcoming_fetched]
      · subst hafter
        rfl
      · exact hkindAfter.resultArray.trans harray
  have hsuppliedAfter : ({ after with result := fetched.result } : Stmt ρ).Supplied
      (after.nextRow (d + found)) := by
    cases hcounted : stmt.uncounted with
    | false =>
      rw [hnextRow hcounted]
      subst hafter
      exact hsupplied
    | true =>
      intro s hs
      have hssps : stmt.ssps = true := by
        simp only [Stmt.uncounted, Bool.and_eq_true] at hcounted
        exact hcounted.2
      have hscroller : fetched.scroller = some s := by
        subst hafter
        exact hs
      rw [(hscrolled (by rw [hscroller]; rfl)).2] at hssps
      contradiction
  have hscrolledAfter : after.scroller.isSome →
      after.cursorType = .forwardOnly ∧ after.ssps = false := by
    intro hscroller
    rw [hkindAfter.cursorType, hkindAfter.ssps]
    subst hafter
    exact hscrolled hscroller
  have hstoredAfter : after.scroller = none → after.result.rows = rows := by
    intro hnone
    rw [hrowsAfter]
    subst hafter
    exact hstored hnone
  have hemptyAfter : rows = [] → after.result.rows ++ after.later = [] := by
    rwa [hrowsAfter, hlaterAfter]
  obtain ⟨hready, hnext⟩ := after.seekRow_spec fetched.result hrowsAfter
    (by
      rw [hkindAfter.resultArray, hkindAfter.ifForwardCache]
      subst hafter
      exact hstays)
    (by
      rw [hkindAfter.repositions]
      subst hafter
      exact hend)
    hrow (fun hscroller => (hscrolledAfter hscroller).1) hstoredAfter
    (fun hzero _ => by
      have hnil : rows = [] := List.length_eq_zero_iff.mp (by omega)
      rw [hemptyAfter hnil, hnil])
    hupcomingAfter hsuppliedAfter
  refine ⟨hle, ?_, ?_, hrow, ?_, hscrolledAfter, hstoredAfter, hemptyAfter, hready, hnext⟩
  · subst hafter
    exact hresultRows
  · subst hafter
    simp only [hcurrent, Stmt.nextRow]
    split_ifs <;> omega
  · intro hcounted
    have hcountedStmt : stmt.uncounted = false := hkindAfter.uncounted.symm.trans hcounted
    have hd : after.nextRow (d + found) = ↑(d + found) := by simp [Stmt.nextRow, hcounted]
    rw [hd] at hsuppliedAfter hupcomingAfter
    have hnumRows : after.numRows = ({ after with result := fetched.result } : Stmt ρ).numRows := by
      rw [Stmt.numRows_of_counted hcounted, Stmt.numRows_of_counted]
      · cases hunbuffered : after.unbuffered with
        | false =>
          have hsame : ({ after with result := fetched.result } : Stmt ρ).unbuffered = false :=
            hunbuffered
          simp only [hsame, hrowsAfter, Bool.false_eq_true, if_false]
        | true =>
          have hcache : stmt.ifForwardCache = true := by
            simp only [Stmt.unbuffered, Bool.and_eq_true] at hunbuffered
            exact hkindAfter.ifForwardCache.symm.trans hunbuffered.1
          have hresult : after.result = fetched.result := by
            subst hafter
            exact hstays (.inr hcache)
          rw [← hresult, ← hunbuffered]
      · exact hcounted
    rw [hnumRows]
    exact Stmt.le_numRows hcounted hle hsuppliedAfter
      (fun hnone => hrowsAfter ▸ hstoredAfter hnone) fun _ => hupcomingAfter

/-- No row is found. -/
theorem at_end (h : Positioned rows stmt d) (hend : d = rows.length) :
    Positioned rows { stmt.seekRow (stmt.nextRow d) with rowsFoundInSet := 0 } d := by
  refine h.of_fetched (.refl _) h.le (fun _ => hend) ?_ ?_ rfl (fun _ => rfl) ?_
  · rw [Nat.cast_zero, add_zero, Nat.add_zero]
    exact h.ready
  · rw [Nat.cast_zero, add_zero]
    exact h.supplied
  · intro hrepositions hne
    have hcounted : stmt.uncounted = false := by
      simp only [Stmt.repositions, Bool.and_eq_true, Bool.not_eq_true'] at hrepositions
      simp [Stmt.uncounted, Stmt.unbuffered, hrepositions.1.2]
    have hd : stmt.nextRow d = d := by simp [Stmt.nextRow, hcounted]
    rw [hd, Stmt.seekRow_eq,
      Stmt.sought_endOfSet hrepositions (by omega) (h.row hcounted).symm]

/-- The rowset is fetched. -/
theorem fetchRowset (h : Positioned rows stmt d) (hcall : ForwardCall stmt.repositions rows d call) :
    ∃ after out, (stmt.seekRow (stmt.nextRow d)).fetchRowset call stmt.numRows (stmt.nextRow d) =
        (after, out) ∧
      RightRowset rows d call out ∧ SameKind stmt after ∧
      Positioned rows after (min (d + call.arraySize) rows.length) := by
  have hkind := SameKind.seekRow stmt (stmt.nextRow d)
  have hseek := stmt.seekRow_eq (stmt.nextRow d)
  have hscroller : (stmt.seekRow (stmt.nextRow d)).scroller = stmt.scroller := by rw [hseek]
  generalize hmoved : stmt.seekRow (stmt.nextRow d) = moved at hkind hscroller
  have htoFetch : moved.rowsToFetch call stmt.numRows (stmt.nextRow d) =
      stmt.rowsToFetch call stmt.numRows (stmt.nextRow d) := by
    simp only [Stmt.rowsToFetch, hscroller, hkind.ifForwardCache, hkind.resultArray]
  obtain ⟨htake, hdrop, hzero⟩ := h.rowsToFetch_spec hcall htoFetch
  unfold Stmt.fetchRowset
  generalize moved.rowsToFetch call stmt.numRows (stmt.nextRow d) = toFetch at htake hdrop hzero ⊢
  dsimp only
  by_cases hnone : toFetch = 0
  · obtain ⟨hlast, -, -⟩ := hzero hnone
    have hend : min (d + call.arraySize) rows.length = d := by omega
    rw [hnone, hlast, List.drop_length, List.take_nil] at htake
    refine ⟨_, _, if_pos hnone, ⟨?_, ?_⟩, ?_, ?_⟩
    · rw [hlast, List.drop_length, List.take_nil]
    · exact iff_of_true rfl hlast.ge
    · exact ⟨hkind.cursorType, hkind.optNoCache, hkind.ssps, hkind.resultArray⟩
    · rw [hend, ← hmoved]
      exact h.at_end hlast
  · rw [if_neg hnone]
    have hready := h.ready
    have hsupplied := h.supplied
    rw [hmoved] at hready hsupplied
    have hnonneg : 0 ≤ stmt.nextRow d := by
      unfold Stmt.nextRow
      split_ifs <;> omega
    obtain ⟨hrowset, hfetched, hleft, hnext⟩ := FetchLoop.fetchRows_spec hcall.windows toFetch
      (s := ⟨moved, stmt.nextRow d, none, .success, [], []⟩) hsupplied hnonneg
    obtain ⟨hsuccess, hreports⟩ := FetchLoop.fetchRows_reports hcall.next toFetch
      (s := ⟨moved, stmt.nextRow d, none, .success, [], []⟩) ⟨fun _ => rfl, .inl rfl⟩
    generalize FetchLoop.fetchRows call toFetch _ = s
      at hrowset hfetched hleft hnext hsuccess hreports ⊢
    dsimp only at hrowset hfetched hleft hnext
    rw [List.nil_append, hready, htake] at hrowset
    rw [hready, htake, hdrop] at hleft
    rw [hready, htake] at hnext
    have hlength : ((rows.drop d).take call.arraySize).length =
        min (d + call.arraySize) rows.length - d := by
      rw [List.length_take, List.length_drop]
      omega
    have hle := h.le
    have hpos := hcall.size_pos
    have hfound : s.rowset.length % 2 ^ 32 = min (d + call.arraySize) rows.length - d := by
      have hlt := hcall.found_lt
      rw [← hrowset] at hlt
      rw [Nat.mod_eq_of_lt hlt, hrowset, hlength]
    generalize hk : min (d + call.arraySize) rows.length - d = found at hlength hfound
    have hbehind : min (d + call.arraySize) rows.length = d + found := by omega
    rw [hlength] at hleft hnext
    rw [hbehind] at hleft ⊢
    have hkindLoop : SameKind stmt s.stmt := hkind.trans (.of_fetchedFrom hfetched)
    rw [← hmoved] at hfetched
    have hpositioned : ∀ {result : ClientResult ρ} {endOfSet : RowOffset},
        result.rows = s.stmt.result.rows →
        (stmt.resultArray ∨ stmt.ifForwardCache → result = s.stmt.result) →
        (stmt.repositions → d + found ≠ 0 → endOfSet = s.stmt.result.dataCursor) →
        Positioned rows
          { s.stmt with rowsFoundInSet := found, result := result, endOfSet := endOfSet }
          (d + found) :=
      h.of_fetched hfetched (by omega) (by omega) hleft hnext
    rw [hfound]
    refine ⟨_, _, rfl, ⟨hrowset, ?_⟩, ?_, ?_⟩
    · -- no row is found behind the last row only
      by_cases hend : rows.length ≤ d
      · have hnil : s.rowset = [] := by rw [hrowset, List.drop_eq_nil_of_le hend, List.take_nil]
        have hzeroFound : found = 0 := by omega
        refine iff_of_true (if_pos ⟨?_, by omega, hzeroFound⟩) hend
        rw [hsuccess hnil]
        rfl
      · refine iff_of_false (fun hcode => ?_) hend
        rw [if_neg (by omega)] at hcode
        change s.res = .noDataFound at hcode
        rcases hreports with hsucceeded | ⟨herror, -⟩
        · rw [hcode] at hsucceeded
          contradiction
        · rw [hcode] at herror
          contradiction
    · split_ifs
      · exact ⟨hkindLoop.cursorType, hkindLoop.optNoCache, hkindLoop.ssps, hkindLoop.resultArray⟩
      · exact ⟨hkindLoop.cursorType, hkindLoop.optNoCache, hkindLoop.ssps, hkindLoop.resultArray⟩
    · split_ifs with hreset
      · refine hpositioned rfl (fun hstays => absurd hstays ?_) fun _ _ => rfl
        have hcache : s.stmt.ifForwardCache = stmt.ifForwardCache := hkindLoop.ifForwardCache
        rw [← hkindLoop.resultArray, ← hcache, not_or]
        exact hreset.2
      · refine hpositioned rfl (fun _ => rfl) fun hrepositions _ => absurd ?_ hreset
        have hsucceeded : s.res.succeeded = true := by
          rcases hreports with hsucceeded | ⟨-, values, hsingle, hfails⟩
          · exact hsucceeded
          · have hconverted := hcall.converted hrepositions values (hrowset ▸ hsingle)
            rw [hfails] at hconverted
            contradiction
        simp only [Stmt.repositions, Bool.and_eq_true, Bool.not_eq_true'] at hrepositions
        refine ⟨hsucceeded, ?_, ?_⟩
        · show ¬ s.stmt.resultArray = true
          rw [hkindLoop.resultArray, hrepositions.1.1]
          exact Bool.false_ne_true
        · show ¬ s.stmt.ifForwardCache = true
          rw [hkindLoop.ifForwardCache, hrepositions.1.2]
          exact Bool.false_ne_true

/-- The query of a dynamic cursor is executed again. -/
theorem setDynamicResult (h : Positioned rows stmt d) (hdynamic : stmt.isDynamicCursor = true)
    (harray : stmt.resultArray = false) :
    ∃ after, stmt.setDynamicResult = some after ∧ SameKind stmt after ∧
      Positioned rows after d := by
  have hcursorType : stmt.cursorType = .dynamic := by
    simpa [Stmt.isDynamicCursor] using hdynamic
  have hscroller : stmt.scroller = none := by
    by_contra hsome
    rw [(h.scrolled (Option.isSome_iff_ne_none.mpr hsome)).1] at hcursorType
    contradiction
  have hunbuffered : stmt.unbuffered = false := by
    simp [Stmt.unbuffered, Stmt.ifForwardCache, hcursorType]
  have hcounted : stmt.uncounted = false := by rw [Stmt.uncounted, hunbuffered]; rfl
  have hserver : stmt.server = rows := by
    have hrows := h.resultRows
    rwa [Stmt.resultRows, hscroller] at hrows
  have hrow := h.row hcounted
  have hle := h.le
  obtain ⟨result, cursorRow, hrows, hset⟩ :=
    Stmt.setDynamicResult_spec h.nonneg (by rw [hserver]; omega)
  rw [hserver] at hrows
  refine ⟨_, hset, ⟨rfl, rfl, rfl, rfl⟩, ?_⟩
  generalize hafter : ({ stmt with result := result, cursorRow := cursorRow } : Stmt ρ) = after
  have hscrollerAfter : after.scroller = none := by
    subst hafter
    exact hscroller
  have hlater : after.later = [] := by rw [Stmt.later, hscrollerAfter]
  have hrowsAfter : after.result.rows = rows := by
    subst hafter
    exact hrows
  have harrayAfter : after.resultArray = false := by
    subst hafter
    exact harray
  have hcountedAfter : after.uncounted = false := by
    subst hafter
    exact hcounted
  have hd : after.nextRow d = d := by simp [Stmt.nextRow, hcountedAfter]
  refine ⟨hle, ?_, ?_, ?_, fun _ => ?_, ?_, fun _ => hrowsAfter, fun hnil => ?_, ?_, ?_⟩
  · subst hafter
    exact h.resultRows
  · subst hafter
    exact h.nonneg
  · subst hafter
    exact h.row
  · have hunbufferedAfter : after.unbuffered = false := by
      subst hafter
      exact hunbuffered
    rw [Stmt.numRows_of_counted hcountedAfter, hscrollerAfter, hunbufferedAfter, hrowsAfter]
    simpa using hle
  · rw [hscrollerAfter]
    simp
  · rw [hrowsAfter, hlater, hnil, List.append_nil]
  · rw [hd, Stmt.seekRow_eq, Stmt.sought_of_dynamic harrayAfter, Stmt.upcoming_fetched]
    · show (after.result.dataSeek _).remaining ++ after.later = _
      rw [ClientResult.remaining_dataSeek, hlater, List.append_nil, hrowsAfter, Int.toNat_natCast]
    · exact harrayAfter
    · subst hafter
      exact hcursorType
  · intro s hs
    rw [Stmt.seekRow_eq] at hs
    change after.scroller = some s at hs
    rw [hscrollerAfter] at hs
    contradiction

/-- One forward fetch. -/
theorem extendedFetch (h : Positioned rows stmt d)
    (hserves : ¬ (stmt.isDynamicCursor = true ∧ stmt.resultArray = true))
    (hcall : ForwardCall stmt.repositions rows d call) :
    ∃ after out, stmt.extendedFetch call = some (after, out) ∧ RightRowset rows d call out ∧
      SameKind stmt after ∧ Positioned rows after (min (d + call.arraySize) rows.length) := by
  unfold Stmt.extendedFetch
  rw [if_neg (by simp [hcall.next]), if_neg hserves]
  cases hdynamic : stmt.isDynamicCursor with
  | false =>
    obtain ⟨after, out, hfetch, hright, hkind, hafter⟩ := h.fetchRowset hcall
    simp only [Bool.false_eq_true, if_false, h.computeCurRow hcall.next, hfetch]
    exact ⟨after, out, rfl, hright, hkind, hafter⟩
  | true =>
    have harray : stmt.resultArray = false := by
      by_contra htrue
      exact hserves ⟨hdynamic, by simpa using htrue⟩
    obtain ⟨dynamic, hset, hkind, hpositioned⟩ := h.setDynamicResult hdynamic harray
    rw [← hkind.repositions] at hcall
    obtain ⟨after, out, hfetch, hright, hkindAfter, hafter⟩ := hpositioned.fetchRowset hcall
    simp only [if_true, hset, hpositioned.computeCurRow hcall.next, hfetch]
    exact ⟨after, out, rfl, hright, hkind.trans hkindAfter, hafter⟩

end Positioned

/-- The state of a statement whose query has just been executed. -/
structure Executed (stmt : Stmt ρ) : Prop where
  currentRow : stmt.currentRow = 0
  rowsFoundInSet : stmt.rowsFoundInSet = 0
  stored : stmt.scroller = none → stmt.result = .store stmt.server
  window : ∀ s, stmt.scroller = some s → stmt.result = .store (s.window stmt.server) ∧
    stmt.resultArray = false ∧ stmt.cursorType = .forwardOnly ∧ stmt.ssps = false
  first : ∀ s, stmt.scroller = some s → s.windowOffset = s.startOffset ∧
    s.nextOffset = s.startOffset + s.rowCount ∧ s.windowCount = s.rowCount ∧
    (s.totalRows = 0 ∨ 0 < s.rowCount ∧ s.rowCount ≤ s.totalRows)

/-- The first rowset begins with the first row. -/
theorem Executed.positioned {stmt : Stmt ρ} (h : Executed stmt) :
    Positioned stmt.resultRows stmt 0 := by
  obtain ⟨hall, hresult, hscrolled, hsupplied⟩ : stmt.result.rows ++ stmt.later = stmt.resultRows ∧
      stmt.result = .store stmt.result.rows ∧
      (stmt.scroller.isSome → stmt.cursorType = .forwardOnly ∧ stmt.ssps = false) ∧
      stmt.Supplied 0 := by
    cases hscroller : stmt.scroller with
    | none =>
      refine ⟨?_, ?_, by simp, fun s hs => ?_⟩
      · rw [h.stored hscroller, Stmt.later, Stmt.resultRows, hscroller]
        exact List.append_nil _
      · rw [h.stored hscroller]
        rfl
      · rw [hscroller] at hs
        contradiction
    | some s =>
      obtain ⟨hstore, harray, htype, hssps⟩ := h.window s hscroller
      obtain ⟨hoffset, hnext, hcount, htotal⟩ := h.first s hscroller
      obtain ⟨hsplit, -⟩ := Scroller.rowsFrom_window stmt.server hcount (by omega)
      refine ⟨?_, ?_, fun _ => ⟨htype, hssps⟩, fun s' hs => ?_⟩
      · rw [hstore, Stmt.later, Stmt.resultRows, hscroller]
        dsimp only
        rw [hnext, ← hoffset]
        exact hsplit.symm
      · rw [hstore]
        rfl
      · obtain rfl : s = s' := Option.some.inj (hscroller.symm.trans hs)
        have hlength : stmt.result.rows.length ≤ s.windowCount := by
          rw [hstore]
          exact List.length_take_le _ _
        refine ⟨harray, ⟨by omega, .inl hcount, hcount.le, by omega⟩, by omega, ?_⟩
        rw [hstore, ClientResult.remaining_store]
        simp only [ClientResult.store]
        omega
  have hfirst : stmt.nextRow 0 = 0 := by
    unfold Stmt.nextRow
    split_ifs <;> rfl
  have hrow : stmt.currentRow + stmt.rowsFoundInSet = (0 : ℕ) := by
    rw [h.currentRow, h.rowsFoundInSet, Nat.cast_zero, add_zero]
  have hstored : stmt.scroller = none → stmt.result.rows = stmt.resultRows := by
    intro hnone
    rw [← hall, Stmt.later, hnone, List.append_nil]
  have hupcoming : stmt.upcoming 0 = stmt.resultRows := by
    unfold Stmt.upcoming
    split_ifs with harray
    · apply hstored
      by_contra hsome
      obtain ⟨s, hs⟩ := Option.ne_none_iff_exists'.mp hsome
      rw [(h.window s hs).2.1] at harray
      contradiction
    · rw [← hall, hresult, ClientResult.remaining_store]
      rfl
  obtain ⟨hready, hnext⟩ := stmt.seekRow_spec stmt.result rfl (fun _ => rfl)
    (fun _ hne => absurd rfl hne) (fun _ => hrow) (fun hscroller => (hscrolled hscroller).1) hstored
    (fun _ _ => hall) (by rwa [hfirst]) (by rwa [hfirst])
  refine ⟨Nat.zero_le _, rfl, h.currentRow.ge, fun _ => hrow, fun _ => by omega, hscrolled, hstored,
    fun hnil => hall.trans hnil, hready, hnext⟩

/-- Consecutive rowsets: the state is the number of rows that have been delivered. A
dynamic cursor does not fetch from the result of a catalog function. -/
def consecutive (stmt : Stmt ρ) : Refinement.Spec ℕ (FetchCall ρ) (FetchResult ρ) where
  next d call :=
    if stmt.isDynamicCursor ∧ stmt.resultArray then d
    else min (d + call.arraySize) stmt.resultRows.length
  allowed d call := ForwardCall stmt.repositions stmt.resultRows d call
  right d call out :=
    if stmt.isDynamicCursor ∧ stmt.resultArray then out.rowset = [] ∧ out.code = .error
    else RightRowset stmt.resultRows d call out

/-- A stored result under a forward-only cursor, after its execution. -/
def storedStmt (rows : List ℕ) : Stmt ℕ where
  cursorType := .forwardOnly
  optNoCache := false
  optSafe := false
  ssps := false
  resultArray := false
  server := rows
  scroller := none
  result := .store rows
  currentRow := 0
  rowsFoundInSet := 0
  endOfSet := none
  cursorRow := 0

theorem storedStmt_executed (rows : List ℕ) : Executed (storedStmt rows) :=
  ⟨rfl, rfl, fun _ => rfl, by simp [storedStmt], by simp [storedStmt]⟩

/-- `SQLFetch` with a rowset size, where the conversion of one value fails. -/
def fetchNext (arraySize failing : ℕ) : FetchCall ℕ where
  fetchType := .next
  irow := 0
  arraySize := arraySize
  fill _ values := if values = failing then .error else .success
  fillBookmark _ := .success
  bookmarkInsert := false
  bookmarksVariable := false
  prefetchOk _ := true
  repositionOk := true

end MatrixOdbc.Driver
