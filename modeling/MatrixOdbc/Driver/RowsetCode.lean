import MatrixOdbc.Driver.ForwardFetch
import Mathlib.Data.List.Induction

/-!
# The code of a rowset

`fill_fetch_buffers` folds the results of the bound columns to the one of a row, and the fetch
loop of `my_SQLExtendedFetch` folds the results of the rows and of the bookmarks to the one of
the call. The second fold begins with success and has a rule of its own for the first row: an
error is only kept by rows that fail with a bookmark that fails, too.
-/

namespace MatrixOdbc.Driver

variable {ρ : Type*}

/-- What the result of a column does to the one of its row. -/
def fillColumn (res tmpRes : SqlReturn) : SqlReturn :=
  if tmpRes ≠ .success then
    if tmpRes = .successWithInfo then if res = .success then tmpRes else res
    else .error
  else res

/-- `fill_fetch_buffers`, from the results of `sql_get_data` for the bound columns. -/
def fillFetchBuffers (columns : List SqlReturn) : SqlReturn := columns.foldl fillColumn .success

/-- `fill_fetch_bookmark_buffers`, from the result of `sql_get_bookmark_data` where the column
of the bookmark is bound. -/
def fillFetchBookmarkBuffers : Option SqlReturn → SqlReturn
  | some tmpRes => fillColumn .success tmpRes
  | none => .success

/-- How the columns of the rows and their bookmarks are converted. -/
structure RowsetConversion (ρ : Type*) where
  /-- The results of the bound columns of a row, in their order. -/
  columns : ℕ → ρ → List SqlReturn
  /-- The result of the column of the bookmark, where it is bound. -/
  bookmark : ℕ → Option SqlReturn

/-- A call with these conversions. -/
def FetchCall.converting (call : FetchCall ρ) (conversion : RowsetConversion ρ) : FetchCall ρ :=
  { call with
    fill := fun i values => fillFetchBuffers (conversion.columns i values)
    fillBookmark := fun i => fillFetchBookmarkBuffers (conversion.bookmark i) }

/-- A row that fails with one of its columns. -/
def RowFails (columns : List SqlReturn) : Prop := ∃ tmpRes ∈ columns, tmpRes.succeeded = false

/-- What the columns of a row say about it. -/
def RowStatus.IsOutcome (columns : List SqlReturn) : RowStatus → Prop
  | .success => ∀ tmpRes ∈ columns, tmpRes = .success
  | .successWithInfo => ¬ RowFails columns ∧ ∃ tmpRes ∈ columns, tmpRes = .successWithInfo
  | .error => RowFails columns
  | .norow => False

theorem rowFails_append {columns : List SqlReturn} {tmpRes : SqlReturn} :
    RowFails (columns ++ [tmpRes]) ↔ RowFails columns ∨ tmpRes.succeeded = false := by
  unfold RowFails
  simp only [List.mem_append, List.mem_singleton, or_and_right, exists_or, exists_eq_left]

/-- The three results of a row. -/
theorem fillFetchBuffers_cases (columns : List SqlReturn) :
    (fillFetchBuffers columns = .success ∧ ∀ tmpRes ∈ columns, tmpRes = .success) ∨
      (fillFetchBuffers columns = .successWithInfo ∧ ¬ RowFails columns ∧
        ∃ tmpRes ∈ columns, tmpRes = .successWithInfo) ∨
      (fillFetchBuffers columns = .error ∧ RowFails columns) := by
  induction columns using List.reverseRecOn with
  | nil => exact .inl ⟨rfl, nofun⟩
  | append_singleton columns tmpRes ih =>
    have hstep : fillFetchBuffers (columns ++ [tmpRes]) =
        fillColumn (fillFetchBuffers columns) tmpRes := by
      rw [fillFetchBuffers, List.foldl_append]
      rfl
    rw [hstep]
    obtain ⟨hres, hall⟩ | ⟨hres, hnone, tmpInfo, hmem, hinfo⟩ | ⟨hres, tmpFails, hmem, hfails⟩ := ih
    · have hnone : ∀ tmpRes ∈ columns, tmpRes.succeeded = true := fun tmpRes hmem => by
        rw [hall tmpRes hmem]
        rfl
      rw [hres]
      cases tmpRes with
      | success =>
        refine .inl ⟨rfl, fun tmpRes hmem => ?_⟩
        rcases List.mem_append.mp hmem with hmem | hmem
        · exact hall tmpRes hmem
        · exact List.mem_singleton.mp hmem
      | successWithInfo =>
        refine .inr (.inl ⟨rfl, ?_, _, List.mem_append_right _ List.mem_cons_self, rfl⟩)
        rw [rowFails_append]
        rintro (⟨tmpRes, hmem, hfails⟩ | hfails)
        · rw [hnone tmpRes hmem] at hfails
          contradiction
        · contradiction
      | error | noDataFound =>
        exact .inr (.inr ⟨rfl, rowFails_append.mpr (.inr rfl)⟩)
    · have hstays : ∃ tmp ∈ columns ++ [tmpRes], tmp = SqlReturn.successWithInfo :=
        ⟨tmpInfo, List.mem_append_left _ hmem, hinfo⟩
      rw [hres]
      cases tmpRes with
      | success | successWithInfo =>
        refine .inr (.inl ⟨rfl, ?_, hstays⟩)
        rw [rowFails_append]
        rintro (hfails | hfails)
        · exact hnone hfails
        · contradiction
      | error | noDataFound =>
        exact .inr (.inr ⟨rfl, rowFails_append.mpr (.inr rfl)⟩)
    · have hstays : RowFails (columns ++ [tmpRes]) :=
        rowFails_append.mpr (.inl ⟨tmpFails, hmem, hfails⟩)
      rw [hres]
      refine .inr (.inr ⟨?_, hstays⟩)
      cases tmpRes <;> rfl

/-- The result of the bookmark of a row, which only a fetch by bookmarks asks for. -/
def FetchCall.rowBook (call : FetchCall ρ) (i : ℕ) : SqlReturn :=
  if call.fetchType = .bookmark ∧ call.bookmarksVariable then call.fillBookmark i else .success

/-- Every row of a rowset has the property at its place. -/
def EachRow (P : ℕ → ρ → Prop) (rowset : List ρ) : Prop :=
  ∀ i values, rowset[i]? = some values → P i values

theorem eachRow_nil {P : ℕ → ρ → Prop} : EachRow P [] := nofun

theorem eachRow_append {P : ℕ → ρ → Prop} {rowset : List ρ} {values : ρ} :
    EachRow P (rowset ++ [values]) ↔ EachRow P rowset ∧ P rowset.length values := by
  unfold EachRow
  constructor
  · intro h
    refine ⟨fun i row hrow => h i row ?_, h _ _ (by simp)⟩
    rw [List.getElem?_append_left (List.getElem?_eq_some_iff.mp hrow).1, hrow]
  · rintro ⟨hrows, hlast⟩ i row hrow
    rcases lt_trichotomy i rowset.length with hlt | rfl | hgt
    · exact hrows i row (by rwa [List.getElem?_append_left hlt] at hrow)
    · rw [List.getElem?_append_right le_rfl, Nat.sub_self] at hrow
      obtain rfl := Option.some.inj hrow
      exact hlast
    · rw [List.getElem?_eq_none (by simp; omega)] at hrow
      contradiction

theorem EachRow.imp {P Q : ℕ → ρ → Prop} {rowset : List ρ} (h : EachRow P rowset)
    (himp : ∀ i values, P i values → Q i values) : EachRow Q rowset :=
  fun i values hrow => himp i values (h i values hrow)

namespace FetchLoop

variable {call : FetchCall ρ} {s : FetchLoop ρ} {values : ρ}

/-- Success is only kept. -/
theorem combine_eq_success_iff {res rowRes rowBook : SqlReturn} {first : Bool} :
    combine res rowRes rowBook first = .success ↔
      res = .success ∧ rowRes = .success ∧ rowBook = .success := by
  unfold combine
  split_ifs with hdiffers
  · apply iff_of_false nofun
    rintro ⟨rfl, rfl, rfl⟩
    simp at hdiffers
  · apply iff_of_false nofun
    rintro ⟨rfl, rfl, rfl⟩
    simp at hdiffers
  · apply iff_of_false nofun
    rintro ⟨rfl, rfl, rfl⟩
    simp at hdiffers
  · obtain ⟨rfl, rfl⟩ := not_or.mp hdiffers |>.imp not_not.mp not_not.mp
    simp

/-- An error comes from the first row, or is kept by a row and its bookmark. -/
theorem combine_eq_error_iff {res rowRes rowBook : SqlReturn} {first : Bool}
    (hres : res ≠ .noDataFound) (hrow : rowRes ≠ .noDataFound) :
    combine res rowRes rowBook first = .error ↔
      rowRes = .error ∧ (first = true ∨ res = .error ∧ rowBook = .error) := by
  unfold combine
  cases rowRes with
  | success | successWithInfo =>
    refine iff_of_false (fun herror => ?_) nofun
    simp only [SqlReturn.succeeded, if_true] at herror
    split_ifs at herror with hdiffers
    obtain ⟨rfl, -⟩ := not_or.mp hdiffers |>.imp not_not.mp not_not.mp
    contradiction
  | error =>
    have hfails : SqlReturn.error.succeeded = false := rfl
    cases first with
    | true =>
      refine iff_of_true ?_ ⟨rfl, .inl rfl⟩
      simp only [hfails, Bool.false_eq_true, if_false, if_true]
      split_ifs with hdiffers
      · rfl
      · exact not_not.mp (not_or.mp hdiffers).1
    | false =>
      simp only [hfails, Bool.false_eq_true, if_false, false_or, true_and]
      split_ifs with hdiffers
      · apply iff_of_false nofun
        rintro ⟨rfl, rfl⟩
        simp at hdiffers
      · obtain ⟨rfl, rfl⟩ := not_or.mp hdiffers |>.imp not_not.mp not_not.mp
        simp
  | noDataFound => exact absurd rfl hrow

theorem combine_ne_noDataFound {res rowRes rowBook : SqlReturn} {first : Bool}
    (hres : res ≠ .noDataFound) : combine res rowRes rowBook first ≠ .noDataFound := by
  unfold combine
  split_ifs
  · nofun
  · nofun
  · nofun
  · exact hres

/-- What the variables of the loop know about the rows that were copied. -/
structure Folded (call : FetchCall ρ) (s : FetchLoop ρ) : Prop where
  success : s.res = .success ↔
    EachRow (fun i values => call.fill i values = .success ∧ call.rowBook i = .success) s.rowset
  error : s.res = .error ↔ s.rowset ≠ [] ∧
    EachRow (fun i values => call.fill i values = .error ∧ (0 < i → call.rowBook i = .error)) s.rowset
  found : s.res ≠ .noDataFound
  length_status : s.rowStatus.length = s.rowset.length
  status : EachRow (fun i values =>
    s.rowStatus[i]? = some (sqlreturn2rowStatus (call.fill i values))) s.rowset

/-- Before the first row. -/
theorem folded_start (stmt : Stmt ρ) (curRow : ℤ) (savePosition : RowOffset) :
    Folded call ⟨stmt, curRow, savePosition, .success, [], []⟩ where
  success := iff_of_true rfl eachRow_nil
  error := iff_of_false nofun fun h => h.1 rfl
  found := nofun
  length_status := rfl
  status := eachRow_nil

/-- The statement, the position and the row pointer do not count. -/
theorem Folded.congr {s' : FetchLoop ρ} (h : Folded call s) (hres : s'.res = s.res)
    (hrowset : s'.rowset = s.rowset) (hstatus : s'.rowStatus = s.rowStatus) : Folded call s' := by
  obtain ⟨hsuccess, herror, hfound, hlength, heach⟩ := h
  constructor
  · rwa [hres, hrowset]
  · rwa [hres, hrowset]
  · rwa [hres]
  · rwa [hstatus, hrowset]
  · rwa [hrowset, hstatus]

/-- A row is copied. -/
theorem Folded.fillRow (h : Folded call s) (hfill : ∀ i values, call.fill i values ≠ .noDataFound)
    (values : ρ) : Folded call (s.fillRow call values) := by
  have hres : (s.fillRow call values).res = combine s.res (call.fill s.rowset.length values)
      (call.rowBook s.rowset.length) (s.rowset.length = 0) := rfl
  have hrowset : (s.fillRow call values).rowset = s.rowset ++ [values] := rfl
  have hstatus : (s.fillRow call values).rowStatus =
      s.rowStatus ++ [sqlreturn2rowStatus (call.fill s.rowset.length values)] := rfl
  obtain ⟨hsuccess, herror, hfound, hlength, heach⟩ := h
  have hrow := hfill s.rowset.length values
  constructor
  · rw [hres, hrowset, eachRow_append, ← hsuccess, combine_eq_success_iff]
  · rw [hres, hrowset, eachRow_append, combine_eq_error_iff hfound hrow, herror]
    by_cases hnil : s.rowset = []
    · simp [hnil, eachRow_nil]
    · have hpos : 0 < s.rowset.length := List.length_pos_iff.mpr hnil
      simp only [hnil, ne_eq, not_false_eq_true, true_and, List.append_eq_nil_iff, List.cons_ne_self,
        and_false, hpos, true_imp_iff, List.length_eq_zero_iff, decide_false, Bool.false_eq_true,
        false_or]
      tauto
  · rw [hres]
    exact combine_ne_noDataFound hfound
  · rw [hstatus, hrowset, List.length_append, List.length_append, hlength]
    rfl
  · rw [hrowset, eachRow_append, hstatus]
    refine ⟨fun i row hget => ?_, ?_⟩
    · have hlt : i < s.rowStatus.length := by
        rw [hlength]
        exact (List.getElem?_eq_some_iff.mp hget).1
      dsimp only
      rw [List.getElem?_append_left hlt]
      exact heach i row hget
    · rw [← hlength, List.getElem?_append_right le_rfl, Nat.sub_self, hlength]
      rfl

/-- The rows that the loop copies. -/
theorem Folded.fetchRows (hfill : ∀ i values, call.fill i values ≠ .noDataFound) (n : ℕ)
    (h : Folded call s) : Folded call (fetchRows call n s) := by
  induction n generalizing s with
  | zero => exact h
  | succ n ih =>
    have hres := congrArg res (fetchValues_same call s)
    have hrowset := congrArg rowset (fetchValues_same call s)
    have hstatus := congrArg rowStatus (fetchValues_same call s)
    have hfetched : Folded call (s.fetchValues call).2 := h.congr hres hrowset hstatus
    cases hvalues : (s.fetchValues call).1 with
    | none => rwa [fetchRows_end n hvalues]
    | some values =>
      rw [fetchRows_row n hvalues]
      exact ih (hfetched.fillRow hfill values)

end FetchLoop

/-- The result of the bookmark of a row: one that is not asked for or not bound succeeds. -/
def RowsetConversion.bookmarkOutcome (conversion : RowsetConversion ρ) (call : FetchCall ρ)
    (i : ℕ) : SqlReturn :=
  if call.fetchType = .bookmark ∧ call.bookmarksVariable then
    (conversion.bookmark i).getD .success
  else .success

/-- Every column of the rows succeeds without info, and every bookmark does. -/
def RowsetConversion.Succeeds (conversion : RowsetConversion ρ) (call : FetchCall ρ)
    (rowset : List ρ) : Prop :=
  EachRow (fun i values => (∀ tmpRes ∈ conversion.columns i values, tmpRes = .success) ∧
    conversion.bookmarkOutcome call i = .success) rowset

/-- Every row fails. -/
def RowsetConversion.Fails (conversion : RowsetConversion ρ) (rowset : List ρ) : Prop :=
  EachRow (fun i values => RowFails (conversion.columns i values)) rowset

/-- What the application learns about the rows: the code of the call says whether all of them
succeeded or failed, and the status array says how each one went. -/
structure FetchResult.Reports (result : FetchResult ρ) (call : FetchCall ρ)
    (conversion : RowsetConversion ρ) : Prop where
  success : result.code = .success ↔ conversion.Succeeds call result.rowset
  error : result.code = .error ↔ conversion.Fails result.rowset
  info : result.code = .successWithInfo ↔
    ¬ conversion.Succeeds call result.rowset ∧ ¬ conversion.Fails result.rowset
  status : EachRow (fun i values => ∃ statuses status, result.rowStatus = some statuses ∧
    statuses[i]? = some status ∧ status.IsOutcome (conversion.columns i values)) result.rowset

variable {call : FetchCall ρ} {conversion : RowsetConversion ρ}

theorem fillFetchBuffers_eq_success_iff {columns : List SqlReturn} :
    fillFetchBuffers columns = .success ↔ ∀ tmpRes ∈ columns, tmpRes = .success := by
  obtain ⟨hres, hall⟩ | ⟨hres, -, tmpRes, hmem, rfl⟩ | ⟨hres, tmpRes, hmem, hfails⟩ :=
    fillFetchBuffers_cases columns
  · exact iff_of_true hres hall
  · exact iff_of_false (by rw [hres]; nofun) fun hall => by simpa using hall _ hmem
  · refine iff_of_false (by rw [hres]; nofun) fun hall => ?_
    rw [hall tmpRes hmem] at hfails
    contradiction

theorem fillFetchBuffers_eq_error_iff {columns : List SqlReturn} :
    fillFetchBuffers columns = .error ↔ RowFails columns := by
  obtain ⟨hres, hall⟩ | ⟨hres, hnone, -⟩ | ⟨hres, hfails⟩ := fillFetchBuffers_cases columns
  · apply iff_of_false (by rw [hres]; nofun)
    rintro ⟨tmpRes, hmem, hfails⟩
    rw [hall tmpRes hmem] at hfails
    contradiction
  · exact iff_of_false (by rw [hres]; nofun) hnone
  · exact iff_of_true hres hfails

theorem fillFetchBuffers_ne_noDataFound (columns : List SqlReturn) :
    fillFetchBuffers columns ≠ .noDataFound := by
  obtain ⟨hres, -⟩ | ⟨hres, -⟩ | ⟨hres, -⟩ := fillFetchBuffers_cases columns <;> rw [hres] <;> nofun

/-- The status of a row is its outcome. -/
theorem isOutcome_fillFetchBuffers (columns : List SqlReturn) :
    (sqlreturn2rowStatus (fillFetchBuffers columns)).IsOutcome columns := by
  obtain ⟨hres, hall⟩ | ⟨hres, hinfo⟩ | ⟨hres, hfails⟩ := fillFetchBuffers_cases columns
  · rw [hres]
    exact hall
  · rw [hres]
    exact hinfo
  · rw [hres]
    exact hfails

/-- The result of a bookmark in the loop. -/
theorem rowBook_converting (i : ℕ) :
    ((call.converting conversion).rowBook i = .success ↔
      conversion.bookmarkOutcome call i = .success) ∧
    ((call.converting conversion).rowBook i = .error ↔
      (conversion.bookmarkOutcome call i).succeeded = false) := by
  unfold FetchCall.rowBook RowsetConversion.bookmarkOutcome FetchCall.converting
  dsimp only
  split_ifs with hasked
  · cases conversion.bookmark i with
    | none => exact ⟨Iff.rfl, iff_of_false nofun nofun⟩
    | some tmpRes => cases tmpRes <;> decide
  · exact ⟨Iff.rfl, iff_of_false nofun nofun⟩

/-- A rowset with a row does not fail and succeed. -/
theorem RowsetConversion.Fails.not_succeeds {rowset : List ρ} (h : conversion.Fails rowset)
    (hrows : rowset ≠ []) : ¬ conversion.Succeeds call rowset := by
  intro hsucceeds
  have hfirst : rowset[0]? = some (rowset.head hrows) := by
    rw [← List.head?_eq_getElem?, List.head?_eq_some_head hrows]
  obtain ⟨tmpRes, hmem, hfails⟩ := h 0 _ hfirst
  rw [(hsucceeds 0 _ hfirst).1 tmpRes hmem] at hfails
  contradiction

namespace FetchLoop

variable {s : FetchLoop ρ}

/-- The result of the loop is success where all rows and bookmarks succeed. -/
theorem Folded.res_eq_success_iff (h : Folded (call.converting conversion) s) :
    s.res = .success ↔ conversion.Succeeds call s.rowset := by
  rw [h.success]
  constructor
  · intro hall
    exact hall.imp fun i values ⟨hcolumns, hbook⟩ =>
      ⟨fillFetchBuffers_eq_success_iff.mp hcolumns, (rowBook_converting i).1.mp hbook⟩
  · intro hall
    exact EachRow.imp hall fun i values ⟨hcolumns, hbook⟩ =>
      ⟨fillFetchBuffers_eq_success_iff.mpr hcolumns, (rowBook_converting i).1.mpr hbook⟩

/-- The result of the loop is an error where all rows fail, and the bookmarks behind the first
row fail with them. -/
theorem Folded.res_eq_error_iff (h : Folded (call.converting conversion) s)
    (hrows : s.rowset ≠ []) :
    s.res = .error ↔ conversion.Fails s.rowset ∧ ∀ i, 0 < i → i < s.rowset.length →
      (conversion.bookmarkOutcome call i).succeeded = false := by
  rw [h.error, and_iff_right hrows]
  constructor
  · intro hall
    refine ⟨hall.imp fun i values hrow => fillFetchBuffers_eq_error_iff.mp hrow.1, ?_⟩
    intro i hpos hlt
    have hrow := hall i s.rowset[i] (List.getElem?_eq_getElem hlt)
    exact (rowBook_converting i).2.mp (hrow.2 hpos)
  · rintro ⟨hfails, hlater⟩ i values hget
    refine ⟨fillFetchBuffers_eq_error_iff.mpr (hfails i values hget), fun hpos => ?_⟩
    exact (rowBook_converting i).2.mpr (hlater i hpos (List.getElem?_eq_some_iff.mp hget).1)

end FetchLoop

namespace Stmt

/-- A prefetch leaves a scroller. -/
theorem isSome_scroller_scrollerPrefetch (stmt : Stmt ρ) (s : Scroller) (ok : Bool) :
    (stmt.scrollerPrefetch s ok).2.scroller.isSome = true := by
  unfold scrollerPrefetch
  cases s.trim with
  | none => rfl
  | some s => cases ok <;> rfl

/-- The row that is computed is one of the result, or a scroller has the rows behind it. -/
theorem computeCurRow_le {stmt moved : Stmt ρ} {curRow : ℤ}
    (h : stmt.computeCurRow call = some (moved, .ok curRow)) :
    moved.scroller.isSome = true ∨ curRow ≤ stmt.numRows := by
  unfold computeCurRow at h
  dsimp only at h
  split_ifs at h with hbefore hbehind
  · simp at h
  · cases hscroller : stmt.scroller with
    | none =>
      rw [hscroller] at h
      simp only [Option.some.injEq, Prod.mk.injEq, Except.ok.injEq] at h
      exact .inr h.2.ge
    | some scroller =>
      rw [hscroller] at h
      dsimp only at h
      cases hpast : scrollPast (stmt.targetRow call.fetchType call.irow (toLong call.arraySize))
          scroller with
      | none => simp [hpast] at h
      | some past =>
        have hkeeps := isSome_scroller_scrollerPrefetch stmt past call.repositionOk
        rw [hpast] at h
        dsimp only at h
        rcases hprefetch : stmt.scrollerPrefetch past call.repositionOk with ⟨code, opened⟩
        rw [hprefetch] at h hkeeps
        cases code with
        | success =>
          obtain ⟨rfl, -⟩ := Prod.mk.inj (Option.some.inj h)
          rw [seekRow_eq]
          exact .inl hkeeps
        | _ => simp at h
  · simp only [Option.some.injEq, Prod.mk.injEq, Except.ok.injEq] at h
    exact .inr (by omega)

/-- A call that copies rows has run the loop, with room for a row. -/
theorem extendedFetch_rows {stmt after : Stmt ρ} {result : FetchResult ρ}
    (h : stmt.extendedFetch call = some (after, result)) (hrows : result.rowset ≠ []) :
    0 < call.arraySize ∧ ∃ (moved : Stmt ρ) (maxRow curRow : ℤ),
      result = (moved.fetchRowset call maxRow curRow).2 := by
  have herror : ∀ {stmt : Stmt ρ} {code : SqlReturn},
      some (stmt, FetchResult.mk code [] none none) ≠ some (after, result) := by
    intro stmt code heq
    obtain ⟨-, rfl⟩ := Prod.mk.inj (Option.some.inj heq)
    exact hrows rfl
  unfold extendedFetch at h
  split_ifs at h
  · exact absurd h herror
  · exact absurd h herror
  all_goals
    -- The cursor is dynamic or not: the row is computed on the statement that is left.
    split at h
    · contradiction
    · rename_i stmt _
      rcases hcompute : stmt.computeCurRow call with _ | ⟨moved, code | curRow⟩
      · simp [hcompute] at h
      · rw [hcompute] at h
        exact absurd h herror
      · rw [hcompute] at h
        have hresult : (moved.fetchRowset call stmt.numRows curRow).2 = result :=
          congrArg Prod.snd (Option.some.inj h)
        refine ⟨Nat.pos_of_ne_zero fun hzero => hrows ?_, moved, _, curRow, hresult.symm⟩
        have hnone : moved.rowsToFetch call stmt.numRows curRow = 0 := by
          unfold rowsToFetch
          split_ifs with hall
          · exact hzero
          · have hle := (computeCurRow_le hcompute).resolve_left fun h => hall (.inl h)
            rw [hzero, show toLong 0 = 0 from rfl, min_eq_right (by omega)]
            rfl
        rw [← hresult, fetchRowset]
        dsimp only
        rw [if_pos hnone]

/-- What a call with rows returns, from the variables of its loop. -/
theorem fetchRowset_of_rows {stmt : Stmt ρ} {maxRow curRow : ℤ} (hsize : 0 < call.arraySize)
    (hrows : (stmt.fetchRowset call maxRow curRow).2.rowset ≠ []) :
    ∃ s, s = FetchLoop.fetchRows call (stmt.rowsToFetch call maxRow curRow)
        ⟨stmt, curRow, none, .success, [], []⟩ ∧
      (stmt.fetchRowset call maxRow curRow).2.rowset = s.rowset ∧
      (stmt.fetchRowset call maxRow curRow).2.rowStatus =
        some (s.rowStatus ++ List.replicate (call.arraySize - s.rowset.length) .norow) ∧
      (stmt.fetchRowset call maxRow curRow).2.code =
        if s.res.succeeded = true ∧ s.rowset.length % 2 ^ 32 = 0 then .noDataFound else s.res := by
  refine ⟨_, rfl, ?_⟩
  unfold fetchRowset at hrows ⊢
  dsimp only at hrows ⊢
  by_cases hnone : stmt.rowsToFetch call maxRow curRow = 0
  · rw [if_pos hnone] at hrows
    exact absurd rfl hrows
  · rw [if_neg hnone]
    refine ⟨rfl, rfl, ?_⟩
    dsimp only
    generalize FetchLoop.fetchRows call (stmt.rowsToFetch call maxRow curRow)
      ⟨stmt, curRow, none, .success, [], []⟩ = s
    by_cases hzero : s.rowset.length % 2 ^ 32 = 0
    · simp only [hzero, hsize, and_true]
    · simp only [hzero, and_false]

end Stmt

/-- One bound column, whose conversion fails for some values, and no bookmarks. -/
def failingFor (failing : List ℕ) : RowsetConversion ℕ where
  columns _ values := [if values ∈ failing then .error else .success]
  bookmark _ := none

end MatrixOdbc.Driver
