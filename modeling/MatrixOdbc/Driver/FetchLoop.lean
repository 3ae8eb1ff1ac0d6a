import MatrixOdbc.Driver.ExtendedFetch

/-!
# The fetch loop

The rows that the fetch loop finds. Those to come are the rest of the open result and,
with a scroller, the rows of the windows that have not been opened yet; the loop
delivers the first of them, and its result is an error for a single row only.
-/

namespace MatrixOdbc.Driver

variable {ρ : Type*}

namespace Scroller

/-- The rows of the statement from an offset of the server's rows on. -/
def rowsFrom (s : Scroller) (server : List ρ) (offset : ℕ) : List ρ :=
  if s.totalRows = 0 then if s.rowCount = 0 then [] else server.drop offset
  else (server.drop offset).take (s.totalRows + s.startOffset - offset)

/-- The rows of the window in the text of the query. -/
def window (s : Scroller) (server : List ρ) : List ρ :=
  (server.drop s.windowOffset).take s.windowCount

/-- The numbers of a scroller that has opened at least one window. -/
structure Consistent (s : Scroller) : Prop where
  next : s.nextOffset = s.windowOffset + s.rowCount
  count : s.windowCount = s.rowCount ∨ 0 < s.totalRows ∧ s.totalRows + s.startOffset ≤ s.nextOffset
  count_le : s.windowCount ≤ s.rowCount
  nonempty : s.rowCount = 0 → s.totalRows = 0

variable {s moved : Scroller}

/-- There is no further window. -/
theorem rowsFrom_of_trim_none (server : List ρ) (htrim : s.move.trim = none) (hs : s.Consistent) :
    s.rowsFrom server s.nextOffset = [] ∧ s.move.rowsFrom server s.move.nextOffset = [] ∧
      s.move.Consistent := by
  have hnext := hs.next
  dsimp only [trim, move] at htrim
  split_ifs at htrim with hlast hcount
  have hend : ∀ offset, s.nextOffset ≤ offset → s.rowsFrom server offset = [] := by
    intro offset hle
    rw [rowsFrom, if_neg (by omega), Nat.sub_eq_zero_of_le (by omega), List.take_zero]
  refine ⟨hend _ le_rfl, hend _ (Nat.le_add_right _ _), rfl, .inr ⟨hlast.1, ?_⟩, hs.count_le,
    hs.nonempty⟩
  exact hlast.2

/-- The window has the first of the rows from its offset on. -/
theorem rowsFrom_window (server : List ρ) (hcount : s.windowCount = s.rowCount)
    (htotal : s.totalRows = 0 ∨
      0 < s.rowCount ∧ s.windowOffset + s.rowCount ≤ s.totalRows + s.startOffset) :
    s.rowsFrom server s.windowOffset =
        s.window server ++ s.rowsFrom server (s.windowOffset + s.rowCount) ∧
      (s.window server = [] → s.rowsFrom server (s.windowOffset + s.rowCount) = []) := by
  have hwindow : s.window server = (server.drop s.windowOffset).take s.rowCount := by
    simp only [window, hcount]
  rw [hwindow, List.take_eq_nil_iff]
  unfold rowsFrom
  split_ifs with hzero hrows
  · exact ⟨by simp [hrows], fun _ => rfl⟩
  · rw [← List.drop_drop, List.take_append_drop]
    exact ⟨rfl, fun hnil => by rw [hnil.resolve_left hrows, List.drop_nil]⟩
  · obtain ⟨hpos, hle⟩ := htotal.resolve_left hzero
    have hsplit : s.totalRows + s.startOffset - s.windowOffset = s.rowCount +
        (s.totalRows + s.startOffset - (s.windowOffset + s.rowCount)) := by omega
    rw [hsplit, List.take_add, ← List.drop_drop]
    exact ⟨rfl, fun hnil => by rw [hnil.resolve_left hpos.ne', List.drop_nil, List.take_nil]⟩

/-- The next window has the first of the rows to come. -/
theorem rowsFrom_of_trim_some (server : List ρ) (htrim : s.move.trim = some moved)
    (hs : s.Consistent) :
    s.rowsFrom server s.nextOffset = moved.window server ++ moved.rowsFrom server moved.nextOffset ∧
      (moved.window server = [] → moved.rowsFrom server moved.nextOffset = []) ∧
      moved.Consistent ∧ moved.windowOffset = s.nextOffset ∧ moved.rowCount = s.rowCount := by
  have hnext := hs.next
  dsimp only [trim, move] at htrim
  split_ifs at htrim with hlast hcount
  · -- the last window is cut off at the end of the statement's rows
    obtain rfl := Option.some.inj htrim
    have hnone : s.totalRows + s.startOffset - (s.nextOffset + s.rowCount) = 0 := by omega
    have hcut : (s.totalRows - (((s.nextOffset + s.rowCount : ℕ) : ℤ) - s.rowCount -
        s.startOffset)).toNat = s.totalRows + s.startOffset - s.nextOffset := by omega
    refine ⟨?_, fun _ => ?_, ⟨rfl, .inr hlast, ?_, hs.nonempty⟩, rfl, rfl⟩
    · simp only [rowsFrom, window, if_neg (show s.totalRows ≠ 0 by omega), hnone, hcut,
        List.take_zero, List.append_nil]
    · simp only [rowsFrom, if_neg (show s.totalRows ≠ 0 by omega), hnone, List.take_zero]
    · simp only [hcut]
      omega
  · obtain rfl := Option.some.inj htrim
    have hcount : s.windowCount = s.rowCount := by
      rcases hs.count with hcount | hdone
      · exact hcount
      · omega
    obtain ⟨hsplit, hempty⟩ := rowsFrom_window (s := s.move) server hcount (by
      by_cases hzero : s.totalRows = 0
      · exact .inl hzero
      · have hpos : s.rowCount ≠ 0 := fun hrows => hzero (hs.nonempty hrows)
        simp only [move]
        omega)
    exact ⟨hsplit, hempty, ⟨rfl, .inl hcount, hs.count_le, hs.nonempty⟩, rfl, rfl⟩

theorem rowsFrom_trim (htrim : s.trim = some moved) (server : List ρ) (offset : ℕ) :
    moved.rowsFrom server offset = s.rowsFrom server offset ∧ moved.startOffset = s.startOffset := by
  dsimp only [trim] at htrim
  split_ifs at htrim <;> obtain rfl := Option.some.inj htrim <;> exact ⟨rfl, rfl⟩

end Scroller

namespace Stmt

variable (stmt : Stmt ρ)

/-- The rows of the result set, as the application sees it. -/
def resultRows : List ρ :=
  match stmt.scroller with
  | some s => s.rowsFrom stmt.server s.startOffset
  | none => stmt.server

/-- The rows of the windows that have not been opened yet. -/
def later : List ρ :=
  match stmt.scroller with
  | some s => s.rowsFrom stmt.server s.nextOffset
  | none => []

/-- The rows that the fetch loop will find from a row on. -/
def upcoming (curRow : ℤ) : List ρ :=
  if stmt.resultArray then stmt.result.rows.drop curRow.toNat
  else stmt.result.remaining ++ stmt.later

/-- The scroller and its window agree on the rows before a row. -/
def Supplied (curRow : ℤ) : Prop :=
  ∀ s, stmt.scroller = some s → stmt.resultArray = false ∧ s.Consistent ∧
    stmt.result.rows.length ≤ s.rowCount ∧
    curRow + stmt.result.remaining.length ≤ s.windowOffset + stmt.result.rows.length

variable {stmt}

/-- What fetching rows leaves as it is. -/
structure FetchedFrom (stmt stmt' : Stmt ρ) : Prop where
  same : stmt' = { stmt with result := stmt'.result, scroller := stmt'.scroller }
  isSome : stmt'.scroller.isSome = stmt.scroller.isSome
  resultRows : stmt'.resultRows = stmt.resultRows
  rows : stmt.scroller = none → stmt'.result.rows = stmt.result.rows
  empty : stmt.result.rows ++ stmt.later = [] → stmt'.result.rows ++ stmt'.later = []

theorem FetchedFrom.refl (stmt : Stmt ρ) : FetchedFrom stmt stmt :=
  ⟨rfl, rfl, rfl, fun _ => rfl, id⟩

theorem FetchedFrom.trans {stmt₁ stmt₂ stmt₃ : Stmt ρ} (h : FetchedFrom stmt₁ stmt₂)
    (h' : FetchedFrom stmt₂ stmt₃) : FetchedFrom stmt₁ stmt₃ where
  same := by
    rw [h'.same, h.same]
  isSome := h'.isSome.trans h.isSome
  resultRows := h'.resultRows.trans h.resultRows
  rows hnone := by
    have hnone₂ : stmt₂.scroller = none := by
      rw [← Option.isNone_iff_eq_none, ← Option.not_isSome, h.isSome, hnone]
      rfl
    rw [h'.rows hnone₂, h.rows hnone]
  empty hnil := h'.empty (h.empty hnil)

/-- A row is fetched from the open result. -/
theorem fetchedFrom_fetchRow (stmt : Stmt ρ) :
    FetchedFrom stmt { stmt with result := stmt.result.fetchRow.2 } where
  same := rfl
  isSome := rfl
  resultRows := rfl
  rows _ := ClientResult.fetchRow_rows
  empty hnil := by
    show stmt.result.fetchRow.2.rows ++ stmt.later = []
    rwa [ClientResult.fetchRow_rows]

variable {curRow : ℤ} {values : ρ} {rest : List ρ}

/-- The rows to come from a result set that is not in the array. -/
theorem upcoming_fetched (harray : stmt.resultArray = false) (curRow : ℤ) :
    stmt.upcoming curRow = stmt.result.remaining ++ stmt.later := by
  rw [upcoming, harray]
  rfl

/-- The first row to come is fetched from the open result. -/
theorem upcoming_fetchRow (harray : stmt.resultArray = false) (hleft : stmt.result.remaining ≠ [])
    (hupcoming : stmt.upcoming curRow = values :: rest) (nextRow : ℤ) :
    ∃ left, stmt.result.remaining = values :: left ∧ stmt.result.fetchRow.1 = some values ∧
      ({ stmt with result := stmt.result.fetchRow.2 } : Stmt ρ).upcoming nextRow = rest := by
  obtain ⟨first, left, hremaining⟩ := List.exists_cons_of_ne_nil hleft
  rw [upcoming_fetched harray, hremaining, List.cons_append, List.cons_eq_cons] at hupcoming
  obtain ⟨rfl, hrest⟩ := hupcoming
  obtain ⟨hvalues, hafter⟩ := ClientResult.fetchRow_cons hremaining
  refine ⟨left, hremaining, hvalues, ?_⟩
  have hfetched : ({ stmt with result := stmt.result.fetchRow.2 } : Stmt ρ).resultArray = false :=
    harray
  rw [upcoming_fetched hfetched, ← hrest, ← hafter]
  rfl

/-- The open result has no row left. -/
theorem supplied_fetchRow_nil (hs : stmt.Supplied curRow) (hnil : stmt.result.remaining = []) :
    ({ stmt with result := stmt.result.fetchRow.2 } : Stmt ρ).Supplied curRow := by
  intro s hscroller
  obtain ⟨harray, hconsistent, hlength, hrow⟩ := hs s hscroller
  refine ⟨harray, hconsistent, ?_, ?_⟩
  · simpa using hlength
  · simpa only [ClientResult.fetchRow_rows, (ClientResult.fetchRow_nil hnil).2, hnil] using hrow

/-- The open result has a row left. -/
theorem supplied_fetchRow_cons (hs : stmt.Supplied curRow)
    (hcons : stmt.result.remaining = values :: rest) :
    ({ stmt with result := stmt.result.fetchRow.2 } : Stmt ρ).Supplied (curRow + 1) := by
  intro s hscroller
  obtain ⟨harray, hconsistent, hlength, hrow⟩ := hs s hscroller
  refine ⟨harray, hconsistent, ?_, ?_⟩
  · simpa using hlength
  · simp only [ClientResult.fetchRow_rows, (ClientResult.fetchRow_cons hcons).2]
    rw [hcons, List.length_cons] at hrow
    push_cast at hrow
    omega

/-- The next window is opened, if there is one. -/
theorem scrollerPrefetch_spec {s : Scroller} {curRow : ℤ} (hscroller : stmt.scroller = some s)
    (hs : stmt.Supplied curRow) (hnil : stmt.result.remaining = []) :
    FetchedFrom stmt (stmt.scrollerPrefetch s.move true).2 ∧
      (stmt.scrollerPrefetch s.move true).2.Supplied curRow ∧
      ((stmt.scrollerPrefetch s.move true).1 = .success ∧
          (stmt.scrollerPrefetch s.move true).2.upcoming curRow = stmt.upcoming curRow ∧
          ((stmt.scrollerPrefetch s.move true).2.result.remaining = [] →
            stmt.upcoming curRow = []) ∨
        (stmt.scrollerPrefetch s.move true).1 = .noDataFound ∧ stmt.upcoming curRow = [] ∧
          (stmt.scrollerPrefetch s.move true).2.upcoming curRow = []) := by
  obtain ⟨harray, hconsistent, hlength, hrow⟩ := hs s hscroller
  have hlater : stmt.later = s.rowsFrom stmt.server s.nextOffset := by rw [later, hscroller]
  have hupcoming : stmt.upcoming curRow = stmt.later := by
    rw [upcoming, harray, hnil]
    rfl
  unfold scrollerPrefetch
  cases htrim : s.move.trim with
  | none =>
    obtain ⟨hnone, hmove, hmoved⟩ :=
      Scroller.rowsFrom_of_trim_none stmt.server htrim hconsistent
    have hafter : ({ stmt with scroller := some s.move } : Stmt ρ).upcoming curRow = [] := by
      simp only [upcoming, later, harray, hnil, hmove]
      rfl
    refine ⟨⟨rfl, by simp [hscroller], by simp [resultRows, hscroller]; rfl, by simp [hscroller],
      fun hempty => ?_⟩, ?_, .inr ⟨rfl, by rw [hupcoming, hlater, hnone], hafter⟩⟩
    · have hrows := (List.append_eq_nil_iff.mp hempty).1
      simp only [later, hmove, List.append_nil]
      exact hrows
    · intro moved hmoved'
      obtain rfl := Option.some.inj hmoved'
      refine ⟨harray, hmoved, hlength, ?_⟩
      have hnext := hconsistent.next
      simp only [hnil, List.length_nil, Scroller.move] at hrow ⊢
      omega
  | some moved =>
    obtain ⟨hsplit, hempty, hmoved, hoffset, hcount⟩ :=
      Scroller.rowsFrom_of_trim_some stmt.server htrim hconsistent
    obtain ⟨hrows, hstart⟩ :=
      Scroller.rowsFrom_trim htrim stmt.server s.startOffset
    have hwindow : (moved.window stmt.server).length ≤ moved.rowCount :=
      (List.length_take_le _ _).trans hmoved.count_le
    dsimp only
    rw [if_pos rfl]
    refine ⟨⟨rfl, by simp [hscroller], ?_, by simp [hscroller], fun hall => ?_⟩, ?_,
      .inl ⟨rfl, ?_, fun hleft => ?_⟩⟩
    · simp only [resultRows, hscroller, hstart]
      exact hrows
    · show moved.window stmt.server ++ moved.rowsFrom stmt.server moved.nextOffset = []
      rw [← hsplit, ← hlater]
      exact (List.append_eq_nil_iff.mp hall).2
    · intro moved' hmoved'
      obtain rfl := Option.some.inj hmoved'
      refine ⟨harray, hmoved, hwindow, ?_⟩
      have hnext := hconsistent.next
      simp only [hnil, List.length_nil, ClientResult.remaining_store] at hrow ⊢
      simp only [ClientResult.store]
      omega
    · rw [hupcoming, hlater, hsplit]
      simp only [upcoming, later, harray, ClientResult.remaining_store]
      rfl
    · rw [ClientResult.remaining_store] at hleft
      rw [hupcoming, hlater, hsplit, hempty hleft, List.append_nil]
      exact hleft

end Stmt

namespace FetchLoop

open Stmt

variable {call : FetchCall ρ} {s : FetchLoop ρ}

/-- The next row leaves the other variables of the loop as they are. -/
theorem fetchValues_same (call : FetchCall ρ) (s : FetchLoop ρ) :
    (s.fetchValues call).2 = { s with
      stmt := (s.fetchValues call).2.stmt, savePosition := (s.fetchValues call).2.savePosition } := by
  unfold fetchValues
  split
  · rfl
  · dsimp only
    split
    · rfl
    · rfl
    · split
      · split_ifs <;> rfl
      · rfl

/-- The variables behind a call of `fetch_row`. -/
def rowFetched (s : FetchLoop ρ) : FetchLoop ρ :=
  { s with
    stmt := { s.stmt with result := s.stmt.result.fetchRow.2 }
    savePosition := if s.rowset = [] then s.stmt.result.rowTell else s.savePosition }

variable {scroller : Scroller} {values : ρ} {rest : List ρ}

theorem fetchValues_row (harray : s.stmt.resultArray = false)
    (hvalues : s.stmt.result.fetchRow.1 = some values) :
    s.fetchValues call = (some values, s.rowFetched) := by
  simp only [fetchValues, rowFetched, harray, hvalues, Bool.false_eq_true, if_false]

theorem fetchValues_end (harray : s.stmt.resultArray = false) (hscroller : s.stmt.scroller = none)
    (hnone : s.stmt.result.fetchRow.1 = none) :
    s.fetchValues call = (none, s.rowFetched) := by
  simp only [fetchValues, rowFetched, harray, hnone, hscroller, Bool.false_eq_true, if_false]

theorem fetchValues_window (harray : s.stmt.resultArray = false)
    (hscroller : s.stmt.scroller = some scroller) (hnone : s.stmt.result.fetchRow.1 = none)
    (hok : ∀ i, call.prefetchOk i = true) {code : SqlReturn} {opened : Stmt ρ}
    (hopened : s.rowFetched.stmt.scrollerPrefetch scroller.move true = (code, opened)) :
    s.fetchValues call =
      match code with
      | .success =>
        if opened.result.fetchRow.1.isSome then
          (opened.result.fetchRow.1, { s.rowFetched with
            stmt := { opened with result := opened.result.fetchRow.2 }
            savePosition := opened.result.fetchRow.2.rowTell })
        else
          (none, { s.rowFetched with stmt := { opened with result := opened.result.fetchRow.2 } })
      | _ => (none, { s.rowFetched with stmt := opened }) := by
  simp only [rowFetched, harray, hscroller] at hopened
  simp only [fetchValues, rowFetched, harray, hnone, hscroller, hok, hopened, Bool.false_eq_true,
    if_false]
  cases code <;> rfl

/-- The next row is the first of the upcoming ones. -/
theorem fetchValues_cons (hok : ∀ i, call.prefetchOk i = true) (hs : s.stmt.Supplied s.curRow)
    (hcur : 0 ≤ s.curRow) (hupcoming : s.stmt.upcoming s.curRow = values :: rest) :
    FetchedFrom s.stmt (s.fetchValues call).2.stmt ∧ (s.fetchValues call).1 = some values ∧
      (s.fetchValues call).2.stmt.upcoming (s.curRow + 1) = rest ∧
      (s.fetchValues call).2.stmt.Supplied (s.curRow + 1) := by
  cases harray : s.stmt.resultArray with
  | true =>
    have hrows : s.stmt.result.rows.drop s.curRow.toNat = values :: rest := by
      simpa only [upcoming, harray, if_true] using hupcoming
    have hvalues : s.fetchValues call = (some values, s) := by
      have hhead : s.stmt.result.rows[s.curRow.toNat]? = some values := by
        rw [← List.head?_drop, hrows, List.head?_cons]
      simp only [fetchValues, harray, if_true, hhead]
    have hnext : (s.curRow + 1).toNat = s.curRow.toNat + 1 := by omega
    rw [hvalues]
    refine ⟨FetchedFrom.refl _, rfl, ?_, fun scroller hscroller => ?_⟩
    · rw [upcoming, harray, if_pos rfl, hnext, ← List.drop_drop, hrows, List.drop_one,
        List.tail_cons]
    · have hfalse := (hs scroller hscroller).1
      rw [harray] at hfalse
      contradiction
  | false =>
    have hfetched : FetchedFrom s.stmt s.rowFetched.stmt := fetchedFrom_fetchRow s.stmt
    have hfetchedArray : s.rowFetched.stmt.resultArray = false := harray
    by_cases hleft : s.stmt.result.remaining = []
    · -- the window has no row left, the next one is opened
      obtain ⟨hnone, hafter⟩ := ClientResult.fetchRow_nil hleft
      have hsupplied : s.rowFetched.stmt.Supplied s.curRow := supplied_fetchRow_nil hs hleft
      have hsame : s.rowFetched.stmt.upcoming s.curRow = values :: rest := by
        rw [← hupcoming, upcoming_fetched harray, upcoming_fetched hfetchedArray, hleft, ← hafter]
        rfl
      cases hscroller : s.stmt.scroller with
      | none =>
        rw [upcoming_fetched harray, hleft, later, hscroller] at hupcoming
        contradiction
      | some scroller =>
        have hfetchedScroller : s.rowFetched.stmt.scroller = some scroller := hscroller
        obtain ⟨hwindow, hagain, hcases⟩ :=
          scrollerPrefetch_spec hfetchedScroller hsupplied hafter
        rw [hsame] at hcases
        cases hopened : s.rowFetched.stmt.scrollerPrefetch scroller.move true with
        | mk code opened =>
          rw [hopened] at hwindow hagain hcases
          rw [fetchValues_window harray hscroller hnone hok hopened]
          obtain ⟨rfl, hrows, hempty⟩ | ⟨-, hnil, -⟩ := hcases
          · have hopenedArray : opened.resultArray = false := by
              have hsame := congrArg Stmt.resultArray hwindow.same
              exact hsame.trans harray
            have hsome : opened.result.remaining ≠ [] :=
              fun hnil => List.cons_ne_nil _ _ (hempty hnil)
            obtain ⟨left, hcons, hvalues, hrest⟩ :=
              upcoming_fetchRow hopenedArray hsome hrows (s.curRow + 1)
            simp only [hvalues, Option.isSome_some, if_true]
            refine ⟨(hfetched.trans hwindow).trans (fetchedFrom_fetchRow opened), trivial,
              hrest, supplied_fetchRow_cons hagain hcons⟩
          · contradiction
    · obtain ⟨left, hcons, hvalues, hrest⟩ :=
        upcoming_fetchRow harray hleft hupcoming (s.curRow + 1)
      rw [fetchValues_row harray hvalues]
      exact ⟨hfetched, rfl, hrest, supplied_fetchRow_cons hs hcons⟩

/-- There is no further row. -/
theorem fetchValues_nil (hok : ∀ i, call.prefetchOk i = true) (hs : s.stmt.Supplied s.curRow)
    (hupcoming : s.stmt.upcoming s.curRow = []) :
    FetchedFrom s.stmt (s.fetchValues call).2.stmt ∧ (s.fetchValues call).1 = none ∧
      (s.fetchValues call).2.stmt.upcoming s.curRow = [] ∧
      (s.fetchValues call).2.stmt.Supplied s.curRow := by
  cases harray : s.stmt.resultArray with
  | true =>
    have hrows : s.stmt.result.rows.drop s.curRow.toNat = [] := by
      simpa only [upcoming, harray, if_true] using hupcoming
    have hvalues : s.fetchValues call = (none, s) := by
      have hle := List.drop_eq_nil_iff.mp hrows
      simp only [fetchValues, harray, if_true, List.getElem?_eq_none hle]
    rw [hvalues]
    exact ⟨FetchedFrom.refl _, rfl, hupcoming, hs⟩
  | false =>
    obtain ⟨hremaining, hlater⟩ : s.stmt.result.remaining = [] ∧ s.stmt.later = [] := by
      rwa [upcoming_fetched harray, List.append_eq_nil_iff] at hupcoming
    obtain ⟨hnone, hleft⟩ := ClientResult.fetchRow_nil hremaining
    have hfetched : FetchedFrom s.stmt s.rowFetched.stmt := fetchedFrom_fetchRow s.stmt
    have hfetchedArray : s.rowFetched.stmt.resultArray = false := harray
    have hsupplied : s.rowFetched.stmt.Supplied s.curRow := supplied_fetchRow_nil hs hremaining
    have hafter : s.rowFetched.stmt.upcoming s.curRow = [] := by
      rw [upcoming_fetched hfetchedArray]
      exact List.append_eq_nil_iff.mpr ⟨hleft, hlater⟩
    cases hscroller : s.stmt.scroller with
    | none =>
      rw [fetchValues_end harray hscroller hnone]
      exact ⟨hfetched, rfl, hafter, hsupplied⟩
    | some scroller =>
      have hfetchedScroller : s.rowFetched.stmt.scroller = some scroller := hscroller
      obtain ⟨hwindow, hagain, hcases⟩ :=
        scrollerPrefetch_spec hfetchedScroller hsupplied hleft
      rw [hafter] at hcases
      cases hopened : s.rowFetched.stmt.scrollerPrefetch scroller.move true with
      | mk code opened =>
        rw [hopened] at hwindow hagain hcases
        rw [fetchValues_window harray hscroller hnone hok hopened]
        obtain ⟨rfl, hrows, -⟩ | ⟨rfl, -, hrows⟩ := hcases
        · have hopenedArray : opened.resultArray = false := by
            have hsame := congrArg Stmt.resultArray hwindow.same
            exact hsame.trans harray
          obtain ⟨hopenedLeft, hopenedLater⟩ :
              opened.result.remaining = [] ∧ opened.later = [] := by
            rwa [upcoming_fetched hopenedArray, List.append_eq_nil_iff] at hrows
          obtain ⟨hopenedNone, hopenedAfter⟩ := ClientResult.fetchRow_nil hopenedLeft
          simp only [hopenedNone, Option.isSome_none, Bool.false_eq_true, if_false]
          refine ⟨(hfetched.trans hwindow).trans (fetchedFrom_fetchRow opened), trivial, ?_,
            supplied_fetchRow_nil hagain hopenedLeft⟩
          rw [upcoming_fetched]
          · exact List.append_eq_nil_iff.mpr ⟨hopenedAfter, hopenedLater⟩
          · exact hopenedArray
        · exact ⟨hfetched.trans hwindow, rfl, hrows, hagain⟩

/-- The loop ends. -/
theorem fetchRows_end (n : ℕ) (hnone : (s.fetchValues call).1 = none) :
    fetchRows call (n + 1) s = (s.fetchValues call).2 := by
  have hpair : s.fetchValues call = (none, (s.fetchValues call).2) := Prod.ext hnone rfl
  rw [fetchRows, hpair]

/-- The loop goes on. -/
theorem fetchRows_row (n : ℕ) (hvalues : (s.fetchValues call).1 = some values) :
    fetchRows call (n + 1) s =
      fetchRows call n ((s.fetchValues call).2.fillRow call values) := by
  have hpair : s.fetchValues call = (some values, (s.fetchValues call).2) :=
    Prod.ext hvalues rfl
  rw [fetchRows, hpair]

/-- The loop delivers the first of the upcoming rows. -/
theorem fetchRows_spec (hok : ∀ i, call.prefetchOk i = true) (n : ℕ)
    (hs : s.stmt.Supplied s.curRow) (hcur : 0 ≤ s.curRow) :
    (fetchRows call n s).rowset = s.rowset ++ (s.stmt.upcoming s.curRow).take n ∧
      FetchedFrom s.stmt (fetchRows call n s).stmt ∧
      (fetchRows call n s).stmt.upcoming (s.curRow + ((s.stmt.upcoming s.curRow).take n).length) =
        (s.stmt.upcoming s.curRow).drop n ∧
      (fetchRows call n s).stmt.Supplied
        (s.curRow + ((s.stmt.upcoming s.curRow).take n).length) := by
  induction n generalizing s with
  | zero => simpa [fetchRows] using And.intro (FetchedFrom.refl s.stmt) hs
  | succ n ih =>
    cases hupcoming : s.stmt.upcoming s.curRow with
    | nil =>
      obtain ⟨hread, hnone, hrows, hsupplied⟩ := fetchValues_nil hok hs hupcoming
      have hrowset := congrArg rowset (fetchValues_same call s)
      have hrun := fetchRows_end n hnone
      rw [hrun]
      simpa using ⟨hrowset, hread, hrows, hsupplied⟩
    | cons values rest =>
      obtain ⟨hread, hvalues, hrows, hsupplied⟩ := fetchValues_cons hok hs hcur hupcoming
      have hrowset := congrArg rowset (fetchValues_same call s)
      have hcurRow := congrArg curRow (fetchValues_same call s)
      have hrun := fetchRows_row n hvalues
      generalize (s.fetchValues call).2 = s' at hread hrows hsupplied hrowset hcurRow hrun
      dsimp only at hrowset hcurRow
      have hnext : (s'.fillRow call values).curRow = s.curRow + 1 := by
        rw [fillRow, hcurRow]
      have hfilled : (s'.fillRow call values).rowset = s.rowset ++ [values] := by
        rw [fillRow, hrowset]
      have hstmt : (s'.fillRow call values).stmt = s'.stmt := rfl
      obtain ⟨hall, hfetched, hrest, hleft⟩ := ih (s := s'.fillRow call values)
        (by rw [hnext]; exact hsupplied) (by omega)
      rw [hnext, hstmt, hrows] at hall hrest hleft
      rw [hrun]
      refine ⟨?_, hread.trans hfetched, ?_, ?_⟩
      · rw [hall, hfilled, List.append_assoc, List.take_succ_cons, List.singleton_append]
      · rw [List.drop_succ_cons, List.take_succ_cons, List.length_cons, ← hrest]
        congr 1
        push_cast
        omega
      · rw [List.take_succ_cons, List.length_cons]
        convert hleft using 1
        push_cast
        omega

/-- The result of the loop and the rows it belongs to. -/
def Reports (call : FetchCall ρ) (rowset : List ρ) (res : SqlReturn) : Prop :=
  (rowset = [] → res = .success) ∧
    (res.succeeded ∨
      res = .error ∧ ∃ values, rowset = [values] ∧ (call.fill 0 values).succeeded = false)

/-- A row changes the result of the call. -/
theorem reports_combine {rowset : List ρ} {res : SqlReturn} (h : Reports call rowset res)
    (values : ρ) :
    Reports call (rowset ++ [values])
      (combine res (call.fill rowset.length values) .success (rowset.length = 0)) := by
  refine ⟨by simp, ?_⟩
  unfold combine
  split_ifs with hdiffers hrow hfirst
  · exact .inl rfl
  · have hnil : rowset = [] := List.length_eq_zero_iff.mp (by simpa using hfirst)
    subst hnil
    exact .inr ⟨rfl, values, rfl, by simpa using hrow⟩
  · exact .inl rfl
  · have hsuccess : res = .success := by
      by_contra hne
      exact hdiffers (.inr hne)
    exact .inl (by rw [hsuccess]; rfl)

/-- The result of a forward fetch is an error only for a single row. -/
theorem fetchRows_reports (hnext : call.fetchType = .next) (n : ℕ)
    (hres : Reports call s.rowset s.res) :
    Reports call (fetchRows call n s).rowset (fetchRows call n s).res := by
  induction n generalizing s with
  | zero => exact hres
  | succ n ih =>
    have hsame := fetchValues_same call s
    have hrowset := congrArg rowset hsame
    have hcode := congrArg res hsame
    dsimp only at hrowset hcode
    cases hvalues : (s.fetchValues call).1 with
    | none =>
      rw [fetchRows_end n hvalues, hrowset, hcode]
      exact hres
    | some values =>
      rw [fetchRows_row n hvalues]
      apply ih
      have hcombined := reports_combine hres values
      simpa only [fillRow, hrowset, hcode, hnext, reduceCtorEq, false_and, if_false] using hcombined

end FetchLoop

end MatrixOdbc.Driver
