import MatrixOdbc.Driver.FetchByBookmark
import MatrixOdbc.Driver.ForwardFetch
import Mathlib.Logic.Relation

/-!
# Round trips of bookmarks

The numbers that the driver returns as bookmarks, and the two ways it takes them back:
`SQLFetchScroll` counts the rows from zero, `fetch_bookmark` from one. A row is given by
its number here, so that it can be told from every other row of the result.
-/

namespace MatrixOdbc.Driver

/-- What `atol` makes of the text of a bookmark. -/
def atolBookmark (bookmark : ℕ) : ℤ := min (bookmark : ℤ) (2 ^ 63 - 1)

/-- The number that `fill_fetch_bookmark_buffers` gets for a row of the rowset. -/
def FetchCall.columnBookmark {ρ : Type*} (call : FetchCall ρ) (i : ℕ) : ℕ :=
  ((call.irow + i + 1) % 2 ^ 64).toNat

namespace Stmt

section Positioning

variable {ρ : Type*} (stmt : Stmt ρ)

/-- The number that `SQLGetData` gets for column 0. -/
def getDataBookmark : ℕ := stmt.cursorRow.toNat

/-- `my_SQLSetPos` for `SQL_POSITION`. There is no result if it does not return. -/
def setPosition (irow : ℕ) : Option (SqlReturn × Stmt ρ) :=
  if stmt.ifForwardCache ∧ (irow : ℤ) < stmt.currentRow then some (.error, stmt)
  else if stmt.numRows < irow then some (.error, stmt)
  else if irow = 0 then some (.error, stmt)
  else if stmt.rowsFoundInSet < irow then some (.error, stmt)
  else if stmt.isDynamicCursor ∧ stmt.resultArray then some (.error, stmt)
  else
    (if stmt.isDynamicCursor then stmt.setDynamicResult else some stmt).map fun stmt =>
      let cursorRow : ℤ := stmt.currentRow + (irow - 1 : ℕ)
      let row := (cursorRow % 2 ^ 64).toNat
      let sought := { stmt.clientSeek row with cursorRow := cursorRow }
      let fetched := { sought with result := sought.result.fetchRow.2 }
      (.success, fetched.clientSeek row)

end Positioning

/-- What an application does between two uses of a bookmark: it fetches a rowset, or it
positions the cursor on a row. -/
inductive Step : Stmt ℕ → Stmt ℕ → Prop
  | fetch {stmt after : Stmt ℕ} (call : FetchCall ℕ) (out : FetchResult ℕ)
      (hfetch : stmt.extendedFetch call = some (after, out)) : Step stmt after
  | position {stmt after : Stmt ℕ} (irow : ℕ) (code : SqlReturn)
      (hposition : stmt.setPosition irow = some (code, after)) : Step stmt after

/-- The bookmark that is returned for a row of a rowset, and the statement behind that: by
the fetch itself in the bound column, or by `SQLGetData` where the cursor is positioned on
the row. -/
inductive Returned (fetched : Stmt ℕ) (call : FetchCall ℕ) (i : ℕ) : Stmt ℕ → ℕ → Prop
  | column (hfetchType : call.fetchType = .bookmark) (hvariable : call.bookmarksVariable = true) :
      Returned fetched call i fetched (call.columnBookmark i)
  | getData {stmt : Stmt ℕ} (hposition : fetched.setPosition (i + 1) = some (.success, stmt)) :
      Returned fetched call i stmt stmt.getDataBookmark

/-- `SQLFetchScroll` with `SQL_FETCH_BOOKMARK`, a bookmark and an offset, where nothing
fails. -/
def scrollCall (bookmark : ℕ) (k : ℤ) (arraySize : ℕ) : FetchCall ℕ where
  fetchType := .bookmark
  irow := Int.bmod (k + atolBookmark bookmark) (2 ^ 64)
  arraySize := arraySize
  fill _ _ := .success
  fillBookmark _ := .success
  bookmarkInsert := false
  bookmarksVariable := true
  prefetchOk _ := true
  repositionOk := true

/-- `SQL_FETCH_BY_BOOKMARK` with one bookmark, where nothing fails. -/
def bookmarkCall (stmt : Stmt ℕ) (bookmark : ℕ) : BookmarkFetch ℕ where
  stmt := stmt
  bookmarks := true
  bound := true
  bookmark _ := atolBookmark bookmark
  arraySize := 1
  fill := some fun _ => .success
  rowStatusPtr := false
  rowsProcessedPtr := false
  outParams := false
  disconnected _ := false
  repositionOk _ := true
  prefetchOk _ := true

/-- The row that the first fetch of a call of `fetch_bookmark` returns. -/
def fetchedByBookmark (stmt : Stmt ℕ) (bookmark : ℕ) : Option ℕ :=
  ((bookmarkCall stmt bookmark).fetch 0).bind fun f =>
    f.arrival.bind fun arrival => arrival.row.map Prod.snd

/-- `SQLFetchScroll` starts the rowset at the row that is `k` rows behind, if the result has
that row. -/
def ScrollsBack (stmt : Stmt ℕ) (bookmark row : ℕ) : Prop :=
  ∀ (k : ℤ) (target : ℕ), (target : ℤ) = row + k → target ∈ stmt.resultRows →
    ∀ arraySize, 0 < arraySize → ∃ after out,
      stmt.extendedFetch (scrollCall bookmark k arraySize) = some (after, out) ∧
        out.rowset.head? = some target

/-- A bookmark of a row leads back to it, whatever is done with the cursor before. -/
def RoundTrips (stmt : Stmt ℕ) (bookmark row : ℕ) : Prop :=
  ∀ later, Relation.ReflTransGen Step stmt later →
    later.ScrollsBack bookmark row ∧ later.fetchedByBookmark bookmark = some row

end Stmt

theorem take_drop_range (count first length : ℕ) :
    ((List.range count).drop first).take length =
      List.range' first (min length (count - first)) := by
  rw [List.range_eq_range', List.drop_range', Nat.zero_add, Nat.mul_one]
  rcases Nat.le_total length (count - first) with hle | hle
  · rw [List.take_range'_of_length_ge hle, Nat.min_eq_left hle]
  · rw [List.take_range'_of_length_le hle, Nat.min_eq_right hle]

namespace Scroller

/-- The numbers of a scroller that has a window. -/
structure Regular (s : Scroller) : Prop where
  next : s.nextOffset = s.windowOffset + s.rowCount
  count_le : s.windowCount ≤ s.rowCount
  start_le : s.startOffset ≤ s.windowOffset

/-- The window of a scroller is behind the one of another. -/
structure Behind (s moved : Scroller) : Prop where
  regular : moved.Regular
  next_le : s.nextOffset ≤ moved.windowOffset
  rowCount : moved.rowCount = s.rowCount
  startOffset : moved.startOffset = s.startOffset
  totalRows : moved.totalRows = s.totalRows

variable {s moved trimmed : Scroller} {count row : ℕ}

theorem Regular.move (h : s.Regular) : s.Behind s.move := by
  have hnext := h.next
  have hstart := h.start_le
  refine ⟨⟨rfl, h.count_le, ?_⟩, le_rfl, rfl, rfl, rfl⟩
  show s.startOffset ≤ s.nextOffset
  omega

theorem Behind.next_le_next (h : s.Behind moved) : s.nextOffset ≤ moved.nextOffset := by
  have hle := h.next_le
  have hnext := h.regular.next
  omega

theorem Behind.trans {further : Scroller} (h : s.Behind moved) (h' : moved.Behind further) :
    s.Behind further where
  regular := h'.regular
  next_le := h.next_le_next.trans h'.next_le
  rowCount := h'.rowCount.trans h.rowCount
  startOffset := h'.startOffset.trans h.startOffset
  totalRows := h'.totalRows.trans h.totalRows

theorem behind_scrollPast {curRow : ℤ} (h : s.Regular) (hpast : scrollPast curRow s = some moved) :
    s.Behind moved := by
  fun_induction scrollPast curRow s with
  | case1 s hle =>
    obtain rfl := Option.some.inj hpast
    exact h.move
  | case2 s hlt hzero => contradiction
  | case3 s hlt hpos ih => exact h.move.trans (ih h.move.regular hpast)

/-- The window in the text of the query is cut off at the end of the statement's rows. -/
theorem Behind.trim (h : s.Behind moved) (htrim : moved.trim = some trimmed) :
    s.Behind trimmed ∧ trimmed.nextOffset = moved.nextOffset ∧
      (0 < trimmed.totalRows →
        trimmed.windowOffset + trimmed.windowCount ≤ trimmed.totalRows + trimmed.startOffset) := by
  obtain ⟨⟨hnext, hcount, hstart⟩, hle, hrowCount, hstartOffset, htotal⟩ := h
  dsimp only [Scroller.trim] at htrim
  split_ifs at htrim with hlast hleft
  · obtain rfl := Option.some.inj htrim
    refine ⟨⟨⟨hnext, ?_, hstart⟩, hle, hrowCount, hstartOffset, htotal⟩, rfl, fun _ => ?_⟩
    · dsimp only
      omega
    · dsimp only
      omega
  · obtain rfl := Option.some.inj htrim
    refine ⟨⟨⟨hnext, hcount, hstart⟩, hle, hrowCount, hstartOffset, htotal⟩, rfl, fun hpos => ?_⟩
    omega

theorem mem_window : row ∈ s.window (List.range count) ↔
    s.windowOffset ≤ row ∧ row < s.windowOffset + s.windowCount ∧ row < count := by
  rw [window, take_drop_range, List.mem_range'_1]
  omega

/-- The rows of a window are rows of the statement. -/
theorem mem_rowsFrom_of_mem_window (h : s.Regular)
    (htotal : 0 < s.totalRows → s.windowOffset + s.windowCount ≤ s.totalRows + s.startOffset)
    (hrow : row ∈ s.window (List.range count)) :
    row ∈ s.rowsFrom (List.range count) s.startOffset := by
  obtain ⟨hnext, hcount, hstart⟩ := h
  obtain ⟨hle, hlt, hend⟩ := mem_window.mp hrow
  unfold rowsFrom
  split_ifs with hzero hnone
  · omega
  · rw [List.range_eq_range', List.drop_range', List.mem_range'_1]
    omega
  · rw [take_drop_range, List.mem_range'_1]
    have hlast := htotal (Nat.pos_of_ne_zero hzero)
    omega

end Scroller

namespace Stmt

/-- The client library holds rows of the result that follow each other; with a scroller they
are in front of its next window. -/
structure Held (count : ℕ) (stmt : Stmt ℕ) : Prop where
  server : stmt.server = List.range count
  rows : ∃ first length, stmt.result.rows = List.range' first length
  inResult : ∀ row ∈ stmt.result.rows, row ∈ stmt.resultRows
  scrolled : ∀ s, stmt.scroller = some s → s.Regular ∧ stmt.cursorType = .forwardOnly ∧
    stmt.resultArray = false ∧ ∀ row ∈ stmt.result.rows, row < s.nextOffset

/-- A row of the result has been read: the windows that follow are behind it, and so are the
rows that an unbuffered result still has. -/
structure Passed (stmt : Stmt ℕ) (row : ℕ) : Prop where
  mem : row ∈ stmt.resultRows
  window : ∀ s, stmt.scroller = some s → row < s.nextOffset
  read : stmt.unbuffered = true → ∀ next ∈ stmt.result.remaining, row < next

/-- A row is none of those that an unbuffered result has read. -/
def Unread (stmt : Stmt ℕ) (row : ℕ) : Prop :=
  stmt.unbuffered = true → ∀ passed, stmt.Passed passed → passed < row

/-- What a statement has kept and what it has read, behind some calls. -/
structure Advances (count : ℕ) (stmt after : Stmt ℕ) : Prop where
  kind : SameKind stmt after
  held : after.Held count
  passed : ∀ row, stmt.Passed row → after.Passed row

/-- Nothing is read from the server. -/
structure Moves (stmt after : Stmt ℕ) : Prop where
  same : after = { stmt with
    result := after.result, currentRow := after.currentRow,
    rowsFoundInSet := after.rowsFoundInSet, endOfSet := after.endOfSet,
    cursorRow := after.cursorRow }
  rows : after.result.rows = stmt.result.rows
  remaining : stmt.unbuffered = true →
    ∀ row ∈ after.result.remaining, row ∈ stmt.result.remaining

variable {stmt after further : Stmt ℕ} {count row : ℕ} {call : FetchCall ℕ}

theorem Advances.refl (h : stmt.Held count) : Advances count stmt stmt :=
  ⟨.refl stmt, h, fun _ => id⟩

theorem Advances.trans (h : Advances count stmt after) (h' : Advances count after further) :
    Advances count stmt further :=
  ⟨h.kind.trans h'.kind, h'.held, fun row hrow => h'.passed row (h.passed row hrow)⟩

theorem unbuffered_of_sameKind (h : SameKind stmt after) : after.unbuffered = stmt.unbuffered := by
  simp only [unbuffered, h.ifForwardCache, h.resultArray]

theorem Moves.advances (h : Moves stmt after) (hheld : stmt.Held count) :
    Advances count stmt after := by
  obtain ⟨hsame, hrows, hremaining⟩ := h
  have hkind : SameKind stmt after :=
    ⟨by rw [hsame], by rw [hsame], by rw [hsame], by rw [hsame]⟩
  have hserver : after.server = stmt.server := by rw [hsame]
  have hscroller : after.scroller = stmt.scroller := by rw [hsame]
  have hresult : after.resultRows = stmt.resultRows := by
    unfold resultRows
    rw [hscroller, hserver]
  refine ⟨hkind, ⟨hserver.trans hheld.server, ?_, ?_, ?_⟩, fun row hrow => ⟨?_, ?_, ?_⟩⟩
  · rw [hrows]
    exact hheld.rows
  · rw [hrows, hresult]
    exact hheld.inResult
  · rw [hrows, hscroller, hkind.cursorType, hkind.resultArray]
    exact hheld.scrolled
  · rw [hresult]
    exact hrow.mem
  · rw [hscroller]
    exact hrow.window
  · rw [unbuffered_of_sameKind hkind]
    exact fun hunbuffered next hnext =>
      hrow.read hunbuffered next (hremaining hunbuffered next hnext)

theorem mem_rows_of_mem_remaining {result : ClientResult ℕ} (h : row ∈ result.remaining) :
    row ∈ result.rows := by
  unfold ClientResult.remaining ClientResult.behind at h
  split at h
  · exact List.mem_of_mem_drop h
  · contradiction

/-- The rows that are left of consecutive ones. -/
theorem exists_remaining (h : stmt.Held count) :
    ∃ first length, stmt.result.remaining = List.range' first length := by
  obtain ⟨first, length, hrows⟩ := h.rows
  unfold ClientResult.remaining ClientResult.behind
  split
  · exact ⟨_, _, by rw [hrows, List.drop_range']⟩
  · exact ⟨0, 0, rfl⟩

/-- A row is read from the open result. -/
theorem moves_fetchRow (stmt : Stmt ℕ) :
    Moves stmt { stmt with result := stmt.result.fetchRow.2 } := by
  refine ⟨rfl, ClientResult.fetchRow_rows, fun _ row hrow => ?_⟩
  cases hremaining : stmt.result.remaining with
  | nil =>
    rw [← hremaining, ← (ClientResult.fetchRow_nil hremaining).2.trans hremaining.symm]
    exact hrow
  | cons first rest =>
    rw [(ClientResult.fetchRow_cons hremaining).2] at hrow
    exact List.mem_cons_of_mem _ hrow

theorem fetchRow_passed (h : stmt.Held count) (hvalues : stmt.result.fetchRow.1 = some row) :
    row ∈ stmt.result.remaining ∧
      ({ stmt with result := stmt.result.fetchRow.2 } : Stmt ℕ).Passed row := by
  cases hremaining : stmt.result.remaining with
  | nil =>
    rw [(ClientResult.fetchRow_nil hremaining).1] at hvalues
    contradiction
  | cons first rest =>
    obtain ⟨hfirst, hrest⟩ := ClientResult.fetchRow_cons hremaining
    obtain rfl : first = row := Option.some.inj (hfirst.symm.trans hvalues)
    have hmem : first ∈ stmt.result.rows := by
      apply mem_rows_of_mem_remaining
      rw [hremaining]
      exact List.mem_cons_self
    refine ⟨List.mem_cons_self, h.inResult first hmem, ?_, fun _ next hnext => ?_⟩
    · exact fun s hs => (h.scrolled s hs).2.2.2 first hmem
    · obtain ⟨start, length, hrange⟩ := exists_remaining h
      have hsorted := List.pairwise_lt_range' (s := start) (n := length)
      rw [← hrange, hremaining] at hsorted
      rw [show ({ stmt with result := stmt.result.fetchRow.2 } : Stmt ℕ).result.remaining = rest
        from hrest] at hnext
      exact List.rel_of_pairwise_cons hsorted hnext

/-- A window behind the rows that have been read is opened, or none. -/
theorem scrollerPrefetch_advances {s moved : Scroller} (hheld : stmt.Held count)
    (hs : stmt.scroller = some s) (hmoved : s.Behind moved) (ok : Bool) :
    Advances count stmt (stmt.scrollerPrefetch moved ok).2 ∧
      ((stmt.scrollerPrefetch moved ok).1 = .success →
        ∀ row ∈ (stmt.scrollerPrefetch moved ok).2.result.rows, s.nextOffset ≤ row) := by
  obtain ⟨-, hforward, harray, hbefore⟩ := hheld.scrolled s hs
  -- without a new window the rows stay as they are
  have hstay : ∀ moved', s.Behind moved' →
      Advances count stmt { stmt with scroller := some moved' } := by
    intro moved' h
    have hresult :
        ({ stmt with scroller := some moved' } : Stmt ℕ).resultRows = stmt.resultRows := by
      simp only [resultRows, hs, Scroller.rowsFrom, h.rowCount, h.startOffset, h.totalRows]
    refine ⟨⟨rfl, rfl, rfl, rfl⟩, ⟨hheld.server, hheld.rows, ?_, ?_⟩,
      fun row hrow => ⟨?_, ?_, hrow.read⟩⟩
    · rw [hresult]
      exact hheld.inResult
    · intro s' hs'
      obtain rfl := Option.some.inj hs'
      exact ⟨h.regular, hforward, harray, fun row hrow =>
        (hbefore row hrow).trans_le h.next_le_next⟩
    · rw [hresult]
      exact hrow.mem
    · intro s' hs'
      obtain rfl := Option.some.inj hs'
      exact (hrow.window s hs).trans_le h.next_le_next
  unfold scrollerPrefetch
  cases htrim : moved.trim with
  | none => exact ⟨hstay moved hmoved, fun hcode => by contradiction⟩
  | some trimmed =>
    obtain ⟨hbehind, -, htotal⟩ := hmoved.trim htrim
    cases ok with
    | false => exact ⟨hstay trimmed hbehind, fun hcode => by contradiction⟩
    | true =>
      dsimp only
      rw [if_pos rfl]
      obtain ⟨-, hkept, hpassed⟩ := hstay trimmed hbehind
      have hwindow : (stmt.server.drop trimmed.windowOffset).take trimmed.windowCount =
          trimmed.window (List.range count) := by rw [hheld.server]; rfl
      have hopened : ∀ row ∈ trimmed.window (List.range count),
          s.nextOffset ≤ row ∧ row < trimmed.nextOffset := by
        intro row hrow
        obtain ⟨hle, hlt, -⟩ := Scroller.mem_window.mp hrow
        have hcount := hbehind.regular.count_le
        have hnext := hbehind.regular.next
        exact ⟨hbehind.next_le.trans hle, by omega⟩
      have hrows : (ClientResult.store ((stmt.server.drop trimmed.windowOffset).take
          trimmed.windowCount)).rows = trimmed.window (List.range count) := hwindow
      refine ⟨⟨⟨rfl, rfl, rfl, rfl⟩, ⟨hkept.server, ?_, ?_, ?_⟩, fun row hrow => ⟨?_, ?_, ?_⟩⟩, ?_⟩
      · rw [hrows, Scroller.window, take_drop_range]
        exact ⟨_, _, rfl⟩
      · rw [hrows]
        intro row hrow
        rw [resultRows, hkept.server]
        exact Scroller.mem_rowsFrom_of_mem_window hbehind.regular htotal hrow
      · intro s' hs'
        obtain rfl := Option.some.inj hs'
        refine ⟨hbehind.regular, hforward, harray, ?_⟩
        rw [hrows]
        exact fun row hrow => (hopened row hrow).2
      · exact (hpassed row hrow).mem
      · exact (hpassed row hrow).window
      · intro _ next hnext
        rw [ClientResult.remaining_store, hwindow] at hnext
        exact (hrow.window s hs).trans_le (hopened next hnext).1
      · intro _ row hrow
        rw [hrows] at hrow
        exact (hopened row hrow).1

theorem moves_clientSeek (stmt : Stmt ℕ) (n : ℕ) : Moves stmt (stmt.clientSeek n) := by
  unfold clientSeek
  split_ifs with h
  · exact ⟨rfl, rfl, fun _ _ => id⟩
  · refine ⟨rfl, rfl, fun hunbuffered => ?_⟩
    simp only [unbuffered, Bool.and_eq_true, Bool.not_eq_true'] at hunbuffered
    exact absurd ⟨hunbuffered.1, by simp [hunbuffered.2]⟩ h

theorem moves_seekRow (stmt : Stmt ℕ) (curRow : ℤ) : Moves stmt (stmt.seekRow curRow) := by
  rw [seekRow_eq]
  refine ⟨rfl, sought_rows curRow, fun hunbuffered row hrow => ?_⟩
  simp only [unbuffered, Bool.and_eq_true, Bool.not_eq_true'] at hunbuffered
  rw [sought_of_stays (.inr hunbuffered.1)] at hrow
  exact hrow

/-- The query of a dynamic cursor is executed again. -/
theorem setDynamicResult_eq (hset : stmt.setDynamicResult = some after) :
    after = { stmt with result := after.result, cursorRow := after.cursorRow } ∧
      after.result.rows = stmt.server := by
  unfold setDynamicResult setCurrentCursorData at hset
  simp only [ne_eq, not_true_eq_false, if_false] at hset
  split_ifs at hset <;> simp only [Option.map_some, Option.map_none, Option.some.injEq] at hset
  all_goals
    first
    | contradiction
    | subst hset
      first
      | exact ⟨rfl, rfl⟩
      | exact ⟨rfl, ClientResult.fetchRow_rows⟩

theorem setDynamicResult_advances (hheld : stmt.Held count) (hdynamic : stmt.cursorType = .dynamic)
    (hset : stmt.setDynamicResult = some after) : Advances count stmt after := by
  obtain ⟨hsame, hrows⟩ := setDynamicResult_eq hset
  have hnone : stmt.scroller = none := by
    by_contra hsome
    obtain ⟨s, hs⟩ := Option.ne_none_iff_exists'.mp hsome
    rw [(hheld.scrolled s hs).2.1] at hdynamic
    contradiction
  have hscroller : after.scroller = none := by rw [hsame, hnone]
  have hresult : after.resultRows = stmt.server := by
    rw [resultRows, hscroller, hsame]
  have hkind : SameKind stmt after :=
    ⟨by rw [hsame], by rw [hsame], by rw [hsame], by rw [hsame]⟩
  refine ⟨hkind, ⟨by rw [hsame, hheld.server], ?_, ?_, ?_⟩, fun row hrow => ⟨?_, ?_, ?_⟩⟩
  · rw [hrows, hheld.server, List.range_eq_range']
    exact ⟨_, _, rfl⟩
  · rw [hrows, hresult]
    exact fun row => id
  · simp [hscroller]
  · rw [hresult]
    have hmem := hrow.mem
    rwa [resultRows, hnone] at hmem
  · simp [hscroller]
  · intro hunbuffered
    rw [unbuffered_of_sameKind hkind] at hunbuffered
    simp [unbuffered, ifForwardCache, hdynamic] at hunbuffered

end Stmt

namespace FetchLoop

open Stmt

variable {s : FetchLoop ℕ} (call : FetchCall ℕ) {count values : ℕ}

/-- A row that is not in the array is left in the open result or behind its windows. -/
theorem fetchValues_spec (hheld : s.stmt.Held count) (harray : s.stmt.resultArray = false) :
    Advances count s.stmt (s.fetchValues call).2.stmt ∧
      ∀ values, (s.fetchValues call).1 = some values →
        (s.fetchValues call).2.stmt.Passed values ∧
        (s.stmt.result.fetchRow.1 = some values ∨ s.stmt.result.fetchRow.1 = none ∧
          ∃ scroller, s.stmt.scroller = some scroller ∧ scroller.nextOffset ≤ values) := by
  have hfirst := (moves_fetchRow s.stmt).advances hheld
  have hpassed := fun values (hvalues : s.stmt.result.fetchRow.1 = some values) =>
    fetchRow_passed hheld hvalues
  have hscrollers : ({ s.stmt with result := s.stmt.result.fetchRow.2 } : Stmt ℕ).scroller =
      s.stmt.scroller := rfl
  unfold fetchValues
  rw [harray, if_neg Bool.false_ne_true]
  dsimp only
  generalize ({ s.stmt with result := s.stmt.result.fetchRow.2 } : Stmt ℕ) = read at *
  cases hfetched : s.stmt.result.fetchRow.1 with
  | some values =>
    dsimp only
    refine ⟨hfirst, fun values' hvalues => ?_⟩
    obtain rfl := Option.some.inj hvalues
    exact ⟨(hpassed values hfetched).2, .inl rfl⟩
  | none =>
    cases hscroller : s.stmt.scroller with
    | none => exact ⟨hfirst, fun values hvalues => by contradiction⟩
    | some scroller =>
      have hregular := (hheld.scrolled scroller hscroller).1
      dsimp only
      obtain ⟨hopens, hbehind⟩ := scrollerPrefetch_advances hfirst.held
        (hscrollers.trans hscroller) hregular.move (call.prefetchOk s.rowset.length)
      generalize read.scrollerPrefetch scroller.move (call.prefetchOk s.rowset.length) = opened
        at hopens hbehind ⊢
      obtain ⟨code, opened⟩ := opened
      cases code with
      | success =>
        dsimp only at hopens hbehind ⊢
        have hnext := (moves_fetchRow opened).advances hopens.held
        by_cases hsome : opened.result.fetchRow.1.isSome = true
        · rw [if_pos hsome]
          refine ⟨hfirst.trans (hopens.trans hnext), fun values hvalues => ?_⟩
          obtain ⟨hmem, hpassed⟩ := fetchRow_passed hopens.held hvalues
          exact ⟨hpassed, .inr ⟨rfl, scroller, rfl,
            hbehind rfl values (mem_rows_of_mem_remaining hmem)⟩⟩
        · rw [if_neg hsome]
          exact ⟨hfirst.trans (hopens.trans hnext), fun values hvalues => by contradiction⟩
      | _ => exact ⟨hfirst.trans hopens, fun values hvalues => by contradiction⟩

theorem fetchValues_advances (hheld : s.stmt.Held count) :
    Advances count s.stmt (s.fetchValues call).2.stmt ∧
      ∀ values, (s.fetchValues call).1 = some values →
        (s.fetchValues call).2.stmt.Passed values ∧ s.stmt.Unread values := by
  cases harray : s.stmt.resultArray with
  | true =>
    unfold fetchValues
    rw [harray, if_pos rfl]
    refine ⟨.refl hheld, fun values hvalues => ⟨⟨?_, ?_, ?_⟩, ?_⟩⟩
    · exact hheld.inResult values (List.mem_of_getElem? hvalues)
    · intro scroller hscroller
      rw [(hheld.scrolled scroller hscroller).2.2.1] at harray
      contradiction
    · intro hunbuffered
      simp [unbuffered, harray] at hunbuffered
    · intro hunbuffered
      simp [unbuffered, harray] at hunbuffered
  | false =>
    obtain ⟨hadvances, hvalues⟩ := fetchValues_spec call hheld harray
    refine ⟨hadvances, fun values h => ⟨(hvalues values h).1, fun hunbuffered row hrow => ?_⟩⟩
    obtain ⟨-, hfetched | ⟨-, scroller, hscroller, hle⟩⟩ := hvalues values h
    · exact hrow.read hunbuffered values (fetchRow_passed hheld hfetched).1
    · exact (hrow.window scroller hscroller).trans_le hle

/-- The rowset grows at its end. -/
theorem rowset_prefix (n : ℕ) (s : FetchLoop ℕ) : s.rowset <+: (fetchRows call n s).rowset := by
  induction n generalizing s with
  | zero => exact List.prefix_rfl
  | succ n ih =>
    have hrowset := congrArg rowset (fetchValues_same call s)
    dsimp only at hrowset
    cases hvalues : (s.fetchValues call).1 with
    | none =>
      have hend := congrArg rowset (fetchRows_end n hvalues)
      exact (hend.trans hrowset) ▸ List.prefix_rfl
    | some values =>
      rw [fetchRows_row n hvalues]
      refine List.IsPrefix.trans ?_ (ih _)
      rw [fillRow, hrowset]
      exact List.prefix_append _ _

/-- The first row of the rowset is the first one that is read. -/
theorem fetchValues_of_head? (n : ℕ) (hempty : s.rowset = [])
    (hhead : (fetchRows call n s).rowset.head? = some values) :
    (s.fetchValues call).1 = some values := by
  cases n with
  | zero =>
    rw [fetchRows, hempty] at hhead
    contradiction
  | succ n =>
    have hrowset := congrArg rowset (fetchValues_same call s)
    dsimp only at hrowset
    cases hvalues : (s.fetchValues call).1 with
    | none =>
      rw [fetchRows_end n hvalues, hrowset, hempty] at hhead
      contradiction
    | some first =>
      rw [fetchRows_row n hvalues] at hhead
      obtain ⟨rest, hrest⟩ :=
        rowset_prefix call n ((s.fetchValues call).2.fillRow call first)
      rw [← hrest, fillRow, hrowset, hempty] at hhead
      exact hhead

/-- The rows that the loop has read. -/
theorem fetchRows_advances {start : Stmt ℕ} (n : ℕ) (hadvances : Advances count start s.stmt)
    (hrowset : ∀ row ∈ s.rowset, s.stmt.Passed row ∧ start.Unread row) :
    Advances count start (fetchRows call n s).stmt ∧
      ∀ row ∈ (fetchRows call n s).rowset,
        (fetchRows call n s).stmt.Passed row ∧ start.Unread row := by
  induction n generalizing s with
  | zero => exact ⟨hadvances, hrowset⟩
  | succ n ih =>
    obtain ⟨hread, hpassed⟩ := fetchValues_advances call hadvances.held
    have hsame := congrArg rowset (fetchValues_same call s)
    dsimp only at hsame
    have hkept : ∀ row ∈ s.rowset, (s.fetchValues call).2.stmt.Passed row ∧ start.Unread row :=
      fun row hrow => ⟨hread.passed row (hrowset row hrow).1, (hrowset row hrow).2⟩
    cases hvalues : (s.fetchValues call).1 with
    | none =>
      rw [fetchRows_end n hvalues, hsame]
      exact ⟨hadvances.trans hread, hkept⟩
    | some values =>
      obtain ⟨hlast, hbehind⟩ := hpassed values hvalues
      rw [fetchRows_row n hvalues]
      apply ih (s := (s.fetchValues call).2.fillRow call values) (hadvances.trans hread)
      intro row hrow
      rw [fillRow, hsame, List.mem_append, List.mem_singleton] at hrow
      obtain hrow | rfl := hrow
      · exact hkept row hrow
      · refine ⟨hlast, fun hunbuffered passed h => ?_⟩
        rw [← unbuffered_of_sameKind hadvances.kind] at hunbuffered
        exact hbehind hunbuffered passed (hadvances.passed passed h)

end FetchLoop

namespace Stmt

variable {stmt after fresh moved : Stmt ℕ} {count row : ℕ} {call : FetchCall ℕ}
  {out : FetchResult ℕ}

/-- What a call does that returns: it is refused, or it computes a row, on the new result
if the cursor is dynamic, and it fails there or fetches a rowset. -/
theorem extendedFetch_cases (h : stmt.extendedFetch call = some (after, out)) :
    (after = stmt ∧ out.rowset = []) ∨
    ((stmt.cursorType = .forwardOnly → call.fetchType = .next ∨ stmt.optSafe = true) ∧
      ∃ fresh, (stmt.cursorType ≠ .dynamic ∧ fresh = stmt ∨
          stmt.cursorType = .dynamic ∧ stmt.setDynamicResult = some fresh) ∧
        ((∃ code, fresh.computeCurRow call = some (after, .error code) ∧ out.rowset = []) ∨
          ∃ moved curRow, fresh.computeCurRow call = some (moved, .ok curRow) ∧
            moved.fetchRowset call fresh.numRows curRow = (after, out))) := by
  unfold extendedFetch at h
  split_ifs at h with hforward hserves hdynamic
  · obtain ⟨rfl, rfl⟩ := Prod.mk.inj (Option.some.inj h)
    exact .inl ⟨rfl, rfl⟩
  · obtain ⟨rfl, rfl⟩ := Prod.mk.inj (Option.some.inj h)
    exact .inl ⟨rfl, rfl⟩
  all_goals
    refine .inr ⟨fun htype => ?_, ?_⟩
    · by_contra hnot
      rw [not_or] at hnot
      exact hforward ⟨htype, hnot⟩
    · simp only [isDynamicCursor, decide_eq_true_eq] at hdynamic
      split at h
      · contradiction
      · rename_i fresh hfresh
        refine ⟨fresh, ?_, ?_⟩
        · first
          | exact .inr ⟨hdynamic, hfresh⟩
          | exact .inl ⟨hdynamic, (Option.some.inj hfresh).symm⟩
        · rcases hcompute : fresh.computeCurRow call with _ | ⟨moved, code | curRow⟩
          · simp [hcompute] at h
          · rw [hcompute] at h
            obtain ⟨rfl, rfl⟩ := Prod.mk.inj (Option.some.inj h)
            exact .inl ⟨code, rfl, rfl⟩
          · rw [hcompute] at h
            exact .inr ⟨moved, curRow, rfl, Option.some.inj h⟩

/-- Where the row of the next rowset is sought: in front of the result, in the open result,
at its end, or in a window behind. -/
theorem computeCurRow_cases {target : Except SqlReturn ℤ}
    (h : stmt.computeCurRow call = some (moved, target)) {curRow : ℤ}
    (hcurRow : curRow = stmt.targetRow call.fetchType call.irow (toLong call.arraySize)) :
    (target = .error .noDataFound ∧
        moved = { stmt.clientSeek 0 with currentRow := -1, rowsFoundInSet := 0 }) ∨
      (curRow ≤ stmt.numRows ∧ moved = stmt.seekRow curRow) ∨
      (stmt.scroller = none ∧ moved = stmt.seekRow stmt.numRows) ∨
      ∃ s past, stmt.scroller = some s ∧ scrollPast curRow s = some past ∧
        ((stmt.scrollerPrefetch past call.repositionOk).1 = .success ∧
            moved = (stmt.scrollerPrefetch past call.repositionOk).2.seekRow curRow ∨
          (∃ code, target = .error code) ∧
            moved = (stmt.scrollerPrefetch past call.repositionOk).2) := by
  unfold computeCurRow at h
  dsimp only at h
  rw [← hcurRow] at h
  split_ifs at h with hbefore hbehind
  · obtain ⟨rfl, rfl⟩ := Prod.mk.inj (Option.some.inj h)
    exact .inl ⟨rfl, rfl⟩
  · cases hscroller : stmt.scroller with
    | none =>
      rw [hscroller] at h
      obtain ⟨rfl, -⟩ := Prod.mk.inj (Option.some.inj h)
      exact .inr (.inr (.inl ⟨rfl, rfl⟩))
    | some s =>
      rw [hscroller] at h
      dsimp only at h
      cases hpast : scrollPast curRow s with
      | none => simp [hpast] at h
      | some past =>
        rw [hpast] at h
        dsimp only at h
        refine .inr (.inr (.inr ⟨s, past, rfl, hpast, ?_⟩))
        generalize stmt.scrollerPrefetch past call.repositionOk = opened at h ⊢
        obtain ⟨code, opened⟩ := opened
        cases code with
        | success =>
          obtain ⟨rfl, -⟩ := Prod.mk.inj (Option.some.inj h)
          exact .inl ⟨rfl, rfl⟩
        | _ =>
          obtain ⟨rfl, rfl⟩ := Prod.mk.inj (Option.some.inj h)
          exact .inr ⟨⟨_, rfl⟩, rfl⟩
  · obtain ⟨rfl, -⟩ := Prod.mk.inj (Option.some.inj h)
    exact .inr (.inl ⟨by omega, rfl⟩)

theorem computeCurRow_advances {target : Except SqlReturn ℤ} (hheld : stmt.Held count)
    (hcompute : stmt.computeCurRow call = some (moved, target)) : Advances count stmt moved := by
  obtain ⟨-, rfl⟩ | ⟨-, rfl⟩ | ⟨-, rfl⟩ | ⟨s, past, hscroller, hpast, hcases⟩ :=
    computeCurRow_cases hcompute rfl
  · have hseek := moves_clientSeek stmt 0
    exact Moves.advances ⟨by rw [hseek.same], hseek.rows, hseek.remaining⟩ hheld
  · exact (moves_seekRow stmt _).advances hheld
  · exact (moves_seekRow stmt _).advances hheld
  · have hopens := (scrollerPrefetch_advances hheld hscroller
      (Scroller.behind_scrollPast (hheld.scrolled s hscroller).1 hpast) call.repositionOk).1
    obtain ⟨-, rfl⟩ | ⟨-, rfl⟩ := hcases
    · exact hopens.trans ((moves_seekRow _ _).advances hopens.held)
    · exact hopens

/-- A rowset is fetched. -/
theorem fetchRowset_advances (hheld : stmt.Held count) {maxRow curRow : ℤ}
    (hfetch : stmt.fetchRowset call maxRow curRow = (after, out)) :
    Advances count stmt after ∧ ∀ row ∈ out.rowset, after.Passed row ∧ stmt.Unread row := by
  unfold fetchRowset at hfetch
  dsimp only at hfetch
  by_cases hnone : stmt.rowsToFetch call maxRow curRow = 0
  · rw [if_pos hnone] at hfetch
    obtain ⟨rfl, rfl⟩ := Prod.mk.inj hfetch
    exact ⟨Moves.advances ⟨rfl, rfl, fun _ _ => id⟩ hheld, by simp⟩
  · rw [if_neg hnone] at hfetch
    obtain ⟨hloop, hrows⟩ := FetchLoop.fetchRows_advances call
      (s := ⟨stmt, curRow, none, .success, [], []⟩) (stmt.rowsToFetch call maxRow curRow)
      (Advances.refl hheld) (by simp)
    generalize FetchLoop.fetchRows call (stmt.rowsToFetch call maxRow curRow)
      ⟨stmt, curRow, none, .success, [], []⟩ = s at *
    obtain ⟨hafter, hout⟩ := Prod.mk.inj hfetch
    -- the open result is positioned again, unless it cannot be
    have hmoves : Moves s.stmt after := by
      rw [← hafter]
      split_ifs with hseeks
      · refine ⟨rfl, rfl, fun hunbuffered => ?_⟩
        simp only [unbuffered, Bool.and_eq_true] at hunbuffered
        exact absurd hunbuffered.1 hseeks.2.2
      · exact ⟨rfl, rfl, fun _ _ => id⟩
    have hlast := hmoves.advances hloop.held
    refine ⟨hloop.trans hlast, fun row hrow => ?_⟩
    rw [← hout] at hrow
    exact ⟨hlast.passed row (hrows row hrow).1, (hrows row hrow).2⟩

theorem extendedFetch_advances (hheld : stmt.Held count)
    (hfetch : stmt.extendedFetch call = some (after, out)) :
    Advances count stmt after ∧ ∀ row ∈ out.rowset, after.Passed row ∧ stmt.Unread row := by
  obtain ⟨rfl, hempty⟩ | ⟨-, fresh, hfresh, hcases⟩ := extendedFetch_cases hfetch
  · refine ⟨.refl hheld, fun row hrow => ?_⟩
    rw [hempty] at hrow
    contradiction
  · have hstart : Advances count stmt fresh := by
      obtain ⟨-, rfl⟩ | ⟨hdynamic, hset⟩ := hfresh
      · exact .refl hheld
      · exact setDynamicResult_advances hheld hdynamic hset
    obtain ⟨code, hcompute, hempty⟩ | ⟨moved, curRow, hcompute, hrowset⟩ := hcases
    · refine ⟨hstart.trans (computeCurRow_advances hstart.held hcompute), fun row hrow => ?_⟩
      rw [hempty] at hrow
      contradiction
    · have hmoved := hstart.trans (computeCurRow_advances hstart.held hcompute)
      obtain ⟨hlast, hrows⟩ := fetchRowset_advances hmoved.held hrowset
      refine ⟨hmoved.trans hlast, fun row hrow => ⟨(hrows row hrow).1, ?_⟩⟩
      intro hunbuffered passed h
      rw [← unbuffered_of_sameKind hmoved.kind] at hunbuffered
      exact (hrows row hrow).2 hunbuffered passed (hmoved.passed passed h)

theorem setPosition_advances {irow : ℕ} {code : SqlReturn} (hheld : stmt.Held count)
    (hposition : stmt.setPosition irow = some (code, after)) : Advances count stmt after := by
  -- the row is sought, read and sought again
  have hpositioned : ∀ fresh : Stmt ℕ, Advances count stmt fresh → ∀ (cursorRow : ℤ) (row : ℕ),
      Advances count stmt
        (({ ({ fresh.clientSeek row with cursorRow := cursorRow } : Stmt ℕ) with
          result := (fresh.clientSeek row).result.fetchRow.2 } : Stmt ℕ).clientSeek row) := by
    intro fresh hfresh cursorRow row
    have hsought := hfresh.trans ((moves_clientSeek fresh row).advances hfresh.held)
    have hmoves : Moves (fresh.clientSeek row)
        { fresh.clientSeek row with cursorRow := cursorRow } := ⟨rfl, rfl, fun _ _ => id⟩
    have hcursor := hsought.trans (hmoves.advances hsought.held)
    have hread := hcursor.trans ((moves_fetchRow _).advances hcursor.held)
    exact hread.trans ((moves_clientSeek _ row).advances hread.held)
  unfold setPosition at hposition
  split_ifs at hposition with _ _ _ _ _ hdynamic
  all_goals
    first
    | obtain ⟨-, rfl⟩ := Prod.mk.inj (Option.some.inj hposition)
      exact .refl hheld
    | rw [Option.map_eq_some_iff] at hposition
      obtain ⟨fresh, hset, heq⟩ := hposition
      obtain ⟨-, rfl⟩ := Prod.mk.inj heq
  · simp only [isDynamicCursor, decide_eq_true_eq] at hdynamic
    exact hpositioned fresh (setDynamicResult_advances hheld hdynamic hset) _ _
  · obtain rfl := Option.some.inj hset
    exact hpositioned stmt (.refl hheld) _ _

theorem Step.advances (h : Step stmt after) (hheld : stmt.Held count) :
    Advances count stmt after := by
  cases h with
  | fetch call out hfetch => exact (extendedFetch_advances hheld hfetch).1
  | position irow code hposition => exact setPosition_advances hheld hposition

theorem run_advances (h : Relation.ReflTransGen Step stmt after) (hheld : stmt.Held count) :
    Advances count stmt after := by
  induction h with
  | refl => exact .refl hheld
  | tail _ hstep ih => exact ih.trans (hstep.advances ih.held)

end Stmt

/-- The first window is held behind the execution of a query. -/
theorem Executed.held {stmt : Stmt ℕ} {count : ℕ} (h : Executed stmt)
    (hserver : stmt.server = List.range count) : stmt.Held count := by
  cases hscroller : stmt.scroller with
  | none =>
    have hrows : stmt.result.rows = List.range count := by
      rw [h.stored hscroller, hserver]
      rfl
    refine ⟨hserver, ⟨0, count, by rw [hrows, List.range_eq_range']⟩, ?_, ?_⟩
    · rw [hrows, Stmt.resultRows, hscroller, hserver]
      exact fun row => id
    · simp [hscroller]
  | some s =>
    obtain ⟨hstore, harray, htype, -⟩ := h.window s hscroller
    obtain ⟨hoffset, hnext, hcount, htotal⟩ := h.first s hscroller
    have hrows : stmt.result.rows = s.window (List.range count) := by
      rw [hstore, hserver]
      rfl
    have hregular : s.Regular := ⟨by omega, hcount.le, hoffset.ge⟩
    refine ⟨hserver, ?_, ?_, ?_⟩
    · rw [hrows, Scroller.window, take_drop_range]
      exact ⟨_, _, rfl⟩
    · rw [hrows, Stmt.resultRows, hscroller, hserver]
      exact fun row hrow => Scroller.mem_rowsFrom_of_mem_window hregular (by omega) hrow
    · intro s' hs'
      obtain rfl := Option.some.inj (hscroller.symm.trans hs')
      refine ⟨hregular, htype, harray, fun row hrow => ?_⟩
      rw [hrows] at hrow
      have hlt := (Scroller.mem_window.mp hrow).2.1
      omega

namespace Stmt

variable {stmt after fresh moved : Stmt ℕ} {count row bookmark n : ℕ} {call : FetchCall ℕ}
  {out : FetchResult ℕ}

/-- The cursor is in front of the result, and a dynamic one has the rows of its query. -/
structure AtStart (stmt : Stmt ℕ) : Prop where
  currentRow : stmt.currentRow = -1
  rowsFoundInSet : stmt.rowsFoundInSet = 0
  dynamic : stmt.cursorType = .dynamic → stmt.result.rows = stmt.server
  resultArray : stmt.resultArray = false
  unbuffered : stmt.unbuffered = false

/-- `SQLFetchScroll` to the row in front of the first one. -/
def startCall : FetchCall ℕ where
  fetchType := .absolute
  irow := 0
  arraySize := 1
  fill _ _ := .success
  fillBookmark _ := .success
  bookmarkInsert := false
  bookmarksVariable := true
  prefetchOk _ := true
  repositionOk := true

theorem computeCurRow_startCall (stmt : Stmt ℕ) : stmt.computeCurRow startCall =
    some ({ stmt.clientSeek 0 with currentRow := -1, rowsFoundInSet := 0 },
      .error .noDataFound) := by
  simp [computeCurRow, targetRow, startCall]

/-- A buffered result can be positioned. -/
theorem clientSeek_of_buffered (h : stmt.unbuffered = false) (n : ℕ) :
    stmt.clientSeek n = stmt.dataSeek n := by
  refine if_neg fun hnot => ?_
  rw [unbuffered, Bool.and_eq_false_iff, Bool.not_eq_false'] at h
  rcases h with hcache | harray
  · rw [hcache] at hnot
    exact Bool.false_ne_true hnot.1
  · exact hnot.2 harray

theorem atStart_clientSeek (harray : stmt.resultArray = false) (hbuffered : stmt.unbuffered = false)
    (hdynamic : stmt.cursorType = .dynamic → stmt.result.rows = stmt.server) :
    ({ stmt.clientSeek 0 with currentRow := -1, rowsFoundInSet := 0 } : Stmt ℕ).AtStart := by
  rw [clientSeek_of_buffered hbuffered]
  exact ⟨rfl, rfl, hdynamic, harray, hbuffered⟩

/-- The cursor can be moved in front of the result. -/
theorem exists_atStart (hopen : stmt.cursorType = .forwardOnly → stmt.optSafe = true)
    (harray : stmt.resultArray = false) (hbuffered : stmt.unbuffered = false) :
    (∃ start out, stmt.extendedFetch startCall = some (start, out) ∧ start.AtStart) ∨
      (stmt.cursorType = .dynamic ∧ stmt.setDynamicResult = none) := by
  have hforward : ¬ (stmt.cursorType = .forwardOnly ∧ startCall.fetchType ≠ .next ∧
      ¬ stmt.optSafe) := fun h => h.2.2 (hopen h.1)
  have hserves : ¬ (stmt.isDynamicCursor ∧ stmt.resultArray) := by simp [harray]
  unfold extendedFetch
  rw [if_neg hforward, if_neg hserves]
  by_cases hdynamic : stmt.isDynamicCursor = true
  · rw [if_pos hdynamic]
    cases hset : stmt.setDynamicResult with
    | none => exact .inr ⟨by simpa [isDynamicCursor] using hdynamic, rfl⟩
    | some fresh =>
      obtain ⟨hsame, hrows⟩ := setDynamicResult_eq hset
      have hkind : SameKind stmt fresh :=
        ⟨by rw [hsame], by rw [hsame], by rw [hsame], by rw [hsame]⟩
      dsimp only
      rw [computeCurRow_startCall]
      refine .inl ⟨_, _, rfl, atStart_clientSeek (hkind.resultArray.trans harray) ?_ fun _ => ?_⟩
      · rw [unbuffered_of_sameKind hkind, hbuffered]
      · rw [hrows, hsame]
  · rw [if_neg hdynamic]
    dsimp only
    rw [computeCurRow_startCall]
    refine .inl ⟨_, _, rfl, atStart_clientSeek harray hbuffered fun htype => ?_⟩
    exact absurd (by simpa [isDynamicCursor] using htype) hdynamic

theorem fetchRow_dataSeek (result : ClientResult ℕ) (n : ℕ) :
    (result.dataSeek n).fetchRow.1 = result.rows[n]? := by
  unfold ClientResult.dataSeek ClientResult.offsetAt
  split_ifs with hlt
  · rfl
  · rw [List.getElem?_eq_none (by omega)]
    rfl

/-- In front of the result every row is sought by its number. -/
theorem AtStart.fetchRow_seekRow (h : stmt.AtStart) (n : ℕ) :
    (stmt.seekRow n).result.fetchRow.1 = stmt.result.rows[n]? := by
  have hcache : ¬ stmt.ifForwardCache = true := by
    have hbuffered := h.unbuffered
    simpa [Stmt.unbuffered, h.resultArray] using hbuffered
  have hsought : stmt.sought n = stmt.result.dataSeek n := by
    unfold sought
    rw [if_pos ⟨by simp [h.resultArray], hcache⟩, if_neg, Int.toNat_natCast]
    rw [h.currentRow, h.rowsFoundInSet]
    omega
  rw [seekRow_eq]
  dsimp only
  rw [hsought, fetchRow_dataSeek]

/-- The first row of a rowset is the first one that is read. -/
theorem fetchValues_of_fetchRowset {maxRow curRow : ℤ}
    (hfetch : stmt.fetchRowset call maxRow curRow = (after, out))
    (hhead : out.rowset.head? = some row) :
    ((⟨stmt, curRow, none, .success, [], []⟩ : FetchLoop ℕ).fetchValues call).1 = some row := by
  have hrowset := congrArg (fun fetched => fetched.2.rowset.head?) hfetch
  dsimp only at hrowset
  rw [hhead, fetchRowset] at hrowset
  dsimp only at hrowset
  by_cases hnone : stmt.rowsToFetch call maxRow curRow = 0
  · rw [if_pos hnone] at hrowset
    contradiction
  · rw [if_neg hnone] at hrowset
    exact FetchLoop.fetchValues_of_head? call _ rfl hrowset

theorem irow_scrollCall (hn : atolBookmark bookmark = n) : (scrollCall bookmark 0 1).irow = n := by
  have hlt : (n : ℤ) < 2 ^ 63 := by
    rw [← hn, atolBookmark]
    omega
  show Int.bmod (0 + atolBookmark bookmark) (2 ^ 64) = n
  rw [zero_add, hn, Int.bmod_eq_of_le] <;> omega

/-- `SQLFetchScroll` goes from the start to the row with the number of the bookmark. -/
theorem AtStart.getElem?_of_scrollsBack (hstart : stmt.AtStart) (hheld : stmt.Held count)
    (hpassed : stmt.Passed row) (hscrolls : stmt.ScrollsBack bookmark row)
    (hn : atolBookmark bookmark = n) : stmt.result.rows[n]? = some row := by
  obtain ⟨after, out, hfetch, hhead⟩ := hscrolls 0 row (by simp) hpassed.mem 1 Nat.one_pos
  have hempty : out.rowset ≠ [] := fun hnil => by
    rw [hnil] at hhead
    contradiction
  obtain ⟨-, hnil⟩ | ⟨-, fresh, hfresh, hcases⟩ := extendedFetch_cases hfetch
  · exact absurd hnil hempty
  obtain ⟨-, -, hnil⟩ | ⟨moved, curRow, hcompute, hrowset⟩ := hcases
  · exact absurd hnil hempty
  -- the rows are the same when the query is executed again
  obtain ⟨hadvances, hfreshStart, hrows⟩ : Advances count stmt fresh ∧ fresh.AtStart ∧
      fresh.result.rows = stmt.result.rows := by
    obtain ⟨-, rfl⟩ | ⟨hdynamic, hset⟩ := hfresh
    · exact ⟨.refl hheld, hstart, rfl⟩
    · obtain ⟨hsame, hrows⟩ := setDynamicResult_eq hset
      refine ⟨setDynamicResult_advances hheld hdynamic hset, ⟨?_, ?_, fun _ => ?_, ?_, ?_⟩, ?_⟩
      · rw [hsame, hstart.currentRow]
      · rw [hsame, hstart.rowsFoundInSet]
      · rw [hrows, hsame]
      · rw [hsame, hstart.resultArray]
      · rw [hsame]
        exact hstart.unbuffered
      · rw [hrows, hstart.dynamic hdynamic]
  have hmoved := hadvances.trans (computeCurRow_advances hadvances.held hcompute)
  have harray : moved.resultArray = false := hmoved.kind.resultArray.trans hstart.resultArray
  obtain ⟨-, hvalues⟩ := FetchLoop.fetchValues_spec (scrollCall bookmark 0 1)
    (s := ⟨moved, curRow, none, .success, [], []⟩) hmoved.held harray
  -- a row of a further window is behind the one that has been read
  obtain ⟨-, hfetched | ⟨-, scroller, hscroller, hle⟩⟩ :=
    hvalues row (fetchValues_of_fetchRowset hrowset hhead)
  swap
  · have hlt := (hmoved.passed row hpassed).window scroller hscroller
    omega
  dsimp only at hfetched
  have htarget : (n : ℤ) = fresh.targetRow (scrollCall bookmark 0 1).fetchType
      (scrollCall bookmark 0 1).irow (toLong (scrollCall bookmark 0 1).arraySize) := by
    have hirow : (scrollCall bookmark 0 1).irow = n := irow_scrollCall hn
    rw [hirow]
    show (n : ℤ) = if (n : ℤ) < 0 ∧ -(n : ℤ) ≤ toLong 1 then 0 else (n : ℤ)
    rw [if_neg (by omega)]
  obtain ⟨h, -⟩ | ⟨-, rfl⟩ | ⟨hnone, rfl⟩ | ⟨s, past, hscroller, hpast, hopened⟩ :=
    computeCurRow_cases hcompute htarget
  · contradiction
  · rw [hfreshStart.fetchRow_seekRow, hrows] at hfetched
    exact hfetched
  · have hcounted : fresh.uncounted = false := by rw [uncounted, hfreshStart.unbuffered]; rfl
    have hnum : fresh.numRows = fresh.result.rows.length := by
      rw [numRows_of_counted hcounted, hnone, hfreshStart.unbuffered]
      simp
    rw [hfreshStart.fetchRow_seekRow, hnum, List.getElem?_eq_none le_rfl] at hfetched
    contradiction
  · obtain ⟨hsuccess, rfl⟩ | ⟨⟨code, h⟩, -⟩ := hopened
    · obtain ⟨hopens, hbehind⟩ := scrollerPrefetch_advances hadvances.held hscroller
        (Scroller.behind_scrollPast (hadvances.held.scrolled s hscroller).1 hpast)
        (scrollCall bookmark 0 1).repositionOk
      have hmem := mem_rows_of_mem_remaining (fetchRow_passed hmoved.held hfetched).1
      rw [(moves_seekRow _ _).rows] at hmem
      have hle := hbehind hsuccess row hmem
      have hlt := (hadvances.passed row hpassed).window s hscroller
      omega
    · contradiction

/-- The row at the exit of a single fetch. -/
theorem arrive_of_fetchRow (call : BookmarkFetch ℕ) (i curRow : ℕ)
    (harray : stmt.resultArray = false) (hrow : stmt.result.fetchRow.1 = some row) :
    ((call.arrive i stmt curRow).arrival.bind fun arrival => arrival.row.map Prod.snd) =
      some row := by
  obtain ⟨position, hposition⟩ : ∃ position, stmt.result.rowTell = some position := by
    unfold ClientResult.fetchRow at hrow
    split at hrow
    · rename_i position hposition
      exact ⟨position, hposition⟩
    · contradiction
  simp [BookmarkFetch.arrive, BookmarkFetch.fetchValues, fetchNumbered, harray, hposition, hrow]

/-- `fetch_bookmark` goes from the start to the row in front of it. -/
theorem AtStart.fetchedByBookmark_eq (hstart : stmt.AtStart) (hn : atolBookmark bookmark = n)
    (hrow : n < stmt.result.rows.length) : stmt.fetchedByBookmark bookmark =
      if n = 0 then none else stmt.result.rows[n - 1]? := by
  have hfetch : (bookmarkCall stmt bookmark).fetch 0 =
      (bookmarkCall stmt bookmark).singleFetch 0 (stmt.dataSeek 1) := by
    rw [← clientSeek_of_buffered hstart.unbuffered]
    rfl
  have htarget : (stmt.dataSeek 1).targetRow .absolute ((bookmarkCall stmt bookmark).bookmark 0) 1 =
      (n : ℤ) - 1 := by
    have hbookmark : (bookmarkCall stmt bookmark).bookmark 0 = n := hn
    rw [hbookmark, targetRow, if_neg (by omega)]
  have hsought : (stmt.dataSeek 1).AtStart :=
    ⟨hstart.currentRow, hstart.rowsFoundInSet, hstart.dynamic, hstart.resultArray,
      hstart.unbuffered⟩
  have hcounted : (stmt.dataSeek 1).uncounted = false := by
    rw [uncounted, hsought.unbuffered]
    rfl
  have hnum : stmt.result.rows.length ≤ (stmt.dataSeek 1).numRows := by
    rw [numRows_of_counted hcounted, hsought.unbuffered, if_neg Bool.false_ne_true]
    exact Nat.le_add_left _ _
  unfold Stmt.fetchedByBookmark
  rw [hfetch, BookmarkFetch.singleFetch]
  dsimp only
  rw [htarget]
  cases n with
  | zero =>
    rw [if_pos (by omega), if_pos rfl]
    rfl
  | succ n =>
    have hlt : n < stmt.result.rows.length := by omega
    have hfetched : ((stmt.dataSeek 1).seekRow n).result.fetchRow.1 = some stmt.result.rows[n] := by
      rw [hsought.fetchRow_seekRow]
      exact List.getElem?_eq_getElem hlt
    have harray : ((stmt.dataSeek 1).seekRow n).resultArray = false :=
      (SameKind.seekRow _ _).resultArray.trans hsought.resultArray
    have hrowIndex : ((n + 1 : ℕ) : ℤ) - 1 = n := by omega
    rw [hrowIndex, if_neg (by omega), if_neg (by omega), if_neg (Nat.succ_ne_zero n),
      Nat.add_sub_cancel, List.getElem?_eq_getElem hlt, BookmarkFetch.fetchPositioned]
    rw [if_pos (.inr (.inr (.inl (by omega)))), Option.bind_some]
    exact arrive_of_fetchRow _ _ _ harray hfetched

/-- Nothing is fetched by bookmark where the rows are in the array. -/
theorem fetchedByBookmark_resultArray (harray : stmt.resultArray = true)
    (hscroller : stmt.scroller = none) : stmt.fetchedByBookmark bookmark = none := by
  -- the client library has no row for it
  have hpositioned (sought : Stmt ℕ) (hsought : sought.resultArray = true)
      (hnone : sought.scroller = none) (maxRow curRow : ℤ) :
      (((bookmarkCall stmt bookmark).fetchPositioned 0 sought maxRow curRow).arrival.bind
        fun arrival => arrival.row.map Prod.snd) = none := by
    have hseek : (sought.seekRow curRow).resultArray = true :=
      (SameKind.seekRow sought curRow).resultArray.trans hsought
    have hscroller : (sought.seekRow curRow).scroller = none := by rw [seekRow_eq, hnone]
    unfold BookmarkFetch.fetchPositioned
    dsimp only
    split_ifs
    · simp [BookmarkFetch.arrive, BookmarkFetch.fetchValues, fetchNumbered, hseek, hscroller]
    · rfl
  have hfetch : (bookmarkCall stmt bookmark).fetch 0 =
      (bookmarkCall stmt bookmark).singleFetch 0 (stmt.clientSeek 1) := rfl
  have hmoves := moves_clientSeek stmt 1
  have hsought : (stmt.clientSeek 1).resultArray = true := by rw [hmoves.same, harray]
  have hnone : (stmt.clientSeek 1).scroller = none := by rw [hmoves.same, hscroller]
  unfold Stmt.fetchedByBookmark
  rw [hfetch, BookmarkFetch.singleFetch]
  dsimp only
  rw [hnone]
  split_ifs
  · rfl
  · rw [Option.bind_some]
    exact hpositioned _ hsought hnone _ _
  · rw [Option.bind_some]
    exact hpositioned _ hsought hnone _ _

/-- No number leads to one row in both ways. -/
theorem AtStart.not_returns (hstart : stmt.AtStart) (hheld : stmt.Held count)
    (hpassed : stmt.Passed row) (hscrolls : stmt.ScrollsBack bookmark row) :
    stmt.fetchedByBookmark bookmark ≠ some row := by
  obtain ⟨n, hn⟩ : ∃ n : ℕ, atolBookmark bookmark = n :=
    ⟨(atolBookmark bookmark).toNat, by unfold atolBookmark; omega⟩
  have hscrolled := hstart.getElem?_of_scrollsBack hheld hpassed hscrolls hn
  rw [hstart.fetchedByBookmark_eq hn (List.getElem?_eq_some_iff.mp hscrolled).1]
  obtain ⟨first, length, hrows⟩ := hheld.rows
  split_ifs with hzero
  · exact fun h => by contradiction
  · intro hbefore
    rw [hrows, List.getElem?_eq_some_iff] at hscrolled hbefore
    obtain ⟨_, hscrolled⟩ := hscrolled
    obtain ⟨_, hbefore⟩ := hbefore
    rw [List.getElem_range'] at hscrolled hbefore
    omega

/-- The bookmark that is returned for a row does not lead back to it in both ways: what
`SQLFetchScroll` takes for a row is the row behind the one that `SQL_FETCH_BY_BOOKMARK` takes
for it. -/
theorem returned_not_roundTrips {executed before fetched : Stmt ℕ} {i : ℕ}
    (hexecuted : Executed executed) (hserver : executed.server = List.range count)
    (hrun : Relation.ReflTransGen Step executed before)
    (hfetch : before.extendedFetch call = some (fetched, out)) (hrow : out.rowset[i]? = some row)
    (hreturned : Returned fetched call i stmt bookmark) : ¬ stmt.RoundTrips bookmark row := by
  intro hround
  have hbefore := (run_advances hrun (hexecuted.held hserver)).held
  obtain ⟨hfetched, hrows⟩ := extendedFetch_advances hbefore hfetch
  have hadvances : Advances count fetched stmt := by
    cases hreturned with
    | column => exact .refl hfetched.held
    | getData hposition => exact setPosition_advances hfetched.held hposition
  have hheld := hadvances.held
  have hpassed := hadvances.passed row (hrows row (List.mem_of_getElem? hrow)).1
  obtain ⟨hscrolls, hfetches⟩ := hround stmt .refl
  obtain ⟨after, scrolled, hscroll, hhead⟩ := hscrolls 0 row (by simp) hpassed.mem 1 Nat.one_pos
  have hmem : row ∈ scrolled.rowset := List.mem_of_mem_head? hhead
  obtain ⟨-, hnil⟩ | ⟨hopen, fresh, hfresh, -⟩ := extendedFetch_cases hscroll
  · rw [hnil] at hmem
    contradiction
  have hopen : stmt.cursorType = .forwardOnly → stmt.optSafe = true :=
    fun htype => (hopen htype).resolve_left (by simp [scrollCall])
  cases harray : stmt.resultArray with
  | true =>
    have hnone : stmt.scroller = none := by
      by_contra hsome
      obtain ⟨s, hs⟩ := Option.ne_none_iff_exists'.mp hsome
      rw [(hheld.scrolled s hs).2.2.1] at harray
      contradiction
    rw [fetchedByBookmark_resultArray harray hnone] at hfetches
    contradiction
  | false =>
    cases hunbuffered : stmt.unbuffered with
    | true =>
      -- the rowset begins behind the row
      have hunread := ((extendedFetch_advances hheld hscroll).2 row hmem).2
      exact lt_irrefl row (hunread hunbuffered row hpassed)
    | false =>
      obtain ⟨start, out, hfetch, hstart⟩ | ⟨hdynamic, hset⟩ :=
        exists_atStart hopen harray hunbuffered
      · have hadvances := (extendedFetch_advances hheld hfetch).1
        obtain ⟨hscrolls, hfetches⟩ := hround start (.single (.fetch startCall out hfetch))
        exact hstart.not_returns hadvances.held (hadvances.passed row hpassed) hscrolls hfetches
      · -- the query of the cursor cannot be executed again
        obtain ⟨hstatic, -⟩ | ⟨-, hfresh⟩ := hfresh
        · exact hstatic hdynamic
        · rw [hset] at hfresh
          contradiction

/-- A stored result under a static cursor, after its execution. -/
def staticStmt (count : ℕ) : Stmt ℕ := { storedStmt (List.range count) with cursorType := .static }

theorem staticStmt_executed (count : ℕ) : Executed (staticStmt count) :=
  ⟨rfl, rfl, fun _ => rfl, by simp [staticStmt, storedStmt], by simp [staticStmt, storedStmt]⟩

/-- The first of three rows. -/
theorem returned_not_roundTrips_firstRow : ∃ fetched out,
    (staticStmt 3).extendedFetch (scrollCall 0 0 2) = some (fetched, out) ∧
      out.rowset[0]? = some 0 ∧
      ¬ fetched.RoundTrips ((scrollCall 0 0 2).columnBookmark 0) 0 :=
  ⟨_, _, rfl, rfl,
    returned_not_roundTrips (staticStmt_executed 3) rfl .refl rfl rfl (.column rfl rfl)⟩

/-- The bookmark in the bound column of the first row leads to the second one. -/
theorem columnBookmark_not_roundTrips :
    ¬ ∀ (count : ℕ) (executed before fetched stmt : Stmt ℕ) (call : FetchCall ℕ)
      (out : FetchResult ℕ) (i row bookmark : ℕ), Executed executed →
      executed.server = List.range count → Relation.ReflTransGen Step executed before →
      before.extendedFetch call = some (fetched, out) → out.rowset[i]? = some row →
      Returned fetched call i stmt bookmark → stmt.RoundTrips bookmark row := by
  intro hclaim
  have hround := hclaim 3 (staticStmt 3) (staticStmt 3) _ _ (scrollCall 0 0 2) _ 0 0 _
    (staticStmt_executed 3) rfl .refl rfl rfl (.column rfl rfl)
  obtain ⟨hscrolls, -⟩ := hround _ .refl
  obtain ⟨after, out, hfetch, hhead⟩ := hscrolls 0 0 rfl (by decide) 1 Nat.one_pos
  have hrowset := congrArg (Option.map fun fetched => fetched.2.rowset.head?) hfetch
  change some (some 1) = some out.rowset.head? at hrowset
  rw [hhead] at hrowset
  contradiction

end Stmt

end MatrixOdbc.Driver
