import MatrixOdbc.Driver.ExtendedFetch

/-!
# The first row of a rowset

`STMT::compute_cur_row` of `driver/my_prepared_stmt.cc` in the arithmetic of `long`, and
the tables of `SQLFetchScroll`, which say where a rowset begins. A row is counted from
zero. The function knows the rows that the client library has, the tables are about the rows
of the result: with a scroller, or where rows are not stored, these are two numbers.
-/

namespace MatrixOdbc.Driver

/-- What `compute_cur_row` reads: `num_rows()`, `current_row`, `rows_found_in_set`, the rowset
size, the fetch offset, and whether there is a scroller. The current row is -1 in front of the
first row. What it does not read is the number of rows of the result. -/
structure CursorState where
  numRows : ℕ
  resultRows : ℕ
  currentRow : ℤ
  rowsFoundInSet : ℕ
  arraySize : ℕ
  irow : ℤ
  scroller : Bool
  numRows_lt : numRows < 2 ^ 63
  resultRows_lt : resultRows < 2 ^ 63
  currentRow_ge : -1 ≤ currentRow
  currentRow_lt : currentRow < 2 ^ 63
  rowsFoundInSet_lt : rowsFoundInSet < 2 ^ 32
  arraySize_lt : arraySize < 2 ^ 64
  irow_ge : -2 ^ 63 ≤ irow
  irow_lt : irow < 2 ^ 63

/-- The result of `long` arithmetic. There is none where it overflows. -/
def long (x : ℤ) : Option ℤ := if -2 ^ 63 ≤ x ∧ x < 2 ^ 63 then some x else none

/-- Where the rowset begins: nothing is fetched in front of the first row, and the scroller
is moved for a row behind the rows that are known, which becomes the current row. -/
inductive RowsetStart where
  | beforeStart
  | row (row : ℤ)
  | scrolled (row : ℤ)
  deriving DecidableEq

namespace CursorState

variable (s : CursorState)

/-- `irow` from the end, or from the current row, if it does not lead too far in front of
the first row. -/
def clampToStart (curRow : ℤ) (mayClamp : Bool) : Option ℤ :=
  if mayClamp ∧ curRow < 0 then
    (long (-s.irow)).map fun back => if back ≤ toLong s.arraySize then 0 else curRow
  else some curRow

/-- The row that the orientation leads to. -/
def targetRow : FetchType → Option ℤ
  | .next => if s.currentRow < 0 then some 0 else long (s.currentRow + s.rowsFoundInSet)
  | .prior =>
    if s.currentRow ≤ 0 then some (-1)
    else some (toLong ((s.currentRow - s.arraySize) % 2 ^ 64).toNat)
  | .first => some 0
  | .last => long (s.numRows - toLong s.arraySize)
  | .absolute =>
    if s.irow < 0 then s.clampToStart (s.numRows + s.irow) true
    else some (s.irow - 1)
  | .relative => (long (s.currentRow + s.irow)).bind fun curRow =>
    s.clampToStart curRow (0 < s.currentRow)
  | .bookmark => s.clampToStart s.irow true

/-- What becomes of the row. -/
def startOf (curRow : ℤ) : RowsetStart :=
  if curRow < 0 then .beforeStart
  else if s.numRows < curRow then if s.scroller then .scrolled curRow else .row s.numRows
  else .row curRow

/-- `STMT::compute_cur_row`. -/
def computeCurRow (fetchType : FetchType) : Option RowsetStart :=
  (s.targetRow fetchType).map s.startOf

/-- No rowset has been fetched yet, or the cursor was moved in front of the first one. -/
def BeforeStart : Prop := s.currentRow < 0 ∨ s.currentRow = 0 ∧ s.rowsFoundInSet = 0

instance : Decidable s.BeforeStart := by
  unfold BeforeStart
  infer_instance

end CursorState

/-- A position of the tables of `SQLFetchScroll`. -/
inductive ScrollPosition where
  | beforeStart
  | row (row : ℤ)
  deriving DecidableEq

namespace CursorState

variable (s : CursorState)

/-- `SQL_FETCH_ABSOLUTE`. -/
def absolutePosition : ScrollPosition :=
  if s.irow < 0 then
    if -s.irow ≤ s.resultRows then .row (s.resultRows + s.irow)
    else if -s.irow ≤ s.arraySize then .row 0
    else .beforeStart
  else if s.irow = 0 then .beforeStart
  else .row (s.irow - 1)

/-- The first row of the current rowset. Every row behind the last one is the position behind
the end, which is the row with the number of rows of the result. -/
def place : ℤ := min s.currentRow s.resultRows

/-- The position the tables give. The tables say nothing about bookmarks. -/
def scrollPosition : FetchType → Option ScrollPosition
  | .next => some (if s.BeforeStart then .row 0 else .row (s.place + s.rowsFoundInSet))
  | .prior => some (
    if s.BeforeStart ∨ s.place = 0 then .beforeStart
    else if s.place < s.arraySize then .row 0
    else .row (s.place - s.arraySize))
  | .first => some (.row 0)
  | .last => some (if s.arraySize ≤ s.resultRows then .row (s.resultRows - s.arraySize) else .row 0)
  | .absolute => some s.absolutePosition
  | .relative => some (
    if s.BeforeStart then if 0 < s.irow then s.absolutePosition else .beforeStart
    else if 0 ≤ s.place + s.irow then .row (s.place + s.irow)
    else if s.place = 0 then .beforeStart
    else if -s.irow ≤ s.arraySize then .row 0
    else .beforeStart)
  | .bookmark => none

/-- A position, with those behind the end of the result taken for one. -/
def cutPosition : ScrollPosition → ScrollPosition
  | .beforeStart => .beforeStart
  | .row row => .row (min row s.resultRows)

/-- The position of a rowset that begins there. -/
def positionOf : RowsetStart → ScrollPosition
  | .beforeStart => .beforeStart
  | .row row | .scrolled row => s.cutPosition (.row row)

/-- The rowset begins where the tables say. -/
def FollowsTables (fetchType : FetchType) : Prop :=
  ∀ position, s.scrollPosition fetchType = some position →
    (s.computeCurRow fetchType).map s.positionOf = some (s.cutPosition position)

/-- A row leads to a place: it is looked for with a scroller, else it ends at the rows that are
known, and all rows behind the end of the result are the same. -/
def Reaches (row target : ℤ) : Prop :=
  min (if s.numRows < row ∧ s.scroller = false then ↑s.numRows else row) s.resultRows =
    min target s.resultRows

/-- The condition under which the code follows the tables. -/
def TablesHold : FetchType → Prop
  | .next => s.BeforeStart ∨ s.currentRow + s.rowsFoundInSet < 2 ^ 63 ∧
      s.Reaches (s.currentRow + s.rowsFoundInSet) (s.currentRow + s.rowsFoundInSet)
  | .prior => s.currentRow ≤ 0 ∨
      if s.resultRows = 0 then s.currentRow < s.arraySize ∧ s.arraySize ≤ s.currentRow + 2 ^ 63
      else
        s.arraySize ≤ s.currentRow ∧
            s.Reaches (s.currentRow - s.arraySize) (max 0 (s.place - s.arraySize)) ∨
          s.currentRow + 2 ^ 63 < s.arraySize ∧ s.numRows = 0 ∧ s.scroller = false
  | .first => True
  | .last =>
      s.arraySize ≤ s.numRows ∧ (s.resultRows = s.numRows ∨ s.resultRows = 0 ∨
          s.arraySize = 0 ∧ s.resultRows < s.numRows ∨
          s.resultRows < s.arraySize ∧ s.arraySize = s.numRows) ∨
        s.numRows + 2 ^ 63 < s.arraySize ∧
          (s.resultRows = 0 ∨ s.numRows = 0 ∧ s.scroller = false)
  | .absolute =>
      if 0 ≤ s.irow then 0 < s.irow → s.Reaches (s.irow - 1) (s.irow - 1)
      else if 0 ≤ s.numRows + s.irow then
        if 0 ≤ s.resultRows + s.irow then s.resultRows = s.numRows
        else -s.irow ≤ s.arraySize ∧ (s.numRows + s.irow = 0 ∨ s.resultRows = 0)
      else
        s.irow ≠ -2 ^ 63 ∧ s.arraySize < 2 ^ 63 ∧
          (s.resultRows + s.irow < 0 ∨ s.resultRows + s.irow = 0 ∧ -s.irow ≤ s.arraySize)
  | .relative =>
      if s.currentRow < 0 then
        s.irow ≠ -2 ^ 63 ∧ (0 < s.irow → s.Reaches (s.irow - 1) (s.irow - 1))
      else if s.BeforeStart then s.irow < 0 ∨ 0 < s.irow ∧ s.Reaches s.irow (s.irow - 1)
      else if 0 ≤ s.currentRow + s.irow then
        s.currentRow + s.irow < 2 ^ 63 ∧
          (0 ≤ s.place + s.irow ∨ 0 < s.place ∧ -s.irow ≤ s.arraySize) ∧
          s.Reaches (s.currentRow + s.irow) (max 0 (s.place + s.irow))
      else
        s.currentRow = 0 ∨ s.irow ≠ -2 ^ 63 ∧
          if s.place = 0 then s.arraySize < -s.irow ∨ 2 ^ 63 ≤ s.arraySize
          else s.arraySize < 2 ^ 63
  | .bookmark => True

variable {s}

/-- Numbers in the range of `long`. -/
theorem long_eq_some {x : ℤ} (hlow : -2 ^ 63 ≤ x) (hhigh : x < 2 ^ 63) : long x = some x :=
  if_pos ⟨hlow, hhigh⟩

theorem long_eq_none {x : ℤ} (h : x < -2 ^ 63 ∨ 2 ^ 63 ≤ x) : long x = none :=
  if_neg (by omega)

/-- A row that is not in front of the first one is at the position to which it leads. -/
theorem positionOf_startOf_eq_row_iff {row target : ℤ} :
    s.positionOf (s.startOf row) = s.cutPosition (.row target) ↔ 0 ≤ row ∧ s.Reaches row target := by
  unfold startOf Reaches
  by_cases hneg : row < 0
  · rw [if_pos hneg]
    exact iff_of_false nofun (by omega)
  · rw [if_neg hneg, and_iff_right (by omega : 0 ≤ row)]
    by_cases hbehind : s.numRows < row
    · rw [if_pos hbehind]
      cases s.scroller <;> simp [positionOf, cutPosition, hbehind]
    · rw [if_neg hbehind, if_neg fun h => hbehind h.1, positionOf, cutPosition, cutPosition,
        ScrollPosition.row.injEq]

/-- A row is in front of the first one if its number is negative. -/
theorem positionOf_startOf_eq_beforeStart_iff {row : ℤ} :
    s.positionOf (s.startOf row) = .beforeStart ↔ row < 0 := by
  unfold startOf
  split_ifs with hneg hbehind
  · exact iff_of_true rfl hneg
  · exact iff_of_false nofun hneg
  · exact iff_of_false nofun hneg
  · exact iff_of_false nofun hneg

/-- The first row of the result. -/
@[simp] theorem cutPosition_row_zero : s.cutPosition (.row 0) = .row 0 := by
  simp [cutPosition]

/-- The first row is reached with any number of rows. -/
theorem reaches_zero : s.Reaches 0 0 := by rw [Reaches, if_neg (by omega)]

/-- The code follows the tables if it is at the position that they give. -/
theorem followsTables_iff_of {fetchType : FetchType} {position : ScrollPosition}
    (h : s.scrollPosition fetchType = some position) :
    s.FollowsTables fetchType ↔
      ((s.targetRow fetchType).map s.startOf).map s.positionOf = some (s.cutPosition position) := by
  unfold FollowsTables computeCurRow
  rw [h]
  simp

/-- A row that is found without overflow. -/
theorem map_startOf_iff {row target : ℤ} :
    ((some row).map s.startOf).map s.positionOf = some (s.cutPosition (.row target)) ↔
      0 ≤ row ∧ s.Reaches row target := by
  rw [Option.map_some, Option.map_some, Option.some_inj, positionOf_startOf_eq_row_iff]

/-- A row in front of the first one that is found without overflow. -/
theorem map_startOf_beforeStart_iff {row : ℤ} :
    ((some row).map s.startOf).map s.positionOf = some (s.cutPosition .beforeStart) ↔ row < 0 := by
  rw [Option.map_some, Option.map_some, Option.some_inj]
  exact positionOf_startOf_eq_beforeStart_iff

/-- Moving from the end, or from the current row, to a row in front of the first one. -/
theorem map_clampToStart_iff {curRow : ℤ} {position : ScrollPosition} (h : curRow < 0)
    (hirow : s.irow < 0) :
    ((s.clampToStart curRow true).map s.startOf).map s.positionOf = some (s.cutPosition position) ↔
      s.irow ≠ -2 ^ 63 ∧ s.cutPosition position =
        if -s.irow ≤ s.arraySize ∧ s.arraySize < 2 ^ 63 then .row 0 else .beforeStart := by
  have hlow := s.irow_ge
  have hsize := s.arraySize_lt
  have hclamp : -s.irow ≤ toLong s.arraySize ↔ -s.irow ≤ s.arraySize ∧ s.arraySize < 2 ^ 63 := by
    unfold toLong
    split_ifs <;> omega
  unfold clampToStart
  rw [if_pos ⟨rfl, h⟩]
  by_cases hmin : s.irow = -2 ^ 63
  · rw [long_eq_none (by omega)]
    exact iff_of_false nofun fun h => h.1 hmin
  · rw [long_eq_some (by omega) (by omega), and_iff_right hmin]
    by_cases hback : -s.irow ≤ s.arraySize ∧ s.arraySize < 2 ^ 63
    · have hzero : s.positionOf (s.startOf 0) = .row 0 := by
        rw [← s.cutPosition_row_zero, positionOf_startOf_eq_row_iff]
        exact ⟨le_rfl, reaches_zero⟩
      rw [if_pos hback, Option.map_some, if_pos (hclamp.mpr hback), Option.map_some,
        Option.map_some, hzero, Option.some_inj, eq_comm]
    · rw [if_neg hback, Option.map_some, if_neg fun h => hback (hclamp.mp h), Option.map_some,
        Option.map_some, positionOf_startOf_eq_beforeStart_iff.mpr h, Option.some_inj, eq_comm]

theorem followsTables_next : s.FollowsTables .next ↔ s.TablesHold .next := by
  have hlow := s.currentRow_ge
  rw [followsTables_iff_of rfl, targetRow, TablesHold]
  by_cases hbefore : s.BeforeStart
  · rw [if_pos hbefore]
    refine iff_of_true ?_ (Or.inl hbefore)
    have hzero : (if s.currentRow < 0 then some 0 else long (s.currentRow + s.rowsFoundInSet)) =
        some 0 := by
      obtain hneg | ⟨hzero, hfound⟩ := hbefore
      · exact if_pos hneg
      · rw [if_neg (by omega), hzero, hfound]
        rfl
    rw [hzero, map_startOf_iff]
    exact ⟨le_rfl, reaches_zero⟩
  · have hneg : ¬ s.currentRow < 0 := fun h => hbefore (Or.inl h)
    rw [if_neg hbefore, if_neg hneg, or_iff_right hbefore]
    by_cases hfits : s.currentRow + s.rowsFoundInSet < 2 ^ 63
    · rw [long_eq_some (by omega) hfits, map_startOf_iff, and_iff_right (by omega),
        and_iff_right hfits, Reaches, Reaches, place]
      omega
    · rw [long_eq_none (by omega)]
      exact iff_of_false nofun fun h => hfits h.1

theorem followsTables_prior : s.FollowsTables .prior ↔ s.TablesHold .prior := by
  have hlow := s.currentRow_ge
  have hhigh := s.currentRow_lt
  have hsize := s.arraySize_lt
  rw [followsTables_iff_of rfl, targetRow, TablesHold]
  by_cases hfirst : s.currentRow ≤ 0
  · have hbefore : s.BeforeStart ∨ s.place = 0 := by
      unfold BeforeStart place
      omega
    rw [if_pos hfirst, if_pos hbefore, map_startOf_beforeStart_iff]
    exact iff_of_true (by decide) (Or.inl hfirst)
  · have hstart : ¬ s.BeforeStart := by
      unfold BeforeStart
      omega
    have hvalue : toLong ((s.currentRow - s.arraySize) % 2 ^ 64).toNat =
        if s.currentRow + 2 ^ 63 < s.arraySize then s.currentRow - s.arraySize + 2 ^ 64
        else s.currentRow - s.arraySize := by
      unfold toLong
      split_ifs <;> omega
    rw [if_neg hfirst, or_iff_right hfirst, hvalue]
    by_cases hempty : s.resultRows = 0
    · have hplace : s.place = 0 := by
        unfold place
        omega
      rw [if_pos (Or.inr hplace), if_pos hempty, map_startOf_beforeStart_iff]
      split_ifs <;> omega
    · have hplace : ¬ (s.BeforeStart ∨ s.place = 0) := by
        unfold place
        rintro (h | h)
        · exact hstart h
        · omega
      have htable : (if s.place < s.arraySize then ScrollPosition.row 0
          else .row (s.place - s.arraySize)) = .row (max 0 (s.place - s.arraySize)) := by
        split_ifs
        · rw [max_eq_left (by omega)]
        · rw [max_eq_right (by omega)]
      rw [if_neg hplace, if_neg hempty, htable, map_startOf_iff]
      by_cases hwrap : s.currentRow + 2 ^ 63 < s.arraySize
      · rw [if_pos hwrap, Reaches, Reaches, place]
        cases s.scroller <;> simp <;> omega
      · rw [if_neg hwrap]
        constructor
        · rintro ⟨hle, hreaches⟩
          exact Or.inl ⟨by omega, hreaches⟩
        · rintro (⟨hle, hreaches⟩ | ⟨hfar, -⟩)
          · exact ⟨by omega, hreaches⟩
          · exact absurd hfar hwrap

theorem followsTables_last : s.FollowsTables .last ↔ s.TablesHold .last := by
  have hrows := s.numRows_lt
  have hresult := s.resultRows_lt
  have hsize := s.arraySize_lt
  have htable : (if s.arraySize ≤ s.resultRows then ScrollPosition.row (s.resultRows - s.arraySize)
      else .row 0) = .row (max 0 ((s.resultRows : ℤ) - s.arraySize)) := by
    split_ifs
    · rw [max_eq_right (by omega)]
    · rw [max_eq_left (by omega)]
  rw [followsTables_iff_of rfl, targetRow, TablesHold, htable]
  by_cases hsmall : s.arraySize < 2 ^ 63
  · rw [toLong, if_pos hsmall, long_eq_some (by omega) (by omega), map_startOf_iff, Reaches,
      if_neg (by omega)]
    omega
  · rw [toLong, if_neg hsmall]
    by_cases hfar : (s.numRows : ℤ) + 2 ^ 63 < s.arraySize
    · rw [long_eq_some (by omega) (by omega), map_startOf_iff, Reaches]
      cases s.scroller <;> simp <;> omega
    · rw [long_eq_none (by omega)]
      exact iff_of_false nofun (by omega)

theorem followsTables_absolute : s.FollowsTables .absolute ↔ s.TablesHold .absolute := by
  have hlow := s.irow_ge
  have hrows := s.numRows_lt
  rw [followsTables_iff_of rfl, targetRow, TablesHold, absolutePosition]
  by_cases hforth : 0 ≤ s.irow
  · rw [if_neg (by omega), if_neg (by omega), if_pos hforth]
    by_cases hzero : s.irow = 0
    · rw [if_pos hzero, map_startOf_beforeStart_iff]
      omega
    · rw [if_neg hzero, map_startOf_iff, and_iff_right (by omega)]
      exact ⟨fun h _ => h, fun h => h (by omega)⟩
  · have hneg : s.irow < 0 := by omega
    rw [if_pos hneg, if_pos hneg, if_neg hforth]
    by_cases hinside : 0 ≤ s.numRows + s.irow
    · rw [if_pos hinside, clampToStart, if_neg (by omega)]
      by_cases hresult : -s.irow ≤ s.resultRows
      · have hresult' : 0 ≤ s.resultRows + s.irow := by omega
        rw [if_pos hresult, if_pos hresult', map_startOf_iff, Reaches, if_neg (by omega)]
        omega
      · have hresult' : ¬ 0 ≤ s.resultRows + s.irow := by omega
        rw [if_neg hresult, if_neg hresult']
        split_ifs with hback
        · rw [map_startOf_iff, Reaches, if_neg (by omega)]
          omega
        · rw [map_startOf_beforeStart_iff]
          omega
    · rw [if_neg hinside, map_clampToStart_iff (by omega) hneg]
      refine and_congr_right fun _ => ?_
      split_ifs <;> simp [cutPosition] <;> omega

/-- From in front of the first row. -/
theorem followsTables_relative_start (hbefore : s.BeforeStart) :
    s.FollowsTables .relative ↔ s.TablesHold .relative := by
  have hlow := s.currentRow_ge
  have hirow := s.irow_ge
  have hirow' := s.irow_lt
  have hclamp : decide (0 < s.currentRow) = false := by
    unfold BeforeStart at hbefore
    rw [decide_eq_false_iff_not]
    omega
  have htable : s.scrollPosition .relative =
      some (if 0 < s.irow then .row (s.irow - 1) else .beforeStart) := by
    rw [scrollPosition, if_pos hbefore, absolutePosition]
    split_ifs <;> first | rfl | omega
  rw [followsTables_iff_of htable, targetRow, TablesHold, hclamp]
  by_cases hneg : s.currentRow < 0
  · have hstart : s.currentRow = -1 := by omega
    rw [if_pos hneg, hstart]
    by_cases hmin : s.irow = -2 ^ 63
    · rw [hmin, long_eq_none (by decide)]
      exact iff_of_false nofun fun h => h.1 rfl
    · rw [long_eq_some (by omega) (by omega), Option.bind_some, clampToStart, if_neg (by simp),
        and_iff_right hmin]
      split_ifs with hpos
      · rw [map_startOf_iff, show -1 + s.irow = s.irow - 1 by omega, and_iff_right (by omega)]
        exact ⟨fun h _ => h, fun h => h hpos⟩
      · rw [map_startOf_beforeStart_iff]
        omega
  · obtain ⟨hzero, -⟩ := hbefore.resolve_left hneg
    rw [if_neg hneg, if_pos hbefore, hzero, Int.zero_add, long_eq_some (by omega) (by omega),
      Option.bind_some, clampToStart, if_neg (by simp)]
    split_ifs with hpos
    · rw [map_startOf_iff, and_iff_right (by omega)]
      exact ⟨fun h => Or.inr ⟨hpos, h⟩, fun h => (h.resolve_left (by omega)).2⟩
    · rw [map_startOf_beforeStart_iff]
      omega

theorem followsTables_relative : s.FollowsTables .relative ↔ s.TablesHold .relative := by
  have hlow := s.currentRow_ge
  have hhigh := s.currentRow_lt
  have hirow := s.irow_ge
  have hirow' := s.irow_lt
  by_cases hbefore : s.BeforeStart
  · exact followsTables_relative_start hbefore
  have hneg : ¬ s.currentRow < 0 := fun h => hbefore (Or.inl h)
  have hplace : s.place ≤ s.currentRow ∧ 0 ≤ s.place := by
    unfold place
    omega
  have htable : s.scrollPosition .relative = some (
      if 0 ≤ s.place + s.irow ∨ 0 < s.place ∧ -s.irow ≤ s.arraySize then
        .row (max 0 (s.place + s.irow)) else .beforeStart) := by
    rw [scrollPosition, if_neg hbefore]
    by_cases hinside : 0 ≤ s.place + s.irow
    · rw [if_pos hinside, if_pos (Or.inl hinside), max_eq_right hinside]
    · rw [if_neg hinside, max_eq_left (by omega)]
      split_ifs <;> first | rfl | omega
  rw [followsTables_iff_of htable, targetRow, TablesHold, if_neg hneg, if_neg hbefore]
  by_cases hinside : 0 ≤ s.currentRow + s.irow
  · rw [if_pos hinside]
    by_cases hfits : s.currentRow + s.irow < 2 ^ 63
    · rw [long_eq_some (by omega) hfits, Option.bind_some, clampToStart, if_neg (by omega),
        and_iff_right hfits]
      split_ifs with hrow
      · rw [map_startOf_iff, and_iff_right hinside, and_iff_right hrow]
      · rw [map_startOf_beforeStart_iff]
        exact iff_of_false (by omega) fun h => hrow h.1
    · rw [long_eq_none (by omega)]
      exact iff_of_false nofun fun h => hfits h.1
  · rw [if_neg hinside, long_eq_some (by omega) (by omega), Option.bind_some]
    by_cases hzero : s.currentRow = 0
    · rw [clampToStart, if_neg (by simp [hzero]), if_neg (by omega), map_startOf_beforeStart_iff]
      exact iff_of_true (by omega) (Or.inl hzero)
    · have hclamp : decide (0 < s.currentRow) = true := by
        rw [decide_eq_true_iff]
        omega
      rw [hclamp, map_clampToStart_iff (by omega) (by omega), or_iff_right hzero]
      refine and_congr_right fun hmin => ?_
      have hmax : max 0 (s.place + s.irow) = 0 := max_eq_left (by omega)
      rw [hmax]
      split_ifs <;> simp [cutPosition] <;> omega

/-- The code follows the tables exactly under that condition. -/
theorem followsTables_iff (s : CursorState) (fetchType : FetchType) :
    s.FollowsTables fetchType ↔ s.TablesHold fetchType := by
  cases fetchType with
  | next => exact followsTables_next
  | prior => exact followsTables_prior
  | first =>
    refine iff_of_true ?_ trivial
    intro position hposition
    cases hposition
    exact map_startOf_iff.mpr ⟨le_rfl, reaches_zero⟩
  | last => exact followsTables_last
  | absolute => exact followsTables_absolute
  | relative => exact followsTables_relative
  | bookmark => exact iff_of_true nofun trivial

/-- Three rows that have not been fetched yet, in rowsets of ten rows. -/
def threeRows : CursorState where
  numRows := 3
  resultRows := 3
  currentRow := -1
  rowsFoundInSet := 0
  arraySize := 10
  irow := 0
  scroller := false
  numRows_lt := by decide
  resultRows_lt := by decide
  currentRow_ge := by decide
  currentRow_lt := by decide
  rowsFoundInSet_lt := by decide
  arraySize_lt := by decide
  irow_ge := by decide
  irow_lt := by decide

/-- The last rowset of a result that is shorter than a rowset is not found. -/
theorem last_not_found : ¬ ∀ (s : CursorState) (fetchType : FetchType),
    s.FollowsTables fetchType := by
  intro hall
  have hlast := hall threeRows .last (.row 0) rfl
  exact absurd hlast (by decide)

end CursorState

end MatrixOdbc.Driver
