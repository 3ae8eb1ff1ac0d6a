import MatrixOdbc.Driver.ServerRows

/-!
# The rows of a catalog function

The members of `ROW_STORAGE` of `driver/catalog.cc` that catalog functions use. They fill one row
after the other, and the storage grows by a row when the last one is reached. The vector of
pointers that goes with the data is computed anew when the rows are handed out, so it is not part
of the model.
-/

namespace MatrixOdbc.Driver

/-- The constructors of `xstring`. -/
def XString.ofCell : Cell → XString
  | none => ⟨[], true⟩
  | some text => ⟨text, false⟩

/-- `c_str`. -/
def XString.cStr (s : XString) : Cell := if s.isNull then none else some s.data

theorem XString.cStr_ofCell (cell : Cell) : (XString.ofCell cell).cStr = cell := by
  cases cell <;> rfl

namespace RowStorage

/-- `data[idx]= value`; nothing is defined behind the last column or the last row. -/
def set (s : RowStorage) (idx : ℕ) (value : Cell) : Option RowStorage :=
  if idx < s.cnum ∧ s.curRow * s.cnum + idx < s.data.length then
    some { s with data := s.data.set (s.curRow * s.cnum + idx) (XString.ofCell value) }
  else none

/-- Columns of the current row are set one after the other. -/
def setColumns (s : RowStorage) : List (ℕ × Cell) → Option RowStorage
  | [] => some s
  | column :: columns => (s.set column.1 column.2).bind fun s => s.setColumns columns

/-- A row is set, and the next one made the current row. -/
def addRow (s : RowStorage) (columns : List (ℕ × Cell)) : Option RowStorage :=
  (s.setColumns columns).map nextRow

/-- Rows are added one after the other. -/
def addRows (s : RowStorage) : List (List (ℕ × Cell)) → Option RowStorage
  | [] => some s
  | row :: rows => (s.addRow row).bind fun s => s.addRows rows

/-- The cells, as `data()` has them. -/
def cells (s : RowStorage) : List Cell := s.data.map XString.cStr

/-- The first rows, as `create_fake_resultset` takes them. -/
def resultRows (s : RowStorage) (count : ℕ) : List (List Cell) :=
  (List.range count).map fun i => (s.cells.drop (i * s.cnum)).take s.cnum

/-- The row that columns make of an empty one. -/
def rowOf (cnum : ℕ) (columns : List (ℕ × Cell)) : List Cell :=
  columns.foldl (fun row column => row.set column.1 column.2) (List.replicate cnum (some []))

/-- So many rows have been filled, and the current row is the first empty one. -/
structure Filled (cnum : ℕ) (rows : List (List Cell)) (s : RowStorage) : Prop where
  cnum_eq : s.cnum = cnum
  cnum_pos : 0 < cnum
  curRow_eq : s.curRow = rows.length
  length_row : ∀ row ∈ rows, row.length = cnum
  room : rows.length < s.rnum
  cells_eq : s.cells = rows.flatten ++ List.replicate ((s.rnum - rows.length) * cnum) (some [])

variable {s : RowStorage} {cnum : ℕ} {rows : List (List Cell)} {row : List Cell}
  {columns : List (ℕ × Cell)}

theorem length_cells (s : RowStorage) : s.cells.length = s.data.length := List.length_map _

/-- The cells of a storage with another size. -/
theorem cells_setSize {rnum : ℕ} (hsize : rnum * cnum ≠ 0) :
    (s.setSize rnum cnum).cells = s.cells.take (rnum * cnum) ++
      List.replicate (rnum * cnum - s.data.length) (some []) := by
  rw [setSize, if_pos hsize]
  simp only [cells, List.map_append, List.map_take, List.map_replicate]
  rfl

/-- An empty storage gets its size. -/
theorem filled_setSize {rnum : ℕ} (hrnum : 0 < rnum) (hcnum : 0 < cnum) (s : RowStorage) :
    Filled cnum [] (s.invalidate.setSize rnum cnum) := by
  have hsize : rnum * cnum ≠ 0 := Nat.mul_ne_zero hrnum.ne' hcnum.ne'
  have hnil : s.invalidate.data = [] := rfl
  have hnone : s.invalidate.cells = [] := rfl
  have hcells := @cells_setSize s.invalidate cnum rnum hsize
  rw [hnone, hnil, List.take_nil, List.nil_append, List.length_nil] at hcells
  rw [setSize, if_pos hsize] at hcells ⊢
  refine ⟨rfl, hcnum, ?_, fun row hrow => absurd hrow List.not_mem_nil, hrnum, hcells⟩
  exact if_neg (Nat.not_le_of_gt hrnum)

/-- The length of rows of one length. -/
theorem length_flatten (h : ∀ row ∈ rows, row.length = cnum) :
    rows.flatten.length = rows.length * cnum := by
  induction rows with
  | nil => simp
  | cons row rows ih =>
    rw [List.flatten_cons, List.length_append, h row List.mem_cons_self,
      ih fun row hrow => h row (List.mem_cons_of_mem _ hrow), List.length_cons, Nat.succ_mul]
    exact Nat.add_comm _ _

/-- A column is set in the current row. -/
theorem set_current {front behind : List Cell} {idx : ℕ} (value : Cell)
    (hcnum : s.cnum = cnum) (hfront : front.length = s.curRow * s.cnum) (hrow : row.length = cnum)
    (hcells : s.cells = front ++ (row ++ behind)) (hidx : idx < cnum) :
    ∃ data, s.set idx value = some { s with data := data } ∧
      { s with data := data }.cells = front ++ (row.set idx value ++ behind) := by
  have hinside : s.curRow * s.cnum + idx < s.data.length := by
    rw [← s.length_cells, hcells, List.length_append, List.length_append, hfront, hrow]
    omega
  refine ⟨_, if_pos ⟨by omega, hinside⟩, ?_⟩
  change (s.data.set (s.curRow * s.cnum + idx) (XString.ofCell value)).map XString.cStr = _
  rw [List.map_set, XString.cStr_ofCell, ← cells, hcells, ← hfront,
    List.set_append_right _ _ (by omega), Nat.add_sub_cancel_left,
    List.set_append_left _ _ (by omega)]

/-- Columns are set in the current row. -/
theorem setColumns_current {front behind : List Cell} (hcnum : s.cnum = cnum)
    (hfront : front.length = s.curRow * s.cnum) (hrow : row.length = cnum)
    (hcells : s.cells = front ++ (row ++ behind)) (hcolumns : ∀ column ∈ columns, column.1 < cnum) :
    ∃ data, s.setColumns columns = some { s with data := data } ∧ { s with data := data }.cells =
      front ++ (columns.foldl (fun row column => row.set column.1 column.2) row ++ behind) := by
  induction columns generalizing s row with
  | nil => exact ⟨s.data, rfl, hcells⟩
  | cons column columns ih =>
    obtain ⟨data, hset, hcells'⟩ :=
      set_current column.2 hcnum hfront hrow hcells (hcolumns column List.mem_cons_self)
    have hlength : (row.set column.1 column.2).length = cnum := by rw [List.length_set, hrow]
    obtain ⟨data', hset', hcells''⟩ := @ih { s with data := data } (row.set column.1 column.2) hcnum
      hfront hlength hcells' fun column hcolumn => hcolumns column (List.mem_cons_of_mem _ hcolumn)
    refine ⟨data', ?_, hcells''⟩
    rw [setColumns, hset, Option.bind_some, hset']

theorem length_rowOf (cnum : ℕ) (columns : List (ℕ × Cell)) :
    (rowOf cnum columns).length = cnum := by
  have hlength : ∀ row : List Cell,
      (columns.foldl (fun row column => row.set column.1 column.2) row).length = row.length := by
    induction columns with
    | nil => exact fun row => rfl
    | cons column columns ih =>
      intro row
      rw [List.foldl_cons, ih, List.length_set]
  rw [rowOf, hlength, List.length_replicate]

/-- Behind a row that has been set there is an empty one, which is added if need be. -/
theorem filled_nextRow {k : ℕ} (hcnum : s.cnum = cnum) (hpos : 0 < cnum)
    (hcur : s.curRow = rows.length) (hrows : ∀ row' ∈ rows ++ [row], row'.length = cnum)
    (hrnum : s.rnum = rows.length + k + 1)
    (hcells : s.cells = (rows ++ [row]).flatten ++ List.replicate (k * cnum) (some [])) :
    Filled cnum (rows ++ [row]) s.nextRow := by
  have hlength : (rows ++ [row]).length = rows.length + 1 := by simp
  rw [nextRow]
  split_ifs with hmore
  · refine ⟨hcnum, hpos, by rw [hlength, ← hcur], hrows, ?_, ?_⟩
    · change (rows ++ [row]).length < s.rnum
      omega
    · change s.cells = _ ++ List.replicate ((s.rnum - (rows ++ [row]).length) * cnum) (some [])
      rw [hcells, hlength, hrnum, show rows.length + k + 1 - (rows.length + 1) = k by omega]
  · have hsize : (s.rnum + 1) * s.cnum ≠ 0 := by
      rw [hcnum]
      exact Nat.mul_ne_zero (Nat.succ_ne_zero _) hpos.ne'
    have hdatalen : s.data.length = s.rnum * cnum := by
      rw [← s.length_cells, hcells, List.length_append, length_flatten hrows, hlength,
        List.length_replicate, hrnum, ← Nat.add_mul]
      congr 1
      omega
    have hsub : (s.rnum + 1) * cnum - s.rnum * cnum = cnum := by
      rw [Nat.succ_mul, Nat.add_sub_cancel_left]
    have hgrown := @cells_setSize { s with curRow := s.curRow + 1 } s.cnum (s.rnum + 1) hsize
    have hsame : { s with curRow := s.curRow + 1 }.cells = s.cells := rfl
    rw [hsame, hcnum, hdatalen, hsub, List.take_of_length_le (by
      rw [s.length_cells, hdatalen, Nat.succ_mul]; omega)] at hgrown
    refine ⟨?_, hpos, ?_, hrows, ?_, ?_⟩
    · rw [setSize, if_pos hsize]
      exact hcnum
    · rw [setSize, if_pos hsize]
      dsimp only
      rw [if_neg (by omega), hlength, ← hcur]
    · rw [setSize, if_pos hsize]
      dsimp only
      omega
    · rw [hcnum, hgrown, hcells, List.append_assoc, List.replicate_append_replicate, setSize,
        if_pos (hcnum ▸ hsize)]
      dsimp only
      rw [hlength, hrnum, show rows.length + k + 1 + 1 - (rows.length + 1) = k + 1 by omega,
        Nat.succ_mul]

/-- A row is filled, and there is room for another one. -/
theorem Filled.addRow (h : Filled cnum rows s) (hcolumns : ∀ column ∈ columns, column.1 < cnum) :
    ∃ s', s.addRow columns = some s' ∧ Filled cnum (rows ++ [rowOf cnum columns]) s' := by
  obtain ⟨k, hk⟩ := Nat.exists_eq_add_of_lt h.room
  have hblank : s.cells = rows.flatten ++ (List.replicate cnum (some []) ++
      List.replicate (k * cnum) (some [])) := by
    rw [h.cells_eq, List.replicate_append_replicate, hk]
    congr 2
    rw [show rows.length + k + 1 - rows.length = k + 1 by omega, Nat.succ_mul, Nat.add_comm]
  have hfront : rows.flatten.length = s.curRow * s.cnum := by
    rw [length_flatten h.length_row, h.curRow_eq, h.cnum_eq]
  obtain ⟨data, hset, hcells⟩ :=
    setColumns_current h.cnum_eq hfront (List.length_replicate ..) hblank hcolumns
  have hrow (row : List Cell) (hmem : row ∈ rows ++ [rowOf cnum columns]) : row.length = cnum := by
    rcases List.mem_append.mp hmem with hmem | hmem
    · exact h.length_row row hmem
    · rw [List.mem_singleton.mp hmem, length_rowOf]
  rw [RowStorage.addRow, hset, Option.map_some]
  refine ⟨_, rfl, filled_nextRow h.cnum_eq h.cnum_pos h.curRow_eq hrow hk ?_⟩
  rw [hcells, List.flatten_append, List.flatten_singleton, List.append_assoc]
  rfl

/-- Row after row is filled. -/
theorem Filled.addRows (h : Filled cnum rows s) {list : List (List (ℕ × Cell))}
    (hlist : ∀ columns ∈ list, ∀ column ∈ columns, column.1 < cnum) :
    ∃ s', s.addRows list = some s' ∧ Filled cnum (rows ++ list.map (rowOf cnum)) s' := by
  induction list generalizing s rows with
  | nil => exact ⟨s, rfl, by rwa [List.map_nil, List.append_nil]⟩
  | cons columns list ih =>
    obtain ⟨s', hs', hfilled⟩ := h.addRow (hlist columns List.mem_cons_self)
    obtain ⟨s'', hs'', hfilled'⟩ :=
      ih hfilled fun columns hcolumns => hlist columns (List.mem_cons_of_mem _ hcolumns)
    refine ⟨s'', by rw [RowStorage.addRows, hs', Option.bind_some, hs''], ?_⟩
    rwa [List.map_cons, List.append_cons]

/-- The rows behind the first ones. -/
theorem drop_flatten (h : ∀ row ∈ rows, row.length = cnum) (behind : List Cell) {i : ℕ}
    (hi : i ≤ rows.length) :
    (rows.flatten ++ behind).drop (i * cnum) = (rows.drop i).flatten ++ behind := by
  have hsplit := List.take_append_drop i rows
  have htake : (rows.take i).flatten.length = i * cnum := by
    rw [length_flatten fun row hrow => h row (List.mem_of_mem_take hrow), List.length_take,
      Nat.min_eq_left hi]
  conv_lhs => rw [← hsplit, List.flatten_append, List.append_assoc]
  exact List.drop_left' htake

/-- The rows that have been filled are handed out. -/
theorem Filled.resultRows (h : Filled cnum rows s) : s.resultRows rows.length = rows := by
  apply List.ext_getElem
  · rw [RowStorage.resultRows, List.length_map, List.length_range]
  · intro i hi hi'
    simp only [RowStorage.resultRows, List.getElem_map, List.getElem_range]
    rw [h.cells_eq, h.cnum_eq, drop_flatten h.length_row _ hi'.le, List.drop_eq_getElem_cons hi',
      List.flatten_cons, List.append_assoc]
    exact List.take_left' (h.length_row _ (List.getElem_mem hi'))

theorem Filled.firstRow (h : Filled cnum [] s) : Filled cnum [] s.firstRow :=
  ⟨h.cnum_eq, h.cnum_pos, rfl, h.length_row, h.room, h.cells_eq⟩

/-- The rows of a storage that is filled anew. -/
theorem resultRows_addRows {list : List (List (ℕ × Cell))} (h : list ≠ [] → Filled cnum [] s)
    (hlist : ∀ columns ∈ list, ∀ column ∈ columns, column.1 < cnum) :
    (s.addRows list).map (fun s => s.resultRows list.length) = some (list.map (rowOf cnum)) := by
  cases list with
  | nil => rfl
  | cons columns list =>
    obtain ⟨s', hs', hfilled⟩ := (h (List.cons_ne_nil _ _)).addRows hlist
    have hrows := hfilled.resultRows
    rw [List.nil_append, List.length_map] at hrows
    rw [hs', Option.map_some, hrows]

end RowStorage

end MatrixOdbc.Driver
