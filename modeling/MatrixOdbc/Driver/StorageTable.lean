import MatrixOdbc.Foundations.Refinement
import MatrixOdbc.Foundations.RowTable
import MatrixOdbc.Driver.CatalogRows
import MatrixOdbc.Driver.RowDelivery

/-!
# The row storage is a table

All of `ROW_STORAGE` of `driver/driver.h` and `driver/catalog.cc`: the data, the vector of pointers
that is kept beside it, the current row and column and the mark for the end. Catalog functions and
`ssps_get_result` of `driver/my_prepared_stmt.cc` give an invalidated storage a size of at least one
row, and from then on every call sees the same number of columns. Over such calls the storage is
a table with a current row, whatever the order in which it grows, shrinks, is rewound, stored into
and read.
-/

namespace MatrixOdbc.Driver

/-- `ROW_STORAGE`. A pointer of `m_pdata` is the text that it led to when it was set. -/
structure StorageArray extends RowStorage where
  curCol : ℕ
  pdata : List Cell

namespace StorageArray

/-- `set_size`. -/
def setSize (s : StorageArray) (rnum cnum : ℕ) : StorageArray where
  toRowStorage := s.toRowStorage.setSize rnum cnum
  curCol := s.curCol
  pdata :=
    if rnum * cnum ≠ 0 then
      s.pdata.take (rnum * cnum) ++ List.replicate (rnum * cnum - s.pdata.length) none
    else []

/-- `invalidate`. -/
def invalidate (s : StorageArray) : StorageArray := { s with eof := true }.setSize 0 0

/-- `next_row`: whether there was a row left. -/
def nextRow (s : StorageArray) : Bool × StorageArray :=
  let s := { s with curRow := s.curRow + 1 }
  if s.curRow < s.rnum - 1 then (true, s) else (false, s.setSize (s.rnum + 1) s.cnum)

/-- `first_row`. -/
def firstRow (s : StorageArray) : StorageArray := { s with curRow := 0, eof := s.rnum == 0 }

/-- `operator[]`, which throws behind the last column. -/
def column (s : StorageArray) (idx : ℕ) : Option StorageArray :=
  if s.cnum ≤ idx then none else some { s with curCol := idx }

/-- The place of the current column of the current row. -/
def offs (s : StorageArray) : ℕ := s.curRow * s.cnum + s.curCol

/-- An assignment to the string that `operator[]` has returned. -/
def put (s : StorageArray) (value : Cell) : Option StorageArray :=
  if s.offs < s.data.length then
    some { s with data := s.data.set s.offs (XString.ofCell value) }
  else none

/-- `operator=`, which sets the pointer as well. -/
def assign (s : StorageArray) (value : Cell) : Option StorageArray :=
  if s.offs < s.data.length ∧ s.offs < s.pdata.length then
    some { s with
      data := s.data.set s.offs (XString.ofCell value)
      pdata := s.pdata.set s.offs (XString.ofCell value).cStr }
  else none

/-- The columns of the current row and their buffers are there. -/
def HasRow (s : StorageArray) (binds : List ColumnBind) : Prop :=
  s.cnum ≤ binds.length ∧ s.curRow * s.cnum + s.cnum ≤ s.data.length

instance (s : StorageArray) (binds : List ColumnBind) : Decidable (s.HasRow binds) :=
  inferInstanceAs (Decidable (_ ∧ _))

/-- `set_data` of a row. -/
def setData (s : StorageArray) (binds : List ColumnBind) : Option StorageArray :=
  if s.HasRow binds then some { s with toRowStorage := s.toRowStorage.setData binds } else none

/-- `fill_data`. -/
def fillData (s : StorageArray) (binds : List ColumnBind) :
    Option (StorageArray × List ColumnBind) :=
  if s.rnum ≤ s.curRow ∨ s.eof = true ∨ s.HasRow binds then
    let p := s.toRowStorage.fillData binds
    some ({ s with toRowStorage := p.2 }, p.1)
  else none

/-- `data`: the pointers are set to the strings. -/
def dataPointers (s : StorageArray) : Option (StorageArray × List Cell) :=
  if s.data.length ≤ s.pdata.length then
    let pdata := s.cells ++ s.pdata.drop s.data.length
    some ({ s with pdata := pdata }, pdata)
  else none

end StorageArray

/-- Buffers for the columns of a row, as `result_bind` has them. -/
abbrev RowBinds (c : ℕ) := { binds : List ColumnBind // binds.length = c }

/-- A call to a storage of so many columns. -/
inductive StorageCall (c : ℕ) where
  | setSize (rnum : ℕ+)
  | firstRow
  | nextRow
  | put (idx : Fin c) (value : Cell)
  | assign (idx : Fin c) (value : Cell)
  | setData (binds : RowBinds c)
  | data
  | fillData (binds : RowBinds c)

/-- What a call returns: nothing that is used, the pointers of `data`, or the buffers that
`fill_data` has filled. -/
inductive StorageOutput where
  | nothing
  | pointers (texts : List Cell)
  | columns (binds : List ColumnBind)

/-- A call. -/
def StorageArray.step {c : ℕ} (s : StorageArray) :
    StorageCall c → Option (StorageArray × StorageOutput)
  | .setSize rnum => some (s.setSize rnum c, .nothing)
  | .firstRow => some (s.firstRow, .nothing)
  | .nextRow => some (s.nextRow.2, .nothing)
  | .put idx value => ((s.column idx).bind fun s => s.put value).map fun s => (s, .nothing)
  | .assign idx value => ((s.column idx).bind fun s => s.assign value).map fun s => (s, .nothing)
  | .setData binds => (s.setData binds).map fun s => (s, .nothing)
  | .data => s.dataPointers.map fun p => (p.1, .pointers p.2)
  | .fillData binds => (s.fillData binds).map fun p => (p.1, .columns p.2)

/-- What `set_data` stores of a column. -/
def ColumnBind.stored (b : ColumnBind) : Cell :=
  if b.isNull || b.buffer.isEmpty then none
  else some (b.buffer.take b.length ++ List.replicate (b.length - b.buffer.length) 0)

/-- The content of a new cell. -/
def blankCell : Cell := some []

/-- The row that `set_data` stores. -/
def RowBinds.row {c : ℕ} (binds : RowBinds c) : List Cell := binds.1.map ColumnBind.stored

theorem RowBinds.length_row {c : ℕ} (binds : RowBinds c) : binds.row.length = c :=
  (List.length_map _).trans binds.2

/-- The table behind a call. -/
def tableAfter {c : ℕ} (t : RowTable Cell c) : StorageCall c → RowTable Cell c
  | .setSize rnum => t.resize blankCell rnum
  | .firstRow => t.first
  | .nextRow => t.next blankCell
  | .put idx value => t.setCell idx value
  | .assign idx value => t.setCell idx value
  | .setData binds => t.setRow binds.row binds.length_row false
  | .data => t
  | .fillData _ => t.read

/-- A row of the server is stored over cells that are not `NULL`, as those of a new row are not. -/
def tableAllows {c : ℕ} (t : RowTable Cell c) : StorageCall c → Prop
  | .setData _ => none ∉ t.row
  | _ => True

/-- What a call returns: the cells row by row, or the current row unless the last one has been
read. -/
def tableReturns {c : ℕ} (t : RowTable Cell c) : StorageCall c → StorageOutput → Prop
  | .data, output => output = .pointers t.rows.flatten
  | .fillData binds, output => ∃ filled, output = .columns filled ∧
      if t.ended then filled = binds else List.Forall₂ ColumnBind.Holds filled t.row
  | _, output => output = .nothing

/-- The storage as a table. -/
def storageSpec (c : ℕ) : Refinement.Spec (RowTable Cell c) (StorageCall c) StorageOutput where
  next := tableAfter
  allowed := tableAllows
  right := tableReturns

/-- The storage keeps a table. -/
structure StorageArray.Keeps {c : ℕ} (s : StorageArray) (t : RowTable Cell c) : Prop where
  cnum : s.cnum = c
  rnum : s.rnum = t.rows.length
  curRow : s.curRow = t.cur
  eof : s.eof = t.ended
  cells : s.cells = t.rows.flatten
  pdata : s.pdata.length = s.data.length

namespace StorageArray

variable {c : ℕ} {s : StorageArray} {t : RowTable Cell c} {rows : List (List Cell)}

theorem Keeps.length_data (h : s.Keeps t) : s.data.length = t.rows.length * c := by
  rw [← s.length_cells, h.cells, t.ofWidth.length_flatten]

/-- The storage has another number of rows. -/
theorem cells_resize (hc : 0 < c) (hrows : rows.OfWidth c) (hcells : s.cells = rows.flatten)
    (rnum : ℕ+) : (s.setSize rnum c).cells = (rows.take rnum ++
      List.replicate (rnum - rows.length) (List.replicate c blankCell)).flatten := by
  have hsize : (rnum : ℕ) * c ≠ 0 := Nat.mul_ne_zero rnum.ne_zero hc.ne'
  have hlength : s.data.length = rows.length * c := by
    rw [← s.length_cells, hcells, hrows.length_flatten]
  rw [setSize, RowStorage.cells_setSize hsize, hcells, hlength, List.flatten_append,
    hrows.flatten_take, List.flatten_replicate_replicate, Nat.sub_mul]
  rfl

/-- The vector of pointers grows and shrinks with the data. -/
theorem pdata_setSize (hpdata : s.pdata.length = s.data.length) (rnum cnum : ℕ) :
    (s.setSize rnum cnum).pdata.length = (s.setSize rnum cnum).data.length := by
  by_cases hsize : rnum * cnum ≠ 0
  · simp only [setSize, RowStorage.setSize, if_pos hsize, List.length_append, List.length_take,
      List.length_replicate, hpdata]
  · simp only [setSize, RowStorage.setSize, if_neg hsize, List.length_nil]

theorem setSize_eq (hc : 0 < c) (s : StorageArray) (rnum : ℕ+) :
    (s.setSize rnum c).rnum = rnum ∧ (s.setSize rnum c).cnum = c ∧
      (s.setSize rnum c).curRow = (if rnum ≤ s.curRow then (rnum : ℕ) - 1 else s.curRow) ∧
      (s.setSize rnum c).eof = s.eof := by
  have hsize : (rnum : ℕ) * c ≠ 0 := Nat.mul_ne_zero rnum.ne_zero hc.ne'
  simp only [setSize, RowStorage.setSize, if_pos hsize, and_self]

theorem Keeps.setSize (hc : 0 < c) (h : s.Keeps t) (rnum : ℕ+) :
    (s.setSize rnum c).Keeps (t.resize blankCell rnum) := by
  obtain ⟨hrnum, hcnum, hcur, heof⟩ := setSize_eq hc s rnum
  refine ⟨hcnum, ?_, ?_, heof.trans h.eof, cells_resize hc t.ofWidth h.cells rnum,
    pdata_setSize h.pdata rnum c⟩
  · simp only [hrnum, RowTable.resize, List.length_append, List.length_take, List.length_replicate]
    omega
  · rw [hcur, h.curRow]
    rfl

theorem Keeps.firstRow (h : s.Keeps t) : s.firstRow.Keeps t.first := by
  refine ⟨h.cnum, h.rnum, rfl, ?_, h.cells, h.pdata⟩
  have hpos : s.rnum ≠ 0 := by
    rw [h.rnum]
    exact (Nat.zero_lt_of_lt t.cur_lt).ne'
  exact beq_false_of_ne hpos

theorem Keeps.nextRow (hc : 0 < c) (h : s.Keeps t) : s.nextRow.2.Keeps (t.next blankCell) := by
  have hlt := t.cur_lt
  have hrnum := h.rnum
  have hcur := h.curRow
  simp only [StorageArray.nextRow]
  split_ifs with hmore
  · have hrows : (t.next blankCell).rows = t.rows := if_pos (by omega)
    have hcells : s.cells = (t.next blankCell).rows.flatten := by rw [hrows, h.cells]
    exact ⟨h.cnum, by rw [hrows, ← hrnum], congrArg (· + 1) hcur, h.eof, hcells, h.pdata⟩
  · have hrows : (t.next blankCell).rows = t.rows ++ [List.replicate c blankCell] :=
      if_neg (by omega)
    obtain ⟨hrnum', hcnum', hcur', heof'⟩ :=
      setSize_eq hc { s with curRow := s.curRow + 1 } s.rnum.succPNat
    have hcells := @cells_resize c { s with curRow := s.curRow + 1 } t.rows hc t.ofWidth h.cells
      s.rnum.succPNat
    have htake : t.rows.take s.rnum.succPNat = t.rows :=
      List.take_of_length_le (by rw [Nat.succPNat_coe]; omega)
    have hone : (s.rnum.succPNat : ℕ) - t.rows.length = 1 := by
      rw [Nat.succPNat_coe]
      omega
    rw [htake, hone] at hcells
    rw [h.cnum]
    refine ⟨hcnum', ?_, ?_, heof'.trans h.eof, hcells.trans (by rw [hrows]; rfl),
      @pdata_setSize { s with curRow := s.curRow + 1 } h.pdata _ _⟩
    · rw [hrows, List.length_append, List.length_singleton, ← hrnum]
      exact hrnum'
    · rw [Nat.succPNat_coe] at hcur'
      apply hcur'.trans
      rw [if_neg (by dsimp only; omega)]
      exact congrArg (· + 1) hcur

/-- The place of a cell of the current row. -/
theorem Keeps.offs_lt (h : s.Keeps t) {idx : ℕ} (hidx : idx < c) :
    s.curRow * s.cnum + idx < s.data.length := by
  have hrow : (s.curRow + 1) * c ≤ t.rows.length * c := by
    rw [h.curRow]
    exact Nat.mul_le_mul_right c t.cur_lt
  rw [h.length_data, h.cnum]
  rw [Nat.succ_mul] at hrow
  omega

/-- A cell of the current row is set. -/
theorem Keeps.cells_set (h : s.Keeps t) {idx : ℕ} (hidx : idx < c) (value : Cell) :
    (s.data.set (s.curRow * s.cnum + idx) (XString.ofCell value)).map XString.cStr =
      (t.setCell idx value).rows.flatten := by
  have hset := t.ofWidth.flatten_set_cell t.cur_lt hidx value
  rw [List.map_set, XString.cStr_ofCell, ← RowStorage.cells, h.cells, h.curRow, h.cnum]
  exact hset.symm

theorem Keeps.put (h : s.Keeps t) (idx : Fin c) (value : Cell) :
    ∃ s', ((s.column idx).bind fun s => s.put value) = some s' ∧ s'.Keeps (t.setCell idx value) := by
  have hidx : ¬ s.cnum ≤ idx := by
    rw [h.cnum]
    exact Nat.not_le_of_lt idx.2
  refine ⟨_, by rw [column, if_neg hidx]; exact if_pos (h.offs_lt idx.2), ?_⟩
  refine ⟨h.cnum, ?_, h.curRow, h.eof, h.cells_set idx.2 value, ?_⟩
  · exact h.rnum.trans (List.length_set ..).symm
  · exact h.pdata.trans (List.length_set ..).symm

theorem Keeps.assign (h : s.Keeps t) (idx : Fin c) (value : Cell) :
    ∃ s', ((s.column idx).bind fun s => s.assign value) = some s' ∧
      s'.Keeps (t.setCell idx value) := by
  have hidx : ¬ s.cnum ≤ idx := by
    rw [h.cnum]
    exact Nat.not_le_of_lt idx.2
  have hoffs := h.offs_lt idx.2
  refine ⟨_, by rw [column, if_neg hidx]; exact if_pos ⟨hoffs, h.pdata ▸ hoffs⟩, ?_⟩
  refine ⟨h.cnum, ?_, h.curRow, h.eof, h.cells_set idx.2 value, ?_⟩
  · exact h.rnum.trans (List.length_set ..).symm
  · exact (List.length_set ..).trans (h.pdata.trans (List.length_set ..).symm)

theorem Keeps.hasRow (h : s.Keeps t) (binds : RowBinds c) : s.HasRow binds.1 := by
  have hrow : (t.cur + 1) * c ≤ t.rows.length * c := Nat.mul_le_mul_right c t.cur_lt
  refine ⟨by rw [h.cnum, binds.2], ?_⟩
  rw [h.length_data, h.curRow, h.cnum, ← Nat.succ_mul]
  exact hrow

/-- The cells of the current row. -/
theorem Keeps.currentCells (h : s.Keeps t) : s.currentCells.map XString.cStr = t.row := by
  rw [RowStorage.currentCells, List.map_take, List.map_drop, ← RowStorage.cells, h.cells, h.curRow,
    h.cnum]
  exact t.ofWidth.flatten_row t.cur_lt

/-- A cell that is not marked as `NULL` takes the value of a column. -/
theorem cStr_setCell {x : XString} (hx : x.isNull = false) (b : ColumnBind) :
    (RowStorage.setCell x b).cStr = b.stored := by
  unfold RowStorage.setCell ColumnBind.stored
  split_ifs
  · rfl
  · simp only [XString.cStr, hx, Bool.false_eq_true, if_false]

theorem isNull_of_cStr {x : XString} (hx : x.cStr ≠ none) : x.isNull = false := by
  by_contra hnull
  exact hx (if_pos (by simpa using hnull))

/-- A row that holds no `NULL` takes the values of the columns. -/
theorem cStr_setCells {xs : List XString} {binds : List ColumnBind}
    (hlength : xs.length = binds.length) (hxs : none ∉ xs.map XString.cStr) :
    (List.zipWith RowStorage.setCell xs binds).map XString.cStr = binds.map ColumnBind.stored := by
  induction xs generalizing binds with
  | nil => rw [List.length_eq_zero_iff.mp hlength.symm]; rfl
  | cons x xs ih =>
    obtain ⟨b, binds, rfl⟩ := List.exists_cons_of_length_eq_add_one hlength.symm
    rw [List.map_cons, List.mem_cons, not_or] at hxs
    rw [List.zipWith_cons_cons, List.map_cons, List.map_cons,
      cStr_setCell (isNull_of_cStr (Ne.symm hxs.1)), ih (Nat.succ.inj hlength) hxs.2]

theorem Keeps.setData (hc : 0 < c) (h : s.Keeps t) (binds : RowBinds c) (hnull : none ∉ t.row) :
    ∃ s', s.setData binds.1 = some s' ∧ s'.Keeps (t.setRow binds.row binds.length_row false) := by
  have hlength : s.currentCells.length = binds.1.length := by
    rw [← List.length_map XString.cStr, h.currentCells, t.length_row, binds.2]
  have hrow : (List.zipWith RowStorage.setCell s.currentCells binds.1).map XString.cStr =
      binds.row := cStr_setCells hlength (by rwa [h.currentCells])
  have hcells : (s.toRowStorage.setData binds.1).cells =
      (t.rows.set t.cur binds.row).flatten := by
    rw [t.ofWidth.flatten_set t.cur_lt binds.length_row, ← h.cells, ← h.curRow]
    simp only [RowStorage.setData, RowStorage.cells, Buffer.map_store, hrow, h.cnum]
  refine ⟨_, if_pos (h.hasRow binds), h.cnum, ?_, h.curRow, ?_, hcells, ?_⟩
  · exact h.rnum.trans (List.length_set ..).symm
  · have hzero : (s.cnum == 0) = false := beq_false_of_ne (by rw [h.cnum]; exact hc.ne')
    change (s.eof && s.cnum == 0) = false
    rw [hzero, Bool.and_false]
  · have hdata : (s.toRowStorage.setData binds.1).data.length = s.data.length := by
      rw [← RowStorage.length_cells, hcells, ← s.length_cells, h.cells,
        (t.ofWidth.set _ binds.length_row).length_flatten, t.ofWidth.length_flatten,
        List.length_set]
    exact h.pdata.trans hdata.symm

theorem Keeps.dataPointers (h : s.Keeps t) :
    ∃ s', s.dataPointers = some (s', t.rows.flatten) ∧ s'.Keeps t := by
  have hnone : s.pdata.drop s.data.length = [] := List.drop_of_length_le h.pdata.le
  have hpdata : s.cells ++ s.pdata.drop s.data.length = t.rows.flatten := by
    rw [hnone, List.append_nil, h.cells]
  refine ⟨{ s with pdata := t.rows.flatten }, ?_, h.cnum, h.rnum, h.curRow, h.eof, h.cells, ?_⟩
  · rw [StorageArray.dataPointers, if_pos h.pdata.ge, hpdata]
  · rw [← h.cells, s.length_cells]

/-- A column is filled with the value of a cell. -/
theorem holds_fillCell (b : ColumnBind) (x : XString) :
    (RowStorage.fillCell b x).Holds x.cStr := by
  by_cases hx : x.isNull = true
  · rw [XString.cStr, if_pos hx, RowStorage.fillCell, if_pos hx]
    exact rfl
  · have hnull : x.isNull = false := by simpa using hx
    obtain ⟨hlength, htake⟩ := @ColumnBind.fillCell_buffer b x hnull
    rw [XString.cStr, if_neg hx]
    refine ⟨by rw [RowStorage.fillCell, if_neg hx], by rw [RowStorage.fillCell, if_neg hx], ?_⟩
    rw [htake, hlength]

/-- The columns are filled with the cells of a row. -/
theorem holds_fillCells {xs : List XString} {binds : List ColumnBind}
    (hlength : xs.length = binds.length) :
    List.Forall₂ ColumnBind.Holds (List.zipWith RowStorage.fillCell binds xs)
      (xs.map XString.cStr) := by
  induction xs generalizing binds with
  | nil => rw [List.length_eq_zero_iff.mp hlength.symm]; exact .nil
  | cons x xs ih =>
    obtain ⟨b, binds, rfl⟩ := List.exists_cons_of_length_eq_add_one hlength.symm
    exact .cons (holds_fillCell b x) (ih (Nat.succ.inj hlength))

theorem Keeps.fillData (h : s.Keeps t) (binds : RowBinds c) :
    ∃ s' filled, s.fillData binds.1 = some (s', filled) ∧ s'.Keeps t.read ∧
      if t.ended then filled = binds else List.Forall₂ ColumnBind.Holds filled t.row := by
  have hlt : ¬ s.rnum ≤ s.curRow := by
    rw [h.rnum, h.curRow]
    exact Nat.not_le_of_lt t.cur_lt
  have hfill : s.fillData binds.1 = some ({ s with
      toRowStorage := (s.toRowStorage.fillData binds.1).2 }, (s.toRowStorage.fillData binds.1).1) :=
    if_pos (.inr (.inr (h.hasRow binds)))
  by_cases hended : t.ended = true
  · have heof : s.eof = true := h.eof.trans hended
    have hsame : s.toRowStorage.fillData binds.1 = (binds.1, s.toRowStorage) := by
      rw [RowStorage.fillData, heof, Bool.or_true]
      rfl
    rw [hsame] at hfill
    refine ⟨s, binds.1, hfill, ?_, ?_⟩
    · rw [RowTable.read, if_pos hended]
      exact h
    · rw [if_pos hended]
  · have heof : s.eof = false := h.eof.trans (by simpa using hended)
    have hnext : s.toRowStorage.fillData binds.1 =
        (List.zipWith RowStorage.fillCell binds.1 s.currentCells, { s.toRowStorage with
          eof := decide (s.rnum ≤ s.curRow + 1)
          curRow := if decide (s.rnum ≤ s.curRow + 1) then s.curRow else s.curRow + 1 }) := by
      rw [RowStorage.fillData, if_neg]
      simp only [Bool.or_eq_true, decide_eq_true_eq, heof, Bool.false_eq_true, or_false]
      exact hlt
    have hlength : s.currentCells.length = binds.1.length := by
      rw [← List.length_map XString.cStr, h.currentCells, t.length_row, binds.2]
    rw [hnext] at hfill
    refine ⟨_, _, hfill, ?_, ?_⟩
    · rw [RowTable.read, if_neg hended]
      refine ⟨h.cnum, h.rnum, ?_, ?_, h.cells, h.pdata⟩
      · simp only [RowTable.advance, h.rnum, h.curRow, decide_eq_true_eq]
        split_ifs <;> omega
      · simp only [RowTable.advance, h.rnum, h.curRow]
    · rw [if_neg hended, ← h.currentCells]
      exact holds_fillCells hlength

/-- Every call to a storage that keeps a table is a step of the table. -/
theorem refines (hc : 0 < c) :
    Refinement.Refines (StorageArray.step (c := c)) (storageSpec c) StorageArray.Keeps := by
  intro s t call h hallowed
  cases call with
  | setSize rnum => exact ⟨_, _, rfl, rfl, h.setSize hc rnum⟩
  | firstRow => exact ⟨_, _, rfl, rfl, h.firstRow⟩
  | nextRow => exact ⟨_, _, rfl, rfl, h.nextRow hc⟩
  | put idx value =>
    obtain ⟨s', hs', hkeeps⟩ := h.put idx value
    exact ⟨s', _, congrArg (Option.map _) hs', rfl, hkeeps⟩
  | assign idx value =>
    obtain ⟨s', hs', hkeeps⟩ := h.assign idx value
    exact ⟨s', _, congrArg (Option.map _) hs', rfl, hkeeps⟩
  | setData binds =>
    obtain ⟨s', hs', hkeeps⟩ := h.setData hc binds hallowed
    exact ⟨s', _, congrArg (Option.map _) hs', rfl, hkeeps⟩
  | data =>
    obtain ⟨s', hs', hkeeps⟩ := h.dataPointers
    exact ⟨s', _, congrArg (Option.map _) hs', rfl, hkeeps⟩
  | fillData binds =>
    obtain ⟨s', filled, hs', hkeeps, hfilled⟩ := h.fillData binds
    exact ⟨s', _, congrArg (Option.map _) hs', ⟨filled, rfl, hfilled⟩, hkeeps⟩

/-- An invalidated storage gets its size. -/
theorem keeps_setSize (hc : 0 < c) (s : StorageArray) (rnum : ℕ+) :
    (s.invalidate.setSize rnum c).Keeps (RowTable.empty blankCell c rnum) := by
  obtain ⟨hrnum, hcnum, hcur, heof⟩ := setSize_eq hc s.invalidate rnum
  have hcells := @cells_resize c s.invalidate [] hc (fun row hrow => absurd hrow List.not_mem_nil)
    rfl rnum
  rw [List.take_nil, List.nil_append, List.length_nil, Nat.sub_zero] at hcells
  refine ⟨hcnum, ?_, ?_, heof, hcells, pdata_setSize rfl rnum c⟩
  · exact hrnum.trans List.length_replicate.symm
  · rw [hcur]
    exact if_neg (Nat.not_le_of_lt rnum.pos)

/-- Rows are read one after the other. -/
theorem Keeps.fills (h : s.Keeps t) {binds : List (RowBinds c)}
    (hbinds : binds.length ≤ t.unread.length) :
    ∃ s' filled, ∃ t' : RowTable Cell c,
      Refinement.run StorageArray.step s (binds.map StorageCall.fillData) =
        some (s', filled.map StorageOutput.columns) ∧
      List.Forall₂ (List.Forall₂ ColumnBind.Holds) filled (t.unread.take binds.length) ∧
      s'.Keeps t' ∧ t'.unread = t.unread.drop binds.length := by
  induction binds generalizing s t with
  | nil => exact ⟨s, [], t, rfl, .nil, h, rfl⟩
  | cons b binds ih =>
    have hmore : t.ended = false := by
      by_contra hended
      have hnone := t.ended_iff.mp (by simpa using hended)
      rw [hnone] at hbinds
      exact Nat.not_succ_le_zero _ hbinds
    have hunread := t.unread_eq_cons hmore
    obtain ⟨s₁, filled, hs₁, hkeeps, hfilled⟩ := h.fillData b
    rw [if_neg (by simp [hmore])] at hfilled
    have htail : t.read.unread = t.rows.drop (t.cur + 1) := by
      rw [t.unread_read, hunread, List.tail_cons]
    have hlength : binds.length ≤ t.read.unread.length := by
      rw [hunread, List.length_cons, List.length_cons] at hbinds
      rw [htail]
      exact Nat.le_of_succ_le_succ hbinds
    obtain ⟨s', filleds, t', hrun, hrest, hkeeps', hdrop⟩ := ih hkeeps hlength
    have hstep : s.step (.fillData b) = some (s₁, .columns filled) :=
      congrArg (Option.map fun p : StorageArray × List ColumnBind =>
        (p.1, StorageOutput.columns p.2)) hs₁
    refine ⟨s', filled :: filleds, t', ?_, ?_, hkeeps', ?_⟩
    · rw [List.map_cons, Refinement.run_cons hstep, hrun]
      rfl
    · rw [hunread, List.length_cons, List.take_succ_cons, ← htail]
      exact .cons hfilled hrest
    · rw [hdrop, hunread, List.length_cons, List.drop_succ_cons, htail]

end StorageArray

/-- The values of a row: columns that a catalog function sets, or a row of the server. -/
inductive RowInput (c : ℕ) where
  | catalog (values : List (Fin c × Cell))
  | server (binds : RowBinds c)

namespace RowInput

variable {c : ℕ} {t : RowTable Cell c}

/-- The calls that store a row. -/
def calls : RowInput c → List (StorageCall c)
  | .catalog values => values.map fun value => .put value.1 value.2
  | .server binds => [.setData binds]

/-- The row. -/
def row : RowInput c → List Cell
  | .catalog values =>
    values.foldl (fun row value => row.set value.1 value.2) (List.replicate c blankCell)
  | .server binds => binds.row

/-- Rows are stored one after the other. -/
def storeRows (first : RowInput c) (rest : List (RowInput c)) : List (StorageCall c) :=
  first.calls ++ rest.flatMap fun input => .nextRow :: input.calls

/-- Columns of the current row are set. -/
theorem after_columns (t : RowTable Cell c) (values : List (Fin c × Cell)) :
    let calls := values.map fun value => StorageCall.put value.1 value.2
    (storageSpec c).Allowed t calls ∧ ((storageSpec c).after t calls).cur = t.cur ∧
      ((storageSpec c).after t calls).rows = t.rows.set t.cur
        (values.foldl (fun row value => row.set value.1 value.2) t.row) := by
  induction values generalizing t with
  | nil => exact ⟨trivial, rfl, (List.set_getElem_self t.cur_lt).symm⟩
  | cons value values ih =>
    obtain ⟨hallowed, hcur, hrows⟩ := ih (t.setCell value.1 value.2)
    have hrow : (t.setCell value.1 value.2).row = t.row.set value.1 value.2 :=
      List.getElem_set_self _
    refine ⟨⟨trivial, hallowed⟩, hcur, hrows.trans ?_⟩
    rw [hrow]
    exact List.set_set ..

/-- A row is stored over a blank one. -/
theorem after_calls (input : RowInput c) (hblank : t.row = List.replicate c blankCell) :
    (storageSpec c).Allowed t input.calls ∧
      ((storageSpec c).after t input.calls).rows = t.rows.set t.cur input.row ∧
      ((storageSpec c).after t input.calls).cur = t.cur := by
  cases input with
  | catalog values =>
    obtain ⟨hallowed, hcur, hrows⟩ := after_columns t values
    exact ⟨hallowed, by rw [row, ← hblank]; exact hrows, hcur⟩
  | server binds =>
    refine ⟨⟨?_, trivial⟩, rfl, rfl⟩
    change none ∉ t.row
    rw [hblank]
    intro hnull
    have hblankCell : none = blankCell := List.eq_of_mem_replicate hnull
    cases hblankCell

/-- One row after the other is stored behind those that are there. -/
theorem after_rest {done : List (List Cell)} {count : ℕ} (h : t.Stored blankCell done count)
    (rest : List (RowInput c)) :
    let calls := rest.flatMap fun input => StorageCall.nextRow :: input.calls
    (storageSpec c).Allowed t calls ∧ ∃ count', ((storageSpec c).after t calls).Stored blankCell
      (done ++ rest.map row) count' ∧ (count = 0 → count' = 0) := by
  induction rest generalizing t done count with
  | nil => exact ⟨trivial, count, by rwa [List.map_nil, List.append_nil], id⟩
  | cons input rest ih =>
    obtain ⟨count₁, hfresh, hzero⟩ := h.next
    obtain ⟨hallowed, hrows, hcur⟩ := input.after_calls hfresh.row
    obtain ⟨hallowed', count', hstored, hzero'⟩ := ih (hfresh.stored hrows hcur)
    simp only [List.flatMap_cons, List.cons_append]
    refine ⟨⟨trivial, ((storageSpec c).allowed_append _ _ _).mpr ⟨hallowed, hallowed'⟩⟩, count', ?_,
      fun h => hzero' (hzero h)⟩
    rw [List.map_cons, List.append_cons]
    change ((storageSpec c).after (t.next blankCell) _).Stored _ _ _
    rw [(storageSpec c).after_append]
    exact hstored

/-- Rows are stored one after the other in a storage that has got its size. One that had a single
row has no other rows behind them. -/
theorem after_storeRows (rnum : ℕ+) (first : RowInput c) (rest : List (RowInput c)) :
    (storageSpec c).Allowed (RowTable.empty blankCell c rnum) (storeRows first rest) ∧
      ∃ count, ((storageSpec c).after (RowTable.empty blankCell c rnum)
        (storeRows first rest)).Stored blankCell ((first :: rest).map row) count ∧
        (rnum = 1 → count = 0) := by
  have hfresh := @RowTable.fresh_empty Cell c blankCell rnum
  obtain ⟨hallowed, hrows, hcur⟩ := first.after_calls hfresh.row
  obtain ⟨hallowed', count, hstored, hzero⟩ := after_rest (hfresh.stored hrows hcur) rest
  rw [storeRows, (storageSpec c).allowed_append, (storageSpec c).after_append]
  refine ⟨⟨hallowed, hallowed'⟩, count, hstored, fun hone => hzero ?_⟩
  rw [hone]
  rfl

end RowInput

/-- What holds of a storage in the state of a table: the current row is one of its rows, no growth
changes a value, `data` hands out the values row by row, and so does `fill_data`, which reaches
the end exactly with the last row. -/
structure StorageArray.Intact {c : ℕ} (s : StorageArray) (t : RowTable Cell c) : Prop where
  curRow_lt : s.curRow < s.rnum
  curRow : s.curRow = t.cur
  rnum : s.rnum = t.rows.length
  cells : s.cells = t.rows.flatten
  setSize : ∀ rnum : ℕ+, s.rnum ≤ rnum → s.cells <+: (s.setSize rnum c).cells
  nextRow : s.cells <+: s.nextRow.2.cells
  data : ∃ s', s.dataPointers = some (s', t.rows.flatten)
  fillData : ∀ binds : List (RowBinds c), binds.length ≤ s.rnum → ∃ s' filled,
    Refinement.run StorageArray.step s.firstRow (binds.map StorageCall.fillData) =
        some (s', filled.map StorageOutput.columns) ∧
      List.Forall₂ (List.Forall₂ ColumnBind.Holds) filled (t.rows.take binds.length) ∧
      (s'.eof = true ↔ binds.length = s.rnum) ∧
      (s'.eof = true → ∀ b : RowBinds c, ∃ s'', s'.fillData b.1 = some (s'', b.1))

theorem StorageArray.Keeps.intact {c : ℕ} {s : StorageArray} {t : RowTable Cell c} (hc : 0 < c)
    (h : s.Keeps t) : s.Intact t where
  curRow_lt := by
    rw [h.curRow, h.rnum]
    exact t.cur_lt
  curRow := h.curRow
  rnum := h.rnum
  cells := h.cells
  setSize := by
    intro rnum hle
    rw [(h.setSize hc rnum).cells, h.cells, RowTable.resize, List.flatten_append,
      List.take_of_length_le (h.rnum ▸ hle)]
    exact List.prefix_append _ _
  nextRow := by
    rw [(h.nextRow hc).cells, h.cells, RowTable.next]
    dsimp only
    split_ifs
    · exact List.prefix_rfl
    · rw [List.flatten_append]
      exact List.prefix_append _ _
  data := by
    obtain ⟨s', hs', -⟩ := h.dataPointers
    exact ⟨s', hs'⟩
  fillData := by
    intro binds hbinds
    have hunread := t.unread_first
    have hlength : binds.length ≤ t.first.unread.length := by rwa [hunread, ← h.rnum]
    obtain ⟨s', filled, t', hrun, hfilled, hkeeps, hdrop⟩ := h.firstRow.fills hlength
    rw [hunread] at hfilled hdrop
    have heof : s'.eof = true ↔ binds.length = s.rnum := by
      rw [hkeeps.eof, t'.ended_iff, hdrop, List.drop_eq_nil_iff, ← h.rnum]
      omega
    refine ⟨s', filled, hrun, hfilled, heof, fun hend b => ?_⟩
    obtain ⟨s'', filled', hs'', -, hsame⟩ := hkeeps.fillData b
    rw [if_pos (hkeeps.eof.symm.trans hend)] at hsame
    exact ⟨s'', hsame ▸ hs''⟩

/-- The buffers of two columns. -/
def twoBinds : RowBinds 2 := ⟨List.replicate 2 ⟨.string, [0x61], 1, 1, false, 1⟩, rfl⟩

/-- Two rows of two columns are stored, and the first is read. -/
def twoRowCalls : List (StorageCall 2) :=
  [.setData twoBinds, .nextRow, .put 0 (some [0x62]), .put 1 none, .firstRow, .fillData twoBinds,
    .data]

end MatrixOdbc.Driver
