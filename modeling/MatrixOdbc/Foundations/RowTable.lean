import MatrixOdbc.Foundations.Buffer
import Mathlib.Data.PNat.Basic

/-!
# A table in one list

The rows of a table have one length, and they are kept one after the other in a single list.
A row, a cell and the size of the table are found in the list by multiples of that length. A
table that is filled and read row by row has a current row, which is one of its rows.
-/

/-- Rows of one length. -/
def List.OfWidth {α : Type*} (width : ℕ) (rows : List (List α)) : Prop :=
  ∀ row ∈ rows, row.length = width

namespace List.OfWidth

variable {α : Type*} {width k i : ℕ} {rows rows' : List (List α)} {row : List α}

theorem append (h : OfWidth width rows) (h' : OfWidth width rows') :
    OfWidth width (rows ++ rows') := by
  intro row hrow
  rcases List.mem_append.mp hrow with hrow | hrow
  · exact h row hrow
  · exact h' row hrow

theorem take (h : OfWidth width rows) (k : ℕ) : OfWidth width (rows.take k) :=
  fun row hrow => h row (List.mem_of_mem_take hrow)

theorem replicate (k width : ℕ) (x : α) :
    OfWidth width (List.replicate k (List.replicate width x)) := by
  intro row hrow
  rw [List.eq_of_mem_replicate hrow, List.length_replicate]

theorem set (h : OfWidth width rows) (k : ℕ) (hrow : row.length = width) :
    OfWidth width (rows.set k row) := by
  intro row' hrow'
  rcases List.mem_or_eq_of_mem_set hrow' with hmem | rfl
  · exact h row' hmem
  · exact hrow

/-- The length of the list in which the rows are kept. -/
theorem length_flatten (h : OfWidth width rows) : rows.flatten.length = rows.length * width := by
  induction rows with
  | nil => simp
  | cons row rows ih =>
    rw [List.flatten_cons, List.length_append, h row List.mem_cons_self,
      ih fun row hrow => h row (List.mem_cons_of_mem _ hrow), List.length_cons, Nat.succ_mul]
    exact Nat.add_comm _ _

/-- The first rows are at the front of the list. -/
theorem flatten_take (h : OfWidth width rows) (k : ℕ) :
    (rows.take k).flatten = rows.flatten.take (k * width) := by
  by_cases hk : k ≤ rows.length
  · have hlength : (rows.take k).flatten.length = k * width := by
      rw [(h.take k).length_flatten, List.length_take, Nat.min_eq_left hk]
    conv_rhs => rw [← List.take_append_drop k rows, List.flatten_append]
    exact (List.take_left' hlength).symm
  · have hlength : rows.flatten.length ≤ k * width := by
      rw [h.length_flatten]
      exact Nat.mul_le_mul_right width (by omega)
    rw [List.take_of_length_le (by omega), List.take_of_length_le hlength]

/-- A row with what is before and behind it. -/
theorem exists_split (h : OfWidth width rows) (hk : k < rows.length) :
    ∃ front behind, (∀ row, rows.set k row = front ++ row :: behind) ∧
      rows.flatten = front.flatten ++ (rows[k] ++ behind.flatten) ∧
      front.flatten.length = k * width ∧ rows[k].length = width := by
  refine ⟨rows.take k, rows.drop (k + 1), ?_, ?_, ?_, h _ (List.getElem_mem hk)⟩
  · intro row
    rw [List.set_eq_take_append_cons_drop, if_pos hk]
  · rw [← List.flatten_cons, List.getElem_cons_drop, ← List.flatten_append, List.take_append_drop]
  · rw [(h.take k).length_flatten, List.length_take, Nat.min_eq_left (Nat.le_of_lt hk)]

/-- A row begins at a multiple of the width. -/
theorem flatten_row (h : OfWidth width rows) (hk : k < rows.length) :
    (rows.flatten.drop (k * width)).take width = rows[k] := by
  obtain ⟨front, behind, -, hflatten, hfront, hwidth⟩ := h.exists_split hk
  rw [hflatten, List.drop_left' hfront, List.take_left' hwidth]

/-- A row is replaced by a store in the list. -/
theorem flatten_set (h : OfWidth width rows) (hk : k < rows.length) (hrow : row.length = width) :
    (rows.set k row).flatten = Buffer.store rows.flatten (k * width) row := by
  obtain ⟨front, behind, hset, hflatten, hfront, hwidth⟩ := h.exists_split hk
  have hbehind : (rows[k] ++ behind.flatten).drop row.length = behind.flatten :=
    List.drop_left' (hwidth.trans hrow.symm)
  rw [hset, hflatten, Buffer.store_append hfront.symm, hbehind, List.flatten_append,
    List.flatten_cons, List.append_assoc]

/-- A cell is replaced in the list. -/
theorem flatten_set_cell (h : OfWidth width rows) (hk : k < rows.length) (hi : i < width) (x : α) :
    (rows.set k (rows[k].set i x)).flatten = rows.flatten.set (k * width + i) x := by
  obtain ⟨front, behind, hset, hflatten, hfront, hwidth⟩ := h.exists_split hk
  rw [hset, hflatten, List.flatten_append, List.flatten_cons, ← hfront,
    List.set_append_right _ _ (by omega), Nat.add_sub_cancel_left,
    List.set_append_left _ _ (by omega)]

end List.OfWidth

/-- A table that is filled and read row by row. -/
structure RowTable (α : Type*) (width : ℕ) where
  rows : List (List α)
  /-- The current row. -/
  cur : ℕ
  /-- There is nothing more to read. -/
  ended : Bool
  ofWidth : rows.OfWidth width
  cur_lt : cur < rows.length

namespace RowTable

variable {α : Type*} {width : ℕ} (blank : α) (t : RowTable α width)

/-- The current row. -/
def row : List α := t.rows.get ⟨t.cur, t.cur_lt⟩

theorem length_row : t.row.length = width := t.ofWidth _ (List.getElem_mem t.cur_lt)

/-- A table of blank cells. -/
def empty (width : ℕ) (count : ℕ+) : RowTable α width where
  rows := List.replicate count (List.replicate width blank)
  cur := 0
  ended := true
  ofWidth := List.OfWidth.replicate _ _ _
  cur_lt := by
    rw [List.length_replicate]
    exact count.pos

/-- The table with another number of rows. The current row is moved back if it is gone. -/
def resize (count : ℕ+) : RowTable α width where
  rows := t.rows.take count ++
    List.replicate (count - t.rows.length) (List.replicate width blank)
  cur := if count ≤ t.cur then count - 1 else t.cur
  ended := t.ended
  ofWidth := (t.ofWidth.take _).append (List.OfWidth.replicate _ _ _)
  cur_lt := by
    have hpos := count.pos
    have hcur := t.cur_lt
    rw [List.length_append, List.length_take, List.length_replicate]
    split_ifs <;> omega

/-- The next row becomes the current one. Unless there are two more rows, a blank one is
added. -/
def next : RowTable α width where
  rows := if t.cur + 2 < t.rows.length then t.rows else t.rows ++ [List.replicate width blank]
  cur := t.cur + 1
  ended := t.ended
  ofWidth := by
    split_ifs
    · exact t.ofWidth
    · exact t.ofWidth.append (List.OfWidth.replicate 1 _ _)
  cur_lt := by
    have hcur := t.cur_lt
    split_ifs
    · omega
    · rw [List.length_append, List.length_singleton]
      omega

/-- Reading begins with the first row. -/
def first : RowTable α width where
  rows := t.rows
  cur := 0
  ended := false
  ofWidth := t.ofWidth
  cur_lt := Nat.zero_lt_of_lt t.cur_lt

/-- A row takes the place of the current one. -/
def setRow (row : List α) (hrow : row.length = width) (ended : Bool) : RowTable α width where
  rows := t.rows.set t.cur row
  cur := t.cur
  ended := ended
  ofWidth := t.ofWidth.set _ hrow
  cur_lt := by
    rw [List.length_set]
    exact t.cur_lt

/-- A cell of the current row is set. -/
def setCell (i : ℕ) (x : α) : RowTable α width :=
  t.setRow (t.row.set i x) (by rw [List.length_set, t.length_row]) t.ended

/-- The current row has been read. -/
def advance : RowTable α width where
  rows := t.rows
  cur := if t.cur + 1 < t.rows.length then t.cur + 1 else t.cur
  ended := decide (t.rows.length ≤ t.cur + 1)
  ofWidth := t.ofWidth
  cur_lt := by
    have hcur := t.cur_lt
    split_ifs <;> omega

/-- A step of reading, unless everything has been read. -/
def read : RowTable α width := if t.ended then t else t.advance

/-- The rows that have not been read. -/
def unread : List (List α) := if t.ended then [] else t.rows.drop t.cur

theorem unread_first : t.first.unread = t.rows := rfl

/-- What is read next is the current row. -/
theorem unread_eq_cons (h : t.ended = false) : t.unread = t.row :: t.rows.drop (t.cur + 1) := by
  rw [unread, h, row]
  exact List.drop_eq_getElem_cons t.cur_lt

/-- The end is reached when there is no row left. -/
theorem ended_iff : t.ended = true ↔ t.unread = [] := by
  cases h : t.ended with
  | true => simp [unread, h]
  | false => simp [t.unread_eq_cons h]

/-- Every step of reading takes one row. -/
theorem unread_read : t.read.unread = t.unread.tail := by
  cases h : t.ended with
  | true => simp [read, unread, h]
  | false =>
    have hread : t.read = t.advance := by simp [read, h]
    rw [t.unread_eq_cons h, hread, List.tail_cons]
    by_cases hlast : t.rows.length ≤ t.cur + 1
    · have hnone : t.rows.drop (t.cur + 1) = [] := List.drop_of_length_le hlast
      rw [hnone]
      exact if_pos (decide_eq_true hlast)
    · have hcur : (if t.cur + 1 < t.rows.length then t.cur + 1 else t.cur) = t.cur + 1 :=
        if_pos (by omega)
      have hmore : t.advance.unread = t.rows.drop t.advance.cur :=
        if_neg (by simpa [advance] using hlast)
      rw [hmore]
      exact congrArg t.rows.drop hcur

/-- The rows up to the current one have been stored, and so many blank ones come behind it. -/
structure Stored (done : List (List α)) (count : ℕ) : Prop where
  rows : t.rows = done ++ List.replicate count (List.replicate width blank)
  cur : t.cur + 1 = done.length

/-- The rows before the current one have been stored. That one is blank, and so are so many behind
it. -/
structure Fresh (done : List (List α)) (count : ℕ) : Prop where
  rows : t.rows = done ++ List.replicate (count + 1) (List.replicate width blank)
  cur : t.cur = done.length

variable {blank t} {done : List (List α)} {count : ℕ}

theorem Fresh.row (h : t.Fresh blank done count) : t.row = List.replicate width blank := by
  have hrow : t.rows[t.cur]? = some (List.replicate width blank) := by
    rw [h.rows, h.cur, List.getElem?_append_right le_rfl, Nat.sub_self, List.replicate_succ]
    rfl
  exact Option.some.inj ((List.getElem?_eq_getElem t.cur_lt).symm.trans hrow)

/-- The current row is stored. -/
theorem Fresh.stored {t' : RowTable α width} {row : List α} (h : t.Fresh blank done count)
    (hrows : t'.rows = t.rows.set t.cur row) (hcur : t'.cur = t.cur) :
    t'.Stored blank (done ++ [row]) count := by
  refine ⟨?_, ?_⟩
  · rw [hrows, h.rows, h.cur, List.set_append_right _ _ le_rfl, Nat.sub_self, List.replicate_succ,
      List.set_cons_zero, List.append_assoc]
    rfl
  · rw [hcur, h.cur, List.length_append, List.length_singleton]

/-- Behind a row that has been stored there is a blank one. -/
theorem Stored.next (h : t.Stored blank done count) :
    ∃ count', (t.next blank).Fresh blank done count' ∧ (count = 0 → count' = 0) := by
  have hlength : t.rows.length = done.length + count := by
    rw [h.rows, List.length_append, List.length_replicate]
  have hcur := h.cur
  by_cases hmore : t.cur + 2 < t.rows.length
  · refine ⟨count - 1, ⟨?_, hcur⟩, by omega⟩
    rw [Nat.sub_add_cancel (by omega), ← h.rows]
    exact if_pos hmore
  · refine ⟨count, ⟨?_, hcur⟩, id⟩
    rw [List.replicate_succ', ← List.append_assoc, ← h.rows]
    exact if_neg hmore

theorem fresh_empty (rows : ℕ+) : (empty blank width rows).Fresh blank [] (rows - 1) := by
  refine ⟨?_, rfl⟩
  rw [Nat.sub_add_cancel rows.pos]
  rfl

end RowTable
