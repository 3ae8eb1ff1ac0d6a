import MatrixOdbc.Driver.ServerRows
import Mathlib.Data.List.Forall2
import Mathlib.Algebra.Order.Ring.Int

/-!
# What the fetches deliver

The rows that are still to come are those left in the row storage, then those that the
library has not handed over. Every fetch delivers the first of them, each value cut to
the buffer of its column where the buffer does not grow.
-/

namespace MatrixOdbc.Driver

/-- What arrives of a value: everything in a column whose buffer grows, else what fits. -/
def received (nativeFloatingPoint : Bool) (field : MysqlField) (cell : Cell) : Cell :=
  let p := allocateBufferForField field nativeFloatingPoint
  cell.bind fun value =>
    if isVarlenType p.1 then some value
    else if p.2 = 0 then none
    else some (value.take p.2)

/-- A value that fits in its column. -/
def Fits (nativeFloatingPoint : Bool) (field : MysqlField) (cell : Cell) : Prop :=
  ∀ value, cell = some value → isVarlenType (allocateBufferForField field nativeFloatingPoint).1 ∨
    0 < (allocateBufferForField field nativeFloatingPoint).2 ∧
      value.length ≤ (allocateBufferForField field nativeFloatingPoint).2

theorem received_eq_iff {native : Bool} {field : MysqlField} {cell : Cell} :
    received native field cell = cell ↔ Fits native field cell := by
  cases cell with
  | none => simp [received, Fits]
  | some value =>
    by_cases hvarlen : isVarlenType (allocateBufferForField field native).1
    · simp [received, Fits, hvarlen]
    · by_cases hzero : (allocateBufferForField field native).2 = 0
      · simp [received, Fits, hvarlen, hzero]
      · simp [received, Fits, hvarlen, hzero, Nat.pos_of_ne_zero hzero]

namespace ColumnBind

variable (lib : ClientLibrary) {native : Bool} {field : MysqlField} {b : ColumnBind} {cell : Cell}

/-- A bound column in the course of a result set. -/
structure Valid (native : Bool) (field : MysqlField) (b : ColumnBind) : Prop where
  bufferType : b.bufferType = (allocateBufferForField field native).1
  bufferLength : b.bufferLength = b.buffer.length
  lengths : b.lengths = 0 ∨ b.lengths = b.buffer.length
  fixed : isVarlenType b.bufferType = false →
    b.buffer.length = (allocateBufferForField field native).2
  growing : isVarlenType b.bufferType = true → 0 < b.buffer.length

/-- The column holds a value as far as its buffer goes. -/
def Holds (b : ColumnBind) : Cell → Prop
  | none => b.isNull = true
  | some value => b.isNull = false ∧ b.length = value.length ∧
      b.buffer.take value.length = value.take b.buffer.length

/-- The buffer of a column that can grow is large enough for a value. -/
def Room (b : ColumnBind) (cell : Cell) : Prop :=
  isVarlenType b.bufferType = true → ∀ value, cell = some value → value.length ≤ b.buffer.length

/-- The column as it is bound first. -/
theorem bindResult_valid (native : Bool) (field : MysqlField) :
    Valid native field (bindResult native field) where
  bufferType := rfl
  bufferLength := by simp [bindResult]
  lengths := .inl rfl
  fixed := by simp [bindResult]
  growing := by
    obtain ⟨type, length⟩ := field
    cases type <;> cases native <;>
      simp [bindResult, allocateBufferForField, isVarlenType] <;> split <;> omega

/-- A fetch leaves the column valid, with the value in it. -/
theorem fetch_spec (h : Valid native field b) (cell : Cell) :
    Valid native field (b.fetch lib cell) ∧ Holds (b.fetch lib cell) cell ∧
      (b.fetch lib cell).buffer.length = b.buffer.length := by
  cases cell with
  | none => exact ⟨⟨h.bufferType, h.bufferLength, h.lengths, h.fixed, h.growing⟩, rfl, rfl⟩
  | some value =>
    have hlength : (b.fetch lib (some value)).buffer.length = b.buffer.length :=
      lib.length_store _ _ _ _
    have hstore := lib.take_store b.bufferType b.buffer b.bufferLength value h.bufferLength.le
    refine ⟨⟨h.bufferType, ?_, ?_, ?_, ?_⟩, ⟨rfl, rfl, ?_⟩, hlength⟩
    · rw [hlength]
      exact h.bufferLength
    · rw [hlength]
      exact h.lengths
    · rw [hlength]
      exact h.fixed
    · rw [hlength]
      exact h.growing
    · rw [hlength, ← h.bufferLength, ← hstore]
      apply List.take_eq_take_iff.2
      have hmemory : (b.fetch lib (some value)).buffer.length = b.bufferLength :=
        hlength.trans h.bufferLength.symm
      omega

/-- The value that the application finds. -/
theorem value_eq_received (h : Valid native field b) (hholds : Holds b cell) (hroom : Room b cell) :
    b.value = received native field cell := by
  cases cell with
  | none =>
    have hnull : b.isNull = true := hholds
    simp [value, received, hnull]
  | some v =>
    obtain ⟨hnull, hlength, htake⟩ := hholds
    by_cases hvarlen : isVarlenType b.bufferType = true
    · have hne : b.buffer ≠ [] := List.ne_nil_of_length_pos (h.growing hvarlen)
      rw [List.take_of_length_le (hroom hvarlen v rfl)] at htake
      rw [h.bufferType] at hvarlen
      simp [value, received, hnull, hne, hlength, htake, hvarlen]
    · have hsize := h.fixed (by simpa using hvarlen)
      rw [h.bufferType] at hvarlen
      by_cases hzero : (allocateBufferForField field native).2 = 0
      · have hnil : b.buffer = [] := List.length_eq_zero_iff.1 (hsize.trans hzero)
        simp [value, received, hnil, hvarlen, hzero]
      · have hne : b.buffer ≠ [] := by
          rintro hnil
          rw [hnil] at hsize
          exact hzero hsize.symm
        simp [value, received, hnull, hne, hlength, htake, hvarlen, hzero, hsize]

/-- A column whose buffer need not grow is unchanged by the second step of a round. -/
theorem bufferLength_lengths (h : Valid native field b) :
    (if 0 < b.lengths then { b with bufferLength := b.lengths } else b) = b := by
  split
  · next hpos =>
    have heq : b.lengths = b.bufferLength := by
      obtain hzero | hlength := h.lengths
      · omega
      · rw [hlength, h.bufferLength]
    cases b
    cases heq
    rfl
  · rfl

/-- A buffer that does not need to grow has room. -/
theorem room_of_not_needsRealloc (h : Valid native field b) (hholds : Holds b cell)
    (hneeds : b.needsRealloc = false) : Room b cell := by
  rintro hvarlen value rfl
  obtain ⟨hnull, hlength, -⟩ := hholds
  simp only [needsRealloc, hnull, hvarlen, Bool.not_false, Bool.true_and, decide_eq_false_iff_not,
    hlength, h.bufferLength] at hneeds
  exact Nat.le_of_not_lt hneeds

/-- A reallocated column is valid again, with the length of the value as its size. -/
theorem reallocBuffer_valid (h : Valid native field b) (hneeds : b.needsRealloc = true) :
    Valid native field b.reallocBuffer ∧ b.reallocBuffer.buffer.length = b.length ∧
      b.buffer.length < b.length ∧ b.isNull = false := by
  simp only [needsRealloc, Bool.and_eq_true, Bool.not_eq_true', decide_eq_true_eq] at hneeds
  obtain ⟨⟨hnull, hvarlen⟩, hlt⟩ := hneeds
  rw [h.bufferLength] at hlt
  have hsize : b.reallocBuffer.buffer.length = b.length := by
    simp only [reallocBuffer, List.length_append, List.length_take, List.length_replicate]
    omega
  refine ⟨⟨h.bufferType, hsize.symm, .inr hsize.symm, fun hfixed => ?_, fun _ => ?_⟩, hsize, hlt,
    hnull⟩
  · rw [show b.reallocBuffer.bufferType = b.bufferType from rfl, hvarlen] at hfixed
    contradiction
  · rw [hsize]
    omega

/-- A round of `fetch_varlength_columns` makes room. -/
theorem varlength_spec (h : Valid native field b) (hholds : Holds b cell) (reallocated : Bool) :
    Valid native field (b.varlength lib reallocated cell).2 ∧
      Holds (b.varlength lib reallocated cell).2 cell ∧
      Room (b.varlength lib reallocated cell).2 cell ∧
      b.buffer.length ≤ (b.varlength lib reallocated cell).2.buffer.length := by
  cases hneeds : b.needsRealloc with
  | true =>
    obtain ⟨hvalid, hsize, hlt, hnull⟩ := reallocBuffer_valid h hneeds
    have heq : (b.varlength lib reallocated cell).2 = b.reallocBuffer.fetch lib cell := by
      simp [varlength, hneeds, bufferLength_lengths hvalid]
    obtain ⟨hvalid', hholds', hsize'⟩ := fetch_spec lib hvalid cell
    rw [heq]
    refine ⟨hvalid', hholds', fun _ value hvalue => ?_, by omega⟩
    rw [hvalue] at hholds
    rw [hsize', hsize]
    exact hholds.2.1.ge
  | false =>
    have hroom := room_of_not_needsRealloc h hholds hneeds
    obtain ⟨hvalid', hholds', hsize'⟩ := fetch_spec lib h cell
    have heq : (b.varlength lib reallocated cell).2 =
        if reallocated then b.fetch lib cell else b := by
      simp [varlength, hneeds, bufferLength_lengths h]
    rw [heq]
    cases reallocated with
    | false => exact ⟨h, hholds, hroom, le_rfl⟩
    | true =>
      refine ⟨hvalid', hholds', fun hvarlen value hvalue => ?_, hsize'.ge⟩
      have htype : (b.fetch lib cell).bufferType = b.bufferType := by cases cell <;> rfl
      rw [if_pos rfl, htype] at hvarlen
      rw [if_pos rfl, hsize']
      exact hroom hvarlen value hvalue

/-- A column after a step that may have enlarged its buffer. -/
def Grows (b b' : ColumnBind) : Prop :=
  b'.bufferType = b.bufferType ∧ b.buffer.length ≤ b'.buffer.length

theorem Room.mono {b' : ColumnBind} (h : Room b cell) (hgrows : Grows b b') : Room b' cell := by
  intro hvarlen value hvalue
  rw [hgrows.1] at hvarlen
  exact (h hvarlen value hvalue).trans hgrows.2

/-- A cell of the storage keeps a value as far as it was received. -/
def Stored (native : Bool) (field : MysqlField) (x : XString) : Cell → Prop
  | none => x.isNull = true
  | some value =>
    let p := allocateBufferForField field native
    if isVarlenType p.1 then x.isNull = false ∧ x.data = value
    else if p.2 = 0 then x.isNull = true
    else x.isNull = false ∧ x.data.length = value.length ∧ x.data.take p.2 = value.take p.2

theorem stored_growing {x : XString} {value : List UInt8}
    (h : isVarlenType (allocateBufferForField field native).1 = true) :
    Stored native field x (some value) ↔ x.isNull = false ∧ x.data = value := by
  simp [Stored, h]

theorem stored_unbuffered {x : XString} {value : List UInt8}
    (h : isVarlenType (allocateBufferForField field native).1 ≠ true)
    (hsize : (allocateBufferForField field native).2 = 0) :
    Stored native field x (some value) ↔ x.isNull = true := by
  simp [Stored, h, hsize]

theorem stored_fixed {x : XString} {value : List UInt8}
    (h : isVarlenType (allocateBufferForField field native).1 ≠ true)
    (hsize : (allocateBufferForField field native).2 ≠ 0) :
    Stored native field x (some value) ↔ x.isNull = false ∧ x.data.length = value.length ∧
      x.data.take (allocateBufferForField field native).2 =
        value.take (allocateBufferForField field native).2 := by
  simp [Stored, h, hsize]

/-- A row is copied into cells that are not marked as `NULL`. -/
theorem setCell_stored {x : XString} (hx : x.isNull = false) (h : Valid native field b)
    (hholds : Holds b cell) (hroom : Room b cell) :
    Stored native field (RowStorage.setCell x b) cell := by
  cases cell with
  | none =>
    have hnull : b.isNull = true := hholds
    simp [Stored, RowStorage.setCell, hnull]
  | some v =>
    obtain ⟨hnull, hlength, htake⟩ := hholds
    by_cases hvarlen : isVarlenType b.bufferType = true
    · have hne : b.buffer ≠ [] := List.ne_nil_of_length_pos (h.growing hvarlen)
      have hle := hroom hvarlen v rfl
      rw [List.take_of_length_le hle] at htake
      have hpad : v.length - b.buffer.length = 0 := by omega
      rw [stored_growing (h.bufferType ▸ hvarlen)]
      simp [RowStorage.setCell, hnull, hne, hlength, htake, hpad, hx]
    · have hsize := h.fixed (by simpa using hvarlen)
      rw [h.bufferType] at hvarlen
      by_cases hzero : (allocateBufferForField field native).2 = 0
      · have hnil : b.buffer = [] := List.length_eq_zero_iff.1 (hsize.trans hzero)
        rw [stored_unbuffered hvarlen hzero]
        simp [RowStorage.setCell, hnil]
      · have hne : b.buffer ≠ [] := by
          rintro hnil
          rw [hnil] at hsize
          exact hzero hsize.symm
        have hcell : RowStorage.setCell x b = ⟨v.take b.buffer.length ++
            List.replicate (v.length - b.buffer.length) 0, false⟩ := by
          simp [RowStorage.setCell, hnull, hne, hlength, htake, hx]
        rw [stored_fixed hvarlen hzero, hcell, ← hsize]
        refine ⟨rfl, ?_, ?_⟩
        · simp only [List.length_append, List.length_take, List.length_replicate]
          omega
        · by_cases hle : v.length ≤ b.buffer.length
          · have hpad : v.length - b.buffer.length = 0 := by omega
            simp [hpad]
          · exact List.take_left' (by rw [List.length_take]; omega)

/-- What is copied back fills the buffer from the front. -/
theorem fillCell_buffer {x : XString} (hx : x.isNull = false) :
    (RowStorage.fillCell b x).buffer.length = b.buffer.length ∧
      (RowStorage.fillCell b x).buffer.take x.data.length = x.data.take b.buffer.length := by
  obtain ⟨tail, htail⟩ : ∃ tail, (RowStorage.fillCell b x).buffer =
      (x.data ++ tail).take b.buffer.length ∧ b.buffer.length ≤ (x.data ++ tail).length := by
    refine ⟨(if x.data.length < b.bufferLength then [0] else []) ++ b.buffer.drop
      (x.data ++ if x.data.length < b.bufferLength then [0] else []).length, ?_, ?_⟩
    · simp [RowStorage.fillCell, hx, Buffer.store_zero]
    · simp only [List.length_append, List.length_drop]
      omega
  rw [htail.1]
  constructor
  · rw [List.length_take]
    omega
  · rw [List.take_take, Nat.min_comm, ← List.take_take, List.take_left]

/-- A cell of the storage is copied back into the buffer. -/
theorem fillCell_spec {x : XString} (h : Valid native field b) (hstored : Stored native field x cell)
    (hroom : Room b cell) :
    Valid native field (RowStorage.fillCell b x) ∧
      (RowStorage.fillCell b x).value = received native field cell ∧
      (RowStorage.fillCell b x).needsRealloc = false ∧
      (RowStorage.fillCell b x).bufferType = b.bufferType ∧
      (RowStorage.fillCell b x).buffer.length = b.buffer.length := by
  cases hx : x.isNull with
  | true =>
    have hnone : received native field cell = none := by
      cases cell with
      | none => rfl
      | some v =>
        by_cases hvarlen : isVarlenType (allocateBufferForField field native).1 = true
        · rw [stored_growing hvarlen, hx] at hstored
          exact absurd hstored.1 (by decide)
        · by_cases hzero : (allocateBufferForField field native).2 = 0
          · simp [received, hvarlen, hzero]
          · rw [stored_fixed hvarlen hzero, hx] at hstored
            exact absurd hstored.1 (by decide)
    have hcell : RowStorage.fillCell b x = { b with isNull := true, length := 2 ^ 64 - 1 } := by
      simp [RowStorage.fillCell, hx]
    rw [hcell, hnone]
    exact ⟨⟨h.bufferType, h.bufferLength, h.lengths, h.fixed, h.growing⟩, by simp [value],
      by simp [needsRealloc], rfl, rfl⟩
  | false =>
    obtain ⟨hsize, htake⟩ := fillCell_buffer (b := b) hx
    have hcell : RowStorage.fillCell b x = { b with
        isNull := false, length := x.data.length, buffer := (RowStorage.fillCell b x).buffer } := by
      simp [RowStorage.fillCell, hx]
    have hvalid : Valid native field (RowStorage.fillCell b x) := by
      rw [hcell]
      refine ⟨h.bufferType, ?_, ?_, ?_, ?_⟩ <;> rw [hsize]
      · exact h.bufferLength
      · exact h.lengths
      · exact h.fixed
      · exact h.growing
    have htype : (RowStorage.fillCell b x).bufferType = b.bufferType := by rw [hcell]
    have hisNull : (RowStorage.fillCell b x).isNull = false := by rw [hcell]
    have hlength : (RowStorage.fillCell b x).length = x.data.length := by rw [hcell]
    have hholds : Holds (RowStorage.fillCell b x) cell := by
      cases cell with
      | none => exact absurd (hx.symm.trans hstored) (by decide)
      | some v =>
        by_cases hvarlen : isVarlenType (allocateBufferForField field native).1 = true
        · obtain ⟨-, rfl⟩ := (stored_growing hvarlen).1 hstored
          exact ⟨hisNull, hlength, by rw [htake, hsize]⟩
        · by_cases hzero : (allocateBufferForField field native).2 = 0
          · exact absurd (hx.symm.trans ((stored_unbuffered hvarlen hzero).1 hstored)) (by decide)
          · obtain ⟨-, hdata, hprefix⟩ := (stored_fixed hvarlen hzero).1 hstored
            rw [← h.bufferType] at hvarlen
            rw [← h.fixed (by simpa using hvarlen)] at hprefix
            exact ⟨hisNull, hlength.trans hdata, by rw [← hdata, htake, hprefix, hsize]⟩
    have hroom' : Room (RowStorage.fillCell b x) cell := hroom.mono ⟨htype, hsize.ge⟩
    refine ⟨hvalid, value_eq_received hvalid hholds hroom', ?_, htype, hsize⟩
    cases cell with
    | none => exact absurd (hx.symm.trans hstored) (by decide)
    | some v =>
      by_cases hvarlen : isVarlenType (RowStorage.fillCell b x).bufferType = true
      · have hle := hroom' hvarlen v rfl
        rw [← hvalid.bufferLength, ← hholds.2.1] at hle
        simp [needsRealloc, hle]
      · simp [needsRealloc, hvarlen]

end ColumnBind

namespace SspsStmt

open ColumnBind

variable (lib : ClientLibrary) {native : Bool} {fields : List MysqlField} {row : List Cell}
  {binds : List ColumnBind} {s : SspsStmt}

/-- The bound columns of a result set. -/
def ValidBinds (native : Bool) (fields : List MysqlField) (binds : List ColumnBind) : Prop :=
  List.Forall₂ (Valid native) fields binds

/-- Every buffer that grows has room for the row. -/
def RoomFor (row : List Cell) (binds : List ColumnBind) : Prop :=
  List.Forall₂ (fun cell b => Room b cell) row binds

/-- The columns hold a row. -/
def HoldsRow (row : List Cell) (binds : List ColumnBind) : Prop :=
  List.Forall₂ (fun cell b => Holds b cell) row binds

/-- The cells of the storage keep a row. -/
def StoredRow (native : Bool) (fields : List MysqlField) (row : List Cell) (cells : List XString) :
    Prop :=
  List.Forall₂ (fun p x => Stored native p.1 x p.2) (fields.zip row) cells

/-- What arrives of a row. -/
def receivedRow (native : Bool) (fields : List MysqlField) (row : List Cell) : List Cell :=
  List.zipWith (received native) fields row

/-- Buffers only grow. -/
def GrownBinds (binds binds' : List ColumnBind) : Prop := List.Forall₂ Grows binds binds'

theorem RoomFor.mono {binds' : List ColumnBind} (h : RoomFor row binds)
    (hgrown : GrownBinds binds binds') : RoomFor row binds' := by
  induction h generalizing binds' with
  | nil =>
    cases hgrown
    exact .nil
  | cons hroom hrest ih =>
    cases hgrown with
    | cons hgrows hgrown => exact .cons (hroom.mono hgrows) (ih hgrown)

theorem GrownBinds.trans {binds' binds'' : List ColumnBind} (h : GrownBinds binds binds')
    (h' : GrownBinds binds' binds'') : GrownBinds binds binds'' := by
  induction h generalizing binds'' with
  | nil =>
    cases h'
    exact .nil
  | cons hgrows hrest ih =>
    cases h' with
    | cons hgrows' hrest' =>
      exact .cons ⟨hgrows'.1.trans hgrows.1, hgrows.2.trans hgrows'.2⟩ (ih hrest')

/-- Where no type grows there is nothing to make room for. -/
theorem roomFor_of_fixed (hholds : HoldsRow row binds)
    (hfixed : ∀ b ∈ binds, isVarlenType b.bufferType = false) : RoomFor row binds := by
  induction hholds with
  | nil => exact .nil
  | @cons cell b row binds hcell hrest ih =>
    refine .cons (fun hvarlen => ?_) (ih fun b hb => hfixed b (List.mem_cons_of_mem _ hb))
    rw [hfixed b List.mem_cons_self] at hvarlen
    contradiction

/-- `mysql_stmt_fetch` on all columns. -/
theorem fetch_row_spec (hvalid : ValidBinds native fields binds) (hlength : row.length = fields.length) :
    ValidBinds native fields (List.zipWith (ColumnBind.fetch lib) binds row) ∧
      HoldsRow row (List.zipWith (ColumnBind.fetch lib) binds row) ∧
      GrownBinds binds (List.zipWith (ColumnBind.fetch lib) binds row) := by
  induction hvalid generalizing row with
  | nil =>
    obtain rfl := List.length_eq_zero_iff.1 hlength
    exact ⟨.nil, .nil, .nil⟩
  | @cons field b fields binds h hrest ih =>
    match row, hlength with
    | cell :: row, hlength =>
      obtain ⟨hvalid, hholds, hsize⟩ := fetch_spec lib h cell
      obtain ⟨hvalids, hholdss, hgrown⟩ := ih (Nat.succ.inj hlength)
      have htype : (b.fetch lib cell).bufferType = b.bufferType := by cases cell <;> rfl
      exact ⟨.cons hvalid hvalids, .cons hholds hholdss, .cons ⟨htype, hsize.ge⟩ hgrown⟩

/-- `fetch_varlength_columns` makes room for the row in all columns. -/
theorem fetchVarlengthColumns_spec (hvalid : ValidBinds native fields binds)
    (hholds : HoldsRow row binds) (reallocated : Bool) :
    ValidBinds native fields (fetchVarlengthColumns lib reallocated binds row) ∧
      HoldsRow row (fetchVarlengthColumns lib reallocated binds row) ∧
      RoomFor row (fetchVarlengthColumns lib reallocated binds row) ∧
      GrownBinds binds (fetchVarlengthColumns lib reallocated binds row) := by
  induction hvalid generalizing row reallocated with
  | nil =>
    cases hholds
    exact ⟨.nil, .nil, .nil, .nil⟩
  | @cons field b fields binds h hrest ih =>
    cases hholds with
    | @cons cell _ row _ hcell hcells =>
      obtain ⟨hvalid', hholds', hroom', hgrows⟩ := varlength_spec lib h hcell reallocated
      obtain ⟨hvalids, hholdss, hrooms, hgrown⟩ := ih hcells (b.varlength lib reallocated cell).1
      have htype : (b.varlength lib reallocated cell).2.bufferType = b.bufferType := by
        rw [hvalid'.bufferType, h.bufferType]
      exact ⟨.cons hvalid' hvalids, .cons hholds' hholdss, .cons hroom' hrooms,
        .cons ⟨htype, hgrows⟩ hgrown⟩

/-- Where no column needs to grow the row is left alone. -/
theorem fetchVarlengthColumns_of_room (hvalid : ValidBinds native fields binds)
    (hneeds : ∀ b ∈ binds, b.needsRealloc = false) (row : List Cell) :
    fetchVarlengthColumns lib false binds row = binds := by
  induction hvalid generalizing row with
  | nil => cases row <;> rfl
  | @cons field b fields binds h hrest ih =>
    cases row with
    | nil => rfl
    | cons cell row =>
      have hround : b.varlength lib false cell = (false, b) := by
        simp [varlength, hneeds b List.mem_cons_self, bufferLength_lengths h]
      rw [fetchVarlengthColumns, hround, ih fun b hb => hneeds b (List.mem_cons_of_mem _ hb)]

/-- The columns after a row has come from the library. -/
theorem fixFields_fetch_spec (hvalid : ValidBinds native fields binds)
    (hlength : row.length = fields.length) :
    ValidBinds native fields (fixFields lib (List.zipWith (ColumnBind.fetch lib) binds row) row) ∧
      HoldsRow row (fixFields lib (List.zipWith (ColumnBind.fetch lib) binds row) row) ∧
      RoomFor row (fixFields lib (List.zipWith (ColumnBind.fetch lib) binds row) row) ∧
      GrownBinds binds (fixFields lib (List.zipWith (ColumnBind.fetch lib) binds row) row) := by
  obtain ⟨hvalid', hholds, hgrown⟩ := fetch_row_spec lib hvalid hlength
  unfold fixFields
  split
  · obtain ⟨hvalids, hholdss, hrooms, hgrown'⟩ :=
      fetchVarlengthColumns_spec lib hvalid' hholds false
    exact ⟨hvalids, hholdss, hrooms, hgrown.trans hgrown'⟩
  · next hnone =>
    refine ⟨hvalid', hholds, roomFor_of_fixed hholds fun b hb => ?_, hgrown⟩
    simp only [List.any_eq_true, not_exists, not_and, Bool.not_eq_true] at hnone
    exact hnone b hb

/-- What the application finds when the columns hold a row. -/
theorem map_value_eq_receivedRow (hvalid : ValidBinds native fields binds)
    (hholds : HoldsRow row binds) (hroom : RoomFor row binds) :
    binds.map ColumnBind.value = receivedRow native fields row := by
  induction hvalid generalizing row with
  | nil =>
    cases hholds
    rfl
  | cons h hrest ih =>
    cases hholds with
    | cons hcell hcells =>
      cases hroom with
      | cons hroom hrooms =>
        rw [List.map_cons, value_eq_received h hcell hroom, ih hcells hrooms]
        rfl

/-- A row is copied into new cells. -/
theorem setCells_storedRow (hvalid : ValidBinds native fields binds) (hholds : HoldsRow row binds)
    (hroom : RoomFor row binds) :
    StoredRow native fields row
      (List.zipWith RowStorage.setCell (List.replicate binds.length ⟨[], false⟩) binds) := by
  induction hvalid generalizing row with
  | nil =>
    cases hholds
    exact .nil
  | cons h hrest ih =>
    cases hholds with
    | cons hcell hcells =>
      cases hroom with
      | cons hroom hrooms => exact .cons (setCell_stored rfl h hcell hroom) (ih hcells hrooms)

/-- A stored row is copied back. -/
theorem fillCells_spec {cells : List XString} (hvalid : ValidBinds native fields binds)
    (hlength : row.length = fields.length) (hstored : StoredRow native fields row cells)
    (hroom : RoomFor row binds) :
    ValidBinds native fields (List.zipWith RowStorage.fillCell binds cells) ∧
      (List.zipWith RowStorage.fillCell binds cells).map ColumnBind.value =
        receivedRow native fields row ∧
      (∀ b ∈ List.zipWith RowStorage.fillCell binds cells, b.needsRealloc = false) ∧
      GrownBinds binds (List.zipWith RowStorage.fillCell binds cells) := by
  induction hvalid generalizing row cells with
  | nil =>
    obtain rfl := List.length_eq_zero_iff.1 hlength
    exact ⟨.nil, rfl, by simp, .nil⟩
  | @cons field b fields binds h hrest ih =>
    match row, hlength with
    | cell :: row, hlength =>
      cases hstored with
      | @cons _ x _ cells hcell hcells =>
        cases hroom with
        | cons hroom hrooms =>
          obtain ⟨hvalid, hvalue, hneeds, htype, hsize⟩ := fillCell_spec h hcell hroom
          obtain ⟨hvalids, hvalues, hneedss, hgrown⟩ := ih (Nat.succ.inj hlength) hcells hrooms
          refine ⟨.cons hvalid hvalids, ?_, ?_, .cons ⟨htype, hsize.ge⟩ hgrown⟩
          · rw [List.zipWith_cons_cons, List.map_cons, hvalue, hvalues]
            rfl
          · rw [List.zipWith_cons_cons, List.forall_mem_cons]
            exact ⟨hneeds, hneedss⟩

/-- The rows of the row storage from the current one on. -/
structure Keeps (native : Bool) (fields : List MysqlField) (storage : RowStorage)
    (binds : List ColumnBind) (rows : List (List Cell)) : Prop where
  eof : storage.eof = false
  cnum : storage.cnum = fields.length
  nonempty : rows ≠ []
  rnum : storage.rnum = storage.curRow + rows.length
  data : ∃ cells : List (List XString),
    storage.data.drop (storage.curRow * storage.cnum) = cells.flatten ∧
      List.Forall₂ (StoredRow native fields) rows cells
  room : ∀ row ∈ rows, RoomFor row binds

/-- The rows that the fetches are still to deliver. -/
structure Upcoming (native : Bool) (fields : List MysqlField) (s : SspsStmt)
    (rows : List (List Cell)) : Prop where
  valid : ValidBinds native fields s.resultBind
  lengths : ∀ row ∈ rows, row.length = fields.length
  rows : (s.rowStorage.eof = true ∧ s.pending = rows) ∨
    ∃ kept, Keeps native fields s.rowStorage s.resultBind kept ∧ rows = kept ++ s.pending

/-- A row from the library. -/
theorem fetchRow_pending (readUnbuffered : Bool) (hread : readUnbuffered || s.rowStorage.eof)
    (hvalid : ValidBinds native fields s.resultBind) (hlength : row.length = fields.length)
    {pending : List (List Cell)} (hpending : s.pending = row :: pending) :
    ∃ binds, ValidBinds native fields binds ∧ HoldsRow row binds ∧ RoomFor row binds ∧
      GrownBinds s.resultBind binds ∧ s.fetchRow lib readUnbuffered =
        (some (receivedRow native fields row),
          { s with resultBind := binds, current := row, pending := pending }) := by
  obtain ⟨hvalid', hholds, hroom, hgrown⟩ := fixFields_fetch_spec lib hvalid hlength
  refine ⟨_, hvalid', hholds, hroom, hgrown, ?_⟩
  rw [fetchRow, if_pos hread, hpending, ← map_value_eq_receivedRow hvalid' hholds hroom]

/-- A row from the row storage. -/
theorem fetchRow_kept {kept : List (List Cell)} (hvalid : ValidBinds native fields s.resultBind)
    (hlength : row.length = fields.length)
    (hkeeps : Keeps native fields s.rowStorage s.resultBind (row :: kept)) :
    ∃ binds storage, ValidBinds native fields binds ∧ s.fetchRow lib false =
        (some (receivedRow native fields row),
          { s with resultBind := binds, rowStorage := storage }) ∧
      ((storage.eof = true ∧ kept = []) ∨ Keeps native fields storage binds kept) := by
  obtain ⟨heof, hcnum, -, hrnum, ⟨cells, hdata, hcells⟩, hroom⟩ := hkeeps
  cases hcells with
  | @cons _ cells₀ _ rest hstored hrest =>
  rw [List.length_cons] at hrnum
  have hcount : cells₀.length = s.rowStorage.cnum := by
    rw [← hstored.length_eq, List.length_zip, hlength, Nat.min_self, hcnum]
  have hcurrent : s.rowStorage.currentCells = cells₀ := by
    rw [RowStorage.currentCells, hdata, List.flatten_cons, ← hcount, List.take_left]
  obtain ⟨hvalid', hvalue, hneeds, hgrown⟩ :=
    fillCells_spec hvalid hlength hstored (hroom row List.mem_cons_self)
  have hfix : fixFields lib (List.zipWith RowStorage.fillCell s.resultBind cells₀) s.current =
      List.zipWith RowStorage.fillCell s.resultBind cells₀ := by
    unfold fixFields
    split
    · exact fetchVarlengthColumns_of_room lib hvalid' hneeds s.current
    · rfl
  have hfill : s.rowStorage.fillData s.resultBind =
      (List.zipWith RowStorage.fillCell s.resultBind cells₀, { s.rowStorage with
        eof := decide (kept = [])
        curRow := if kept = [] then s.rowStorage.curRow else s.rowStorage.curRow + 1 }) := by
    have hlast : (s.rowStorage.rnum ≤ s.rowStorage.curRow + 1) ↔ kept = [] := by
      rw [← List.length_eq_zero_iff]
      omega
    have hinside : ¬s.rowStorage.rnum ≤ s.rowStorage.curRow := by omega
    simp [RowStorage.fillData, heof, hinside, hcurrent, hlast]
  refine ⟨_, { s.rowStorage with
    eof := decide (kept = [])
    curRow := if kept = [] then s.rowStorage.curRow else s.rowStorage.curRow + 1 }, hvalid', ?_, ?_⟩
  · rw [fetchRow, heof, if_neg (by decide), hfill]
    simp only
    rw [hfix, hvalue]
  · by_cases hkept : kept = []
    · exact .inl ⟨by simp [hkept], hkept⟩
    · refine .inr ⟨by simp [hkept], hcnum, hkept, ?_, ⟨rest, ?_, hrest⟩, fun row' hrow' =>
        (hroom row' (List.mem_cons_of_mem _ hrow')).mono hgrown⟩
      · simp only [hkept, if_false]
        omega
      · simp only [hkept, if_false]
        rw [Nat.succ_mul, ← List.drop_drop, hdata, List.flatten_cons, ← hcount, List.drop_left]

/-- A fetch delivers the first of the rows to come and leaves the others. -/
theorem fetchRow_spec {rows : List (List Cell)} (h : Upcoming native fields s rows) :
    (s.fetchRow lib false).1 = rows.head?.map (receivedRow native fields) ∧
      Upcoming native fields (s.fetchRow lib false).2 rows.tail := by
  obtain ⟨hvalid, hlengths, hrows⟩ := h
  have htail : ∀ row ∈ rows.tail, row.length = fields.length :=
    fun row hrow => hlengths row (List.mem_of_mem_tail hrow)
  obtain ⟨heof, hpending⟩ | ⟨kept, hkeeps, hrows⟩ := hrows
  · cases rows with
    | nil =>
      have hfetch : s.fetchRow lib false = (none, s) := by simp [fetchRow, heof, hpending]
      rw [hfetch]
      exact ⟨rfl, hvalid, htail, .inl ⟨heof, hpending⟩⟩
    | cons row rows =>
      obtain ⟨binds, hvalid', -, -, -, hfetch⟩ := fetchRow_pending lib false (by simp [heof])
        hvalid (hlengths row List.mem_cons_self) hpending
      rw [hfetch]
      exact ⟨rfl, hvalid', htail, .inl ⟨heof, rfl⟩⟩
  · cases kept with
    | nil => exact absurd rfl hkeeps.nonempty
    | cons row kept =>
      subst hrows
      obtain ⟨binds, storage, hvalid', hfetch, hstorage⟩ :=
        fetchRow_kept lib hvalid (hlengths row List.mem_cons_self) hkeeps
      rw [hfetch]
      refine ⟨rfl, hvalid', htail, ?_⟩
      obtain ⟨heof, rfl⟩ | hkeeps' := hstorage
      · exact .inl ⟨heof, rfl⟩
      · exact .inr ⟨kept, hkeeps', rfl⟩

/-- Fetches one after another deliver the rows to come in their order, and nothing after
the last one. -/
theorem fetchRows_spec {rows : List (List Cell)} (n : ℕ) (h : Upcoming native fields s rows) :
    (fetchRows lib n s).1 =
      (List.range n).map fun i => (rows[i]?).map (receivedRow native fields) := by
  induction n generalizing s rows with
  | zero => rfl
  | succ n ih =>
    obtain ⟨hrow, hrest⟩ := fetchRow_spec lib h
    rw [fetchRows, List.range_succ_eq_map, List.map_cons, List.map_map, hrow, ih hrest]
    cases rows <;> simp [Function.comp_def]

theorem ValidBinds.length_eq (h : ValidBinds native fields binds) : binds.length = fields.length :=
  (List.Forall₂.length_eq h).symm

theorem StoredRow.length_eq {cells : List XString} (h : StoredRow native fields row cells)
    (hlength : row.length = fields.length) : cells.length = fields.length := by
  rw [← List.Forall₂.length_eq h, List.length_zip, hlength, Nat.min_self]

/-- A storage without cells gets room for one row. -/
theorem setSize_first {storage : RowStorage} (hdata : storage.data = []) (hcur : storage.curRow = 0)
    (c : ℕ) : storage.setSize 1 c = ⟨1, c, 0, storage.eof, List.replicate c ⟨[], false⟩⟩ := by
  cases c with
  | zero => simp [RowStorage.setSize]
  | succ c => simp [RowStorage.setSize, hdata, hcur]

/-- A storage with one row gets room for a second one. -/
theorem nextRow_second (cells : List XString) (eof : Bool) :
    ∃ cur, RowStorage.nextRow ⟨1, cells.length, 0, eof, cells⟩ =
        ⟨2, cells.length, cur, eof, cells ++ List.replicate cells.length ⟨[], false⟩⟩ ∧
      cur * cells.length = cells.length := by
  cases cells with
  | nil => exact ⟨0, by simp [RowStorage.nextRow, RowStorage.setSize]⟩
  | cons x cells =>
    refine ⟨1, ?_, Nat.one_mul _⟩
    have hdouble : 2 * (cells.length + 1) - (cells.length + 1) = cells.length + 1 := by omega
    have hall : cells.length + 1 ≤ 2 * (cells.length + 1) := by omega
    have htake : (x :: cells).take (2 * (cells.length + 1)) = x :: cells :=
      List.take_of_length_le hall
    simp [RowStorage.nextRow, RowStorage.setSize, htake, hdouble]

/-- The row storage after the first row has been copied into it. -/
theorem setData_first {storage : RowStorage} (hdata : storage.data = []) (hcur : storage.curRow = 0)
    (hvalid : ValidBinds native fields binds) (hholds : HoldsRow row binds)
    (hroom : RoomFor row binds) :
    ∃ cells eof, StoredRow native fields row cells ∧
      (storage.setSize 1 binds.length).setData binds = ⟨1, fields.length, 0, eof, cells⟩ := by
  refine ⟨_, storage.eof && fields.length == 0, setCells_storedRow hvalid hholds hroom, ?_⟩
  have hcurrent : (storage.setSize 1 binds.length).currentCells =
      List.replicate binds.length ⟨[], false⟩ := by
    simp [setSize_first hdata hcur, RowStorage.currentCells]
  rw [RowStorage.setData, hcurrent, setSize_first hdata hcur, Nat.zero_mul, Buffer.store_zero]
  simp [hvalid.length_eq]

/-- The row storage after a second row has been copied into it. -/
theorem setData_second {cells : List XString} (eof : Bool) (hcells : cells.length = fields.length)
    (hvalid : ValidBinds native fields binds) (hholds : HoldsRow row binds)
    (hroom : RoomFor row binds) :
    ∃ cells' eof' cur, StoredRow native fields row cells' ∧
      (RowStorage.nextRow ⟨1, fields.length, 0, eof, cells⟩).setData binds =
        ⟨2, fields.length, cur, eof', cells ++ cells'⟩ := by
  obtain ⟨cur, hnext, hoffset⟩ := nextRow_second cells eof
  refine ⟨_, eof && fields.length == 0, cur, setCells_storedRow hvalid hholds hroom, ?_⟩
  have hbinds : binds.length = cells.length := hvalid.length_eq.trans hcells.symm
  rw [← hcells, hnext, RowStorage.setData, hoffset, RowStorage.currentCells, hoffset, List.drop_left,
    Buffer.store_append rfl, hbinds]
  simp [hbinds]

/-- What is to come when a result set has become the current one: all its rows. -/
theorem startResult_upcoming (forwardCache : Bool) (result : ServerResult) (s : SspsStmt) :
    Upcoming native result.fields (startResult lib native forwardCache result s) result.rows := by
  have hvalid : ValidBinds native result.fields
      (result.fields.map (ColumnBind.bindResult native)) := by
    rw [ValidBinds, List.forall₂_map_right_iff]
    exact List.forall₂_same.2 fun field _ => bindResult_valid native field
  have hlengths := result.length_rows
  have heof : s.rowStorage.invalidate.eof = true := by simp [RowStorage.invalidate, RowStorage.setSize]
  have hdata : s.rowStorage.invalidate.data = [] := by
    simp [RowStorage.invalidate, RowStorage.setSize]
  have hcur : s.rowStorage.invalidate.curRow = 0 := by
    simp [RowStorage.invalidate, RowStorage.setSize]
  unfold startResult
  cases forwardCache with
  | false => exact ⟨hvalid, hlengths, .inl ⟨heof, rfl⟩⟩
  | true =>
    cases hrows : result.rows with
    | nil => exact ⟨hvalid, by simp, .inl ⟨heof, rfl⟩⟩
    | cons row₁ rows =>
      rw [hrows] at hlengths
      obtain ⟨binds₁, hvalid₁, hholds₁, hroom₁, -, hfetch₁⟩ :=
        fetchRow_pending lib true (s := ⟨_, s.rowStorage.invalidate, [], row₁ :: rows⟩) rfl hvalid
          (hlengths row₁ List.mem_cons_self) rfl
      obtain ⟨cells₁, eof₁, hstored₁, hstorage₁⟩ := setData_first hdata hcur hvalid₁ hholds₁ hroom₁
      have hcells₁ := hstored₁.length_eq (hlengths row₁ List.mem_cons_self)
      rw [getResult, if_neg (by decide), hfetch₁]
      simp only [hstorage₁]
      cases rows with
      | nil =>
        have hfetch₂ : fetchRow lib true ⟨binds₁, ⟨1, result.fields.length, 0, eof₁, cells₁⟩, row₁,
            []⟩ = (none, ⟨binds₁, ⟨1, result.fields.length, 0, eof₁, cells₁⟩, row₁, []⟩) := rfl
        rw [hfetch₂]
        refine ⟨hvalid₁, hlengths, .inr ⟨[row₁], ⟨rfl, rfl, by simp, rfl, ⟨[cells₁], ?_, ?_⟩, ?_⟩, rfl⟩⟩
        · simp [RowStorage.firstRow]
        · exact .cons hstored₁ .nil
        · simpa using hroom₁
      | cons row₂ rows =>
        have hlength₂ := hlengths row₂ (by simp)
        obtain ⟨binds₂, hvalid₂, hholds₂, hroom₂, hgrown, hfetch₂⟩ := fetchRow_pending lib true
          (s := ⟨binds₁, ⟨1, result.fields.length, 0, eof₁, cells₁⟩, row₁, row₂ :: rows⟩) rfl hvalid₁
          hlength₂ rfl
        obtain ⟨cells₂, eof₂, cur, hstored₂, hstorage₂⟩ :=
          setData_second eof₁ hcells₁ hvalid₂ hholds₂ hroom₂
        rw [hfetch₂]
        simp only [hstorage₂]
        refine ⟨hvalid₂, hlengths, .inr ⟨[row₁, row₂],
          ⟨rfl, rfl, by simp, rfl, ⟨[cells₁, cells₂], ?_, ?_⟩, ?_⟩, rfl⟩⟩
        · simp [RowStorage.firstRow]
        · exact .cons hstored₁ (.cons hstored₂ .nil)
        · simpa using ⟨hroom₁.mono hgrown, hroom₂⟩

/-- What a run delivers: of every result set the rows from the first one on, as far as
they arrive. -/
theorem runResults_eq (forwardCache : Bool) (results : List (ServerResult × ℕ)) (s : SspsStmt) :
    runResults lib native forwardCache results s = results.map fun p =>
      (List.range p.2).map fun i => (p.1.rows[i]?).map (receivedRow native p.1.fields) := by
  induction results generalizing s with
  | nil => rfl
  | cons p results ih =>
    rw [runResults, List.map_cons, ih,
      fetchRows_spec lib p.2 (startResult_upcoming lib forwardCache p.1 s)]

/-- A row all of whose values fit. -/
def RowFits (native : Bool) (fields : List MysqlField) (row : List Cell) : Prop :=
  ∀ p ∈ fields.zip row, Fits native p.1 p.2

theorem receivedRow_eq_iff (hlength : row.length = fields.length) :
    receivedRow native fields row = row ↔ RowFits native fields row := by
  induction row generalizing fields with
  | nil =>
    obtain rfl := List.length_eq_zero_iff.1 hlength.symm
    simp [receivedRow, RowFits]
  | cons cell row ih =>
    match fields, hlength with
    | field :: fields, hlength =>
      have hrest : receivedRow native fields row = row ↔ RowFits native fields row :=
        ih (Nat.succ.inj hlength)
      simp only [receivedRow, RowFits, List.zipWith_cons_cons, List.cons.injEq, received_eq_iff,
        List.zip_cons_cons, List.forall_mem_cons] at hrest ⊢
      rw [hrest]

/-- A library that places what fits and nothing else. -/
def plainLibrary : ClientLibrary where
  store _ memory n value := Buffer.store memory 0 (value.take (min n memory.length))
  length_store _ memory n value := by
    apply Buffer.length_store
    rw [List.length_take]
    omega
  take_store _ memory n value h := by
    rw [Buffer.store_zero, Nat.min_eq_left h]
    exact List.take_left' List.length_take

/-- Two rows of a text, the second shorter than the first and longer than its column. -/
def twoTexts : ServerResult where
  fields := [⟨.blob, 2⟩]
  rows := [[some [97, 98, 99, 100, 101]], [some [97, 98, 99, 100]], [none]]
  length_rows := by simp

/-- The least value of a column `DECIMAL(65,1)`: a sign, 65 digits and the point. -/
def wideDecimal : ServerResult where
  fields := [⟨.newdecimal, 67⟩]
  rows := [[some (0x2d :: List.replicate 64 0x39 ++ [0x2e, 0x39])]]
  length_rows := by simp

end SspsStmt

end MatrixOdbc.Driver
