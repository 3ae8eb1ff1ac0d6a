import MatrixOdbc.Driver.CatalogRows
import MatrixOdbc.Foundations.Decimal
import Mathlib.Data.List.TakeWhile

/-!
# The columns of the primary key

`primary_keys_no_i_s` of `driver/catalog_no_i_s.cc`. The rows of `SHOW KEYS` are read once, and the
rows of the first unique index are taken for the primary key. An index ends for the function
where a row with the sequence number 1 follows.
-/

namespace MatrixOdbc.Driver

/-- The columns of `SHOW KEYS` that the catalog functions read. -/
structure ShowKeysRow where
  table : List UInt8
  nonUnique : List UInt8
  keyName : List UInt8
  seqInIndex : List UInt8
  columnName : Cell
  collation : Cell
  cardinality : Cell
  deriving DecidableEq

/-- What decides how catalog and schema are reported. -/
structure CatalogArgs where
  noCatalog : Bool
  noSchema : Bool
  catalogLen : ℤ
  schemaLen : ℤ
  schemaGiven : Bool

/-- `CAT_SCHEMA_SET` for the first two columns. -/
def catSchemaSet (args : CatalogArgs) (db : List UInt8) : List (ℕ × Cell) :=
  if args.noCatalog = false ∧ (args.catalogLen ≠ 0 ∨ args.schemaLen = 0) then
    [(0, some db), (1, none)]
  else if args.noSchema = false ∧ args.schemaGiven then [(1, some db), (0, none)]
  else []

/-- `PRIMARY`. -/
def PRIMARY : List UInt8 := [0x50, 0x52, 0x49, 0x4d, 0x41, 0x52, 0x59]

/-- `SQLPRIM_KEYS_FIELDS`. -/
def SQLPRIM_KEYS_FIELDS : ℕ := 6

/-- The columns that are set for a row. -/
def primaryKeyColumns (args : CatalogArgs) (db : List UInt8) (row : ShowKeysRow) :
    List (ℕ × Cell) :=
  catSchemaSet args db ++
    [(2, some row.table), (3, row.columnName), (4, some row.seqInIndex), (5, some PRIMARY)]

/-- The row is one of a unique index. -/
def ShowKeysRow.isUnique (row : ShowKeysRow) : Bool := row.nonUnique.headD 0 == 0x30

/-- The sequence number is 1. -/
def ShowKeysRow.isFirst (row : ShowKeysRow) : Bool := row.seqInIndex == [0x31]

/-- The loop over the rows, with `row_count`. -/
def fetchPrimaryKeys (args : CatalogArgs) (db : List UInt8) :
    RowStorage → ℕ → List ShowKeysRow → Option (RowStorage × ℕ)
  | data, rowCount, [] => some (data, rowCount)
  | data, rowCount, row :: rows =>
    if row.isUnique then
      -- already found unique key
      if rowCount ≠ 0 ∧ row.isFirst then some (data, rowCount)
      else
        (data.addRow (primaryKeyColumns args db row)).bind fun data =>
          fetchPrimaryKeys args db data (rowCount + 1) rows
    else fetchPrimaryKeys args db data rowCount rows

/-- `primary_keys_no_i_s` on a statement whose row storage was in any state before: the rows of the
result. -/
def primaryKeysNoIS (args : CatalogArgs) (db : List UInt8) (storage : RowStorage)
    (rows : List ShowKeysRow) : Option (List (List Cell)) :=
  (fetchPrimaryKeys args db (storage.invalidate.setSize rows.length SQLPRIM_KEYS_FIELDS) 0 rows).map
    fun result => result.1.resultRows result.2

/-- A part of an index. -/
structure KeyPart where
  columnName : Cell
  collation : Cell
  cardinality : Cell

/-- An index of a table. -/
structure TableIndex where
  name : List UInt8
  unique : Bool
  parts : List KeyPart
  parts_ne_nil : parts ≠ []

namespace TableIndex

/-- The rows for the parts of an index behind the first `n`. -/
def rowsFrom (table : List UInt8) (i : TableIndex) : ℕ → List KeyPart → List ShowKeysRow
  | _, [] => []
  | n, part :: parts =>
    { table := table
      nonUnique := if i.unique then [0x30] else [0x31]
      keyName := i.name
      seqInIndex := Decimal.text (n + 1)
      columnName := part.columnName
      collation := part.collation
      cardinality := part.cardinality } :: rowsFrom table i (n + 1) parts

/-- The rows of an index. -/
def rows (table : List UInt8) (i : TableIndex) : List ShowKeysRow := i.rowsFrom table 0 i.parts

end TableIndex

/-- The answer to `SHOW KEYS`: the rows of the indexes of a table in any order. -/
structure KeyListing where
  table : List UInt8
  indexes : List TableIndex
  nodup_names : (indexes.map TableIndex.name).Nodup
  unique_of_primary : ∀ i ∈ indexes, i.name = PRIMARY → i.unique = true
  rows : List ShowKeysRow
  perm_rows : rows.Perm (indexes.flatMap fun i => i.rows table)

namespace KeyListing

/-- The rows of the index named `PRIMARY`. -/
def primaryRows (listing : KeyListing) : List ShowKeysRow :=
  listing.rows.filter fun row => row.keyName == PRIMARY

/-- The rows of unique indexes. -/
def uniqueRows (listing : KeyListing) : List ShowKeysRow :=
  listing.rows.filter ShowKeysRow.isUnique

end KeyListing

/-- A column and its sequence number. -/
def ShowKeysRow.part (row : ShowKeysRow) : Cell × List UInt8 := (row.columnName, row.seqInIndex)

/-- The result has the columns of the primary key, each once and with its sequence number. -/
def ListsPrimaryKey (args : CatalogArgs) (db : List UInt8) (storage : RowStorage)
    (listing : KeyListing) : Prop :=
  ∃ result, primaryKeysNoIS args db storage listing.rows = some result ∧
    result.Perm (listing.primaryRows.map fun row =>
      RowStorage.rowOf SQLPRIM_KEYS_FIELDS (primaryKeyColumns args db row))

/-- There is no unique index; or the rows of unique indexes begin with the first column of the
primary key and go on with its other columns, and the next one is a first column again. -/
def PrimaryKeyFirst (listing : KeyListing) : Prop :=
  listing.uniqueRows = [] ∨
    ∃ first others rest, listing.uniqueRows = first :: (others ++ rest) ∧ first.isFirst = true ∧
      ((first :: others).map ShowKeysRow.part).Perm (listing.primaryRows.map ShowKeysRow.part) ∧
        ∀ row ∈ rest.head?, row.isFirst = true

/-- The first row, and those behind it up to the next first column. -/
def taken : List ShowKeysRow → List ShowKeysRow
  | [] => []
  | row :: rows => row :: rows.takeWhile fun row => !row.isFirst

variable {args : CatalogArgs} {db : List UInt8} {data : RowStorage} {rows : List ShowKeysRow}

/-- Behind the first row of a unique index. -/
theorem fetchPrimaryKeys_of_pos {rowCount : ℕ} (hpos : 0 < rowCount) :
    fetchPrimaryKeys args db data rowCount rows =
      (data.addRows (((rows.filter ShowKeysRow.isUnique).takeWhile fun row => !row.isFirst).map
        (primaryKeyColumns args db))).map fun data => (data, rowCount +
          ((rows.filter ShowKeysRow.isUnique).takeWhile fun row => !row.isFirst).length) := by
  induction rows generalizing data rowCount with
  | nil => rfl
  | cons row rows ih =>
    rw [fetchPrimaryKeys]
    by_cases hunique : row.isUnique = true
    · rw [if_pos hunique, List.filter_cons_of_pos hunique]
      by_cases hfirst : row.isFirst = true
      · rw [if_pos ⟨by omega, hfirst⟩, List.takeWhile_cons_of_neg (by simp [hfirst])]
        rfl
      · rw [if_neg (fun h => hfirst h.2), List.takeWhile_cons_of_pos (by simp [hfirst]),
          List.map_cons, RowStorage.addRows]
        cases data.addRow (primaryKeyColumns args db row) with
        | none => rfl
        | some data =>
          rw [Option.bind_some, Option.bind_some, ih (Nat.succ_pos _)]
          simp only [List.length_cons, Nat.succ_eq_add_one, Nat.add_assoc, Nat.add_comm 1]
    · rw [if_neg hunique, List.filter_cons_of_neg hunique]
      exact ih hpos

/-- From the first row on. -/
theorem fetchPrimaryKeys_eq :
    fetchPrimaryKeys args db data 0 rows =
      (data.addRows ((taken (rows.filter ShowKeysRow.isUnique)).map
        (primaryKeyColumns args db))).map fun data => (data,
          (taken (rows.filter ShowKeysRow.isUnique)).length) := by
  induction rows with
  | nil => rfl
  | cons row rows ih =>
    rw [fetchPrimaryKeys]
    by_cases hunique : row.isUnique = true
    · rw [if_pos hunique, if_neg (fun h => h.1 rfl), List.filter_cons_of_pos hunique, taken,
        List.map_cons, RowStorage.addRows]
      cases data.addRow (primaryKeyColumns args db row) with
      | none => rfl
      | some data =>
        rw [Option.bind_some, Option.bind_some, fetchPrimaryKeys_of_pos (Nat.succ_pos _)]
        simp only [List.length_cons, Nat.add_comm 1]
    · rw [if_neg hunique, List.filter_cons_of_neg hunique]
      exact ih

theorem taken_sublist (rows : List ShowKeysRow) : (taken rows).Sublist rows := by
  cases rows with
  | nil => exact List.Sublist.refl _
  | cons row rows => exact (List.takeWhile_sublist _).cons_cons row

/-- Catalog and schema are the first two columns. -/
theorem lt_of_mem_catSchemaSet {column : ℕ × Cell} (h : column ∈ catSchemaSet args db) :
    column.1 < 2 := by
  rw [catSchemaSet] at h
  split_ifs at h
  · rcases List.mem_pair.mp h with rfl | rfl
    · exact Nat.zero_lt_two
    · exact Nat.one_lt_two
  · rcases List.mem_pair.mp h with rfl | rfl
    · exact Nat.one_lt_two
    · exact Nat.zero_lt_two
  · cases h

theorem lt_of_mem_primaryKeyColumns {row : ShowKeysRow} {column : ℕ × Cell}
    (h : column ∈ primaryKeyColumns args db row) : column.1 < SQLPRIM_KEYS_FIELDS := by
  rcases List.mem_append.mp h with h | h
  · exact lt_trans (lt_of_mem_catSchemaSet h) (by decide)
  · simp only [List.mem_cons, List.not_mem_nil, or_false] at h
    rcases h with rfl | rfl | rfl | rfl <;> simp [SQLPRIM_KEYS_FIELDS]

/-- The rows of the result are those that are taken. -/
theorem primaryKeysNoIS_eq (storage : RowStorage) :
    primaryKeysNoIS args db storage rows =
      some ((taken (rows.filter ShowKeysRow.isUnique)).map fun row =>
        RowStorage.rowOf SQLPRIM_KEYS_FIELDS (primaryKeyColumns args db row)) := by
  have hcolumns : ∀ columns ∈ (taken (rows.filter ShowKeysRow.isUnique)).map
      (primaryKeyColumns args db), ∀ column ∈ columns, column.1 < SQLPRIM_KEYS_FIELDS := by
    intro columns hcolumns column hcolumn
    obtain ⟨row, -, rfl⟩ := List.mem_map.mp hcolumns
    exact lt_of_mem_primaryKeyColumns hcolumn
  have hfilled : (taken (rows.filter ShowKeysRow.isUnique)).map (primaryKeyColumns args db) ≠ [] →
      RowStorage.Filled SQLPRIM_KEYS_FIELDS []
        (storage.invalidate.setSize rows.length SQLPRIM_KEYS_FIELDS) := by
    intro hne
    refine RowStorage.filled_setSize (List.length_pos_iff.mpr ?_) (by decide) storage
    rintro rfl
    exact hne rfl
  have hrows := RowStorage.resultRows_addRows hfilled hcolumns
  rw [List.length_map, List.map_map] at hrows
  rw [primaryKeysNoIS, fetchPrimaryKeys_eq, Option.map_map]
  exact hrows

namespace TableIndex

variable {table : List UInt8} {i : TableIndex} {row : ShowKeysRow}

/-- The rows of an index have its name, and are unique with it. -/
theorem of_mem_rowsFrom {n : ℕ} {parts : List KeyPart} (h : row ∈ i.rowsFrom table n parts) :
    row.table = table ∧ row.keyName = i.name ∧ row.isUnique = i.unique := by
  induction parts generalizing n with
  | nil => cases h
  | cons part parts ih =>
    rcases List.mem_cons.mp h with rfl | h
    · refine ⟨rfl, rfl, ?_⟩
      cases i.unique <;> rfl
    · exact ih h

/-- They are numbered. -/
theorem map_seqInIndex_rowsFrom (n : ℕ) (parts : List KeyPart) :
    (i.rowsFrom table n parts).map ShowKeysRow.seqInIndex =
      (List.range' (n + 1) parts.length).map Decimal.text := by
  induction parts generalizing n with
  | nil => rfl
  | cons part parts ih =>
    rw [rowsFrom, List.map_cons, ih, List.length_cons, List.range'_succ, List.map_cons]

/-- No number is given twice. -/
theorem nodup_seqInIndex : ((i.rows table).map ShowKeysRow.seqInIndex).Nodup := by
  rw [rows, map_seqInIndex_rowsFrom]
  refine List.Nodup.map ?_ (List.nodup_range' ..)
  intro m n h
  rw [← Decimal.value_text m, ← Decimal.value_text n, h]

/-- The first one is 1. -/
theorem exists_first (table : List UInt8) (i : TableIndex) :
    ∃ row ∈ i.rows table, row.isFirst = true := by
  obtain ⟨part, parts, hparts⟩ := List.exists_cons_of_ne_nil i.parts_ne_nil
  rw [rows, hparts]
  exact ⟨_, List.mem_cons_self, rfl⟩

end TableIndex

namespace KeyListing

variable (listing : KeyListing) {row : ShowKeysRow}

/-- Every row is one of an index. -/
theorem exists_index (h : row ∈ listing.rows) :
    ∃ i ∈ listing.indexes, row ∈ i.rows listing.table :=
  List.mem_flatMap.mp (listing.perm_rows.mem_iff.mp h)

theorem table_eq (h : row ∈ listing.rows) : row.table = listing.table := by
  obtain ⟨i, -, hrow⟩ := listing.exists_index h
  exact (TableIndex.of_mem_rowsFrom hrow).1

theorem mem_primaryRows : row ∈ listing.primaryRows ↔ row ∈ listing.rows ∧ row.keyName = PRIMARY := by
  rw [primaryRows, List.mem_filter, beq_iff_eq]

/-- The primary key is unique. -/
theorem isUnique_of_mem (h : row ∈ listing.primaryRows) : row.isUnique = true := by
  obtain ⟨hrow, hname⟩ := listing.mem_primaryRows.mp h
  obtain ⟨i, hi, hrow⟩ := listing.exists_index hrow
  obtain ⟨-, hkey, hunique⟩ := TableIndex.of_mem_rowsFrom hrow
  rw [hunique]
  exact listing.unique_of_primary i hi (hkey.symm.trans hname)

/-- It has a first column, if there is one. -/
theorem exists_first (h : row ∈ listing.primaryRows) :
    ∃ first ∈ listing.primaryRows, first.isFirst = true := by
  obtain ⟨hrow, hname⟩ := listing.mem_primaryRows.mp h
  obtain ⟨i, hi, hrow⟩ := listing.exists_index hrow
  obtain ⟨first, hmem, hfirst⟩ := i.exists_first listing.table
  have hkey : first.keyName = PRIMARY :=
    (TableIndex.of_mem_rowsFrom hmem).2.1.trans ((TableIndex.of_mem_rowsFrom hrow).2.1.symm.trans hname)
  have hlisted := listing.perm_rows.mem_iff.mpr (List.mem_flatMap.mpr ⟨i, hi, hmem⟩)
  exact ⟨first, listing.mem_primaryRows.mpr ⟨hlisted, hkey⟩, hfirst⟩

/-- Of indexes with different names one at most is the primary key. -/
theorem nodup_filter (table : List UInt8) {indexes : List TableIndex}
    (h : (indexes.map TableIndex.name).Nodup) :
    (((indexes.flatMap fun i => i.rows table).filter fun row => row.keyName == PRIMARY).map
      ShowKeysRow.seqInIndex).Nodup := by
  induction indexes with
  | nil => exact List.nodup_nil
  | cons i indexes ih =>
    rw [List.map_cons, List.nodup_cons] at h
    rw [List.flatMap_cons, List.filter_append]
    by_cases hname : i.name = PRIMARY
    · have hall : (i.rows table).filter (fun row => row.keyName == PRIMARY) = i.rows table := by
        apply List.filter_eq_self.mpr
        intro row hrow
        rw [(TableIndex.of_mem_rowsFrom hrow).2.1, hname, beq_self_eq_true]
      have hnone : (indexes.flatMap fun i => i.rows table).filter
          (fun row => row.keyName == PRIMARY) = [] := by
        apply List.filter_eq_nil_iff.mpr
        intro row hrow hkey
        obtain ⟨i', hi', hrow⟩ := List.mem_flatMap.mp hrow
        have hsame : i'.name = i.name :=
          (TableIndex.of_mem_rowsFrom hrow).2.1.symm.trans ((beq_iff_eq.mp hkey).trans hname.symm)
        exact h.1 (hsame ▸ List.mem_map_of_mem hi')
      rw [hall, hnone, List.append_nil]
      exact TableIndex.nodup_seqInIndex
    · have hnone : (i.rows table).filter (fun row => row.keyName == PRIMARY) = [] := by
        apply List.filter_eq_nil_iff.mpr
        intro row hrow hkey
        exact hname ((TableIndex.of_mem_rowsFrom hrow).2.1.symm.trans (beq_iff_eq.mp hkey))
      rw [hnone, List.nil_append]
      exact ih h.2

/-- No sequence number of the primary key is given twice. -/
theorem nodup_seqInIndex : (listing.primaryRows.map ShowKeysRow.seqInIndex).Nodup :=
  ((listing.perm_rows.filter _).map _).nodup_iff.mpr
    (nodup_filter listing.table listing.nodup_names)

end KeyListing

section Condition

/-- The row of the result for a column and its sequence number. -/
def resultRow (args : CatalogArgs) (db table : List UInt8) (part : Cell × List UInt8) :
    List Cell :=
  RowStorage.rowOf SQLPRIM_KEYS_FIELDS (catSchemaSet args db ++
    [(2, some table), (3, part.1), (4, some part.2), (5, some PRIMARY)])

/-- It has both. -/
theorem resultRow_injective (args : CatalogArgs) (db table : List UInt8) :
    Function.Injective (resultRow args db table) := by
  have hcells (part : Cell × List UInt8) :
      (resultRow args db table part)[3]? = some part.1 ∧
        (resultRow args db table part)[4]? = some (some part.2) := by
    have hlength := RowStorage.length_rowOf SQLPRIM_KEYS_FIELDS (catSchemaSet args db)
    rw [resultRow, RowStorage.rowOf, List.foldl_append]
    change (RowStorage.rowOf SQLPRIM_KEYS_FIELDS (catSchemaSet args db)).length = 6 at hlength
    rw [← RowStorage.rowOf]
    simp [hlength]
  intro part part' h
  have hfirst := (hcells part).1.symm.trans ((congrArg (·[3]?) h).trans (hcells part').1)
  have hsecond := (hcells part).2.symm.trans ((congrArg (·[4]?) h).trans (hcells part').2)
  exact Prod.ext (Option.some.inj hfirst) (Option.some.inj (Option.some.inj hsecond))

/-- In one table a row of the result is that of a column and its sequence number. -/
theorem map_rowOf_eq {table : List UInt8} {rows : List ShowKeysRow}
    (hrows : ∀ row ∈ rows, row.table = table) :
    (rows.map fun row => RowStorage.rowOf SQLPRIM_KEYS_FIELDS (primaryKeyColumns args db row)) =
      (rows.map ShowKeysRow.part).map (resultRow args db table) := by
  rw [List.map_map]
  apply List.map_congr_left
  intro row hrow
  rw [← hrows row hrow]
  rfl

/-- The rows that are taken, if they begin with a first column. -/
theorem taken_append {first : ShowKeysRow} {others rest : List ShowKeysRow}
    (hothers : ∀ row ∈ others, row.isFirst = false) (hrest : ∀ row ∈ rest.head?, row.isFirst = true) :
    taken (first :: (others ++ rest)) = first :: others := by
  have hstop : rest.takeWhile (fun row => !row.isFirst) = [] := by
    cases rest with
    | nil => rfl
    | cons row rest =>
      exact List.takeWhile_cons_of_neg (by simp [hrest row rfl])
  rw [taken, List.takeWhile_append_of_pos (by simpa using hothers), hstop, List.append_nil]

variable (listing : KeyListing)

/-- The rows that are taken have the columns of the primary key. -/
theorem listsPrimaryKey_iff (storage : RowStorage) :
    ListsPrimaryKey args db storage listing ↔ ((taken listing.uniqueRows).map ShowKeysRow.part).Perm
      (listing.primaryRows.map ShowKeysRow.part) := by
  have htaken : ∀ row ∈ taken listing.uniqueRows, row.table = listing.table := fun row hrow =>
    listing.table_eq (List.mem_of_mem_filter ((taken_sublist _).subset hrow))
  have hprimary : ∀ row ∈ listing.primaryRows, row.table = listing.table := fun row hrow =>
    listing.table_eq (listing.mem_primaryRows.mp hrow).1
  rw [ListsPrimaryKey, primaryKeysNoIS_eq, ← KeyListing.uniqueRows, map_rowOf_eq htaken,
    map_rowOf_eq hprimary]
  constructor
  · rintro ⟨result, hresult, hperm⟩
    rw [← Option.some.inj hresult] at hperm
    exact (List.map_perm_map_iff (resultRow_injective args db listing.table)).mp hperm
  · intro hperm
    exact ⟨_, rfl, hperm.map _⟩

/-- What is taken begins with the first column of the primary key. -/
theorem isFirst_of_perm {first : ShowKeysRow} {rows : List ShowKeysRow}
    (hperm : ((taken (first :: rows)).map ShowKeysRow.part).Perm
      (listing.primaryRows.map ShowKeysRow.part)) : first.isFirst = true := by
  have hmem : first.part ∈ listing.primaryRows.map ShowKeysRow.part :=
    hperm.mem_iff.mp (List.mem_map_of_mem List.mem_cons_self)
  obtain ⟨row, hrow, -⟩ := List.mem_map.mp hmem
  obtain ⟨row, hrow, hfirst⟩ := listing.exists_first hrow
  obtain ⟨row', hrow', hsame⟩ := List.mem_map.mp
    (hperm.mem_iff.mpr (List.mem_map_of_mem hrow))
  have hseq : row'.seqInIndex = row.seqInIndex := congrArg Prod.snd hsame
  have hfirst' : row'.isFirst = true := by
    rw [ShowKeysRow.isFirst, hseq]
    exact hfirst
  rcases List.mem_cons.mp hrow' with rfl | hrow'
  · exact hfirst'
  · have hnot := List.mem_takeWhile_imp hrow'
    rw [hfirst'] at hnot
    cases hnot

/-- The other columns of the primary key are no first ones. -/
theorem isFirst_eq_false_of_perm {first : ShowKeysRow} {others : List ShowKeysRow}
    (hfirst : first.isFirst = true)
    (hperm : ((first :: others).map ShowKeysRow.part).Perm
      (listing.primaryRows.map ShowKeysRow.part)) :
    ∀ row ∈ others, row.isFirst = false := by
  have hnodup : ((first :: others).map ShowKeysRow.seqInIndex).Nodup := by
    have hseq := hperm.map Prod.snd
    rw [List.map_map, List.map_map] at hseq
    exact hseq.nodup_iff.mpr listing.nodup_seqInIndex
  rw [List.map_cons, List.nodup_cons] at hnodup
  intro row hrow
  by_contra hne
  have hsame : row.seqInIndex = first.seqInIndex :=
    (beq_iff_eq.mp (Bool.not_eq_false _ ▸ hne)).trans (beq_iff_eq.mp hfirst).symm
  exact hnodup.1 (hsame ▸ List.mem_map_of_mem hrow)

/-- `primary_keys_no_i_s` lists the primary key exactly if its rows come first. -/
theorem primaryKeysNoIS_listsPrimaryKey_iff (args : CatalogArgs) (db : List UInt8)
    (storage : RowStorage) (listing : KeyListing) :
    ListsPrimaryKey args db storage listing ↔ PrimaryKeyFirst listing := by
  rw [listsPrimaryKey_iff]
  constructor
  · intro hperm
    rw [PrimaryKeyFirst]
    cases hrows : listing.uniqueRows with
    | nil => exact Or.inl rfl
    | cons first rows =>
      rw [hrows] at hperm
      refine Or.inr ⟨first, rows.takeWhile fun row => !row.isFirst,
        rows.dropWhile fun row => !row.isFirst, ?_, isFirst_of_perm listing hperm, hperm, ?_⟩
      · rw [List.takeWhile_append_dropWhile]
      · intro row hrow
        have hnot := List.head?_dropWhile_not (fun row : ShowKeysRow => !row.isFirst) rows
        rw [hrow] at hnot
        simpa using hnot
  · rintro (hnone | ⟨first, others, rest, hrows, hfirst, hperm, hrest⟩)
    · have hprimary : listing.primaryRows = [] := by
        apply List.eq_nil_iff_forall_not_mem.mpr
        intro row hrow
        have hunique : row ∈ listing.uniqueRows := List.mem_filter.mpr
          ⟨(listing.mem_primaryRows.mp hrow).1, listing.isUnique_of_mem hrow⟩
        rw [hnone] at hunique
        cases hunique
      rw [hnone, hprimary]
      exact List.Perm.refl _
    · rw [hrows, taken_append (isFirst_eq_false_of_perm listing hfirst hperm) hrest]
      exact hperm

/-- A unique index in front of the primary key is taken for it. -/
theorem primaryKeysNoIS_uniqueIndex_not_listsPrimaryKey :
    ∃ listing : KeyListing,
      ¬ ListsPrimaryKey ⟨false, false, 0, 0, false⟩ [] ⟨0, 0, 0, true, []⟩ listing := by
  have hname : [0x75] ≠ PRIMARY := by simp [PRIMARY]
  refine ⟨{
    table := [0x74]
    indexes := [⟨[0x75], true, [⟨some [0x62], none, none⟩], List.cons_ne_nil _ _⟩,
      ⟨PRIMARY, true, [⟨some [0x61], none, none⟩], List.cons_ne_nil _ _⟩]
    nodup_names := by simpa using hname
    unique_of_primary := by simp
    rows := _
    perm_rows := List.Perm.refl _ }, ?_⟩
  rw [listsPrimaryKey_iff]
  intro hperm
  have hmem : (some [0x62], [0x31]) ∈ [((some [0x61], [0x31]) : Cell × List UInt8)] :=
    hperm.mem_iff.mp List.mem_cons_self
  simp at hmem

end Condition

end MatrixOdbc.Driver
