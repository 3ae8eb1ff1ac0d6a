import MatrixOdbc.Driver.Parse

/-!
# Finding a unique key

`check_if_usable_unique_key_exists` of `driver/cursor.cc`. The rows of `SHOW KEYS`
are read once, and a key in progress is recognised by its sequence numbers only.
This relies on the order in which the server lists them: the columns of an index
in a row, from the first one on.
-/

namespace MatrixOdbc.Driver

/-- `myodbc_strcasecmp` on two strings that are given: whether it returns 0. -/
def strcaseEq (s t : List UInt8) : Bool := s.map toupper == t.map toupper

/-- A row of `SHOW KEYS`. The column name of a functional key part is NULL. -/
structure KeyRow where
  nonUnique : Bool
  keyName : List UInt8
  seqInIndex : ℤ
  columnName : Option (List UInt8)
  deriving DecidableEq

/-- `MY_MAX_PK_PARTS`. -/
def MY_MAX_PK_PARTS : ℕ := 32

/-- `have_field_in_result` for a result set that is given by the original names of
its columns. -/
def haveFieldInResult (name : Option (List UInt8)) (result : List (List UInt8)) : Bool :=
  name.any fun name => result.any fun orgName => strcaseEq name orgName

/-- The part of `MYCURSOR` that holds a key; `pk_count` is the length of `pkcol`. -/
structure KeyCursor where
  pkValidated : Bool
  pkcol : List (List UInt8)
  deriving DecidableEq

/-- The loop over the rows, with the columns recorded so far and `seq_in_index`. -/
@[grind =]
def scanKeys (result : List (List UInt8)) : List (List UInt8) → ℤ → List KeyRow → List (List UInt8)
  | pkcol, _, [] => pkcol
  | pkcol, seqInIndex, row :: rows =>
    if MY_MAX_PK_PARTS ≤ pkcol.length then pkcol
    -- a new key
    else if row.seqInIndex ≤ seqInIndex then pkcol
    else if row.nonUnique then scanKeys result pkcol seqInIndex rows
    else if row.seqInIndex ≠ seqInIndex + 1 then scanKeys result pkcol seqInIndex rows
    else if haveFieldInResult row.columnName result then
      scanKeys result (pkcol ++ [row.columnName.getD []]) row.seqInIndex rows
    else scanKeys result [] 0 rows

/-- `check_if_usable_unique_key_exists`. The listing is `none` if `SHOW KEYS` fails. -/
def checkIfUsableUniqueKeyExists (result : List (List UInt8)) (listing : Option (List KeyRow))
    (cursor : KeyCursor) : Bool × KeyCursor :=
  if cursor.pkValidated then (cursor.pkcol.length ≠ 0, cursor)
  else
    match listing with
    | none => (false, cursor)
    | some rows =>
      let pkcol := scanKeys result cursor.pkcol 0 rows
      (0 < pkcol.length, ⟨true, pkcol⟩)

/-- An index of a table. It has no more columns than a cursor can record; the server
allows fewer. -/
structure Index where
  name : List UInt8
  unique : Bool
  columns : List (Option (List UInt8))
  columns_ne_nil : columns ≠ []
  columns_length_le : columns.length ≤ MY_MAX_PK_PARTS

namespace Index

/-- The rows for the columns of an index behind the first `n`. -/
@[grind =] def rowsFrom (i : Index) : ℕ → List (Option (List UInt8)) → List KeyRow
  | _, [] => []
  | n, column :: columns => ⟨!i.unique, i.name, n + 1, column⟩ :: rowsFrom i (n + 1) columns

/-- The rows of an index in the order of its columns. -/
def rows (i : Index) : List KeyRow := i.rowsFrom 0 i.columns

end Index

/-- The recorded columns are the columns of a unique index, and all of them are in
the result set. -/
def IsUniqueKey (indexes : List Index) (result pkcol : List (List UInt8)) : Prop :=
  ∃ i ∈ indexes, i.unique = true ∧ i.columns = pkcol.map some ∧
    ∀ column ∈ i.columns, haveFieldInResult column result = true

variable {result pkcol : List (List UInt8)} {i : Index} {n : ℕ} {rows : List KeyRow}

/-- Rows of an index that is not unique are passed over. -/
theorem scanKeys_of_not_unique (h : i.unique = false) (columns : List (Option (List UInt8))) :
    scanKeys result [] 0 (i.rowsFrom n columns ++ rows) = scanKeys result [] 0 rows := by
  induction columns generalizing n with
  | nil => rfl
  | cons column columns ih =>
    have hseq : ¬ ((n : ℤ) + 1 ≤ 0) := by omega
    rw [Index.rowsFrom, List.cons_append, scanKeys, if_neg (by decide), if_neg hseq, h]
    exact ih

/-- Without its first column, an index is passed over. -/
theorem scanKeys_of_pos (hn : 0 < n) (columns : List (Option (List UInt8))) :
    scanKeys result [] 0 (i.rowsFrom n columns ++ rows) = scanKeys result [] 0 rows := by
  induction columns generalizing n with
  | nil => rfl
  | cons column columns ih =>
    have hseq : ¬ ((n : ℤ) + 1 ≤ 0) := by omega
    have hnext : (n : ℤ) + 1 ≠ 0 + 1 := by omega
    rw [Index.rowsFrom, List.cons_append, scanKeys, if_neg (by decide), if_neg hseq]
    simp only [if_pos hnext]
    split_ifs
    · exact ih (by omega)
    · exact ih (by omega)

variable (result rows) in
/-- The key in progress is completed, or it is given up and the index passed over. -/
theorem scanKeys_rowsFrom (h : i.unique = true) (columns : List (Option (List UInt8)))
    (hmax : pkcol.length + columns.length ≤ MY_MAX_PK_PARTS) :
    scanKeys result pkcol pkcol.length (i.rowsFrom pkcol.length columns ++ rows) =
      if columns.all (haveFieldInResult · result) then
        scanKeys result (pkcol ++ columns.map (·.getD [])) (pkcol.length + columns.length : ℕ) rows
      else scanKeys result [] 0 rows := by
  induction columns generalizing pkcol with
  | nil => simp [Index.rowsFrom]
  | cons column columns ih =>
    rw [List.length_cons] at hmax
    have hseq : ¬ ((pkcol.length : ℤ) + 1 ≤ pkcol.length) := by omega
    rw [Index.rowsFrom, List.cons_append, scanKeys, if_neg (by omega), if_neg hseq, h]
    simp only [Bool.not_true, Bool.false_eq_true, if_false, ne_eq, not_true_eq_false]
    by_cases hcolumn : haveFieldInResult column result = true
    · have hlen : (pkcol ++ [column.getD []]).length + columns.length ≤ MY_MAX_PK_PARTS := by
        rw [List.length_append, List.length_singleton]
        omega
      have hrec := ih hlen
      rw [List.length_append, List.length_singleton] at hrec
      rw [if_pos hcolumn, Nat.cast_add, Nat.cast_one] at *
      rw [hrec]
      simp [hcolumn, Nat.add_assoc, Nat.add_comm 1]
    · rw [if_neg hcolumn, scanKeys_of_pos (Nat.succ_pos _)]
      simp [hcolumn]

/-- All columns of the unique index are in the result set. -/
def Index.usable (result : List (List UInt8)) (i : Index) : Bool :=
  i.unique && i.columns.all (haveFieldInResult · result)

variable (result) in
/-- A key that has been found ends at the first row of the next index. -/
theorem scanKeys_found (hpkcol : pkcol ≠ []) (indexes : List Index) :
    scanKeys result pkcol pkcol.length (indexes.flatMap Index.rows) = pkcol := by
  have hpos := List.length_pos_iff.mpr hpkcol
  cases indexes with
  | nil => rfl
  | cons i indexes =>
    obtain ⟨column, columns, hcolumns⟩ := List.exists_cons_of_ne_nil i.columns_ne_nil
    have hseq : ((0 : ℕ) : ℤ) + 1 ≤ pkcol.length := by omega
    rw [List.flatMap_cons, Index.rows, hcolumns, Index.rowsFrom, List.cons_append, scanKeys,
      if_pos hseq, ite_self]

/-- The scan of an ordered listing records the first index that is usable. -/
theorem scanKeys_listing (indexes : List Index) :
    scanKeys result [] 0 (indexes.flatMap Index.rows) =
      ((indexes.find? (Index.usable result)).map fun i => i.columns.map (·.getD [])).getD [] := by
  induction indexes with
  | nil => rfl
  | cons i indexes ih =>
    rw [List.flatMap_cons]
    cases hunique : i.unique with
    | false =>
      have husable : ¬ i.usable result = true := by simp [Index.usable, hunique]
      rw [Index.rows, scanKeys_of_not_unique hunique, ih, List.find?_cons_of_neg husable]
    | true =>
      have hlen : ([] : List (List UInt8)).length + i.columns.length ≤ MY_MAX_PK_PARTS := by
        simpa using i.columns_length_le
      have hscan := scanKeys_rowsFrom result (indexes.flatMap Index.rows) hunique i.columns hlen
      rw [List.length_nil, Nat.cast_zero] at hscan
      rw [Index.rows, hscan]
      by_cases hall : i.columns.all (haveFieldInResult · result) = true
      · have husable : i.usable result = true := by simp [Index.usable, hunique, hall]
        have hne : i.columns.map (·.getD []) ≠ [] := by simpa using i.columns_ne_nil
        have hfound := scanKeys_found result hne indexes
        rw [List.length_map] at hfound
        rw [if_pos hall, List.find?_cons_of_pos husable, List.nil_append, Nat.zero_add, hfound]
        rfl
      · have husable : ¬ i.usable result = true := by simp [Index.usable, hall]
        rw [if_neg hall, ih, List.find?_cons_of_neg husable]

/-- Whatever the scan records is a unique key. -/
theorem isUniqueKey_scanKeys {indexes : List Index}
    (h : scanKeys result [] 0 (indexes.flatMap Index.rows) ≠ []) :
    IsUniqueKey indexes result (scanKeys result [] 0 (indexes.flatMap Index.rows)) := by
  rw [scanKeys_listing] at h ⊢
  cases hfind : indexes.find? (Index.usable result) with
  | none => simp [hfind] at h
  | some i =>
    have husable := List.find?_some hfind
    rw [Index.usable, Bool.and_eq_true] at husable
    have hpresent := List.all_eq_true.mp husable.2
    refine ⟨i, List.mem_of_find?_eq_some hfind, husable.1, ?_, hpresent⟩
    have hsome : ∀ column ∈ i.columns, some (column.getD []) = column := by
      intro column hcolumn
      cases column with
      | none => exact absurd (hpresent none hcolumn) (by simp [haveFieldInResult])
      | some name => rfl
    rw [Option.map_some, Option.getD_some, List.map_map]
    exact ((List.map_congr_left hsome).trans (List.map_id _)).symm

/-- The cursor of a statement after checks that succeeded or failed in their query. -/
def cursorAfter (result : List (List UInt8)) (listing : List KeyRow) (checks : List Bool) :
    KeyCursor :=
  checks.foldl (fun cursor ok =>
    (checkIfUsableUniqueKeyExists result (if ok then some listing else none) cursor).2) ⟨false, []⟩

/-- What a cursor holds between two checks. -/
structure KeyRecorded (indexes : List Index) (result : List (List UInt8)) (cursor : KeyCursor) :
    Prop where
  pkcol_of_not_validated : cursor.pkValidated = false → cursor.pkcol = []
  isUniqueKey : cursor.pkcol ≠ [] → IsUniqueKey indexes result cursor.pkcol

/-- A check keeps the cursor in order and answers with what the cursor holds. -/
theorem KeyRecorded.check {indexes : List Index} {cursor : KeyCursor}
    (h : KeyRecorded indexes result cursor) (ok : Bool) :
    let out := checkIfUsableUniqueKeyExists result
      (if ok then some (indexes.flatMap Index.rows) else none) cursor
    KeyRecorded indexes result out.2 ∧ (out.1 = true → out.2.pkcol ≠ []) := by
  unfold checkIfUsableUniqueKeyExists
  cases hvalidated : cursor.pkValidated with
  | true => exact ⟨by simpa using h, by simp [List.length_eq_zero_iff]⟩
  | false =>
    cases ok with
    | false => exact ⟨by simpa using h, by simp⟩
    | true =>
      simp only [h.pkcol_of_not_validated hvalidated, if_true, Bool.false_eq_true, if_false]
      refine ⟨⟨by simp, isUniqueKey_scanKeys⟩, ?_⟩
      simp [List.length_pos_iff]

theorem keyRecorded_cursorAfter (indexes : List Index) (result : List (List UInt8))
    (checks : List Bool) :
    KeyRecorded indexes result (cursorAfter result (indexes.flatMap Index.rows) checks) := by
  unfold cursorAfter
  have hfresh : KeyRecorded indexes result ⟨false, []⟩ := ⟨fun _ => rfl, fun h => absurd rfl h⟩
  generalize (⟨false, []⟩ : KeyCursor) = cursor at hfresh
  induction checks generalizing cursor with
  | nil => exact hfresh
  | cons ok checks ih => exact ih _ (hfresh.check ok).1

/-- For every table whose indexes are listed one after the other, and every result set,
each check on a statement returns true only if the recorded columns are all the
columns of a unique index and are in the result set. -/
theorem checkIfUsableUniqueKeyExists_isUniqueKey (indexes : List Index)
    (result : List (List UInt8)) (checks : List Bool) (ok : Bool)
    (h : (checkIfUsableUniqueKeyExists result
      (if ok then some (indexes.flatMap Index.rows) else none)
      (cursorAfter result (indexes.flatMap Index.rows) checks)).1 = true) :
    IsUniqueKey indexes result (checkIfUsableUniqueKeyExists result
      (if ok then some (indexes.flatMap Index.rows) else none)
      (cursorAfter result (indexes.flatMap Index.rows) checks)).2.pkcol := by
  have hcursor := keyRecorded_cursorAfter indexes result checks
  obtain ⟨hrecorded, hne⟩ := hcursor.check ok
  exact hrecorded.isUniqueKey (hne h)

/-- The unique index on the columns `a` and `b`. -/
def indexAB : Index := ⟨[0x75], true, [some [0x61], some [0x62]], by decide, by decide⟩

/-- The key of a table with the index on `a` and `b` is found for the columns `b` and `a`. -/
theorem checkIfUsableUniqueKeyExists_indexAB :
    (checkIfUsableUniqueKeyExists [[0x62], [0x61]] (some ([indexAB].flatMap Index.rows))
        ⟨false, []⟩).1 = true ∧
      IsUniqueKey [indexAB] [[0x62], [0x61]]
        (checkIfUsableUniqueKeyExists [[0x62], [0x61]] (some ([indexAB].flatMap Index.rows))
          ⟨false, []⟩).2.pkcol := by
  have h : (checkIfUsableUniqueKeyExists [[0x62], [0x61]]
      (some ([indexAB].flatMap Index.rows)) ⟨false, []⟩).1 = true := by decide +kernel
  exact ⟨h, checkIfUsableUniqueKeyExists_isUniqueKey [indexAB] [[0x62], [0x61]] [] true h⟩

/-- If the second column of the index is listed first, half of the key is taken for
the whole. -/
theorem checkIfUsableUniqueKeyExists_unordered :
    ¬ ∀ (indexes : List Index) (result : List (List UInt8)) (listing : List KeyRow),
      listing.Perm (indexes.flatMap Index.rows) →
      (checkIfUsableUniqueKeyExists result (some listing) ⟨false, []⟩).1 = true →
      IsUniqueKey indexes result
        (checkIfUsableUniqueKeyExists result (some listing) ⟨false, []⟩).2.pkcol := by
  intro hall
  have hperm : ([⟨false, [0x75], 2, some [0x62]⟩, ⟨false, [0x75], 1, some [0x61]⟩] :
      List KeyRow).Perm ([indexAB].flatMap Index.rows) := List.Perm.swap _ _ _
  obtain ⟨i, hi, -, hcolumns, -⟩ := hall [indexAB] [[0x61], [0x62]] _ hperm (by decide +kernel)
  rw [List.mem_singleton.mp hi] at hcolumns
  exact absurd (congrArg List.length hcolumns) (by decide +kernel)

end MatrixOdbc.Driver
