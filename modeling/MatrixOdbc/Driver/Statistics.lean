import MatrixOdbc.Driver.ColumnNumber
import MatrixOdbc.Driver.PrimaryKeys
import MatrixOdbc.Foundations.Sorting

/-!
# The statistics of a table

`statistics_no_i_s` of `driver/catalog_no_i_s.cc` for a table that is named. The rows of `SHOW KEYS`
are filtered, sorted by three keys and copied into the row storage. The sequence number and the
cardinality are read as numbers on the way.
-/

namespace MatrixOdbc.Driver

/-- `strcmp`: the difference of the first bytes that differ. -/
def strcmp : List UInt8 → List UInt8 → ℤ
  | [], [] => 0
  | [], _ :: _ => -1
  | _ :: _, [] => 1
  | a :: s, b :: t => if a = b then strcmp s t else (a.toNat : ℤ) - b.toNat

namespace ShowKeysRow

/-- `non_unique`. -/
def nonUniqueNumber (row : ShowKeysRow) : ℤ := if row.nonUnique.headD 0 = 0x31 then 1 else 0

/-- The comparison that is given to `std::sort`. -/
def less (left right : ShowKeysRow) : Bool :=
  if left.nonUniqueNumber ≠ right.nonUniqueNumber then
    left.nonUniqueNumber < right.nonUniqueNumber
  else if strcmp left.keyName right.keyName ≠ 0 then strcmp left.keyName right.keyName < 0
  else strtoll left.seqInIndex < strtoll right.seqInIndex

end ShowKeysRow

/-- `SQLSTAT_FIELDS`. -/
def SQLSTAT_FIELDS : ℕ := 13

/-- `SQL_INDEX_OTHER`. -/
def SQL_INDEX_OTHER : ℤ := 3

/-- The columns that are set for a row with a cardinality. -/
def statisticsColumns (args : CatalogArgs) (db : List UInt8) (row : ShowKeysRow)
    (cardinality : List UInt8) : List (ℕ × Cell) :=
  let ordinalPos := (strtoll row.seqInIndex).bmod (2 ^ 16)
  let cardinality := (strtoll cardinality).bmod (2 ^ 32)
  catSchemaSet args db ++
    [(2, some row.table), (3, some (Decimal.signedText row.nonUniqueNumber)), (4, none),
      (5, some row.keyName), (6, some (Decimal.signedText SQL_INDEX_OTHER)),
      (7, some (Decimal.signedText ordinalPos)), (8, row.columnName), (9, row.collation),
      (10, some (Decimal.signedText cardinality)), (11, none), (12, none)]

/-- The loop over the sorted rows, with `rnum`. The cardinality is given to `strtol`, which is not
defined for NULL. -/
def fetchStatistics (args : CatalogArgs) (db : List UInt8) (rows : ℕ) :
    RowStorage → ℕ → List ShowKeysRow → Option (RowStorage × ℕ)
  | data, rnum, [] => some (data, rnum)
  | data, rnum, row :: indexRows =>
    row.cardinality.bind fun cardinality =>
      (data.setColumns (statisticsColumns args db row cardinality)).bind fun data =>
        fetchStatistics args db rows (if rnum < rows then data.nextRow else data) (rnum + 1) indexRows

/-- The rows that are not skipped. -/
def indexRows (uniqueOnly : Bool) (rows : List ShowKeysRow) : List ShowKeysRow :=
  rows.filter fun row => !(uniqueOnly && row.nonUniqueNumber != 0)

/-- `statistics_no_i_s` with `std::sort`: the rows of the result. -/
def statisticsNoIS (std : Sorting.SortFunction ShowKeysRow) (args : CatalogArgs) (db : List UInt8)
    (uniqueOnly : Bool) (storage : RowStorage) (rows : List ShowKeysRow) :
    Option (List (List Cell)) :=
  let data := (storage.invalidate.setSize rows.length SQLSTAT_FIELDS).firstRow
  (fetchStatistics args db rows.length data 0
    (std.sort ShowKeysRow.less (indexRows uniqueOnly rows))).map fun result =>
      if result.2 ≠ 0 then result.1.resultRows result.2 else []

/-- A row of `SHOW KEYS` with its numbers. -/
structure WellFormed (row : ShowKeysRow) : Prop where
  nonUnique : row.nonUnique = [0x30] ∨ row.nonUnique = [0x31]
  seqInIndex : ∃ n, row.seqInIndex = Decimal.text n
  cardinality : ∀ text ∈ row.cardinality, ∃ n, text = Decimal.text n

/-- The answer to `SHOW KEYS`: rows in any order. -/
structure KeyRows where
  rows : List ShowKeysRow
  wellFormed : ∀ row ∈ rows, WellFormed row

/-- The row of the result for a row of the listing. -/
def statisticsRow (args : CatalogArgs) (db : List UInt8) (row : ShowKeysRow) : List Cell :=
  RowStorage.rowOf SQLSTAT_FIELDS (catSchemaSet args db ++
    [(2, some row.table), (3, some row.nonUnique), (4, none), (5, some row.keyName),
      (6, some [0x33]), (7, some row.seqInIndex), (8, row.columnName), (9, row.collation),
      (10, row.cardinality), (11, none), (12, none)])

/-- The order of the result: by `NON_UNIQUE`, by the name of the index, and by the position. -/
def ShowKeysRow.Ordered (left right : ShowKeysRow) : Prop :=
  left.nonUniqueNumber < right.nonUniqueNumber ∨
    left.nonUniqueNumber = right.nonUniqueNumber ∧ (strcmp left.keyName right.keyName < 0 ∨
      left.keyName = right.keyName ∧
        Decimal.value left.seqInIndex ≤ Decimal.value right.seqInIndex)

/-- The result has the rows of the listing, or those of unique indexes, in their order. -/
def ListsStatistics (std : Sorting.SortFunction ShowKeysRow) (args : CatalogArgs)
    (db : List UInt8) (uniqueOnly : Bool) (storage : RowStorage) (listing : KeyRows) : Prop :=
  ∃ order : List ShowKeysRow, order.Perm (indexRows uniqueOnly listing.rows) ∧
    order.Pairwise ShowKeysRow.Ordered ∧
      statisticsNoIS std args db uniqueOnly storage listing.rows =
        some (order.map (statisticsRow args db))

/-- Position and cardinality of every row are there and are numbers of their types. -/
def NumbersFit (uniqueOnly : Bool) (listing : KeyRows) : Prop :=
  ∀ row ∈ indexRows uniqueOnly listing.rows, Decimal.value row.seqInIndex < 2 ^ 15 ∧
    ∃ text ∈ row.cardinality, Decimal.value text < 2 ^ 31

variable {std : Sorting.SortFunction ShowKeysRow} {args : CatalogArgs} {db : List UInt8}
  {uniqueOnly : Bool} {storage data : RowStorage} {list : List ShowKeysRow} {rows rnum : ℕ}

theorem strcmp_neg (s t : List UInt8) : strcmp t s = -strcmp s t := by
  induction s generalizing t with
  | nil => cases t <;> rfl
  | cons a s ih =>
    cases t with
    | nil => rfl
    | cons b t =>
      rw [strcmp, strcmp]
      by_cases heq : a = b
      · rw [if_pos heq, if_pos heq.symm, ih]
      · rw [if_neg heq, if_neg (Ne.symm heq)]
        omega

theorem strcmp_eq_zero {s t : List UInt8} : strcmp s t = 0 ↔ s = t := by
  induction s generalizing t with
  | nil => cases t <;> simp [strcmp]
  | cons a s ih =>
    cases t with
    | nil => simp [strcmp]
    | cons b t =>
      rw [strcmp, List.cons.injEq]
      by_cases heq : a = b
      · rw [if_pos heq, ih, and_iff_right heq]
      · have hne : a.toNat ≠ b.toNat := fun h => heq (UInt8.toNat_inj.mp h)
        rw [if_neg heq]
        exact iff_of_false (by omega) fun h => heq h.1

theorem strcmp_trans {s t u : List UInt8} (hst : strcmp s t ≤ 0) (htu : strcmp t u ≤ 0) :
    strcmp s u ≤ 0 := by
  induction s generalizing t u with
  | nil => cases u <;> simp [strcmp]
  | cons a s ih =>
    cases t with
    | nil => simp [strcmp] at hst
    | cons b t =>
      cases u with
      | nil => simp [strcmp] at htu
      | cons c u =>
        have hnat (x y : UInt8) : x = y ↔ x.toNat = y.toNat := UInt8.toNat_inj.symm
        rw [strcmp] at hst htu ⊢
        simp only [hnat] at hst htu ⊢
        split_ifs at hst htu ⊢
        · exact ih hst htu
        all_goals omega

namespace ShowKeysRow

/-- The three keys, one after the other. -/
def cmp (left right : ShowKeysRow) : ℤ :=
  if left.nonUniqueNumber - right.nonUniqueNumber ≠ 0 then
    left.nonUniqueNumber - right.nonUniqueNumber
  else if strcmp left.keyName right.keyName ≠ 0 then strcmp left.keyName right.keyName
  else strtoll left.seqInIndex - strtoll right.seqInIndex

theorem compares_cmp : Sorting.Compares cmp :=
  (Sorting.Compares.sub.comap nonUniqueNumber).lex
    ((Sorting.Compares.comap ⟨strcmp_neg, fun _ _ _ => strcmp_trans⟩ keyName).lex
      (Sorting.Compares.sub.comap fun row : ShowKeysRow => strtoll row.seqInIndex))

/-- The comparison is that of the three keys. -/
theorem less_eq (left right : ShowKeysRow) : left.less right = decide (left.cmp right < 0) := by
  rw [less, cmp]
  by_cases hunique : left.nonUniqueNumber = right.nonUniqueNumber
  · have hzero : ¬ left.nonUniqueNumber - right.nonUniqueNumber ≠ 0 := by omega
    rw [if_neg (not_not.mpr hunique), if_neg hzero]
    by_cases hname : strcmp left.keyName right.keyName = 0
    · rw [if_neg (not_not.mpr hname), if_neg (not_not.mpr hname), decide_eq_decide]
      omega
    · rw [if_pos hname, if_pos hname]
  · have hne : left.nonUniqueNumber - right.nonUniqueNumber ≠ 0 := by omega
    rw [if_pos hunique, if_pos hne, decide_eq_decide]
    omega

theorem strictWeak_less : Sorting.StrictWeak less := by
  have heq : less = fun left right => decide (left.cmp right < 0) :=
    funext fun left => funext fun right => left.less_eq right
  rw [heq]
  exact compares_cmp.strictWeak

/-- Sorted rows are in the order of the result, if the sequence numbers are not too large. -/
theorem ordered_of_less {left right : ShowKeysRow} (h : right.less left = false)
    (hleft : strtoll left.seqInIndex = Decimal.value left.seqInIndex)
    (hright : strtoll right.seqInIndex = Decimal.value right.seqInIndex) : left.Ordered right := by
  have hneg := compares_cmp.neg left right
  have hle : left.cmp right ≤ 0 := by
    rw [less_eq, decide_eq_false_iff_not] at h
    omega
  rw [cmp, hleft, hright] at hle
  rw [Ordered, ← strcmp_eq_zero]
  split_ifs at hle <;> omega

end ShowKeysRow

/-- Without a cardinality the result is not defined. -/
theorem fetchStatistics_eq_none (h : ∃ row ∈ list, row.cardinality = none) :
    fetchStatistics args db rows data rnum list = none := by
  induction list generalizing data rnum with
  | nil =>
    obtain ⟨row, hrow, -⟩ := h
    cases hrow
  | cons row list ih =>
    rw [fetchStatistics]
    cases hcardinality : row.cardinality with
    | none => rfl
    | some cardinality =>
      have hrest : ∃ row ∈ list, row.cardinality = none := by
        obtain ⟨row', hrow', hnone⟩ := h
        rcases List.mem_cons.mp hrow' with rfl | hrow'
        · rw [hcardinality] at hnone
          cases hnone
        · exact ⟨row', hrow', hnone⟩
      rw [Option.bind_some]
      exact Option.bind_eq_none_iff.mpr fun data _ => ih hrest

/-- The columns of a row that has a cardinality. -/
def columnsOf (args : CatalogArgs) (db : List UInt8) (row : ShowKeysRow) : List (ℕ × Cell) :=
  statisticsColumns args db row (row.cardinality.getD [])

/-- With cardinalities rows are added one after the other. -/
theorem fetchStatistics_eq (h : ∀ row ∈ list, row.cardinality ≠ none)
    (hroom : rnum + list.length ≤ rows) :
    fetchStatistics args db rows data rnum list =
      (data.addRows (list.map (columnsOf args db))).map fun data => (data, rnum + list.length) := by
  induction list generalizing data rnum with
  | nil => rfl
  | cons row list ih =>
    obtain ⟨cardinality, hcardinality⟩ :=
      Option.ne_none_iff_exists'.mp (h row List.mem_cons_self)
    have hcolumns : columnsOf args db row = statisticsColumns args db row cardinality := by
      rw [columnsOf, hcardinality]
      rfl
    rw [List.length_cons] at hroom
    rw [fetchStatistics, hcardinality, Option.bind_some, List.map_cons, RowStorage.addRows,
      RowStorage.addRow, hcolumns]
    cases data.setColumns (statisticsColumns args db row cardinality) with
    | none => rfl
    | some data =>
      rw [Option.bind_some, Option.map_some, Option.bind_some, if_pos (by omega),
        ih (fun row hrow => h row (List.mem_cons_of_mem _ hrow)) (by omega), List.length_cons]
      congr 1
      funext data
      rw [Nat.add_assoc, Nat.add_comm 1]

theorem lt_of_mem_statisticsColumns {row : ShowKeysRow} {cardinality : List UInt8}
    {column : ℕ × Cell} (h : column ∈ statisticsColumns args db row cardinality) :
    column.1 < SQLSTAT_FIELDS := by
  rcases List.mem_append.mp h with h | h
  · exact lt_trans (lt_of_mem_catSchemaSet h) (by decide)
  · simp only [List.mem_cons, List.not_mem_nil, or_false] at h
    rcases h with rfl | rfl | rfl | rfl | rfl | rfl | rfl | rfl | rfl | rfl | rfl <;>
      simp [SQLSTAT_FIELDS]

theorem perm_sort (std : Sorting.SortFunction ShowKeysRow) (list : List ShowKeysRow) :
    (std.sort ShowKeysRow.less list).Perm list :=
  std.perm _ ShowKeysRow.strictWeak_less list

/-- The rows of the result are the sorted rows. -/
theorem statisticsNoIS_eq {rows : List ShowKeysRow}
    (h : ∀ row ∈ indexRows uniqueOnly rows, row.cardinality ≠ none) :
    statisticsNoIS std args db uniqueOnly storage rows =
      some ((std.sort ShowKeysRow.less (indexRows uniqueOnly rows)).map fun row =>
        RowStorage.rowOf SQLSTAT_FIELDS (columnsOf args db row)) := by
  have hperm := perm_sort std (indexRows uniqueOnly rows)
  have hfew : (std.sort ShowKeysRow.less (indexRows uniqueOnly rows)).length ≤ rows.length :=
    hperm.length_eq.trans_le (List.length_filter_le _ _)
  have hcolumns : ∀ columns ∈ (std.sort ShowKeysRow.less (indexRows uniqueOnly rows)).map
      (columnsOf args db), ∀ column ∈ columns, column.1 < SQLSTAT_FIELDS := by
    intro columns hcolumns column hcolumn
    obtain ⟨row, -, rfl⟩ := List.mem_map.mp hcolumns
    exact lt_of_mem_statisticsColumns hcolumn
  have hfilled : (std.sort ShowKeysRow.less (indexRows uniqueOnly rows)).map
      (columnsOf args db) ≠ [] → RowStorage.Filled SQLSTAT_FIELDS []
        (storage.invalidate.setSize rows.length SQLSTAT_FIELDS).firstRow := by
    intro hne
    rw [Ne, List.map_eq_nil_iff, ← Ne, ← List.length_pos_iff] at hne
    exact (RowStorage.filled_setSize (by omega) (by decide) storage).firstRow
  have hrows := RowStorage.resultRows_addRows hfilled hcolumns
  rw [List.length_map, List.map_map] at hrows
  rw [statisticsNoIS, fetchStatistics_eq (fun row hrow => h row (hperm.mem_iff.mp hrow)) (by omega),
    Option.map_map]
  refine Eq.trans ?_ hrows
  congr 1
  funext data
  rw [Function.comp_apply, Nat.zero_add]
  split_ifs with hcount
  · rfl
  · have hnone : (std.sort ShowKeysRow.less (indexRows uniqueOnly rows)).length = 0 :=
      not_not.mp hcount
    rw [hnone]
    rfl

/-- Without a cardinality there is no result. -/
theorem statisticsNoIS_eq_none {rows : List ShowKeysRow}
    (h : ∃ row ∈ indexRows uniqueOnly rows, row.cardinality = none) :
    statisticsNoIS std args db uniqueOnly storage rows = none := by
  obtain ⟨row, hrow, hnone⟩ := h
  rw [statisticsNoIS, fetchStatistics_eq_none
    ⟨row, (perm_sort std (indexRows uniqueOnly rows)).mem_iff.mpr hrow, hnone⟩, Option.map_none]

/-- A number with its sign has the text of a number without one if it is this number. -/
theorem signedText_eq_text_iff {z : ℤ} {n : ℕ} : Decimal.signedText z = Decimal.text n ↔ z = n := by
  constructor
  · intro h
    rw [Decimal.signedText] at h
    split_ifs at h with hneg
    · have hdigit : Decimal.IsDigit 0x2d := Decimal.isDigit_text (h ▸ List.mem_cons_self)
      exact absurd hdigit.1 (by decide)
    · have hvalue := congrArg Decimal.value h
      rw [Decimal.value_text, Decimal.value_text] at hvalue
      omega
  · rintro rfl
    rw [Decimal.signedText, if_neg (by omega), Int.natAbs_natCast]

theorem strtoll_text (n : ℕ) : strtoll (Decimal.text n) = min (2 ^ 63 - 1) (n : ℤ) := by
  rw [strtoll_digits fun c => Decimal.isDigit_text, Decimal.value_text]

/-- What is read as a number of so many bits is printed as it was exactly if it is one. -/
theorem signedText_bmod_iff {n : ℕ} :
    (Decimal.signedText ((strtoll (Decimal.text n)).bmod (2 ^ 16)) = Decimal.text n ↔
        n < 2 ^ 15) ∧
      (Decimal.signedText ((strtoll (Decimal.text n)).bmod (2 ^ 32)) = Decimal.text n ↔
        n < 2 ^ 31) := by
  rw [signedText_eq_text_iff, signedText_eq_text_iff, strtoll_text]
  simp only [Int.bmod]
  omega

/-- What has been cut to so many bits is one. -/
theorem lt_of_signedText_bmod {z : ℤ} {n : ℕ} :
    (Decimal.signedText (z.bmod (2 ^ 16)) = Decimal.text n → n < 2 ^ 15) ∧
      (Decimal.signedText (z.bmod (2 ^ 32)) = Decimal.text n → n < 2 ^ 31) := by
  rw [signedText_eq_text_iff, signedText_eq_text_iff]
  simp only [Int.bmod]
  omega

/-- The columns for position and cardinality. -/
theorem getElem?_rowOf {args : CatalogArgs} {db : List UInt8} (a b c d e f g h i j k : Cell) :
    (RowStorage.rowOf SQLSTAT_FIELDS (catSchemaSet args db ++ [(2, a), (3, b), (4, c), (5, d),
        (6, e), (7, f), (8, g), (9, h), (10, i), (11, j), (12, k)]))[7]? = some f ∧
      (RowStorage.rowOf SQLSTAT_FIELDS (catSchemaSet args db ++ [(2, a), (3, b), (4, c), (5, d),
        (6, e), (7, f), (8, g), (9, h), (10, i), (11, j), (12, k)]))[10]? = some i := by
  have hlength := RowStorage.length_rowOf SQLSTAT_FIELDS (catSchemaSet args db)
  change (RowStorage.rowOf SQLSTAT_FIELDS (catSchemaSet args db)).length = 13 at hlength
  rw [RowStorage.rowOf, List.foldl_append, ← RowStorage.rowOf]
  simp [hlength]

/-- A row of the listing with numbers of their types is copied. -/
theorem rowOf_columnsOf {row : ShowKeysRow} (hrow : WellFormed row)
    (hseq : Decimal.value row.seqInIndex < 2 ^ 15)
    (hcardinality : ∃ text ∈ row.cardinality, Decimal.value text < 2 ^ 31) :
    RowStorage.rowOf SQLSTAT_FIELDS (columnsOf args db row) = statisticsRow args db row := by
  obtain ⟨text, htext, hfits⟩ := hcardinality
  obtain ⟨n, hn⟩ := hrow.seqInIndex
  obtain ⟨m, rfl⟩ := hrow.cardinality text htext
  rw [hn, Decimal.value_text] at hseq
  rw [Decimal.value_text] at hfits
  have hunique : Decimal.signedText row.nonUniqueNumber = row.nonUnique := by
    rw [ShowKeysRow.nonUniqueNumber]
    rcases hrow.nonUnique with h | h
    · rw [h]
      rfl
    · rw [h]
      rfl
  rw [columnsOf, statisticsColumns, statisticsRow, htext, hn]
  dsimp only [Option.getD_some]
  rw [hunique, signedText_bmod_iff.1.mpr hseq, signedText_bmod_iff.2.mpr hfits]
  rfl

/-- Position and cardinality of a copied row have been printed. -/
theorem numbers_of_rowOf_eq {row row' : ShowKeysRow}
    (h : RowStorage.rowOf SQLSTAT_FIELDS (columnsOf args db row') = statisticsRow args db row) :
    row.seqInIndex = Decimal.signedText ((strtoll row'.seqInIndex).bmod (2 ^ 16)) ∧
      row.cardinality =
        some (Decimal.signedText ((strtoll (row'.cardinality.getD [])).bmod (2 ^ 32))) := by
  rw [columnsOf, statisticsColumns, statisticsRow] at h
  have hseq := (getElem?_rowOf ..).1.symm.trans ((congrArg (·[7]?) h).trans (getElem?_rowOf ..).1)
  have hcardinality :=
    (getElem?_rowOf ..).2.symm.trans ((congrArg (·[10]?) h).trans (getElem?_rowOf ..).2)
  exact ⟨(Option.some.inj (Option.some.inj hseq)).symm, (Option.some.inj hcardinality).symm⟩

/-- `statistics_no_i_s` lists the statistics exactly if the numbers fit. -/
theorem statisticsNoIS_listsStatistics_iff (std : Sorting.SortFunction ShowKeysRow)
    (args : CatalogArgs) (db : List UInt8) (uniqueOnly : Bool) (storage : RowStorage)
    (listing : KeyRows) :
    ListsStatistics std args db uniqueOnly storage listing ↔ NumbersFit uniqueOnly listing := by
  have hlisted : ∀ row ∈ indexRows uniqueOnly listing.rows, WellFormed row := fun row hrow =>
    listing.wellFormed row (List.mem_of_mem_filter hrow)
  have hsort := perm_sort std (indexRows uniqueOnly listing.rows)
  constructor
  · rintro ⟨order, horder, -, hresult⟩ row hrow
    have hall : ∀ row ∈ indexRows uniqueOnly listing.rows, row.cardinality ≠ none := by
      intro row hrow hnone
      rw [statisticsNoIS_eq_none ⟨row, hrow, hnone⟩] at hresult
      cases hresult
    rw [statisticsNoIS_eq hall, Option.some.injEq] at hresult
    have hmem : statisticsRow args db row ∈ order.map (statisticsRow args db) :=
      List.mem_map_of_mem (horder.mem_iff.mpr hrow)
    rw [← hresult] at hmem
    obtain ⟨row', -, hsame⟩ := List.mem_map.mp hmem
    obtain ⟨hseq, hcardinality⟩ := numbers_of_rowOf_eq hsame
    obtain ⟨n, hn⟩ := (hlisted row hrow).seqInIndex
    obtain ⟨m, hm⟩ := (hlisted row hrow).cardinality _ hcardinality
    refine ⟨?_, _, hcardinality, ?_⟩
    · rw [hn] at hseq ⊢
      rw [Decimal.value_text]
      exact lt_of_signedText_bmod.1 hseq.symm
    · rw [hm, Decimal.value_text]
      exact lt_of_signedText_bmod.2 hm
  · intro hfit
    refine ⟨_, hsort, ?_, ?_⟩
    · have hvalue : ∀ row ∈ std.sort ShowKeysRow.less (indexRows uniqueOnly listing.rows),
          strtoll row.seqInIndex = Decimal.value row.seqInIndex := by
        intro row hrow
        have hrow := hsort.mem_iff.mp hrow
        obtain ⟨n, hn⟩ := (hlisted row hrow).seqInIndex
        have hlt := (hfit row hrow).1
        rw [hn, Decimal.value_text] at hlt ⊢
        rw [strtoll_text]
        omega
      exact (std.sorted _ ShowKeysRow.strictWeak_less _).imp_of_mem fun hleft hright hless =>
        ShowKeysRow.ordered_of_less hless (hvalue _ hleft) (hvalue _ hright)
    · rw [statisticsNoIS_eq]
      · apply congrArg some
        apply List.map_congr_left
        intro row hrow
        have hrow := hsort.mem_iff.mp hrow
        exact rowOf_columnsOf (hlisted row hrow) (hfit row hrow).1 (hfit row hrow).2
      · intro row hrow hnone
        obtain ⟨text, htext, -⟩ := (hfit row hrow).2
        rw [hnone] at htext
        cases htext

/-- The row of an index on `c` without a cardinality. -/
theorem statisticsNoIS_noCardinality_not_listsStatistics :
    ∃ listing : KeyRows, listing.rows = [⟨[0x74], [0x31], [0x75], [0x31], some [0x63], none, none⟩] ∧
      ¬ ListsStatistics (Sorting.mergeSort _) ⟨false, false, 0, 0, false⟩ [] false ⟨0, 0, 0, true, []⟩
        listing := by
  have hwell : ∀ row ∈ [ShowKeysRow.mk [0x74] [0x31] [0x75] [0x31] (some [0x63]) none none],
      WellFormed row := by
    intro row hrow
    rw [List.mem_singleton.mp hrow]
    exact ⟨Or.inr rfl, ⟨1, rfl⟩, fun text htext => absurd htext (by simp)⟩
  refine ⟨⟨_, hwell⟩, rfl, ?_⟩
  rintro ⟨order, -, -, hresult⟩
  rw [statisticsNoIS_eq_none ⟨_, List.mem_singleton.mpr rfl, rfl⟩] at hresult
  cases hresult

end MatrixOdbc.Driver
