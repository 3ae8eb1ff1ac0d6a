import MatrixOdbc.Driver.ParamArray
import MatrixOdbc.Driver.ParamPaths

/-!
# Rows of a parameter array

The literal of a row should depend on the memory of that row only: its element of the array of
values, its length and its indicator. Two memories that agree there should give the same literal.
A timestamp that is written as a time breaks this, as it is read at the pointer of the record and
not at the place of the row. So do an empty text without a buffer for a type of dates, whose first
byte is read, and a wide text that ends with the first half of a pair.
-/

namespace MatrixOdbc.Driver

open Util

namespace ParamRecord

variable {rec : ParamRecord} {env env' : ArrayEnv} {mem mem' : List UInt8} {row : ℕ}
  {st st' : ParamBuffer}

/-- An address in a cell of eight bytes. -/
def InCell (cell a : ℕ) : Prop := cell ≠ 0 ∧ cell ≤ a ∧ a < cell + 8

instance (cell a : ℕ) : Decidable (InCell cell a) := inferInstanceAs (Decidable (_ ∧ _))

/-- An address of the length or the indicator of the row. -/
def InCells (rec : ParamRecord) (row a : ℕ) : Prop :=
  InCell (rec.lengthCell row) a ∨ InCell (rec.indicatorCell row) a

instance (rec : ParamRecord) (row a : ℕ) : Decidable (rec.InCells row a) :=
  inferInstanceAs (Decidable (_ ∨ _))

/-- The bytes of the element of the row: its buffer, and the text up to its length or through its
terminator. -/
@[grind =] def elementSize (rec : ParamRecord) (mem : List UInt8) (row : ℕ) : ℕ :=
  let memory := mem.drop (rec.data row)
  let length := cellAt mem (rec.lengthCell row)
  let terminated := length = none ∨ length = some sqlNts
  match rec.conciseType with
  | .SQL_C_CHAR | .SQL_C_BINARY =>
    max rec.octetLength.toNat (if terminated then (memory.takeWhile (· ≠ 0)).length + 1
      else (length.getD 0).toNat)
  | .SQL_C_WCHAR =>
    max rec.octetLength.toNat (if terminated then 2 * (sqlwcharlen (unitsOf memory) + 1)
      else (length.getD 0).toNat)
  | cType => cType.valueSize

/-- An address of the element of the row. -/
def InElement (rec : ParamRecord) (mem : List UInt8) (row a : ℕ) : Prop :=
  rec.data row ≠ 0 ∧ rec.data row ≤ a ∧ a < rec.data row + rec.elementSize mem row

instance (rec : ParamRecord) (mem : List UInt8) (row a : ℕ) : Decidable (rec.InElement mem row a) :=
  inferInstanceAs (Decidable (_ ∧ _))

/-- An address of the row. -/
def InRow (rec : ParamRecord) (mem : List UInt8) (row a : ℕ) : Prop :=
  rec.InCells row a ∨ rec.InElement mem row a

instance (rec : ParamRecord) (mem : List UInt8) (row a : ℕ) : Decidable (rec.InRow mem row a) :=
  inferInstanceAs (Decidable (_ ∨ _))

/-- A memory with the same row. -/
structure SameRow (rec : ParamRecord) (row : ℕ) (mem mem' : List UInt8) : Prop where
  length : mem'.length = mem.length
  bytes : ∀ a, rec.InRow mem row a → mem'[a]? = mem[a]?

/-- Reading bytes that are the same. -/
theorem bytesAt_congr {memory memory' : List UInt8} {offset size : ℕ}
    (h : ∀ i < size, memory'[offset + i]? = memory[offset + i]?) :
    bytesAt memory' offset size = bytesAt memory offset size := by
  refine List.map_congr_left fun i hi => ?_
  rw [List.getD, List.getD, h i (List.mem_range.mp hi)]

/-- Reading a number that is the same. -/
theorem unsignedAt_congr {memory memory' : List UInt8} {offset size : ℕ}
    (h : ∀ i < size, memory'[offset + i]? = memory[offset + i]?) :
    unsignedAt memory' offset size = unsignedAt memory offset size := by
  rw [unsignedAt, unsignedAt, bytesAt_congr h]

@[inherit_doc unsignedAt_congr]
theorem signedAt_congr {memory memory' : List UInt8} {offset size : ℕ}
    (h : ∀ i < size, memory'[offset + i]? = memory[offset + i]?) :
    signedAt memory' offset size = signedAt memory offset size := by
  rw [signedAt, signedAt, unsignedAt_congr h]

/-- Reading the clock of a timestamp that is the same. -/
theorem clock_congr {memory memory' : List UInt8} {offset : ℕ}
    (h : ∀ i, 6 ≤ i → i < 16 → memory'[offset + i]? = memory[offset + i]?) :
    (timestampAt memory' offset).timeText = (timestampAt memory offset).timeText := by
  have hpart : ∀ start size, 6 ≤ start → start + size ≤ 16 →
      unsignedAt memory' (offset + start) size = unsignedAt memory (offset + start) size := by
    intro start size hstart hsize
    refine unsignedAt_congr fun i hi => ?_
    rw [Nat.add_assoc]
    exact h (start + i) (by omega) (by omega)
  simp only [CTimestamp.timeText, CTime.text, timestampAt, timeAt, Nat.add_assoc, Nat.reduceAdd,
    hpart 6 2 (by decide) (by decide), hpart 8 2 (by decide) (by decide),
    hpart 10 2 (by decide) (by decide), hpart 12 4 (by decide) (by decide)]

/-- Reading a value of a fixed size that is the same. -/
theorem decodeValue_congr {memory memory' : List UInt8} {cType : ParamCType}
    (htext : cType.isText = false) (h : ∀ i < cType.valueSize, memory'[i]? = memory[i]?) :
    decodeValue env cType memory' = decodeValue env cType memory := by
  have hbytes : ∀ start size, start + size ≤ cType.valueSize →
      bytesAt memory' start size = bytesAt memory start size :=
    fun start size hsize => bytesAt_congr fun i hi => h (start + i) (by omega)
  have hunsigned : ∀ start size, start + size ≤ cType.valueSize →
      unsignedAt memory' start size = unsignedAt memory start size := by
    intro start size hsize
    rw [unsignedAt, unsignedAt, hbytes start size hsize]
  have hsigned : ∀ start size, start + size ≤ cType.valueSize →
      signedAt memory' start size = signedAt memory start size := by
    intro start size hsize
    rw [signedAt, signedAt, hunsigned start size hsize]
  cases cType
  case SQL_C_CHAR | SQL_C_BINARY | SQL_C_WCHAR => cases htext
  all_goals simp only [ParamCType.valueSize] at hbytes hunsigned hsigned
  all_goals simp (disch := decide) only [decodeValue, dateAt, timeAt, timestampAt, hbytes,
    hunsigned, hsigned]

/-- A text and its terminator, read twice. -/
theorem takeWhile_congr {α : Type*} {p : α → Bool} {text text' : List α}
    (h : ∀ i ≤ (text.takeWhile p).length, text'[i]? = text[i]?) :
    text'.takeWhile p = text.takeWhile p := by
  induction text generalizing text' with
  | nil =>
    have hnil : text'[0]? = none := h 0 (Nat.zero_le _)
    rw [List.eq_nil_of_length_eq_zero (Nat.le_zero.mp (List.getElem?_eq_none_iff.mp hnil))]
  | cons c text ih =>
    cases text' with
    | nil => cases h 0 (Nat.zero_le _)
    | cons c' text' =>
      obtain rfl : c' = c := Option.some.inj (h 0 (Nat.zero_le _))
      rw [List.takeWhile_cons, List.takeWhile_cons]
      split_ifs with hc
      · rw [ih fun i hi => h (i + 1) (by simpa [hc] using hi)]
      · rfl

/-- A terminator stands behind the units in front of it. -/
theorem mem_iff_length_takeWhile {α : Type*} [DecidableEq α] {z : α} {text : List α} :
    z ∈ text ↔ (text.takeWhile (· ≠ z)).length < text.length := by
  induction text with
  | nil => simp
  | cons c text ih =>
    by_cases hc : c = z
    · simp [hc]
    · simp [hc, Ne.symm hc, ih]

/-- `sqlwcharlen` counts the units in front of the terminator. -/
theorem sqlwcharlen_eq (wstr : List SQLWCHAR) :
    sqlwcharlen wstr = (wstr.takeWhile (· ≠ 0)).length := by
  induction wstr with
  | nil => rfl
  | cons c wstr ih =>
    by_cases hc : c = 0
    · simp [sqlwcharlen, hc]
    · simp [sqlwcharlen, hc, ih]

/-- A unit is made of two bytes. -/
theorem getElem?_unitsOf (memory : List UInt8) (i : ℕ) :
    (unitsOf memory)[i]? = (memory[2 * i]?).bind fun low => (memory[2 * i + 1]?).map fun high =>
      UInt16.ofNat (low.toNat + 256 * high.toNat) := by
  induction memory using unitsOf.induct generalizing i with
  | case1 low high memory ih =>
    cases i with
    | zero => rfl
    | succ i => exact ih i
  | case2 memory hshort =>
    have hlength : memory.length ≤ 1 := by
      match memory, hshort with
      | [], _ => simp
      | [_], _ => simp
      | low :: high :: memory, hshort => exact absurd rfl (hshort low high memory)
    have hunits : unitsOf memory = [] := by
      unfold unitsOf
      split
      · simp at hlength
      · rfl
    rw [hunits, List.getElem?_nil]
    cases hlow : memory[2 * i]? with
    | none => rfl
    | some low => rw [List.getElem?_eq_none (by omega : memory.length ≤ 2 * i + 1)]; rfl

/-- The number of units. -/
theorem length_unitsOf (memory : List UInt8) : (unitsOf memory).length = memory.length / 2 := by
  fun_induction unitsOf memory with
  | case1 low high memory ih => simp [ih]; omega
  | case2 memory hshort =>
    match memory, hshort with
    | [], _ => rfl
    | [_], _ => simp
    | low :: high :: memory, hshort => exact absurd rfl (hshort low high memory)

/-- Reading units whose bytes are the same. -/
theorem unitsOf_congr {memory memory' : List UInt8} {n : ℕ}
    (h : ∀ i < 2 * n, memory'[i]? = memory[i]?) :
    ∀ i < n, (unitsOf memory')[i]? = (unitsOf memory)[i]? := by
  intro i hi
  rw [getElem?_unitsOf, getElem?_unitsOf, h (2 * i) (by omega), h (2 * i + 1) (by omega)]

/-- Reading a cell that is the same. -/
theorem cellAt_congr {cell : ℕ} (h : ∀ a, InCell cell a → mem'[a]? = mem[a]?) :
    cellAt mem' cell = cellAt mem cell := by
  unfold cellAt
  split_ifs with hcell
  · rfl
  · rw [signedAt_congr fun i hi => h (cell + i) ⟨hcell, by omega, by omega⟩]

/-- A value that is bound is read at the place of the row. -/
theorem memoryAt_of_bound (hexec : rec.atExec mem row = false) (hdata : rec.data row ≠ 0) :
    rec.memoryAt mem row = mem.drop (rec.data row) := by
  rw [memoryAt, hexec, if_neg hdata]
  rfl

namespace SameRow

variable (h : rec.SameRow row mem mem')
include h

theorem cellAt_lengthCell :
    cellAt mem' (rec.lengthCell row) = cellAt mem (rec.lengthCell row) :=
  cellAt_congr fun a ha => h.bytes a (.inl (.inl ha))

theorem cellAt_indicatorCell :
    cellAt mem' (rec.indicatorCell row) = cellAt mem (rec.indicatorCell row) :=
  cellAt_congr fun a ha => h.bytes a (.inl (.inr ha))

theorem atExec_eq : rec.atExec mem' row = rec.atExec mem row := by
  rw [atExec, atExec, h.cellAt_lengthCell]

theorem givenLength_eq : rec.givenLength mem' row = rec.givenLength mem row := by
  unfold givenLength
  rw [h.cellAt_lengthCell]

/-- The element is the same. -/
theorem element (hdata : rec.data row ≠ 0) {i : ℕ} (hi : i < rec.elementSize mem row) :
    (mem'.drop (rec.data row))[i]? = (mem.drop (rec.data row))[i]? := by
  rw [List.getElem?_drop, List.getElem?_drop]
  exact h.bytes _ (.inr ⟨hdata, by omega, by omega⟩)

/-- The memory of a value is the same unless it is that of the element. -/
theorem memoryAt_eq (hother : rec.atExec mem row = true ∨ rec.data row = 0) :
    rec.memoryAt mem' row = rec.memoryAt mem row := by
  unfold memoryAt
  rw [h.atExec_eq]
  obtain hexec | hdata := hother
  · rw [if_pos hexec, if_pos hexec]
  · rw [if_pos hdata, if_pos hdata]

/-- A value that is not in memory is not in that of the same row either. -/
theorem usesNull_eq : rec.usesNull mem' row = rec.usesNull mem row := by
  have hhead : rec.readsNoHead mem' row = rec.readsNoHead mem row := by
    unfold readsNoHead
    rw [h.atExec_eq]
    by_cases hother : rec.atExec mem row = true ∨ rec.data row = 0
    · rw [h.memoryAt_eq hother]
    · rw [not_or, Bool.not_eq_true] at hother
      simp only [hother.1, hother.2, decide_false, Bool.false_or, Bool.false_and]
  unfold usesNull
  rw [h.atExec_eq, hhead]

/-- A value of a fixed size is the same. -/
theorem value_eq (htext : rec.conciseType.isText = false) :
    (rec.boundParam env mem' row).value = (rec.boundParam env mem row).value := by
  change decodeValue env rec.conciseType (rec.memoryAt mem' row) =
    decodeValue env rec.conciseType (rec.memoryAt mem row)
  by_cases hother : rec.atExec mem row = true ∨ rec.data row = 0
  · rw [h.memoryAt_eq hother]
  · rw [not_or] at hother
    obtain ⟨hexec, hdata⟩ := hother
    unfold memoryAt
    rw [h.atExec_eq, if_neg hexec, if_neg hexec, if_neg hdata, if_neg hdata]
    refine decodeValue_congr htext fun i hi => h.element hdata ?_
    unfold elementSize
    cases htype : rec.conciseType with
    | SQL_C_CHAR => rw [htype] at htext; cases htext
    | SQL_C_BINARY => rw [htype] at htext; cases htext
    | SQL_C_WCHAR => rw [htype] at htext; cases htext
    | _ => rwa [htype] at hi

end SameRow

/-- The same is taken of parameters with the same length and indicator. -/
theorem taken_congr {p p' : BoundParam} (hbuffer : p'.bufferLength = p.bufferLength)
    (hlength : p'.octetLength = p.octetLength) (hindicator : p'.indicator = p.indicator)
    (hpar : p'.parLength = p.parLength)
    (hdefault : (p'.value matches .SQL_C_DEFAULT) = (p.value matches .SQL_C_DEFAULT))
    (hterminated : p.octetLength = none ∨ p.octetLength = some sqlNts →
      BoundParam.terminatedLength p'.value = BoundParam.terminatedLength p.value) :
    p'.taken = p.taken := by
  unfold BoundParam.taken
  rw [hbuffer, hlength, hindicator, hpar]
  apply if_congr Iff.rfl rfl
  by_cases hnone : p.octetLength = none
  · rw [hterminated (.inl hnone), if_pos hnone, if_pos hnone]
  · rw [if_neg hnone, if_neg hnone]
    by_cases hnts : p.octetLength = some sqlNts
    · rw [hterminated (.inr hnts), if_pos hnts, if_pos hnts]
    · rw [if_neg hnts, if_neg hnts]
      have hunbound := Bool.eq_iff_iff.mp hdefault
      exact if_congr (or_congr Iff.rfl (and_congr Iff.rfl (and_congr hunbound Iff.rfl))) rfl rfl

/-- A type of texts is that of the value. -/
theorem decodeValue_isDefault (memory memory' : List UInt8) (cType : ParamCType) :
    (decodeValue env cType memory' matches .SQL_C_DEFAULT) =
      (decodeValue env cType memory matches .SQL_C_DEFAULT) := by
  cases cType <;> rfl

/-- The length of a terminated text that is read twice. -/
theorem terminatedLength_congr {memory memory' : List UInt8} {cType : ParamCType}
    (hlength : memory'.length = memory.length) (htext : cType.isText = true)
    (hbytes : cType ≠ .SQL_C_WCHAR →
      ∀ i ≤ (memory.takeWhile (· ≠ 0)).length, memory'[i]? = memory[i]?)
    (hunits : cType = .SQL_C_WCHAR →
      ∀ i ≤ sqlwcharlen (unitsOf memory), (unitsOf memory')[i]? = (unitsOf memory)[i]?) :
    BoundParam.terminatedLength (decodeValue env cType memory') =
      BoundParam.terminatedLength (decodeValue env cType memory) := by
  have hnarrow : cType ≠ .SQL_C_WCHAR →
      memory'.takeWhile (· ≠ 0) = memory.takeWhile (· ≠ 0) ∧ (0 ∈ memory' ↔ 0 ∈ memory) := by
    intro htype
    have hfront := takeWhile_congr (hbytes htype)
    rw [mem_iff_length_takeWhile, mem_iff_length_takeWhile, hfront, hlength]
    exact ⟨rfl, Iff.rfl⟩
  cases cType
  case SQL_C_CHAR | SQL_C_BINARY =>
    obtain ⟨hfront, hmem⟩ := hnarrow nofun
    simp only [decodeValue, BoundParam.terminatedLength, hfront, hmem]
  case SQL_C_WCHAR =>
    have hunits := hunits rfl
    rw [sqlwcharlen_eq] at hunits
    have hfront := takeWhile_congr hunits
    have hmem : 0 ∈ unitsOf memory' ↔ 0 ∈ unitsOf memory := by
      rw [mem_iff_length_takeWhile, mem_iff_length_takeWhile, hfront, length_unitsOf,
        length_unitsOf, hlength]
    simp only [decodeValue, BoundParam.terminatedLength, sqlwcharlen_eq, hfront, hmem]
  all_goals cases htext

/-- What a text is with a terminator: it is at the place of the row. -/
theorem terminated_of_givenLength (htext : rec.conciseType.isText = true)
    (hgiven : rec.givenLength mem row = none ∨ rec.givenLength mem row = some sqlNts) :
    rec.data row ≠ 0 ∧ rec.atExec mem row = false ∧
      (cellAt mem (rec.lengthCell row) = none ∨
        cellAt mem (rec.lengthCell row) = some sqlNts) := by
  unfold givenLength at hgiven
  dsimp only at hgiven
  split_ifs at hgiven with hnull
  · simp [sqlNts] at hgiven
  · refine ⟨fun hdata => hnull ⟨hdata, htext, hgiven⟩, ?_, hgiven⟩
    obtain hnone | hnts := hgiven
    · rw [atExec, hnone]; rfl
    · rw [atExec, hnts]; rfl

/-- The same is taken of the same row. -/
theorem SameRow.taken_eq (h : rec.SameRow row mem mem') :
    (rec.boundParam env mem' row).taken = (rec.boundParam env mem row).taken := by
  refine taken_congr rfl h.givenLength_eq h.cellAt_indicatorCell rfl
    (decodeValue_isDefault ..) fun hgiven => ?_
  cases htext : rec.conciseType.isText with
  | false => rw [h.value_eq htext]
  | true =>
    obtain ⟨hdata, hexec, hlength⟩ := terminated_of_givenLength htext hgiven
    have hmemory := memoryAt_of_bound hexec hdata
    have hmemory' := memoryAt_of_bound (h.atExec_eq.trans hexec) hdata
    change BoundParam.terminatedLength (decodeValue env rec.conciseType _) =
      BoundParam.terminatedLength (decodeValue env rec.conciseType _)
    rw [hmemory, hmemory']
    refine terminatedLength_congr (by simp [h.length]) htext (fun htype i hi => ?_)
      fun htype => ?_
    · apply h.element hdata
      unfold elementSize
      cases htype' : rec.conciseType with
      | SQL_C_CHAR | SQL_C_BINARY => simp only [if_pos hlength]; omega
      | SQL_C_WCHAR => exact absurd htype' htype
      | _ => rw [htype'] at htext; cases htext
    · have hunits := @unitsOf_congr (mem.drop (rec.data row)) (mem'.drop (rec.data row))
        (sqlwcharlen (unitsOf (mem.drop (rec.data row))) + 1) fun i hi => by
          apply h.element hdata
          unfold elementSize
          rw [htype]
          simp only [if_pos hlength]
          omega
      exact fun i hi => hunits i (by omega)

/-- The conversion is refused. -/
def Refused (rec : ParamRecord) : Prop :=
  (rec.aprecType = .SQL_DATETIME ∧ rec.iprecType = .SQL_INTERVAL) ∨
    (rec.aprecType = .SQL_INTERVAL ∧ rec.iprecType = .SQL_DATETIME) ∨
    rec.conciseType = .otherInterval

instance (rec : ParamRecord) : Decidable rec.Refused := inferInstanceAs (Decidable (_ ∨ _))

/-- The message of the refusal of a value. -/
def valueRefused : CValue → Option String
  | .otherInterval => some "Conversion is not supported by driver"
  | _ => none

/-- The message of a refusal depends on the types only. -/
theorem conversionRefused_congr :
    (rec.boundParam env' mem' row).conversionRefused =
      (rec.boundParam env mem row).conversionRefused := by
  apply if_congr Iff.rfl rfl
  change valueRefused (decodeValue env' rec.conciseType _) =
    valueRefused (decodeValue env rec.conciseType _)
  cases rec.conciseType <;> simp [decodeValue, valueRefused]

/-- When there is no refusal. -/
theorem conversionRefused_eq_none_iff :
    (rec.boundParam env mem row).conversionRefused = none ↔ ¬ rec.Refused := by
  have hvalue : valueRefused (decodeValue env rec.conciseType (rec.memoryAt mem row)) = none ↔
      rec.conciseType ≠ .otherInterval := by
    cases rec.conciseType <;> simp [decodeValue, valueRefused]
  unfold BoundParam.conversionRefused Refused
  split_ifs with htypes
  · refine iff_of_false (by simp) fun h => h ?_
    obtain htypes | htypes := htypes
    · exact .inl htypes
    · exact .inr (.inl htypes)
  · apply Iff.trans hvalue
    rw [← or_assoc, not_or]
    exact (and_iff_right htypes).symm

/-- What is in the buffer of the statement behind a row, and whether a fraction was lost. -/
def written (rec : ParamRecord) (env : ArrayEnv) (mem : List UInt8) (row : ℕ) (st : ParamBuffer) :
    Except Failure (List UInt8 × Bool) :=
  (rec.insertRow env mem row st).map fun result => (result.1.st.buf, result.2)

/-- A value that is taken and not refused is converted and written. -/
theorem written_value {length : ℤ}
    (htaken : (rec.boundParam env mem row).taken = .ok (.value length)) (hok : ¬ rec.Refused)
    (hnull : rec.usesNull mem row = false) :
    rec.written env mem row st =
      convertCType2str env.toPathEnv false (rec.boundParam env mem row).value length >>=
        fun data => ((rec.boundParam env mem row).insertText env.toPathEnv false data st).map
          fun written => (written.st.buf, data.truncated) := by
  have hrefused : (rec.boundParam env mem row).conversionRefused = none :=
    conversionRefused_eq_none_iff.mpr hok
  unfold written insertRow
  simp only [htaken, hrefused, hnull, Bool.false_eq_true, and_false, if_false]
  unfold BoundParam.insertBoundParam
  rw [htaken]
  simp only [hrefused]
  change ((convertCType2str env.toPathEnv false _ length).bind _).map _ = Except.bind _ _
  cases convertCType2str env.toPathEnv false (rec.boundParam env mem row).value length with
  | error failure => rfl
  | ok data =>
    change ((BoundParam.insertText _ _ _ data st).map _).map _ = Except.map _ _
    cases (rec.boundParam env mem row).insertText env.toPathEnv false data st with
    | error failure => rfl
    | ok written => rfl

/-- An error in taking the value is that of the row. -/
theorem written_error {failure : Failure}
    (htaken : (rec.boundParam env mem row).taken = .error failure) :
    rec.written env mem row st = .error failure := by
  unfold written insertRow
  simp only [htaken]
  unfold BoundParam.insertBoundParam
  rw [htaken]
  rfl

/-- A row without a value. -/
theorem written_null (htaken : (rec.boundParam env mem row).taken = .ok .null) :
    rec.written env mem row st = .ok (st.buf ++ BoundParam.nullText, false) := by
  unfold written insertRow
  simp only [htaken]
  unfold BoundParam.insertBoundParam
  rw [htaken]
  rfl

@[inherit_doc written_null]
theorem written_default (htaken : (rec.boundParam env mem row).taken = .ok .default) :
    rec.written env mem row st = .ok (st.buf ++ BoundParam.defaultText, false) := by
  unfold written insertRow
  simp only [htaken]
  unfold BoundParam.insertBoundParam
  rw [htaken]
  rfl

/-- A value whose conversion is refused. -/
theorem written_refused {length : ℤ} {message : String}
    (htaken : (rec.boundParam env mem row).taken = .ok (.value length))
    (hrefused : (rec.boundParam env mem row).conversionRefused = some message) :
    rec.written env mem row st = .error (.error "07006" message) := by
  unfold written insertRow
  simp only [htaken, hrefused, reduceCtorEq, false_and, if_false]
  unfold BoundParam.insertBoundParam
  rw [htaken]
  simp only [hrefused]
  rfl

/-- A value at NULL. -/
theorem written_usesNull {length : ℤ}
    (htaken : (rec.boundParam env mem row).taken = .ok (.value length)) (hok : ¬ rec.Refused)
    (hnull : rec.usesNull mem row = true) :
    rec.written env mem row st = .error .undefined := by
  have hrefused : (rec.boundParam env mem row).conversionRefused = none :=
    conversionRefused_eq_none_iff.mpr hok
  unfold written insertRow
  simp only [htaken, hrefused, hnull, and_self, if_true]
  rfl

/-- A row is written alike when the same is taken of it and its value is written alike. -/
theorem written_congr (hbuf : st'.buf = st.buf)
    (htaken : (rec.boundParam env' mem' row).taken = (rec.boundParam env mem row).taken)
    (hnull : rec.usesNull mem' row = rec.usesNull mem row)
    (hvalue : ∀ length, (rec.boundParam env mem row).taken = .ok (.value length) →
      ¬ rec.Refused → rec.usesNull mem row = false →
      rec.written env' mem' row st' = rec.written env mem row st) :
    rec.written env' mem' row st' = rec.written env mem row st := by
  cases htaken' : (rec.boundParam env mem row).taken with
  | error failure => rw [written_error htaken', written_error (htaken.trans htaken')]
  | ok taken =>
    cases taken with
    | null => rw [written_null htaken', written_null (htaken.trans htaken'), hbuf]
    | default => rw [written_default htaken', written_default (htaken.trans htaken'), hbuf]
    | value length =>
      cases hrefused : (rec.boundParam env mem row).conversionRefused with
      | some message =>
        rw [written_refused htaken' hrefused,
          written_refused (htaken.trans htaken') (conversionRefused_congr.trans hrefused)]
      | none =>
        have hok := conversionRefused_eq_none_iff.mp hrefused
        cases hnull' : rec.usesNull mem row with
        | false => exact hvalue length htaken' hok hnull'
        | true =>
          rw [written_usesNull htaken' hok hnull',
            written_usesNull (htaken.trans htaken') hok (hnull.trans hnull')]

/-- What `insert_param` writes of a text: its bytes, for a date the first byte of its memory, and
for a bit the first byte of what is not a text of the application. -/
theorem insertText_congr {p p' : BoundParam} {data data' : ParamText} {penv : PathEnv}
    (hsql : p'.sqlType = p.sqlType) (hconvert : p'.value.convert = p.value.convert)
    (hinterval : p'.value.isHourInterval = p.value.isHourInterval)
    (htime : p.sqlType.switchCase = .time → p'.timeOf data' = p.timeOf data)
    (htext : data'.text = data.text)
    (hhead : p.sqlType.switchCase = .date ∨ p.sqlType.switchCase = .timestamp →
      data'.memory.head? = data.memory.head?)
    (hbit : p.value.convert = false → data'.memory.take 1 = data.memory.take 1) :
    p'.insertText penv false data' st = p.insertText penv false data st := by
  unfold BoundParam.insertText
  rw [hsql, hconvert, hinterval, htext]
  cases hcase : p.sqlType.switchCase with
  | date => simp only [hhead (.inl hcase)]
  | timestamp => simp only [hhead (.inr hcase)]
  | time => simp only [htime hcase]
  | bit =>
    cases hconvert' : p.value.convert with
    | true => rfl
    | false => simp only [hbit hconvert', Bool.false_eq_true, if_false]
  | character => simp only [Bool.false_and, Bool.false_eq_true, if_false]
  | _ => rfl

/-- A value that is no timestamp has its time in its text. -/
theorem timeOf_eq_timeText {p : BoundParam} {data : ParamText}
    (h : ∀ timestamp, p.value ≠ .SQL_C_TIMESTAMP timestamp) : p.timeOf data = timeText data.text := by
  unfold BoundParam.timeOf
  split
  · rename_i timestamp htimestamp
    exact absurd htimestamp (h timestamp)
  · rfl

/-- Another place of the clock matters only if a timestamp is written as a time. -/
theorem insertText_congr_clock {p p' : BoundParam} {data : ParamText} {penv : PathEnv}
    (hsql : p'.sqlType = p.sqlType) (hvalue : p'.value = p.value)
    (hclock : ∀ timestamp, p.value = .SQL_C_TIMESTAMP timestamp → p.sqlType.switchCase = .time →
      p'.atDataPtr.timeText = p.atDataPtr.timeText) :
    p'.insertText penv false data st = p.insertText penv false data st := by
  refine insertText_congr hsql (by rw [hvalue]) (by rw [hvalue]) (fun hcase => ?_) rfl
    (fun _ => rfl) fun _ => rfl
  unfold BoundParam.timeOf
  rw [hvalue]
  split
  · rename_i timestamp htimestamp
    exact hclock timestamp htimestamp hcase
  · rfl

/-- A length that is taken is that of the terminated text at most, or it is given. -/
theorem value_of_taken {p : BoundParam} {length : ℤ} (htaken : p.taken = .ok (.value length))
    (hexec : isDataAtExec p.octetLength = false) :
    ((p.octetLength = none ∨ p.octetLength = some sqlNts) ∧
      ∃ n, BoundParam.terminatedLength p.value = .ok n ∧ length ≤ n) ∨
      p.octetLength = some length := by
  unfold isDataAtExec at hexec
  unfold BoundParam.taken at htaken
  simp only [hexec, Bool.false_eq_true, if_false] at htaken
  split_ifs at htaken with hnull hnone hbuffer hnts hdefault
  · cases htaken
  · refine .inl ⟨.inl hnone, ?_⟩
    cases hn : BoundParam.terminatedLength p.value with
    | error => rw [hn] at htaken; cases htaken
    | ok n =>
      rw [hn] at htaken
      cases htaken
      exact ⟨n, rfl, min_le_left ..⟩
  · refine .inl ⟨.inl hnone, ?_⟩
    cases hn : BoundParam.terminatedLength p.value with
    | error => rw [hn] at htaken; cases htaken
    | ok n =>
      rw [hn] at htaken
      cases htaken
      exact ⟨_, rfl, le_rfl⟩
  · refine .inl ⟨.inr hnts, ?_⟩
    cases hn : BoundParam.terminatedLength p.value with
    | error => rw [hn] at htaken; cases htaken
    | ok n =>
      rw [hn] at htaken
      cases htaken
      exact ⟨_, rfl, le_rfl⟩
  · cases htaken
  · refine .inr ?_
    cases htaken
    obtain ⟨n, hn⟩ := Option.ne_none_iff_exists'.mp hnone
    rw [hn]
    rfl

/-- A text is not taken behind its element. -/
theorem length_le_elementSize {length : ℤ}
    (htype : rec.conciseType = .SQL_C_CHAR ∨ rec.conciseType = .SQL_C_BINARY)
    (hexec : rec.atExec mem row = false) (hdata : rec.data row ≠ 0)
    (htaken : (rec.boundParam env mem row).taken = .ok (.value length)) :
    length ≤ rec.elementSize mem row ∧
      (rec.octetLength ≤ 0 → rec.elementSize mem row = 0 → rec.lengthCell row ≠ 0) := by
  have hgiven : rec.givenLength mem row = cellAt mem (rec.lengthCell row) :=
    if_neg fun h => hdata h.1
  have hmemory := memoryAt_of_bound hexec hdata
  have hvalue : BoundParam.terminatedLength (rec.boundParam env mem row).value =
      if 0 ∈ mem.drop (rec.data row)
      then .ok ((mem.drop (rec.data row)).takeWhile (· ≠ 0)).length else .error .undefined := by
    change BoundParam.terminatedLength (decodeValue env rec.conciseType (rec.memoryAt mem row)) = _
    rw [hmemory]
    obtain htype | htype := htype
    · rw [htype]; rfl
    · rw [htype]; rfl
  have hsize : rec.elementSize mem row = max rec.octetLength.toNat
      (if cellAt mem (rec.lengthCell row) = none ∨ cellAt mem (rec.lengthCell row) = some sqlNts
        then ((mem.drop (rec.data row)).takeWhile (· ≠ 0)).length + 1
        else ((cellAt mem (rec.lengthCell row)).getD 0).toNat) := by
    unfold elementSize
    obtain htype | htype := htype
    · rw [htype]
    · rw [htype]
  constructor
  · have hexec' : isDataAtExec (rec.boundParam env mem row).octetLength = false := by
      change isDataAtExec (rec.givenLength mem row) = false
      rw [hgiven]
      exact hexec
    obtain ⟨hterminated, n, hn, hle⟩ | hgiven' := value_of_taken htaken hexec'
    · change rec.givenLength mem row = none ∨ rec.givenLength mem row = some sqlNts at hterminated
      rw [hgiven] at hterminated
      rw [hvalue] at hn
      split_ifs at hn
      cases hn
      rw [hsize, if_pos hterminated]
      omega
    · change rec.givenLength mem row = some length at hgiven'
      rw [hgiven] at hgiven'
      rw [hsize, hgiven']
      by_cases hnts : length = sqlNts
      · rw [hnts]
        simp only [sqlNts]
        omega
      · rw [if_neg (by simp [hnts]), Option.getD_some]
        omega
  · intro _ hzero hcell
    have hnone : cellAt mem (rec.lengthCell row) = none := if_pos hcell
    rw [hsize, if_pos (.inl hnone)] at hzero
    omega

/-- Converting reads one unit behind the text at most. -/
theorem encodeBody_congr {str str' : List SQLWCHAR} {chars : ℕ}
    (h : ∀ i ≤ chars, str'[i]? = str[i]?) : encodeBody str' chars = encodeBody str chars := by
  funext s
  unfold encodeBody
  split_ifs with hend
  · rfl
  · have hchar : ∀ i ≤ 1, charAt (str'.drop s.str) i = charAt (str.drop s.str) i := by
      intro i hi
      rw [charAt, charAt, List.getD, List.getD, List.getElem?_drop, List.getElem?_drop,
        h (s.str + i) (by omega)]
    have hconvert : utf16toutf32 (str'.drop s.str) = utf16toutf32 (str.drop s.str) := by
      unfold utf16toutf32
      rw [hchar 0 (by decide), hchar 1 (by decide)]
    rw [hconvert]

/-- A wide text is converted alike when it and the unit behind it are the same. -/
theorem convertCType2str_congr {penv : PathEnv} {str str' : List SQLWCHAR} {length : ℤ}
    (hlength : str'.length = str.length)
    (h : ∀ i ≤ (length / 2).toNat, str'[i]? = str[i]?) :
    convertCType2str penv false (.SQL_C_WCHAR str') length =
      convertCType2str penv false (.SQL_C_WCHAR str) length := by
  have hext : sqlwcharAsUtf8Ext penv.malloc (some str') (some (length / 2)) (some penv.stack)
      sizeofBuff false =
      sqlwcharAsUtf8Ext penv.malloc (some str) (some (length / 2)) (some penv.stack)
        sizeofBuff false := by
    unfold sqlwcharAsUtf8Ext
    simp only [Option.getD_some, encodeBody_congr h]
  unfold convertCType2str
  simp only [hlength, hext]

/-- The clock of a timestamp that is written as a time is in the row. -/
def ClockInRow (rec : ParamRecord) (row : ℕ) : Prop :=
  rec.readsClock = true → rec.dataPtr ≠ 0 → ∀ i, 6 ≤ i → i < 16 →
    rec.InCells row (rec.dataPtr + i) ∨
      (rec.data row ≤ rec.dataPtr + i ∧ rec.dataPtr + i < rec.data row + 16)

/-- The first byte of a text for a type of dates is in the row, also if the text is empty. -/
def HeadInRow (rec : ParamRecord) (row : ℕ) : Prop :=
  rec.conciseType = .SQL_C_CHAR ∨ rec.conciseType = .SQL_C_BINARY →
    rec.sqlType.switchCase = .date ∨ rec.sqlType.switchCase = .timestamp →
    rec.lengthCell row ≠ 0 → rec.data row ≠ 0 →
    0 < rec.octetLength ∨ rec.InCells row (rec.data row)

/-- A wide text has a terminator. With a length its last unit may be the first half of a pair, and
then the unit behind it is read. -/
def EndInRow (rec : ParamRecord) (row : ℕ) : Prop :=
  rec.conciseType = .SQL_C_WCHAR → rec.lengthCell row = 0 ∨ rec.data row = 0

/-- What is read for the row is in the row. -/
def ReadsInRow (rec : ParamRecord) (row : ℕ) : Prop :=
  rec.Refused ∨ (rec.ClockInRow row ∧ rec.HeadInRow row ∧ rec.EndInRow row)

/-- The value of a timestamp is of such a type. -/
theorem isTimestamp_of_value {memory : List UInt8} {cType : ParamCType} {timestamp : CTimestamp}
    (h : decodeValue env cType memory = .SQL_C_TIMESTAMP timestamp) : cType.isTimestamp = true := by
  cases cType <;> first | rfl | cases h

/-- A value of such a type is a timestamp. -/
theorem exists_timestamp (h : rec.conciseType.isTimestamp = true) :
    ∃ timestamp, (rec.boundParam env mem row).value = .SQL_C_TIMESTAMP timestamp := by
  change ∃ timestamp, decodeValue env rec.conciseType (rec.memoryAt mem row) = _
  cases hconcise : rec.conciseType <;> rw [hconcise] at h <;>
    first | exact ⟨_, rfl⟩ | cases h

/-- A row whose value is the same is written alike. -/
theorem SameRow.insertText_eq {data : ParamText} (h : rec.SameRow row mem mem')
    (hclock : rec.ClockInRow row) (hnull : rec.usesNull mem row = false)
    (hplaced : rec.dataPtr ≠ 0 → rec.data row ≠ 0)
    (hvalue : (rec.boundParam env mem' row).value = (rec.boundParam env mem row).value) :
    (rec.boundParam env mem' row).insertText env.toPathEnv false data st =
      (rec.boundParam env mem row).insertText env.toPathEnv false data st := by
  refine insertText_congr_clock rfl hvalue fun timestamp htimestamp hcase => ?_
  have htype := isTimestamp_of_value htimestamp
  have hreads : rec.readsClock = true := by
    unfold readsClock
    rw [htype, Bool.true_and]
    exact decide_eq_true hcase
  have hptr : rec.dataPtr ≠ 0 := by
    intro hzero
    unfold usesNull at hnull
    rw [hreads, hzero] at hnull
    simp at hnull
  refine clock_congr fun i hi hi' => h.bytes _ ?_
  obtain hcells | ⟨hle, hlt⟩ := hclock hreads hptr i hi hi'
  · exact .inl hcells
  · refine .inr ⟨hplaced hptr, hle, ?_⟩
    have hsize : rec.elementSize mem row = 16 := by
      unfold elementSize
      cases hconcise : rec.conciseType <;> rw [hconcise] at htype <;> first | rfl | cases htype
    rwa [hsize]

/-- A text of the application is written alike in the same row. -/
theorem SameRow.written_eq_text {length : ℤ} (h : rec.SameRow row mem mem')
    (htype : rec.conciseType = .SQL_C_CHAR ∨ rec.conciseType = .SQL_C_BINARY)
    (hhead : rec.HeadInRow row) (hexec : rec.atExec mem row = false) (hdata : rec.data row ≠ 0)
    (htaken : (rec.boundParam env mem row).taken = .ok (.value length)) :
    (convertCType2str env.toPathEnv false (rec.boundParam env mem' row).value length >>=
      fun data => ((rec.boundParam env mem' row).insertText env.toPathEnv false data st).map
        fun written => (written.st.buf, data.truncated)) =
    (convertCType2str env.toPathEnv false (rec.boundParam env mem row).value length >>=
      fun data => ((rec.boundParam env mem row).insertText env.toPathEnv false data st).map
        fun written => (written.st.buf, data.truncated)) := by
  have hmemory := memoryAt_of_bound hexec hdata
  have hmemory' := memoryAt_of_bound (h.atExec_eq.trans hexec) hdata
  have hvalue : ∀ mem, (rec.boundParam env mem row).value =
      .SQL_C_CHAR (rec.memoryAt mem row) ∨
      (rec.boundParam env mem row).value = .SQL_C_BINARY (rec.memoryAt mem row) := by
    intro mem
    change decodeValue env rec.conciseType _ = _ ∨ decodeValue env rec.conciseType _ = _
    obtain htype | htype := htype
    · rw [htype]; exact .inl rfl
    · rw [htype]; exact .inr rfl
  have hconvert : ∀ mem, (rec.boundParam env mem row).value.convert = true ∧
      (rec.boundParam env mem row).value.isHourInterval = false ∧
      (∀ timestamp, (rec.boundParam env mem row).value ≠ .SQL_C_TIMESTAMP timestamp) ∧
      convertCType2str env.toPathEnv false (rec.boundParam env mem row).value length =
        readMemory (rec.memoryAt mem row) length := by
    intro mem
    obtain hvalue | hvalue := hvalue mem
    · rw [hvalue]; exact ⟨rfl, rfl, nofun, rfl⟩
    · rw [hvalue]; exact ⟨rfl, rfl, nofun, rfl⟩
  obtain ⟨htrue, hinterval, htimestamp, hread⟩ := hconvert mem
  obtain ⟨htrue', hinterval', htimestamp', hread'⟩ := hconvert mem'
  obtain ⟨hle, hcell⟩ := length_le_elementSize htype hexec hdata htaken
  have hlength : (mem'.drop (rec.data row)).length = (mem.drop (rec.data row)).length := by
    simp [h.length]
  rw [hread, hread', hmemory, hmemory', readMemory, readMemory, hlength]
  split_ifs with hrange
  · change Except.error Failure.undefined = Except.error Failure.undefined
    rfl
  · have htext : (mem'.drop (rec.data row)).take length.toNat =
        (mem.drop (rec.data row)).take length.toNat := by
      refine List.ext_getElem? fun i => ?_
      rw [List.getElem?_take, List.getElem?_take]
      split_ifs with hi
      · exact h.element hdata (by omega)
      · rfl
    have hwritten : (rec.boundParam env mem' row).insertText env.toPathEnv false
        ⟨mem'.drop (rec.data row), length.toNat, false⟩ st =
        (rec.boundParam env mem row).insertText env.toPathEnv false
          ⟨mem.drop (rec.data row), length.toNat, false⟩ st := by
      refine insertText_congr rfl (htrue'.trans htrue.symm) (hinterval'.trans hinterval.symm)
        (fun _ => ?_) htext (fun hcase => ?_) fun hfalse => ?_
      · rw [timeOf_eq_timeText htimestamp, timeOf_eq_timeText htimestamp']
        exact congrArg timeText htext
      rotate_left
      · rw [htrue] at hfalse
        cases hfalse
      rw [List.head?_drop, List.head?_drop]
      apply h.bytes _
      by_cases hsize : rec.elementSize mem row = 0
      · by_cases hbuffer : 0 < rec.octetLength
        · exact .inr ⟨hdata, le_rfl, by
            have : rec.octetLength.toNat ≤ rec.elementSize mem row := by
              unfold elementSize
              obtain htype | htype := htype
              · rw [htype]; exact le_max_left ..
              · rw [htype]; exact le_max_left ..
            omega⟩
        · have hcell := hcell (by omega) hsize
          exact .inl ((hhead htype hcase hcell hdata).resolve_left hbuffer)
      · exact .inr ⟨hdata, le_rfl, by omega⟩
    change ((rec.boundParam env mem' row).insertText env.toPathEnv false _ st).map _ =
      ((rec.boundParam env mem row).insertText env.toPathEnv false _ st).map _
    rw [hwritten]

/-- A terminated wide text is converted alike in the same row. -/
theorem SameRow.convert_eq_wide {length : ℤ} (h : rec.SameRow row mem mem')
    (htype : rec.conciseType = .SQL_C_WCHAR) (hcell : rec.lengthCell row = 0)
    (hdata : rec.data row ≠ 0)
    (htaken : (rec.boundParam env mem row).taken = .ok (.value length)) :
    convertCType2str env.toPathEnv false (rec.boundParam env mem' row).value length =
      convertCType2str env.toPathEnv false (rec.boundParam env mem row).value length := by
  have hnone : cellAt mem (rec.lengthCell row) = none := if_pos hcell
  have hexec : rec.atExec mem row = false := by
    rw [atExec, hnone]
    rfl
  have hmemory := memoryAt_of_bound hexec hdata
  have hmemory' := memoryAt_of_bound (h.atExec_eq.trans hexec) hdata
  have hgiven : rec.givenLength mem row = none := by
    rw [← hnone]
    exact if_neg fun h => hdata h.1
  have hvalue : ∀ mem, (rec.boundParam env mem row).value =
      .SQL_C_WCHAR (unitsOf (rec.memoryAt mem row)) := by
    intro mem
    change decodeValue env rec.conciseType (rec.memoryAt mem row) = _
    rw [htype]
    rfl
  have hbound : (length / 2).toNat ≤ sqlwcharlen (unitsOf (mem.drop (rec.data row))) := by
    have hoctet : (rec.boundParam env mem row).octetLength = none := hgiven
    obtain ⟨-, n, hn, hle⟩ | hgiven' := value_of_taken htaken (by rw [hoctet]; rfl)
    · rw [hvalue mem, hmemory] at hn
      simp only [BoundParam.terminatedLength] at hn
      split_ifs at hn
      cases hn
      omega
    · rw [hoctet] at hgiven'
      cases hgiven'
  have hunits := @unitsOf_congr (mem.drop (rec.data row)) (mem'.drop (rec.data row))
    (sqlwcharlen (unitsOf (mem.drop (rec.data row))) + 1) fun i hi => by
      apply h.element hdata
      unfold elementSize
      rw [htype]
      simp only [hnone, true_or, if_true]
      omega
  rw [hvalue mem, hvalue mem', hmemory, hmemory']
  exact convertCType2str_congr (by simp [length_unitsOf, h.length])
    fun i hi => hunits i (by omega)

/-- The same row is written alike when what is read for it is in the row. -/
theorem SameRow.written_eq (h : rec.SameRow row mem mem')
    (hplaced : rec.dataPtr ≠ 0 → rec.data row ≠ 0) (hreads : rec.ReadsInRow row) :
    rec.written env mem' row st = rec.written env mem row st := by
  refine written_congr rfl h.taken_eq h.usesNull_eq fun length htaken hok hnull => ?_
  obtain ⟨hclock, hhead, hend⟩ := hreads.resolve_left hok
  rw [written_value htaken hok hnull, written_value (h.taken_eq.trans htaken) hok
    (h.usesNull_eq.trans hnull)]
  have hsame (hvalue : (rec.boundParam env mem' row).value = (rec.boundParam env mem row).value) :
      (convertCType2str env.toPathEnv false (rec.boundParam env mem' row).value length >>=
        fun data => ((rec.boundParam env mem' row).insertText env.toPathEnv false data st).map
          fun written => (written.st.buf, data.truncated)) =
      (convertCType2str env.toPathEnv false (rec.boundParam env mem row).value length >>=
        fun data => ((rec.boundParam env mem row).insertText env.toPathEnv false data st).map
          fun written => (written.st.buf, data.truncated)) := by
    simp only [hvalue, h.insertText_eq hclock hnull hplaced hvalue]
  cases htext : rec.conciseType.isText with
  | false => exact hsame (h.value_eq htext)
  | true =>
    by_cases hother : rec.atExec mem row = true ∨ rec.data row = 0
    · exact hsame (congrArg (decodeValue env rec.conciseType) (h.memoryAt_eq hother))
    · rw [not_or, Bool.not_eq_true] at hother
      obtain ⟨hexec, hdata⟩ := hother
      by_cases hwide : rec.conciseType = .SQL_C_WCHAR
      · have hcell := (hend hwide).resolve_right hdata
        rw [h.convert_eq_wide hwide hcell hdata htaken]
        have hinsert : ∀ data, (rec.boundParam env mem' row).insertText env.toPathEnv false data st =
            (rec.boundParam env mem row).insertText env.toPathEnv false data st := by
          have hvalue : ∀ mem, ∃ str, (rec.boundParam env mem row).value = .SQL_C_WCHAR str := by
            intro mem
            refine ⟨unitsOf (rec.memoryAt mem row), ?_⟩
            change decodeValue env rec.conciseType (rec.memoryAt mem row) = _
            rw [hwide]
            rfl
          obtain ⟨str, hstr⟩ := hvalue mem
          obtain ⟨str', hstr'⟩ := hvalue mem'
          refine fun data => insertText_congr rfl (by rw [hstr, hstr']; rfl)
            (by rw [hstr, hstr']; rfl) (fun _ => ?_) rfl (fun _ => rfl) fun _ => rfl
          rw [timeOf_eq_timeText (by rw [hstr']; nofun), timeOf_eq_timeText (by rw [hstr]; nofun)]
        simp only [hinsert]
      · refine h.written_eq_text ?_ hhead hexec hdata htaken
        cases htype : rec.conciseType with
        | SQL_C_CHAR => exact .inl rfl
        | SQL_C_BINARY => exact .inr rfl
        | SQL_C_WCHAR => exact absurd htype hwide
        | _ => rw [htype] at htext; cases htext

/-- The row is memory of the application: no pointer is moved to NULL, and the buffer is not larger
than the addresses of a process. -/
structure Placed (rec : ParamRecord) (row : ℕ) : Prop where
  data : rec.dataPtr ≠ 0 → rec.data row ≠ 0
  lengthCell : rec.octetLengthPtr ≠ 0 → rec.lengthCell row ≠ 0
  indicatorCell : rec.indicatorPtr ≠ 0 → rec.indicatorCell row ≠ 0
  buffer : rec.octetLength < 2 ^ 48

end ParamRecord

end MatrixOdbc.Driver
