import MatrixOdbc.Driver.RowLiteral
import Mathlib.Data.Nat.Size

/-!
# Rows that depend on others

The converse of `ParamRecord.rowIndependent_of_readsInRow`: where a byte is read that is not in the
row, there are two memories with the same row and different literals. The clock of a timestamp is
changed from a memory of zeros, the first byte of an empty text is made a brace, and the end of a
wide text is made the first half of a pair.
-/

namespace MatrixOdbc.Driver

open Util

namespace ParamRecord

variable {rec : ParamRecord} {env : ArrayEnv} {mem mem' : List UInt8} {row : ℕ} {st : ParamBuffer}

/-- A connection to a server without characters of four bytes. -/
def plainArrayEnv : ArrayEnv where
  toPathEnv := { plainPathEnv with utf8mb4Server := false }
  floatText _ _ := []
  numericText _ := .truncWhole

theorem sized_plainArrayEnv : plainArrayEnv.Sized where
  stack := List.length_replicate
  malloc n block h := by
    obtain rfl := Option.some.inj h
    exact List.length_replicate

/-- A row of a determined value is written alike in another memory with the same row. -/
theorem RowIndependent.written_eq (h : rec.RowIndependent row) (hsame : rec.SameRow row mem mem')
    (hdetermined : rec.Determined plainArrayEnv mem row) :
    rec.written plainArrayEnv mem' row ⟨[], none⟩ =
      rec.written plainArrayEnv mem row ⟨[], none⟩ := by
  obtain ⟨literal, -, hlocal⟩ := (h plainArrayEnv mem ⟨[], none⟩ sized_plainArrayEnv).mpr hdetermined
  have hother := hlocal mem' plainArrayEnv.stack plainArrayEnv.malloc none hsame
    sized_plainArrayEnv fun _ => rfl
  exact hother.trans (hlocal mem plainArrayEnv.stack plainArrayEnv.malloc none
    (sameRow_refl rec row mem) sized_plainArrayEnv fun _ => rfl).symm

/-- The length that is taken. -/
theorem value_injective {length length' : ℤ}
    (h : (.ok (.value length) : Except Failure Taken) = .ok (.value length')) :
    length = length' := by
  cases h
  rfl

/-- A byte outside the row may be changed. -/
theorem sameRow_set {a : ℕ} (v : UInt8) (h : ¬ rec.InRow mem row a) :
    rec.SameRow row mem (mem.set a v) where
  length := List.length_set
  bytes b hb := List.getElem?_set_ne (by rintro rfl; exact h hb)

/-- A byte of a memory of zeros in which one byte is set. -/
theorem getD_set_replicate {size a : ℕ} {v : UInt8} (ha : a < size) (b : ℕ) :
    ((List.replicate size (0 : UInt8)).set a v).getD b 0 = if b = a then v else 0 := by
  rw [List.getD]
  by_cases hba : b = a
  · rw [hba, List.getElem?_set_self (by rw [List.length_replicate]; exact ha), if_pos rfl]
    rfl
  · rw [List.getElem?_set_ne (Ne.symm hba), List.getElem?_replicate, if_neg hba]
    split_ifs <;> rfl

/-- A cell of zeros. -/
theorem cellAt_replicate (size cell : ℕ) :
    cellAt (List.replicate size 0) cell = if cell = 0 then none else some 0 := by
  have hbytes : bytesAt (List.replicate size 0) cell 8 = List.replicate 8 0 := by
    unfold bytesAt
    refine List.eq_replicate_iff.mpr ⟨by simp, fun b hb => ?_⟩
    obtain ⟨i, -, rfl⟩ := List.mem_map.mp hb
    rw [List.getD, List.getElem?_replicate]
    split_ifs <;> rfl
  have hsigned : signedAt (List.replicate size 0) cell 8 = 0 := by
    unfold signedAt unsignedAt
    rw [hbytes]
    decide
  rw [cellAt, hsigned]

/-- A value of `SQL_C_DEFAULT`. -/
def isDefault : CValue → Bool
  | .SQL_C_DEFAULT => true
  | _ => false

/-- A value that is not `SQL_C_DEFAULT` is taken from a memory of zeros. -/
theorem taken_replicate {size : ℕ} (hdefault : rec.conciseType ≠ .SQL_C_DEFAULT)
    (hvalue : rec.conciseType.isText = false ∨ rec.lengthCell row ≠ 0) :
    ∃ length : ℤ, (rec.boundParam env (List.replicate size 0) row).taken = .ok (.value length) ∧
      (rec.lengthCell row ≠ 0 → length = 0) := by
  set mem := List.replicate size (0 : UInt8)
  have hindicator : (rec.boundParam env mem row).indicator ≠ some sqlNullData := by
    change cellAt mem (rec.indicatorCell row) ≠ _
    rw [cellAt_replicate]
    split_ifs <;> simp [sqlNullData]
  have hlength : (rec.boundParam env mem row).octetLength = rec.givenLength mem row := rfl
  by_cases hcell : rec.lengthCell row = 0
  · have htext := hvalue.resolve_right (not_not_intro hcell)
    have hnone : rec.givenLength mem row = none := by
      unfold givenLength
      rw [cellAt_replicate, if_pos hcell, htext]
      simp
    have hterminated : BoundParam.terminatedLength (rec.boundParam env mem row).value = .ok 0 := by
      change BoundParam.terminatedLength (decodeValue env rec.conciseType _) = _
      cases htype : rec.conciseType <;> first | rfl | (rw [htype] at htext; cases htext)
    refine ⟨if 0 < rec.octetLength then min 0 rec.octetLength else 0, ?_, fun h => absurd hcell h⟩
    unfold BoundParam.taken
    rw [if_neg hindicator, hlength, if_pos hnone, hterminated]
    rfl
  · have hzero : rec.givenLength mem row = some 0 := by
      unfold givenLength
      rw [cellAt_replicate, if_neg hcell]
      dsimp only
      split_ifs <;> rfl
    refine ⟨0, ?_, fun _ => rfl⟩
    unfold BoundParam.taken
    rw [if_neg hindicator, hlength, hzero, if_neg (by simp), if_neg (by decide), if_neg ?_,
      if_neg (by decide)]
    · rfl
    · rintro (h | ⟨-, h, -⟩)
      · cases h
      · have hvalue : isDefault (decodeValue env rec.conciseType (rec.memoryAt mem row)) = true := h
        cases htype : rec.conciseType <;> rw [htype] at hvalue <;>
          first | exact hdefault htype | cases hvalue

/-- What is written of a timestamp for a time. -/
theorem written_clock {length : ℤ}
    (htaken : (rec.boundParam env mem row).taken = .ok (.value length)) (hok : ¬ rec.Refused)
    (hnull : rec.usesNull mem row = false) (hclock : rec.readsClock = true) :
    rec.written env mem row st = (timestampAt mem rec.dataPtr).timeText.map fun time =>
      (st.buf ++ inQuotes time, false) := by
  unfold readsClock at hclock
  rw [Bool.and_eq_true] at hclock
  obtain ⟨htype, hcase⟩ := hclock
  obtain ⟨timestamp, hvalue⟩ := @exists_timestamp rec env mem row htype
  rw [written_value htaken hok hnull, hvalue]
  change ((rec.boundParam env mem row).insertText env.toPathEnv false _ st).map _ = _
  unfold BoundParam.insertText
  have hcase' : (rec.boundParam env mem row).sqlType.switchCase = .time := of_decide_eq_true hcase
  rw [hcase']
  simp only [BoundParam.timeOf, hvalue]
  change (((timestampAt mem rec.dataPtr).timeText).map _).map _ = _
  cases (timestampAt mem rec.dataPtr).timeText with
  | error => rfl
  | ok => rfl

/-- Another clock is another text. -/
theorem timeText_set_ne {ptr size i : ℕ} (hsize : ptr + 16 ≤ size) (hi : 6 ≤ i) (hi' : i < 16) :
    (timestampAt ((List.replicate size 0).set (ptr + i) 1) ptr).timeText ≠
      (timestampAt (List.replicate size 0) ptr).timeText := by
  have hset : ∀ start n, unsignedAt ((List.replicate size 0).set (ptr + i) 1) (ptr + start) n =
      Nat.ofDigits 256 (((List.range n).map fun j => if start + j = i then (1 : UInt8) else 0).map
        UInt8.toNat) := by
    intro start n
    unfold unsignedAt bytesAt
    simp only [getD_set_replicate (by omega : ptr + i < size), Nat.add_assoc, Nat.add_left_cancel_iff]
  have hzero : ∀ start n, unsignedAt (List.replicate size 0) (ptr + start) n =
      Nat.ofDigits 256 (((List.range n).map fun _ => (0 : UInt8)).map UInt8.toNat) := by
    intro start n
    unfold unsignedAt bytesAt
    congr 2
    refine List.map_congr_left fun j _ => ?_
    rw [List.getD, List.getElem?_replicate]
    split_ifs <;> rfl
  simp only [CTimestamp.timeText, timestampAt, timeAt, Nat.add_assoc, Nat.reduceAdd, hset, hzero]
  interval_cases i <;> decide

/-- The same text is the same time. -/
theorem map_inQuotes_injective {buf : List UInt8} {time time' : Except Failure (List UInt8)}
    (h : time'.map (fun time => (buf ++ inQuotes time, false)) =
      time.map fun time => (buf ++ inQuotes time, false)) : time' = time := by
  cases time with
  | error failure =>
    cases time' with
    | error failure' => exact congrArg Except.error (Except.error.inj h)
    | ok text' => cases h
  | ok text =>
    cases time' with
    | error failure' => cases h
    | ok text' =>
      have hwritten := congrArg Prod.fst (Except.ok.inj h)
      have hquoted : inQuotes text' = inQuotes text := List.append_cancel_left hwritten
      rw [List.append_cancel_right (List.cons.inj hquoted).2]

/-- A row whose clock is not in the row depends on another. -/
theorem not_rowIndependent_of_clock (hplaced : rec.Placed row) (hok : ¬ rec.Refused)
    (hclock : ¬ rec.ClockInRow row) : ¬ rec.RowIndependent row := by
  unfold ClockInRow at hclock
  push Not at hclock
  obtain ⟨hreads, hptr, i, hi, hi', hcells, helement⟩ := hclock
  have htype : rec.conciseType.isTimestamp = true := by
    unfold readsClock at hreads
    exact (Bool.and_eq_true_iff.mp hreads).1
  have hdata := hplaced.data hptr
  have htext : rec.conciseType.isText = false ∧ rec.conciseType ≠ .SQL_C_DEFAULT ∧
      (∀ mem, rec.elementSize mem row = 16) ∧ (∀ mem, rec.Terminated mem row) ∧
      ∀ mem length, rec.InMemory mem row length := by
    unfold elementSize Terminated InMemory
    cases hconcise : rec.conciseType <;> rw [hconcise] at htype <;>
      first | exact ⟨rfl, nofun, fun _ => rfl, fun _ _ _ => trivial, fun _ _ => trivial⟩ | cases htype
  obtain ⟨htext, hdefault, hsize, hterminated, hinMemory⟩ := htext
  set mem := List.replicate (rec.dataPtr + 16) (0 : UInt8) with hmem
  have houtside : ¬ rec.InRow mem row (rec.dataPtr + i) := by
    rintro (h | ⟨-, hle, hlt⟩)
    · exact hcells h
    · rw [hsize] at hlt
      have := helement hle
      omega
  have hcase : rec.sqlType.switchCase = .time := by
    unfold readsClock at hreads
    exact of_decide_eq_true (Bool.and_eq_true_iff.mp hreads).2
  have hnull : rec.usesNull mem row = false := by
    unfold usesNull readsNoHead
    rw [hcase]
    simp [hdata, hptr]
  have hdetermined : rec.Determined plainArrayEnv mem row := by
    refine ⟨hterminated mem, fun length _ _ => ⟨hnull, hinMemory mem length, fun data _ => ?_⟩⟩
    unfold TextFits
    rw [hcase, htype]
    nofun
  intro h
  have hsame := sameRow_set 1 houtside
  obtain ⟨length, htaken, -⟩ := @taken_replicate rec plainArrayEnv row (rec.dataPtr + 16) hdefault
    (.inl htext)
  have hwritten := h.written_eq hsame hdetermined
  rw [written_clock htaken hok hnull hreads, written_clock (hsame.taken_eq.trans htaken) hok
    (hsame.usesNull_eq.trans hnull) hreads] at hwritten
  exact timeText_set_ne le_rfl hi hi' (map_inQuotes_injective hwritten)

/-- A row whose text begins outside depends on another. -/
theorem not_rowIndependent_of_head (hok : ¬ rec.Refused) (hhead : ¬ rec.HeadInRow row) :
    ¬ rec.RowIndependent row := by
  unfold HeadInRow at hhead
  push Not at hhead
  obtain ⟨htype, hcase, hcell, hdata, hbuffer, hcells⟩ := hhead
  set mem := List.replicate (rec.data row + 1) (0 : UInt8) with hmem
  have hlength : cellAt mem (rec.lengthCell row) = some 0 := by
    rw [hmem, cellAt_replicate, if_neg hcell]
  have hexec : rec.atExec mem row = false := by
    rw [atExec, hlength]
    rfl
  have hconcise : rec.conciseType ≠ .SQL_C_DEFAULT ∧ rec.conciseType.isText = true ∧
      rec.conciseType.isTimestamp = false ∧ rec.conciseType ≠ .SQL_C_WCHAR ∧
      rec.elementSize mem row = 0 := by
    have hsize : max rec.octetLength.toNat (if some (0 : ℤ) = none ∨ some (0 : ℤ) = some sqlNts
        then ((mem.drop (rec.data row)).takeWhile (· ≠ 0)).length + 1
        else ((some (0 : ℤ)).getD 0).toNat) = 0 := by
      rw [if_neg (by decide), Int.toNat_of_nonpos hbuffer]
      rfl
    unfold elementSize
    rw [hlength]
    obtain htype | htype := htype
    · rw [htype]; exact ⟨by decide, rfl, rfl, by decide, hsize⟩
    · rw [htype]; exact ⟨by decide, rfl, rfl, by decide, hsize⟩
  obtain ⟨hdefault, htext, htimestamp, hnarrow, hsize⟩ := hconcise
  have houtside : ¬ rec.InRow mem row (rec.data row) := by
    rintro (h | ⟨-, -, hlt⟩)
    · exact hcells h
    · omega
  have hnull : rec.usesNull mem row = false := by
    unfold usesNull readsClock readsNoHead
    rw [htext, htimestamp, hexec]
    obtain hcase | hcase := hcase
    · simp [hcase, hdata]
    · simp [hcase, hdata]
  obtain ⟨length, htaken, hzero⟩ := @taken_replicate rec plainArrayEnv row (rec.data row + 1)
    hdefault (.inr hcell)
  rw [hzero hcell, ← hmem] at htaken
  have hconvert : ∀ mem', rec.atExec mem' row = false →
      convertCType2str plainArrayEnv.toPathEnv false (rec.boundParam plainArrayEnv mem' row).value
        0 = .ok ⟨mem'.drop (rec.data row), 0, false⟩ := by
    intro mem' hexec
    change convertCType2str _ _ (decodeValue plainArrayEnv rec.conciseType _) _ = _
    have hread : readMemory (mem'.drop (rec.data row)) 0 =
        .ok ⟨mem'.drop (rec.data row), 0, false⟩ := if_neg (by omega)
    rw [memoryAt_of_bound hexec hdata]
    obtain htype | htype := htype
    · rw [htype]; exact hread
    · rw [htype]; exact hread
  have hdetermined : rec.Determined plainArrayEnv mem row := by
    have hgiven : rec.givenLength mem row = some 0 := by
      rw [givenLength, hlength]
      split_ifs <;> rfl
    refine ⟨fun _ hnone => ?_, fun length htaken' _ => ⟨hnull, ?_, fun data hdata' => ?_⟩⟩
    · rw [hgiven] at hnone
      exact absurd hnone (by decide)
    · obtain rfl := value_injective (htaken.symm.trans htaken')
      rw [@inMemory_iff rec plainArrayEnv, hconvert mem hexec]
      rintro ⟨⟩
    · obtain rfl := value_injective (htaken.symm.trans htaken')
      rw [hconvert mem hexec] at hdata'
      obtain rfl := Except.ok.inj hdata'
      unfold TextFits
      obtain hcase | hcase := hcase
      · rw [hcase]
        exact ⟨fun h => absurd h hnarrow, .inr (.inr (by change strToTs [] ≠ none; decide))⟩
      · rw [hcase]
        exact fun h => absurd h hnarrow
  intro h
  have hsame := sameRow_set 0x7b houtside
  have heq := h.written_eq hsame hdetermined
  have hexec' := hsame.atExec_eq.trans hexec
  have hinsert := insertText_of_written hok htaken hnull (hconvert mem hexec)
    (hsame.taken_eq.trans htaken) (hsame.usesNull_eq.trans hnull) (hconvert _ hexec') heq
  have htext : ∀ memory, (⟨memory, 0, false⟩ : ParamText).text = [] := fun _ => rfl
  have hbrace : ((mem.set (rec.data row) 0x7b).drop (rec.data row)).head? = some 0x7b := by
    rw [List.head?_drop, List.getElem?_set_self (by rw [hmem, List.length_replicate]; omega)]
  have hplain : (mem.drop (rec.data row)).head? ≠ some 0x7b := by
    rw [List.head?_drop, hmem, List.getElem?_replicate, if_pos (Nat.lt_succ_self _)]
    decide
  have hsql : (rec.boundParam plainArrayEnv mem row).sqlType =
      (rec.boundParam plainArrayEnv (mem.set (rec.data row) 0x7b) row).sqlType := rfl
  exact insertText_nil_ne hsql hcase (htext _) hbrace (htext _) hplain hinsert

/-- Characters of three bytes at most. -/
theorem length_utf32toutf8_lt {u : ℕ} (h : u < 0x10000) : (utf32toutf8 u).length < 4 := by
  unfold utf32toutf8
  split_ifs
  · exact (by decide : 1 < 4)
  · exact (by decide : 2 < 4)
  · exact (by decide : 3 < 4)

/-- One evaluation for a unit that is no surrogate. -/
theorem encodeBody_plain {str : List SQLWCHAR} {chars : ℕ} {s : EncodeState}
    (hlt : s.str < chars) (hplain : (charAt str s.str).toNat < 0xd800) :
    ∃ s', encodeBody str chars s = .next s' ∧ s'.str = s.str + 1 ∧
      s'.utf8mb4Used = s.utf8mb4Used := by
  have hchar : charAt (str.drop s.str) 0 = charAt str s.str := by
    rw [charAt, charAt, List.getD, List.getD, List.getElem?_drop, Nat.add_zero]
  have hconvert : utf16toutf32 (str.drop s.str) = (1, (charAt str s.str).toNat) := by
    unfold utf16toutf32
    rw [hchar]
    exact if_neg (by omega)
  have hlength := length_utf32toutf8_lt (by omega : (charAt str s.str).toNat < 0x10000)
  refine ⟨⟨s.str + 1, s.i + (utf32toutf8 (charAt str s.str).toNat).length,
    Buffer.store s.u8 s.i (utf32toutf8 (charAt str s.str).toNat), s.utf8mb4Used⟩, ?_, rfl, rfl⟩
  have hused : ((utf32toutf8 (charAt str s.str).toNat).length == 4) = false :=
    beq_eq_false_iff_ne.mpr (by omega)
  unfold encodeBody
  simp only [if_neg (by omega : ¬ chars ≤ s.str), hconvert, one_ne_zero, if_false, hused,
    Bool.or_false]

/-- The loop over units that are no surrogates. -/
theorem run_encodeBody_plain {str : List SQLWCHAR} {chars m : ℕ} (hm : m ≤ chars)
    (hplain : ∀ i < m, (charAt str i).toNat < 0xd800) (fuel k : ℕ) {s : EncodeState}
    (hs : s.str + k = m) :
    ∃ s', s'.str = m ∧ s'.utf8mb4Used = s.utf8mb4Used ∧
      WhileLoop.run (encodeBody str chars) (fuel + k) s =
        WhileLoop.run (encodeBody str chars) fuel s' := by
  induction k generalizing s with
  | zero => exact ⟨s, hs, rfl, rfl⟩
  | succ k ih =>
    obtain ⟨t, hbody, hstr, hused⟩ := encodeBody_plain (by omega : s.str < chars)
      (hplain s.str (by omega))
    obtain ⟨s', hs', hused', hrun⟩ := @ih t (by omega)
    refine ⟨s', hs', hused'.trans hused, ?_⟩
    rw [← hrun, ← Nat.add_assoc, WhileLoop.run_succ_next hbody]

/-- A text that ends with the first half of a pair has a character of four bytes if the other half
stands behind the text. -/
theorem run_encodeBody_half {str : List SQLWCHAR} {m : ℕ} {s : EncodeState} (pair : Bool)
    (hplain : ∀ i < m, (charAt str i).toNat < 0xd800) (hhigh : charAt str m = 0xd800)
    (hnext : charAt str (m + 1) = if pair then 0xdc00 else 0) (hs : s.str = 0)
    (hused : s.utf8mb4Used = false) :
    ∃ t, WhileLoop.run (encodeBody str (m + 1)) (m + 1 + 1) s = some t ∧ t.utf8mb4Used = pair := by
  obtain ⟨s', hs', hused', hrun⟩ := run_encodeBody_plain (Nat.le_succ m) hplain 2 m
    (by rw [hs, Nat.zero_add])
  have hchar : ∀ i, charAt (str.drop s'.str) i = charAt str (m + i) := by
    intro i
    rw [charAt, charAt, List.getD, List.getD, List.getElem?_drop, hs']
  have hfuel : m + 1 + 1 = 2 + m := by omega
  rw [hfuel, hrun]
  have hconvert : utf16toutf32 (str.drop s'.str) = (if pair then 2 else 0, 0x10000) := by
    unfold utf16toutf32
    rw [hchar 0, hchar 1, Nat.add_zero, hhigh, hnext]
    cases pair <;> decide
  cases pair with
  | false =>
    refine ⟨s', WhileLoop.run_succ_done ?_ 1, hused'.trans hused⟩
    unfold encodeBody
    rw [if_neg (by omega), hconvert]
    rfl
  | true =>
    have hbody : encodeBody str (m + 1) s' = .next ⟨s'.str + 2, s'.i + 4,
        Buffer.store s'.u8 s'.i (utf32toutf8 0x10000), true⟩ := by
      unfold encodeBody
      rw [if_neg (by omega), hconvert]
      simp only [if_true, OfNat.ofNat_ne_zero, if_false]
      rw [show (utf32toutf8 65536).length = 4 by decide]
      simp
    refine ⟨⟨s'.str + 2, s'.i + 4, Buffer.store s'.u8 s'.i (utf32toutf8 0x10000), true⟩,
      (WhileLoop.run_succ_next hbody 1).trans (WhileLoop.run_succ_done ?_ 0), rfl⟩
    unfold encodeBody
    exact if_pos (by simp only; omega)

/-- A conversion that meets a character of four bytes fails at a server without them, another one
does not fail so. -/
theorem convertCType2str_half {str : List SQLWCHAR} {m : ℕ} {length : ℤ} (pair : Bool)
    (hplain : ∀ i < m, (charAt str i).toNat < 0xd800) (hhigh : charAt str m = 0xd800)
    (hnext : charAt str (m + 1) = if pair then 0xdc00 else 0) (hlength : length = 2 * (m + 1 : ℕ))
    (hmemory : length ≤ 2 * str.length) :
    if pair then convertCType2str plainArrayEnv.toPathEnv false (.SQL_C_WCHAR str) length =
      .error (.error "HY000" "Server does not support 4-byte encoded UTF8 characters.")
    else ∃ data, convertCType2str plainArrayEnv.toPathEnv false (.SQL_C_WCHAR str) length =
      .ok data := by
  have hchars : (length / 2).toNat = m + 1 := by omega
  obtain ⟨u8, hu8⟩ : ∃ u8, wideBuffer plainArrayEnv.toPathEnv (m + 1) = some u8 := by
    unfold wideBuffer
    split_ifs
    · exact ⟨_, rfl⟩
    · exact ⟨_, rfl⟩
  obtain ⟨t, hrun, hused⟩ := @run_encodeBody_half str m ⟨0, 0, u8, false⟩ pair hplain hhigh hnext
    rfl rfl
  have hserver : plainArrayEnv.utf8mb4Server = false := rfl
  have hrange : ¬ (length < 0 ∨ 2 * (str.length : ℤ) < length) := by omega
  unfold convertCType2str
  simp only [if_neg hrange, sqlwcharAsUtf8Ext_eq, hchars, hu8, hrun, Option.map_some, hused,
    hserver]
  cases pair with
  | true => rfl
  | false => exact ⟨_, rfl⟩

/-- The writing of a text in quotes has no error with a diagnostic. -/
theorem putLast_ne_error {penv : PathEnv} {sqlType : SqlType} {text : List UInt8}
    {sqlstate message : String} :
    putLast penv false sqlType text st ≠ .error (.error sqlstate message) := by
  unfold putLast
  rw [if_neg (by simp)]
  obtain ⟨st', hput⟩ | hput := putQuoted_cases penv.toParamEnv sqlType text st
  · rw [hput]; nofun
  · rw [hput]; nofun

/-- The errors of the writing. -/
theorem sqlstate_insertText {p : BoundParam} {penv : PathEnv} {data : ParamText}
    {sqlstate message : String}
    (h : p.insertText penv false data st = .error (.error sqlstate message)) :
    sqlstate = "22008" := by
  have htime : ∀ {time : Except Failure (List UInt8)} {write : List UInt8 → Written},
      time.map write = .error (.error sqlstate message) →
      time = .error (.error sqlstate message) := by
    intro time write h
    cases time with
    | error failure => rw [Except.error.inj h]
    | ok => cases h
  unfold BoundParam.insertText at h
  cases hcase : p.sqlType.switchCase with
  | date =>
    rw [hcase] at h
    dsimp only at h
    split_ifs at h
    cases hdate : checkDateOverflow penv.toParamEnv data.text with
    | error failure =>
      rw [hdate] at h
      obtain rfl := Except.error.inj h
      unfold checkDateOverflow at hdate
      split_ifs at hdate
      split at hdate
      · cases hdate
      · split_ifs at hdate
        cases hdate
        rfl
    | ok =>
      rw [hdate] at h
      exact absurd h putLast_ne_error
  | timestamp =>
    rw [hcase] at h
    dsimp only at h
    split_ifs at h
    exact absurd h putLast_ne_error
  | binary => rw [hcase] at h; exact absurd h putLast_ne_error
  | character => rw [hcase] at h; exact absurd h putLast_ne_error
  | interval => rw [hcase] at h; cases h
  | bit => rw [hcase] at h; cases h
  | time =>
    rw [hcase] at h
    have h := htime h
    unfold BoundParam.timeOf at h
    split at h
    · unfold CTimestamp.timeText at h
      split_ifs at h
      · cases h; rfl
      · cases h; rfl
    · unfold timeText at h
      split_ifs at h
      · cases h; rfl
      · split at h
        · cases h
        · split_ifs at h
          cases h
          rfl
  | float =>
    rw [hcase] at h
    dsimp only at h
    split_ifs at h
    cases h
  | numeric =>
    rw [hcase] at h
    dsimp only at h
    split_ifs at h
    exact absurd h putLast_ne_error

/-- A byte of a memory with a wide text of zeros that ends with the first half of a pair. The length
of the text is at `cell`, and `next` is the high byte of the unit behind it. -/
def halfByte (data cell length : ℕ) (next : UInt8) (a : ℕ) : UInt8 :=
  if a + 1 = data + length then 0xd8
  else if a = data + length + 1 then next
  else if cell ≤ a ∧ a < cell + 8 then UInt8.ofNat (length / 256 ^ (a - cell) % 256) else 0

@[inherit_doc halfByte]
def halfMemory (data cell length : ℕ) (next : UInt8) : List UInt8 :=
  (List.range (data + length + 2 + cell + 8)).map (halfByte data cell length next)

/-- The bytes of a number, the lowest first. -/
theorem ofDigits_bytes (n size : ℕ) :
    Nat.ofDigits 256 ((List.range size).map fun i => n / 256 ^ i % 256) = n % 256 ^ size := by
  induction size with
  | zero => simp [Nat.mod_one]
  | succ size ih =>
    rw [List.range_succ, List.map_append, Nat.ofDigits_append, ih, List.length_map,
      List.length_range, Nat.mod_pow_succ]
    simp

/-- The bytes of a power of two are powers of two. -/
theorem pow_two_byte_le (k i : ℕ) : 2 ^ k / 256 ^ i % 256 ≤ 128 := by
  have hbase : 256 ^ i = 2 ^ (8 * i) := by rw [Nat.pow_mul]
  rw [hbase]
  by_cases hle : 8 * i ≤ k
  · rw [Nat.pow_div hle (by decide)]
    by_cases hbig : 8 ≤ k - 8 * i
    · obtain ⟨j, hj⟩ := Nat.exists_eq_add_of_le hbig
      rw [hj, Nat.pow_add]
      exact (Nat.mul_mod_right 256 (2 ^ j)).le.trans (Nat.zero_le _)
    · exact (Nat.mod_le _ _).trans (Nat.pow_le_pow_right (by decide) (by omega : k - 8 * i ≤ 7))
  · rw [Nat.div_eq_of_lt (Nat.pow_lt_pow_right (by decide) (by omega))]
    decide

section HalfMemory

variable {data cell length k a : ℕ} {next : UInt8}

theorem length_halfMemory :
    (halfMemory data cell length next).length = data + length + 2 + cell + 8 := by
  rw [halfMemory, List.length_map, List.length_range]

theorem getElem?_halfMemory (ha : a < data + length + 2 + cell + 8) :
    (halfMemory data cell length next)[a]? = some (halfByte data cell length next a) := by
  rw [halfMemory, List.getElem?_map, List.getElem?_range ha]
  rfl

theorem getD_halfMemory (ha : a < data + length + 2 + cell + 8) :
    (halfMemory data cell length next).getD a 0 = halfByte data cell length next a := by
  rw [List.getD, getElem?_halfMemory ha]
  rfl

/-- Only the high byte of the unit behind the text differs. -/
theorem getElem?_halfMemory_congr {next' : UInt8} (ha : a ≠ data + length + 1) :
    (halfMemory data cell length next')[a]? = (halfMemory data cell length next)[a]? := by
  have hbyte : halfByte data cell length next' a = halfByte data cell length next a := by
    unfold halfByte
    rw [if_neg ha, if_neg ha]
  by_cases hlt : a < data + length + 2 + cell + 8
  · rw [getElem?_halfMemory hlt, getElem?_halfMemory hlt, hbyte]
  · rw [List.getElem?_eq_none (by rw [length_halfMemory]; omega),
      List.getElem?_eq_none (by rw [length_halfMemory]; omega)]

/-- A byte that is not one of the end is small. -/
theorem halfByte_le (ha : a + 1 ≠ data + 2 ^ k) (ha' : a ≠ data + 2 ^ k + 1) :
    (halfByte data cell (2 ^ k) next a).toNat ≤ 128 := by
  unfold halfByte
  rw [if_neg ha, if_neg ha']
  split_ifs
  · have hle := pow_two_byte_le k (a - cell)
    rw [UInt8.toNat_ofNat', Nat.mod_eq_of_lt (by omega)]
    exact hle
  · exact Nat.zero_le _

/-- The length of the text. -/
theorem cellAt_halfMemory (hcell : cell ≠ 0) (hlength : length < 2 ^ 63)
    (hapart : data + length + 1 < cell ∨ cell + 8 ≤ data + length - 1) :
    cellAt (halfMemory data cell length next) cell = some (length : ℤ) := by
  have hbytes : (bytesAt (halfMemory data cell length next) cell 8).map UInt8.toNat =
      (List.range 8).map fun i => length / 256 ^ i % 256 := by
    rw [bytesAt, List.map_map]
    refine List.map_congr_left fun i hi => ?_
    have hi := List.mem_range.mp hi
    rw [Function.comp_apply, getD_halfMemory (by omega), halfByte, if_neg (by omega),
      if_neg (by omega), if_pos (by omega), Nat.add_sub_cancel_left, UInt8.toNat_ofNat',
      Nat.mod_mod]
  have hunsigned : unsignedAt (halfMemory data cell length next) cell 8 = length := by
    rw [unsignedAt, hbytes, ofDigits_bytes]
    exact Nat.mod_eq_of_lt (by omega)
  rw [cellAt, if_neg hcell, signedAt]
  simp only [hunsigned]
  rw [if_pos (by omega)]

/-- A cell that begins with a small byte is not that of a NULL value. -/
theorem cellAt_ne_sqlNullData {mem : List UInt8} (h : (mem.getD cell 0).toNat ≤ 128) :
    cellAt mem cell ≠ some sqlNullData := by
  have hmod : unsignedAt mem cell 8 % 256 = (mem.getD cell 0).toNat := by
    have hlt := (mem.getD cell 0).toNat_lt
    unfold unsignedAt bytesAt
    rw [List.range_succ_eq_map, List.map_cons, List.map_cons, Nat.ofDigits_cons, Nat.add_zero]
    omega
  unfold cellAt signedAt
  split_ifs with hcell
  · nofun
  · intro heq
    have heq := Option.some.inj heq
    dsimp only at heq
    split_ifs at heq with hpos
    · simp only [sqlNullData] at heq
      omega
    · simp only [sqlNullData] at heq
      omega

/-- A unit in the memory. -/
theorem charAt_unitsOf {memory : List UInt8} {i : ℕ} (hi : 2 * i + 1 < memory.length) :
    charAt (unitsOf memory) i =
      UInt16.ofNat ((memory.getD (2 * i) 0).toNat + 256 * (memory.getD (2 * i + 1) 0).toNat) := by
  rw [charAt, List.getD, List.getD, List.getD, getElem?_unitsOf, List.getElem?_eq_getElem hi,
    List.getElem?_eq_getElem (by omega : 2 * i < memory.length)]
  rfl

/-- The units of the text and the unit behind it. -/
theorem charAt_halfMemory (i : ℕ) (hi : 2 * i ≤ 2 ^ k) :
    charAt (unitsOf ((halfMemory data cell (2 ^ k) next).drop data)) i =
      UInt16.ofNat ((halfByte data cell (2 ^ k) next (data + 2 * i)).toNat +
        256 * (halfByte data cell (2 ^ k) next (data + (2 * i + 1))).toNat) := by
  have hget : ∀ j, j < 2 ^ k + 2 → ((halfMemory data cell (2 ^ k) next).drop data).getD j 0 =
      halfByte data cell (2 ^ k) next (data + j) := by
    intro j hj
    rw [List.getD, List.getElem?_drop, getElem?_halfMemory (by omega)]
    rfl
  rw [charAt_unitsOf (by rw [List.length_drop, length_halfMemory]; omega), hget _ (by omega),
    hget _ (by omega)]

/-- The text has no surrogate but for its last unit. -/
theorem charAt_halfMemory_cases {m : ℕ} (hm : 2 ^ k = 2 * (m + 1))
    (hapart : data + 2 ^ k + 1 < cell ∨ cell + 8 ≤ data + 2 ^ k - 2) :
    (∀ i < m, (charAt (unitsOf ((halfMemory data cell (2 ^ k) next).drop data)) i).toNat <
        0xd800) ∧
      charAt (unitsOf ((halfMemory data cell (2 ^ k) next).drop data)) m = 0xd800 ∧
      charAt (unitsOf ((halfMemory data cell (2 ^ k) next).drop data)) (m + 1) =
        UInt16.ofNat (256 * next.toNat) := by
  refine ⟨fun i hi => ?_, ?_, ?_⟩
  · rw [charAt_halfMemory i (by omega)]
    have hhigh := @halfByte_le data cell k (data + (2 * i + 1)) next (by omega) (by omega)
    have hlow := (halfByte data cell (2 ^ k) next (data + 2 * i)).toNat_lt
    rw [UInt16.toNat_ofNat', Nat.mod_eq_of_lt (by omega)]
    omega
  · rw [charAt_halfMemory m (by omega)]
    have hlow : halfByte data cell (2 ^ k) next (data + 2 * m) = 0 := by
      rw [halfByte, if_neg (by omega), if_neg (by omega), if_neg (by omega)]
    have hhigh : halfByte data cell (2 ^ k) next (data + (2 * m + 1)) = 0xd8 := by
      rw [halfByte, if_pos (by omega)]
    rw [hlow, hhigh]
    rfl
  · rw [charAt_halfMemory (m + 1) (by omega)]
    have hlow : halfByte data cell (2 ^ k) next (data + 2 * (m + 1)) = 0 := by
      rw [halfByte, if_neg (by omega), if_neg (by omega), if_neg (by omega)]
    have hhigh : halfByte data cell (2 ^ k) next (data + (2 * (m + 1) + 1)) = next := by
      rw [halfByte, if_neg (by omega), if_pos (by omega)]
    rw [hlow, hhigh]
    exact congrArg UInt16.ofNat (Nat.zero_add _)

end HalfMemory

/-- A length of a text that reaches behind a buffer and ends apart from two cells. -/
theorem exists_length_apart {buffer : ℕ} (data cell cell' : ℕ) (hbuffer : buffer < 2 ^ 48) :
    ∃ k, 1 ≤ k ∧ k < 63 ∧ buffer < 2 ^ k ∧
      (data + 2 ^ k + 1 < cell ∨ cell + 8 ≤ data + 2 ^ k - 2) ∧
      (data + 2 ^ k + 1 < cell' ∨ cell' + 8 ≤ data + 2 ^ k - 2) := by
  have hsize : buffer.size ≤ 48 := Nat.size_le.mpr hbuffer
  have hlt := Nat.lt_size_self buffer
  set n := 2 ^ buffer.size with hn
  have hpos : 0 < n := Nat.two_pow_pos _
  have hpow : 2 ^ (buffer.size + 4) = 16 * n ∧ 2 ^ (buffer.size + 5) = 32 * n ∧
      2 ^ (buffer.size + 6) = 64 * n := by
    rw [Nat.pow_add, Nat.pow_add, Nat.pow_add, ← hn]
    omega
  obtain ⟨hfour, hfive, hsix⟩ := hpow
  by_contra hnone
  push Not at hnone
  have h₄ := hnone (buffer.size + 4) (by omega) (by omega) (by omega)
  have h₅ := hnone (buffer.size + 5) (by omega) (by omega) (by omega)
  have h₆ := hnone (buffer.size + 6) (by omega) (by omega) (by omega)
  rw [hfour] at h₄
  rw [hfive] at h₅
  rw [hsix] at h₆
  omega

/-- A length that is given is taken. -/
theorem taken_of_pos {p : BoundParam} {n : ℤ} (hpos : 0 < n)
    (hindicator : p.indicator ≠ some sqlNullData) (hlength : p.octetLength = some n) :
    p.taken = .ok (.value n) := by
  have hspecial : ∀ z : ℤ, z ≤ 0 → some n ≠ some z := by
    intro z hz h
    have := Option.some.inj h
    omega
  have hexec : ¬ isDataAtExec (some n) = true := by
    have hdecide : isDataAtExec (some n) =
        decide (n = sqlDataAtExec ∨ n ≤ sqlLenDataAtExecOffset) := rfl
    rw [hdecide, decide_eq_true_iff, sqlDataAtExec, sqlLenDataAtExecOffset]
    omega
  unfold BoundParam.taken
  rw [if_neg hindicator, hlength, if_neg nofun, if_neg (hspecial _ (by decide)),
    if_neg (not_or.mpr ⟨hspecial _ (by decide), fun h => hspecial 0 le_rfl h.1⟩)]
  exact if_neg hexec

/-- A row with a wide text of a given length depends on another. -/
theorem not_rowIndependent_of_end (hplaced : rec.Placed row) (hok : ¬ rec.Refused)
    (hend : ¬ rec.EndInRow row) : ¬ rec.RowIndependent row := by
  unfold EndInRow at hend
  push Not at hend
  obtain ⟨htype, hcell, hdata⟩ := hend
  have hbuffer : rec.octetLength.toNat < 2 ^ 48 := by
    have := hplaced.buffer
    omega
  obtain ⟨k, hk, hk', hlong, hapart, hapart'⟩ :=
    exists_length_apart (rec.data row) (rec.lengthCell row) (rec.indicatorCell row) hbuffer
  set mem : UInt8 → List UInt8 := halfMemory (rec.data row) (rec.lengthCell row) (2 ^ k) with hmem
  have hpow : (2 : ℕ) ^ k < 2 ^ 63 := Nat.pow_lt_pow_right (by decide) hk'
  obtain ⟨m, hm⟩ : ∃ m, 2 ^ k = 2 * (m + 1) := by
    obtain ⟨j, rfl⟩ := Nat.exists_eq_add_of_le' hk
    have hpos := Nat.two_pow_pos j
    exact ⟨2 ^ j - 1, by rw [Nat.pow_succ]; omega⟩
  have hlength : ∀ next, cellAt (mem next) (rec.lengthCell row) = some ((2 ^ k : ℕ) : ℤ) :=
    fun next => cellAt_halfMemory hcell hpow (by omega)
  have hexec : ∀ next, rec.atExec (mem next) row = false := by
    intro next
    rw [atExec, hlength]
    exact decide_eq_false (by simp only [sqlDataAtExec, sqlLenDataAtExecOffset]; omega)
  have hindicator : ∀ next, cellAt (mem next) (rec.indicatorCell row) ≠ some sqlNullData := by
    intro next
    apply cellAt_ne_sqlNullData
    by_cases hin : rec.indicatorCell row < rec.data row + 2 ^ k + 2 + rec.lengthCell row + 8
    · rw [hmem, getD_halfMemory hin]
      exact halfByte_le (by omega) (by omega)
    · rw [hmem, List.getD, List.getElem?_eq_none (by rw [length_halfMemory]; omega)]
      exact Nat.zero_le _
  have htaken : ∀ next, (rec.boundParam plainArrayEnv (mem next) row).taken =
      .ok (.value (2 ^ k : ℕ)) := by
    intro next
    have hgiven : (rec.boundParam plainArrayEnv (mem next) row).octetLength =
        some ((2 ^ k : ℕ) : ℤ) := (if_neg fun h => hdata h.1).trans (hlength next)
    exact taken_of_pos (by omega) (hindicator next) hgiven
  have hnull : ∀ next, rec.usesNull (mem next) row = false := by
    intro next
    unfold usesNull readsClock readsNoHead
    rw [htype]
    simp [ParamCType.isText, ParamCType.isTimestamp]
  have hsame : rec.SameRow row (mem 0xdc) (mem 0) := by
    refine ⟨by rw [hmem, length_halfMemory, length_halfMemory], fun a ha => ?_⟩
    refine getElem?_halfMemory_congr ?_
    rintro rfl
    obtain (⟨-, hle, hlt⟩ | ⟨-, hle, hlt⟩) | ⟨-, -, hlt⟩ := ha
    · omega
    · omega
    · have hsize : rec.elementSize (mem 0xdc) row = 2 ^ k := by
        unfold elementSize
        rw [htype, hlength]
        simp only [reduceCtorEq, Option.some.injEq, false_or, Option.getD_some, Int.toNat_natCast]
        rw [if_neg (by simp only [sqlNts]; omega)]
        exact max_eq_right hlong.le
      omega
  have hconvert : ∀ (pair : Bool) (next : UInt8),
      UInt16.ofNat (256 * next.toNat) = (if pair then 0xdc00 else 0) →
      if pair then convertCType2str plainArrayEnv.toPathEnv false
          (rec.boundParam plainArrayEnv (mem next) row).value (2 ^ k : ℕ) =
        .error (.error "HY000" "Server does not support 4-byte encoded UTF8 characters.")
      else ∃ data, convertCType2str plainArrayEnv.toPathEnv false
          (rec.boundParam plainArrayEnv (mem next) row).value (2 ^ k : ℕ) = .ok data := by
    intro pair next hnext
    have hvalue : (rec.boundParam plainArrayEnv (mem next) row).value =
        .SQL_C_WCHAR (unitsOf ((mem next).drop (rec.data row))) := by
      change decodeValue plainArrayEnv rec.conciseType (rec.memoryAt (mem next) row) = _
      rw [htype, memoryAt, hexec next, if_neg hdata]
      rfl
    obtain ⟨hplain, hhigh, hbehind⟩ := @charAt_halfMemory_cases (rec.data row) (rec.lengthCell row)
      k next m hm hapart
    rw [hvalue]
    refine convertCType2str_half pair hplain hhigh (hbehind.trans hnext) (by omega) ?_
    rw [length_unitsOf, List.length_drop, hmem, length_halfMemory]
    omega
  obtain ⟨data, hok'⟩ := hconvert false 0 rfl
  have hfails := hconvert true 0xdc rfl
  rw [if_pos rfl] at hfails
  have hdetermined : rec.Determined plainArrayEnv (mem 0xdc) row := by
    have hgiven : rec.givenLength (mem 0xdc) row = some ((2 ^ k : ℕ) : ℤ) :=
      (if_neg fun h => hdata h.1).trans (hlength 0xdc)
    have hpos := Nat.two_pow_pos k
    refine ⟨fun _ hnone => ?_, fun length htaken' _ => ⟨hnull 0xdc, ?_, fun data hdata' => ?_⟩⟩
    · rw [hgiven] at hnone
      obtain hnone | hnts := hnone
      · cases hnone
      · have := Option.some.inj hnts
        simp only [sqlNts] at this
        omega
    · obtain rfl := value_injective ((htaken 0xdc).symm.trans htaken')
      rw [@inMemory_iff rec plainArrayEnv, hfails]
      rintro ⟨⟩
    · obtain rfl := value_injective ((htaken 0xdc).symm.trans htaken')
      rw [hfails] at hdata'
      cases hdata'
  intro h
  have heq := h.written_eq hsame hdetermined
  rw [written_value (htaken 0) hok (hnull 0), written_value (htaken 0xdc) hok (hnull 0xdc), hok',
    hfails] at heq
  cases hinsert : (rec.boundParam plainArrayEnv (mem 0) row).insertText plainArrayEnv.toPathEnv
      false data ⟨[], none⟩ with
  | ok written =>
    change Except.map _ (BoundParam.insertText _ _ _ _ _) = Except.error _ at heq
    rw [hinsert] at heq
    cases heq
  | error failure =>
    change Except.map _ (BoundParam.insertText _ _ _ _ _) = Except.error _ at heq
    rw [hinsert] at heq
    obtain rfl := Except.error.inj heq
    exact absurd (sqlstate_insertText hinsert) (by decide)

/-- A column of timestamps at address 8 for a parameter of the type `SQL_TYPE_TIME`. -/
def timestampColumn : ParamRecord where
  conciseType := .SQL_C_TYPE_TIMESTAMP
  dataPtr := 8
  octetLengthPtr := 0
  indicatorPtr := 0
  octetLength := 0
  bindOffset := none
  bindType := 0
  par := none
  aprecType := .SQL_DATETIME
  iprecType := .SQL_DATETIME
  sqlType := .SQL_TYPE_TIME

end ParamRecord

end MatrixOdbc.Driver
