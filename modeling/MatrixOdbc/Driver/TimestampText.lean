import MatrixOdbc.Driver.DateTimeBounds
import MatrixOdbc.Driver.ParamPaths

/-!
# The text of a timestamp

`convert_c_type2str` prints a `TIMESTAMP_STRUCT` into the local buffer of `insert_param` and takes
the zeros at the end of the fraction away, byte by byte. `str_to_ts` finds the fraction by its dot
and fills it up with zeros again, so it reads the fields that were printed.
-/

namespace MatrixOdbc.Driver.DateTime

variable {text front behind decimalPoint : List UInt8} {zeroToMin : Bool}

/-- The loop that takes zeros away from the end of the fraction: the buffer with the fraction
behind its dot, and `tmp_pos`. -/
def trimZeros (buff : List UInt8) (start : ℕ) : ℕ → List UInt8 × ℕ
  | 0 => (buff, 0)
  | tmpPos + 1 =>
    if buff.getD (start + (tmpPos + 1)) 0 = 0x30 then
      trimZeros (buff.set (start + (tmpPos + 1)) 0) start tmpPos
    else (buff, tmpPos + 1)

/-- The date and the time of the day, as they are printed. -/
def clock (timestamp : CTimestamp) (minDateToZero : Bool) : List UInt8 :=
  timestamp.date.text minDateToZero ++ 0x20 :: timestamp.time.text

/-- `convert_c_type2str` for `SQL_C_TIMESTAMP`: the buffer after the call, and the length. The text
of a valid timestamp is shorter than the buffer. -/
def writeTimestamp (minDateToZero : Bool) (timestamp : CTimestamp) (buff : List UInt8) :
    List UInt8 × ℕ :=
  let text := clock timestamp minDateToZero
  let buff := Buffer.store buff 0 (text ++ [0])
  if timestamp.fraction = 0 then (buff, text.length)
  else
    let buff := Buffer.store buff text.length (0x2e :: zeroPadded 9 timestamp.fraction ++ [0])
    let trimmed := trimZeros buff text.length 9
    (trimmed.1, text.length + (trimmed.2 + 1))

/-- A timestamp of the calendar, with a leap second perhaps. -/
structure Valid (timestamp : CTimestamp) : Prop where
  year : 1 ≤ timestamp.date.year ∧ timestamp.date.year ≤ 9999
  month : 1 ≤ timestamp.date.month ∧ timestamp.date.month ≤ 12
  day : 1 ≤ timestamp.date.day ∧ timestamp.date.day ≤ 31
  hour : timestamp.time.hour ≤ 23
  minute : timestamp.time.minute ≤ 59
  second : timestamp.time.second ≤ 61
  fraction : timestamp.fraction ≤ 999999999

/-- The fields of `TIMESTAMP_STRUCT` in the order of `SQL_TIMESTAMP_STRUCT`. -/
def fields (timestamp : CTimestamp) : TimestampStruct :=
  { year := timestamp.date.year.toNat
    month := timestamp.date.month
    day := timestamp.date.day
    hour := timestamp.time.hour
    minute := timestamp.time.minute
    second := timestamp.time.second
    fraction := timestamp.fraction }

/-- Without a dot the search ends at the terminator. -/
theorem strchr_terminator (hdot : 0x2e ∉ text) (hzero : 0 ∉ text) :
    strchr 0x2e (text ++ 0 :: behind) = some none := by
  induction text with
  | nil => rfl
  | cons c text ih =>
    obtain ⟨hc, hdot⟩ := not_or.mp (List.mem_cons.not.mp hdot)
    obtain ⟨hc₀, hzero⟩ := not_or.mp (List.mem_cons.not.mp hzero)
    rw [List.cons_append, strchr, if_neg (Ne.symm hc), if_neg (Ne.symm hc₀), ih hdot hzero]
    rfl

/-- The search ends at the first dot. -/
theorem strchr_dot (hdot : 0x2e ∉ front) (hzero : 0 ∉ front) :
    strchr 0x2e (front ++ 0x2e :: behind) = some (some front.length) := by
  induction front with
  | nil => rfl
  | cons c front ih =>
    obtain ⟨hc, hdot⟩ := not_or.mp (List.mem_cons.not.mp hdot)
    obtain ⟨hc₀, hzero⟩ := not_or.mp (List.mem_cons.not.mp hzero)
    rw [List.cons_append, strchr, if_neg (Ne.symm hc), if_neg (Ne.symm hc₀), ih hdot hzero]
    rfl

/-- A text without a dot has no fraction. -/
theorem strToTs_noDot (hdot : 0x2e ∉ text) (hzero : 0 ∉ text) :
    strToTs decimalPoint (text ++ 0 :: behind) text.length zeroToMin true =
      some (tsOfText text 0 zeroToMin) := by
  have hpart : getFractionalPart decimalPoint (text ++ 0 :: behind) text.length true =
      some (none, 0) := by
    rw [getFractionalPart_natCast, searchDecimalPoint, if_pos rfl, strchr_terminator hdot hzero]
    rfl
  rw [strToTs_natCast hpart, Option.getD_none, List.take_left]

/-- The nanoseconds of the digits behind the dot. -/
def nanoseconds (digits : List UInt8) : ℕ :=
  digitsValue ((digits.takeWhile isdigit).take 9 ++
    List.replicate (9 - ((digits.takeWhile isdigit).take 9).length) 0x30)

/-- A text with something behind its dot is read up to it. -/
theorem strToTs_dot {digits : List UInt8} (hdot : 0x2e ∉ front) (hzero : 0 ∉ front)
    (hne : digits ≠ []) :
    strToTs decimalPoint (front ++ 0x2e :: (digits ++ behind))
        (front ++ 0x2e :: digits).length zeroToMin true =
      some (tsOfText front (nanoseconds digits) zeroToMin) := by
  have hlast : front.length + 1 < (front ++ 0x2e :: digits).length := by
    have := List.length_pos_iff.mpr hne
    simp only [List.length_append, List.length_cons]
    omega
  have htake : (front ++ 0x2e :: (digits ++ behind)).take (front ++ 0x2e :: digits).length =
      front ++ 0x2e :: digits := by
    rw [← List.cons_append, ← List.append_assoc, List.take_left]
  have hdrop : (front ++ 0x2e :: digits).drop (front.length + 1) = digits := by
    rw [← List.drop_drop, List.drop_left, List.drop_one, List.tail_cons]
  have hpart : getFractionalPart decimalPoint (front ++ 0x2e :: (digits ++ behind))
      (front ++ 0x2e :: digits).length true = some (some front.length, nanoseconds digits) := by
    rw [getFractionalPart_natCast, searchDecimalPoint, if_pos rfl, if_pos rfl,
      strchr_dot hdot hzero, Option.map_some, fractionAt, if_pos hlast, htake, hdrop]
    dsimp only
    rw [take_fillFraction]
    rfl
  rw [strToTs_natCast hpart, Option.getD_some, List.take_left]

/-- A field of two digits, where `00` becomes the smallest one. -/
def atLeastOne (digits : List UInt8) : ℕ := if digits = [0x30, 0x30] then 1 else digitsValue digits

/-- The fields of a buffer whose year has four digits. -/
theorem tsOfDigits_eq {year month day rest : List UInt8} (hyear : year.length = 4)
    (hmonth : month.length = 2) (hday : day.length = 2) (fraction : ℕ) (zeroToMin : Bool) :
    tsOfDigits (year ++ month ++ day ++ rest) fraction zeroToMin =
      if (month = [0x30, 0x30] ∨ day = [0x30, 0x30]) ∧ zeroToMin = false then .nullDate
      else .stored
        { year := digitsValue year
          month := atLeastOne month
          day := atLeastOne day
          hour := field rest 0 2
          minute := field rest 2 2
          second := field rest 4 2
          fraction := fraction } := by
  obtain ⟨y₀, y₁, y₂, y₃, rfl⟩ : ∃ y₀ y₁ y₂ y₃, [y₀, y₁, y₂, y₃] = year := by
    simpa [List.length_eq_succ_iff] using hyear
  obtain ⟨m₀, m₁, rfl⟩ := List.length_eq_two.mp hmonth
  obtain ⟨d₀, d₁, rfl⟩ := List.length_eq_two.mp hday
  have hbuff : [y₀, y₁, y₂, y₃] ++ [m₀, m₁] ++ [d₀, d₁] ++ rest =
      y₀ :: y₁ :: y₂ :: y₃ :: m₀ :: m₁ :: d₀ :: d₁ :: rest := rfl
  have hmonth : ((y₀ :: y₁ :: y₂ :: y₃ :: m₀ :: m₁ :: d₀ :: d₁ :: rest).drop 4).take 2 = [m₀, m₁] := rfl
  have hday : ((y₀ :: y₁ :: y₂ :: y₃ :: m₀ :: m₁ :: d₀ :: d₁ :: rest).drop 6).take 2 = [d₀, d₁] := rfl
  rw [tsOfDigits, hbuff, hmonth, hday]
  by_cases hnull : ([m₀, m₁] = [0x30, 0x30] ∨ [d₀, d₁] = [0x30, 0x30]) ∧ zeroToMin = false
  · rw [if_pos hnull, if_pos hnull]
  rw [if_neg hnull, if_neg hnull, atLeastOne, atLeastOne]
  by_cases hm : [m₀, m₁] = [0x30, 0x30]
  · obtain ⟨rfl, rfl⟩ : m₀ = 0x30 ∧ m₁ = 0x30 := by simpa using hm
    by_cases hd : [d₀, d₁] = [0x30, 0x30]
    · obtain ⟨rfl, rfl⟩ : d₀ = 0x30 ∧ d₁ = 0x30 := by simpa using hd
      rfl
    · simp only [if_neg hd]
      rfl
  · simp only [if_neg hm]
    by_cases hd : [d₀, d₁] = [0x30, 0x30]
    · obtain ⟨rfl, rfl⟩ : d₀ = 0x30 ∧ d₁ = 0x30 := by simpa using hd
      rfl
    · simp only [if_neg hd]
      rfl

/-- The fields of the time of the day. -/
theorem field_clock {hour minute second : List UInt8} (hhour : hour.length = 2)
    (hminute : minute.length = 2) (hsecond : second.length = 2) :
    field (hour ++ (minute ++ second)) 0 2 = digitsValue hour ∧
      field (hour ++ (minute ++ second)) 2 2 = digitsValue minute ∧
        field (hour ++ (minute ++ second)) 4 2 = digitsValue second := by
  obtain ⟨h₀, h₁, rfl⟩ := List.length_eq_two.mp hhour
  obtain ⟨m₀, m₁, rfl⟩ := List.length_eq_two.mp hminute
  obtain ⟨s₀, s₁, rfl⟩ := List.length_eq_two.mp hsecond
  exact ⟨rfl, rfl, rfl⟩

/-- Digits with a year of four digits are taken as they are, with zeros behind them. -/
theorem tsOfText_eq {digits : List UInt8} (h : text.filter isdigit = digits)
    (hlength : digits.length ≤ 14) (hyear : ¬ (digits.length = 6 ∨ digits.length = 12))
    (fraction : ℕ) (zeroToMin : Bool) :
    tsOfText text fraction zeroToMin =
      tsOfDigits (digits ++ List.replicate (14 - digits.length) 0x30) fraction zeroToMin := by
  have hmany : ¬ 14 < digits.length := by omega
  simp only [tsOfText, h, if_neg hmany, withCentury, if_neg hyear]

/-- A number that fits has the width. -/
theorem length_zeroPadded {width n : ℕ} (hwidth : 0 < width) (h : n < 10 ^ width) :
    (zeroPadded width n).length = width := by
  have hle := Decimal.length_text_le hwidth h
  rw [zeroPadded, if_neg (by omega), List.length_append, List.length_replicate, Int.natAbs_natCast]
  omega

/-- The digits have the value of the number. -/
theorem digitsValue_zeroPadded (width n : ℕ) : digitsValue (zeroPadded width n) = n := by
  rw [zeroPadded, if_neg (by omega), Int.natAbs_natCast]
  exact (Decimal.value_replicate_append _ _).trans (Decimal.value_text n)

/-- A number that is not zero does not become `00`. -/
theorem atLeastOne_zeroPadded {n : ℕ} (hpos : 1 ≤ n) :
    zeroPadded 2 n ≠ [0x30, 0x30] ∧ atLeastOne (zeroPadded 2 n) = n := by
  have hne : zeroPadded 2 n ≠ [0x30, 0x30] := by
    intro h
    have hvalue := digitsValue_zeroPadded 2 n
    rw [h] at hvalue
    exact absurd hvalue (by simp [digitsValue]; omega)
  exact ⟨hne, by rw [atLeastOne, if_neg hne, digitsValue_zeroPadded]⟩

theorem filter_zeroPadded (width n : ℕ) :
    (zeroPadded width n).filter isdigit = zeroPadded width n :=
  List.filter_eq_self.mpr fun _ => mem_zeroPadded

/-- The loop takes all zeros away that are at the end of the digits. -/
theorem trimZeros_eq (c : UInt8) (digits after : List UInt8) :
    ∃ kept count, digits = kept ++ List.replicate count 0x30 ∧ kept.getLast? ≠ some 0x30 ∧
      trimZeros (front ++ c :: (digits ++ after)) front.length digits.length =
        (front ++ c :: (kept ++ (List.replicate count 0 ++ after)), kept.length) := by
  induction digits using List.reverseRecOn generalizing after with
  | nil => exact ⟨[], 0, rfl, by simp, rfl⟩
  | append_singleton digits d ih =>
    have hsplit : front ++ c :: (digits ++ [d] ++ after) =
        (front ++ c :: digits) ++ d :: after := by simp
    have hpos : front.length + (digits.length + 1) = (front ++ c :: digits).length := by simp
    rw [List.length_append, List.length_singleton, trimZeros, hsplit, hpos]
    by_cases hd : d = 0x30
    · subst hd
      obtain ⟨kept, count, hdigits, hlast, htrim⟩ := ih (0 :: after)
      refine ⟨kept, count + 1, ?_, hlast, ?_⟩
      · rw [List.replicate_succ', ← List.append_assoc, ← hdigits]
      · have hset : ((front ++ c :: digits) ++ 0x30 :: after).set (front ++ c :: digits).length 0 =
            front ++ c :: (digits ++ 0 :: after) := by simp
        rw [if_pos (by simp), hset, htrim, List.replicate_succ']
        simp
    · refine ⟨digits ++ [d], 0, by simp, by simpa using hd, ?_⟩
      rw [if_neg (by simpa using hd)]
      simp

variable {timestamp : CTimestamp} {minDateToZero : Bool} {buff : List UInt8}

namespace Valid

variable (h : Valid timestamp)
include h

/-- The text of the date and the time by its fields. -/
theorem clock_eq : clock timestamp minDateToZero =
    zeroPadded 4 (fields timestamp).year ++ 0x2d :: (zeroPadded 2 (fields timestamp).month ++
      0x2d :: (zeroPadded 2 (fields timestamp).day ++ 0x20 :: (zeroPadded 2 (fields timestamp).hour ++
        0x3a :: (zeroPadded 2 (fields timestamp).minute ++
          0x3a :: zeroPadded 2 (fields timestamp).second)))) := by
  have hyear := h.year
  have hcast : ((fields timestamp).year : ℤ) = timestamp.date.year :=
    Int.toNat_of_nonneg (by omega)
  rw [clock, CDate.text, if_neg (by omega), CTime.text, hcast]
  simp [fields]

/-- It has no dot and no terminator. -/
theorem notMem_clock {c : UInt8} (hc : c = 0x2e ∨ c = 0) : c ∉ clock timestamp minDateToZero := by
  have hdigit : isdigit c = false := by rcases hc with rfl | rfl <;> rfl
  have hpad (width n : ℕ) : c ∉ zeroPadded width n := by
    intro hmem
    rw [mem_zeroPadded hmem] at hdigit
    cases hdigit
  rw [h.clock_eq]
  rcases hc with rfl | rfl <;> simp [hpad]

/-- Its digits are those of the fields. -/
theorem filter_clock : (clock timestamp minDateToZero).filter isdigit =
    zeroPadded 4 (fields timestamp).year ++ zeroPadded 2 (fields timestamp).month ++
      zeroPadded 2 (fields timestamp).day ++ (zeroPadded 2 (fields timestamp).hour ++
        (zeroPadded 2 (fields timestamp).minute ++ zeroPadded 2 (fields timestamp).second)) := by
  have hseparator : isdigit 0x2d = false ∧ isdigit 0x20 = false ∧ isdigit 0x3a = false := by decide
  rw [h.clock_eq]
  simp [filter_zeroPadded, hseparator]

/-- The fields are read back. -/
theorem tsOfText_clock (fraction : ℕ) (zeroToMin : Bool) :
    tsOfText (clock timestamp minDateToZero) fraction zeroToMin =
      .stored { fields timestamp with fraction := fraction } := by
  have hyear := h.year
  have hmonth := h.month
  have hday := h.day
  have hhour := h.hour
  have hminute := h.minute
  have hsecond := h.second
  have hfour : (zeroPadded 4 (fields timestamp).year).length = 4 := by
    apply length_zeroPadded (by decide)
    show timestamp.date.year.toNat < 10 ^ 4
    omega
  have htwo : ∀ n : ℕ, n < 100 → (zeroPadded 2 n).length = 2 := fun n hn =>
    length_zeroPadded (by decide) hn
  have hmonth' := htwo (fields timestamp).month (show timestamp.date.month < 100 by omega)
  have hday' := htwo (fields timestamp).day (show timestamp.date.day < 100 by omega)
  have hhour' := htwo (fields timestamp).hour (show timestamp.time.hour < 100 by omega)
  have hminute' := htwo (fields timestamp).minute (show timestamp.time.minute < 100 by omega)
  have hsecond' := htwo (fields timestamp).second (show timestamp.time.second < 100 by omega)
  obtain ⟨hmonthNe, hmonthValue⟩ := @atLeastOne_zeroPadded (fields timestamp).month h.month.1
  obtain ⟨hdayNe, hdayValue⟩ := @atLeastOne_zeroPadded (fields timestamp).day h.day.1
  have hcount : ((clock timestamp minDateToZero).filter isdigit).length = 14 := by
    simp [h.filter_clock, hfour, hmonth', hday', hhour', hminute', hsecond']
  rw [tsOfText_eq rfl hcount.le (by omega), hcount, Nat.sub_self, List.replicate_zero,
    List.append_nil, h.filter_clock, tsOfDigits_eq hfour hmonth' hday',
    if_neg (by simp [hmonthNe, hdayNe]), hmonthValue, hdayValue, digitsValue_zeroPadded]
  obtain ⟨hh, hm, hs⟩ := field_clock hhour' hminute' hsecond'
  rw [hh, hm, hs]
  simp only [digitsValue_zeroPadded]

end Valid

/-- The buffer behind the printed date and time. -/
theorem store_clock (text buff : List UInt8) :
    Buffer.store buff 0 (text ++ [0]) = text ++ 0 :: buff.drop (text.length + 1) := by
  simp [Buffer.store_zero]

/-- What is written is the text, with the fraction as digits whose zeros at the end are left out,
and a terminator behind it unless there is a fraction of nine digits. -/
theorem writeTimestamp_eq (h : timestamp.fraction ≤ 999999999) :
    (timestamp.fraction = 0 ∧ ∃ behind, writeTimestamp minDateToZero timestamp buff =
      (clock timestamp minDateToZero ++ 0 :: behind, (clock timestamp minDateToZero).length)) ∨
    ∃ kept count behind, kept ≠ [] ∧
      zeroPadded 9 timestamp.fraction = kept ++ List.replicate count 0x30 ∧
      kept.getLast? ≠ some 0x30 ∧
      writeTimestamp minDateToZero timestamp buff =
        (clock timestamp minDateToZero ++ 0x2e :: (kept ++ behind),
          (clock timestamp minDateToZero ++ 0x2e :: kept).length) := by
  by_cases hzero : timestamp.fraction = 0
  · refine Or.inl ⟨hzero, buff.drop ((clock timestamp minDateToZero).length + 1), ?_⟩
    rw [writeTimestamp, if_pos hzero]
    exact Prod.ext (store_clock _ _) rfl
  · right
    have hlength := length_zeroPadded (by decide : 0 < 9) (by omega : timestamp.fraction < 10 ^ 9)
    let rest := buff.drop ((clock timestamp minDateToZero).length + 1)
    let after := 0 :: ((0 : UInt8) :: rest).drop 11
    obtain ⟨kept, count, hdigits, hlast, htrim⟩ := @trimZeros_eq (clock timestamp minDateToZero) 0x2e
      (zeroPadded 9 timestamp.fraction) after
    refine ⟨kept, count, List.replicate count 0 ++ after, ?_, hdigits, hlast, ?_⟩
    · rintro rfl
      have hvalue := digitsValue_zeroPadded 9 timestamp.fraction
      have hzeros : digitsValue (List.replicate count 0x30 ++ []) = 0 :=
        Decimal.value_replicate_append count []
      rw [hdigits, List.nil_append, ← List.append_nil (List.replicate count 0x30), hzeros] at hvalue
      exact hzero hvalue.symm
    · have hstore : Buffer.store (clock timestamp minDateToZero ++ 0 :: rest)
          (clock timestamp minDateToZero).length (0x2e :: zeroPadded 9 timestamp.fraction ++ [0]) =
            clock timestamp minDateToZero ++ 0x2e :: (zeroPadded 9 timestamp.fraction ++ after) := by
        rw [Buffer.store_append rfl]
        simp [hlength, after]
      rw [hlength] at htrim
      rw [writeTimestamp, if_neg hzero]
      dsimp only
      rw [store_clock, hstore, htrim]
      simp

/-- `str_to_ts` reads the seven fields of what `convert_c_type2str` has written for a valid
timestamp. -/
theorem strToTs_writeTimestamp (h : Valid timestamp) (buff decimalPoint : List UInt8)
    (minDateToZero zeroToMin : Bool) :
    strToTs decimalPoint (writeTimestamp minDateToZero timestamp buff).1
        (writeTimestamp minDateToZero timestamp buff).2 zeroToMin true =
      some (.stored (fields timestamp)) := by
  obtain ⟨hzero, behind, hwrite⟩ | ⟨kept, count, behind, hne, hdigits, -, hwrite⟩ :=
    @writeTimestamp_eq timestamp minDateToZero buff h.fraction
  · rw [hwrite, strToTs_noDot (h.notMem_clock (Or.inl rfl)) (h.notMem_clock (Or.inr rfl)),
      h.tsOfText_clock, ← hzero]
    rfl
  · have hlength := length_zeroPadded (by decide : 0 < 9)
      (show timestamp.fraction < 10 ^ 9 by have := h.fraction; omega)
    have hkept : ∀ c ∈ kept, isdigit c = true := by
      intro c hc
      apply @mem_zeroPadded c 9 timestamp.fraction
      rw [hdigits]
      exact List.mem_append_left _ hc
    have hcount : kept.length + count = 9 := by
      rw [← hlength, hdigits, List.length_append, List.length_replicate]
    have hnano : nanoseconds kept = timestamp.fraction := by
      rw [nanoseconds, List.takeWhile_eq_self_iff.mpr hkept, List.take_of_length_le (by omega),
        show 9 - kept.length = count by omega, ← hdigits, digitsValue_zeroPadded]
    rw [hwrite, strToTs_dot (h.notMem_clock (Or.inl rfl)) (h.notMem_clock (Or.inr rfl)) hne,
      h.tsOfText_clock, hnano]
    rfl

/-- The last second of a leap day, with a fraction whose zeros are taken away. -/
theorem strToTs_writeTimestamp_leapDay :
    strToTs [0x2c] (writeTimestamp false ⟨⟨2024, 2, 29⟩, ⟨23, 59, 59⟩, 120000000⟩ []).1
        (writeTimestamp false ⟨⟨2024, 2, 29⟩, ⟨23, 59, 59⟩, 120000000⟩ []).2 false true =
      some (.stored ⟨2024, 2, 29, 23, 59, 59, 120000000⟩) := by
  have hvalid : Valid ⟨⟨2024, 2, 29⟩, ⟨23, 59, 59⟩, 120000000⟩ := by constructor <;> decide
  exact strToTs_writeTimestamp hvalid [] [0x2c] false false

end MatrixOdbc.Driver.DateTime
