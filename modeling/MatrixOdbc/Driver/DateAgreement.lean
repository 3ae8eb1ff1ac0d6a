import MatrixOdbc.Driver.TimestampText

/-!
# Two readings of a date

`str_to_date` takes the fields of a date one after the other, and the first run of digits tells
how long the year is. `str_to_ts` puts all digits in front of the first dot together and goes by
their number. They agree on a date with a year of four digits unless a dot divides it.
-/

namespace MatrixOdbc.Driver.DateTime

/-- A number of so many digits. -/
structure Number (width : ℕ) where
  digits : List UInt8
  length_eq : digits.length = width
  isdigit_of_mem : ∀ c ∈ digits, isdigit c = true

theorem isdigit_pair {a b : UInt8} (ha : isdigit a = true) (hb : isdigit b = true) :
    ∀ c ∈ [a, b], isdigit c = true := by
  intro c hc
  rcases List.mem_pair.mp hc with rfl | rfl
  · exact ha
  · exact hb

/-- A number of two digits. -/
def twoDigits (a b : UInt8) (ha : isdigit a = true) (hb : isdigit b = true) : Number 2 :=
  ⟨[a, b], rfl, isdigit_pair ha hb⟩

/-- What stands between two numbers. -/
structure Separator where
  bytes : List UInt8
  ne_nil : bytes ≠ []
  not_isdigit : ∀ c ∈ bytes, isdigit c = false
  zero_notMem : 0 ∉ bytes

/-- A fraction of a second: a dot, and digits. -/
structure Fraction where
  digits : List UInt8
  isdigit_of_mem : ∀ c ∈ digits, isdigit c = true

/-- The forms of a date or a timestamp. -/
inductive DateText where
  /-- `YYMMDD`. -/
  | short (year month day : Number 2)
  /-- `YYYYMMDD`. -/
  | compact (year : Number 4) (month day : Number 2)
  /-- `YYYYMMDDHHMMSS` with or without a fraction. -/
  | compactTime (year : Number 4) (month day hour minute second : Number 2)
      (fraction : Option Fraction)
  /-- `YYYY-MM-DD` with any separators. -/
  | separated (year : Number 4) (s₁ : Separator) (month : Number 2) (s₂ : Separator)
      (day : Number 2)
  /-- `YYYY-MM-DD HH:MM:SS` with any separators, with or without a fraction. -/
  | separatedTime (year : Number 4) (s₁ : Separator) (month : Number 2) (s₂ : Separator)
      (day : Number 2) (s₃ : Separator) (hour : Number 2) (s₄ : Separator) (minute : Number 2)
      (s₅ : Separator) (second : Number 2) (fraction : Option Fraction)

namespace Number

variable {width : ℕ} (n : Number width)

/-- The number. -/
def value : ℕ := digitsValue n.digits

theorem value_lt : n.value < 10 ^ width := by
  have hdigits : ∀ c ∈ n.digits, Decimal.IsDigit c := fun c hc => by
    simpa [isdigit, Decimal.IsDigit, UInt8.le_iff_toNat_le] using n.isdigit_of_mem c hc
  have hlt : digitsValue n.digits < 10 ^ n.digits.length := Decimal.value_lt hdigits
  rwa [n.length_eq] at hlt

end Number

/-- The bytes of a fraction. -/
def Fraction.bytes : Option Fraction → List UInt8
  | some fraction => 0x2e :: fraction.digits
  | none => []

namespace DateText

/-- The bytes of the text. -/
def bytes : DateText → List UInt8
  | short year month day => year.digits ++ month.digits ++ day.digits
  | compact year month day => year.digits ++ month.digits ++ day.digits
  | compactTime year month day hour minute second fraction =>
    year.digits ++ month.digits ++ day.digits ++ hour.digits ++ minute.digits ++ second.digits ++
      Fraction.bytes fraction
  | separated year s₁ month s₂ day =>
    year.digits ++ s₁.bytes ++ month.digits ++ s₂.bytes ++ day.digits
  | separatedTime year s₁ month s₂ day s₃ hour s₄ minute s₅ second fraction =>
    year.digits ++ s₁.bytes ++ month.digits ++ s₂.bytes ++ day.digits ++ s₃.bytes ++
      hour.digits ++ s₄.bytes ++ minute.digits ++ s₅.bytes ++ second.digits ++
      Fraction.bytes fraction

/-- The fields of the date as they are written. -/
def year : DateText → ℕ
  | short year _ _ => year.value
  | compact year _ _ | compactTime year _ _ _ _ _ _ | separated year _ _ _ _ |
    separatedTime year _ _ _ _ _ _ _ _ _ _ _ => year.value

@[inherit_doc year] def month : DateText → ℕ
  | short _ month _ | compact _ month _ | compactTime _ month _ _ _ _ _ | separated _ _ month _ _ |
    separatedTime _ _ month _ _ _ _ _ _ _ _ _ => month.value

@[inherit_doc year] def day : DateText → ℕ
  | short _ _ day | compact _ _ day | compactTime _ _ day _ _ _ _ | separated _ _ _ _ day |
    separatedTime _ _ _ _ day _ _ _ _ _ _ _ => day.value

/-- The number of digits in front of the first dot that is not the last byte. -/
def digitCount : DateText → ℕ
  | short _ _ _ => 6
  | compact _ _ _ => 8
  | compactTime _ _ _ _ _ _ _ => 14
  | separated _ s₁ _ s₂ _ => if 0x2e ∈ s₁.bytes then 4 else if 0x2e ∈ s₂.bytes then 6 else 8
  | separatedTime _ s₁ _ s₂ _ s₃ _ s₄ _ s₅ _ _ =>
    if 0x2e ∈ s₁.bytes then 4 else if 0x2e ∈ s₂.bytes then 6
    else if 0x2e ∈ s₃.bytes then 8 else if 0x2e ∈ s₄.bytes then 10
    else if 0x2e ∈ s₅.bytes then 12 else 14

end DateText

/-- The date of a timestamp; the null date is `none`. -/
def TsResult.date : TsResult → Option (Option DateStruct)
  | .stored ts => some (some ⟨ts.year, ts.month, ts.day⟩)
  | .nullDate => some none
  | .badDate => none

/-- Both functions report the same date, or both report the null date. -/
def Agree (text behind : List UInt8) (zeroToMin : Bool) : Prop :=
  ∃ date ts, strToDate text zeroToMin = some date ∧
    strToTs [0x2e] (text ++ 0 :: behind) text.length zeroToMin true = some ts ∧
      ts.date = some date

/-- The year has two digits. -/
def DateText.isShort : DateText → Bool
  | .short _ _ _ => true
  | _ => false

/-- When they do: the year has four digits, and no dot divides the date or stands between minutes
and seconds, unless both happen to have the same date in another way. -/
def Undivided (text : DateText) (zeroToMin : Bool) : Prop :=
  if text.isShort then zeroToMin = false ∧ (text.month = 0 ∨ text.day = 0)
  else if text.digitCount = 4 then
    if zeroToMin then text.month ≤ 1 ∧ text.day ≤ 1 else text.month = 0 ∨ text.day = 0
  else if text.digitCount = 6 ∨ text.digitCount = 12 then
    zeroToMin = false ∧ (text.month = 0 ∨ text.day = 0 ∧ text.year % 100 = 0) ∨
      text.year = 2020 ∧ text.month = 20 ∧ text.day = 20
  else True

/-- The date for its fields. -/
def dateOf (year month day : ℕ) (zeroToMin : Bool) : Option DateStruct :=
  if (month = 0 ∨ day = 0) ∧ zeroToMin = false then none
  else some ⟨year, if month = 0 then 1 else month, if day = 0 then 1 else day⟩

variable {zeroToMin : Bool}

/-- A digit is a number below ten. -/
theorem digit_eq {c : UInt8} (hc : isdigit c = true) : digit c = c.toNat - 0x30 ∧ digit c < 10 := by
  have hle : 0x30 ≤ c ∧ c ≤ 0x39 := by simpa [isdigit] using hc
  have hnat : c.toNat ≤ 0x39 := UInt8.le_iff_toNat_le.mp hle.2
  have heq : digit c = c.toNat - 0x30 := by
    rw [digit, UInt8.toNat_sub_of_le c 0x30 hle.1]
    rfl
  exact ⟨heq, by omega⟩

/-- The value of digits by the first of them. -/
theorem digitsValue_cons {c : UInt8} (hc : isdigit c = true) (digits : List UInt8) :
    digitsValue (c :: digits) = digit c * 10 ^ digits.length + digitsValue digits := by
  have hsplit := Decimal.value_append [c] digits
  rw [(digit_eq hc).1]
  simpa [Decimal.value, digitsValue] using hsplit

/-- The loop reads so many digits and leaves the rest. -/
theorem dateField_digits {digits : List UInt8} (h : ∀ c ∈ digits, isdigit c = true)
    (rest : List UInt8) {tmpValue : ℕ} (hbound : (tmpValue + 1) * 10 ^ digits.length ≤ 2 ^ 32) :
    dateField tmpValue digits.length (digits ++ rest) =
      (tmpValue * 10 ^ digits.length + digitsValue digits, rest) := by
  induction digits generalizing tmpValue with
  | nil => simp [dateField, digitsValue]
  | cons c digits ih =>
    have hc := h c List.mem_cons_self
    have hlt := (digit_eq hc).2
    have hpow : (tmpValue * 10 + digit c + 1) * 10 ^ digits.length ≤ 2 ^ 32 := by
      refine le_trans ?_ hbound
      rw [List.length_cons, pow_succ', ← Nat.mul_assoc]
      exact Nat.mul_le_mul_right _ (by omega)
    have hsmall : tmpValue * 10 + digit c < 2 ^ 32 := by
      have hpos : 0 < 10 ^ digits.length := pow_pos (by decide) _
      have := Nat.le_mul_of_pos_right (tmpValue * 10 + digit c + 1) hpos
      omega
    rw [List.length_cons, List.cons_append, dateField, if_pos hc, Nat.mod_eq_of_lt hsmall,
      ih (fun c hc => h c (List.mem_cons_of_mem _ hc)) hpow, digitsValue_cons hc]
    refine Prod.ext ?_ rfl
    dsimp only
    ring

/-- A field is read as its number. -/
theorem dateFields_number {width : ℕ} (hwidth : width ≤ 8) (number : Number (width + 1))
    (fields : ℕ) (rest : List UInt8) :
    dateFields (fields + 1) width (number.digits ++ rest) =
      number.value :: dateFields fields 1 (skipSeparators rest) := by
  obtain ⟨c, digits, hdigits⟩ := List.exists_cons_of_length_eq_add_one number.length_eq
  have hlength : digits.length = width := by
    have := number.length_eq
    rw [hdigits, List.length_cons] at this
    omega
  have hall : ∀ c' ∈ c :: digits, isdigit c' = true := hdigits ▸ number.isdigit_of_mem
  have hc := hall c List.mem_cons_self
  have hbound : (digit c + 1) * 10 ^ digits.length ≤ 2 ^ 32 := by
    have hlt := (digit_eq hc).2
    have hpow : 10 ^ digits.length ≤ 10 ^ 8 := Nat.pow_le_pow_right (by decide) (by omega)
    calc (digit c + 1) * 10 ^ digits.length ≤ 10 * 10 ^ 8 := Nat.mul_le_mul (by omega) hpow
      _ ≤ 2 ^ 32 := by decide
  have hfield := dateField_digits (fun c' hc' => hall c' (List.mem_cons_of_mem _ hc')) rest hbound
  rw [hlength] at hfield
  rw [hdigits, List.cons_append, dateFields, hfield, Number.value, hdigits, digitsValue_cons hc,
    hlength]

/-- Separators are stepped over. -/
theorem skipSeparators_append {between : List UInt8} (h : ∀ c ∈ between, isdigit c = false)
    {width : ℕ} (number : Number (width + 1)) (rest : List UInt8) :
    skipSeparators (between ++ (number.digits ++ rest)) = number.digits ++ rest := by
  obtain ⟨c, digits, hdigits⟩ := List.exists_cons_of_length_eq_add_one number.length_eq
  have hc : isdigit c = true := number.isdigit_of_mem c (by rw [hdigits]; exact List.mem_cons_self)
  rw [skipSeparators, List.dropWhile_append_of_pos (by simpa using h), hdigits, List.cons_append,
    List.dropWhile_cons_of_neg (by simp [hc])]

/-- The date of the fields. -/
theorem dateOfFields_eq (year month day : ℕ) (zeroToMin : Bool) :
    dateOfFields [year, month, day] zeroToMin = some (dateOf year month day zeroToMin) := by
  simp only [dateOfFields, dateOf]
  cases zeroToMin <;> by_cases hmonth : month = 0 <;> by_cases hday : day = 0 <;>
    simp [hmonth, hday]

/-- `str_to_date` reads the fields of a date, whatever is behind it. -/
theorem strToDate_eq {width : ℕ} (hwidth : width ≤ 8) (year : Number (width + 1))
    (month day : Number 2) {s₁ s₂ : List UInt8} (h₁ : ∀ c ∈ s₁, isdigit c = false)
    (h₂ : ∀ c ∈ s₂, isdigit c = false) (rest : List UInt8) {text : List UInt8}
    (htext : text = year.digits ++ (s₁ ++ (month.digits ++ (s₂ ++ (day.digits ++ rest)))))
    (hrun : (if (text.takeWhile isdigit).length = 4 ∨ (text.takeWhile isdigit).length = 8 ∨
      14 ≤ (text.takeWhile isdigit).length then 4 else 2) = width + 1) (zeroToMin : Bool) :
    strToDate text zeroToMin = some (dateOf year.value month.value day.value zeroToMin) := by
  have hskip : skipToDigit text = some text := by
    obtain ⟨c, digits, hdigits⟩ := List.exists_cons_of_length_eq_add_one year.length_eq
    have hc : isdigit c = true := year.isdigit_of_mem c (by rw [hdigits]; exact List.mem_cons_self)
    rw [htext, hdigits, List.cons_append, skipToDigit, if_pos hc]
  have hfields : dateFields 3 width text = [year.value, month.value, day.value] := by
    rw [htext, dateFields_number hwidth, skipSeparators_append h₁, dateFields_number (by decide),
      skipSeparators_append h₂, dateFields_number (by decide)]
    rfl
  rw [strToDate, hskip, Option.bind_eq_bind, Option.bind_some]
  dsimp only
  rw [hrun, Nat.add_sub_cancel, hfields, dateOfFields_eq]

theorem takeWhile_number {width : ℕ} (number : Number width) (rest : List UInt8) :
    (number.digits ++ rest).takeWhile isdigit = number.digits ++ rest.takeWhile isdigit :=
  List.takeWhile_append_of_pos number.isdigit_of_mem

theorem takeWhile_separator (s : Separator) (rest : List UInt8) :
    (s.bytes ++ rest).takeWhile isdigit = [] := by
  obtain ⟨c, bytes, hbytes⟩ := List.exists_cons_of_ne_nil s.ne_nil
  have hc : isdigit c = false := s.not_isdigit c (by rw [hbytes]; exact List.mem_cons_self)
  rw [hbytes, List.cons_append, List.takeWhile_cons_of_neg (by simp [hc])]

theorem takeWhile_fraction (fraction : Option Fraction) :
    (Fraction.bytes fraction).takeWhile isdigit = [] := by
  cases fraction <;> rfl

/-- `str_to_date` reads the date of the text. -/
theorem DateText.strToDate_bytes (text : DateText) (zeroToMin : Bool) :
    strToDate text.bytes zeroToMin = some (dateOf text.year text.month text.day zeroToMin) := by
  have hnone : ∀ c ∈ ([] : List UInt8), isdigit c = false := fun c hc => absurd hc List.not_mem_nil
  have hall {width : ℕ} (number : Number width) :
      number.digits.takeWhile isdigit = number.digits :=
    List.takeWhile_eq_self_iff.mpr number.isdigit_of_mem
  cases text with
  | short year month day =>
    apply strToDate_eq (by decide) year month day hnone hnone []
    · simp [bytes]
    · simp [bytes, takeWhile_number, hall, Number.length_eq]
  | compact year month day =>
    apply strToDate_eq (by decide) year month day hnone hnone []
    · simp [bytes]
    · simp [bytes, takeWhile_number, hall, Number.length_eq]
  | compactTime year month day hour minute second fraction =>
    apply strToDate_eq (by decide) year month day hnone hnone
      (hour.digits ++ (minute.digits ++ (second.digits ++ Fraction.bytes fraction)))
    · simp [bytes]
    · simp [bytes, takeWhile_number, takeWhile_fraction, Number.length_eq]
  | separated year s₁ month s₂ day =>
    apply strToDate_eq (by decide) year month day s₁.not_isdigit s₂.not_isdigit []
    · simp [bytes]
    · simp [bytes, takeWhile_number, takeWhile_separator, Number.length_eq]
  | separatedTime year s₁ month s₂ day s₃ hour s₄ minute s₅ second fraction =>
    apply strToDate_eq (by decide) year month day s₁.not_isdigit s₂.not_isdigit
      (s₃.bytes ++ (hour.digits ++ (s₄.bytes ++ (minute.digits ++ (s₅.bytes ++ (second.digits ++
        Fraction.bytes fraction))))))
    · simp [bytes]
    · simp [bytes, takeWhile_number, takeWhile_separator, Number.length_eq]

/-- The digits of a text in front of its first dot. -/
def digitsBefore (text : List UInt8) : List UInt8 := (text.takeWhile (· ≠ 0x2e)).filter isdigit

/-- A text without a dot is in front of it. -/
theorem forall_ne_dot {front : List UInt8} (h : 0x2e ∉ front) :
    ∀ c ∈ front, decide (c ≠ 0x2e) = true := by
  intro c hc
  rw [decide_eq_true_eq]
  rintro rfl
  exact h hc

/-- Only the digits count. -/
theorem tsOfText_congr {text text' : List UInt8} (h : text.filter isdigit = text'.filter isdigit)
    (fraction : ℕ) (zeroToMin : Bool) :
    tsOfText text fraction zeroToMin = tsOfText text' fraction zeroToMin := by
  simp only [tsOfText, h]

/-- `str_to_ts` goes by the digits in front of the first dot. -/
theorem exists_strToTs {text : List UInt8} (hzero : 0 ∉ text) (behind : List UInt8)
    (zeroToMin : Bool) :
    ∃ fraction, strToTs [0x2e] (text ++ 0 :: behind) text.length zeroToMin true =
      some (tsOfText (digitsBefore text) fraction zeroToMin) := by
  have hfilter (front : List UInt8) :
      (front.filter isdigit).filter isdigit = front.filter isdigit := by simp
  by_cases hdot : 0x2e ∈ text
  · obtain ⟨front, after, rfl, hfront⟩ := List.eq_append_cons_of_mem hdot
    have hbefore : digitsBefore (front ++ 0x2e :: after) = front.filter isdigit := by
      rw [digitsBefore, List.takeWhile_append_of_pos (forall_ne_dot hfront),
        List.takeWhile_cons_of_neg (by simp), List.append_nil]
    have hzero' : 0 ∉ front := fun h => hzero (List.mem_append_left _ h)
    rw [hbefore]
    by_cases hlast : after = []
    · subst hlast
      have hpart : getFractionalPart [0x2e] (front ++ [0x2e] ++ 0 :: behind)
          (front ++ [0x2e]).length true = some (none, 0) := by
        rw [getFractionalPart_natCast, searchDecimalPoint, if_pos rfl, if_pos rfl,
          List.append_assoc, List.singleton_append, strchr_dot hfront hzero', Option.map_some, fractionAt,
          if_neg (by simp)]
      refine ⟨0, ?_⟩
      rw [strToTs_natCast hpart, Option.getD_none, List.take_left]
      apply congrArg some
      apply tsOfText_congr
      rw [hfilter, List.filter_append]
      simp [isdigit]
    · refine ⟨nanoseconds after, ?_⟩
      rw [List.append_assoc, List.cons_append, strToTs_dot hfront hzero' hlast]
      exact congrArg some (tsOfText_congr (hfilter front).symm _ _)
  · have hbefore : digitsBefore text = text.filter isdigit := by
      rw [digitsBefore, List.takeWhile_eq_self_iff.mpr (forall_ne_dot hdot)]
    refine ⟨0, ?_⟩
    rw [strToTs_noDot hdot hzero, hbefore]
    exact congrArg some (tsOfText_congr (hfilter text).symm _ _)

theorem digitsBefore_nil : digitsBefore [] = [] := rfl

/-- The digits of a number are in front of the dot. -/
@[simp] theorem digitsBefore_number {width : ℕ} (number : Number width) (rest : List UInt8) :
    digitsBefore (number.digits ++ rest) = number.digits ++ digitsBefore rest := by
  have hdot : 0x2e ∉ number.digits := fun h => absurd (number.isdigit_of_mem _ h) (by decide)
  rw [digitsBefore, List.takeWhile_append_of_pos (forall_ne_dot hdot), List.filter_append,
    List.filter_eq_self.mpr number.isdigit_of_mem]
  rfl

/-- A separator has no digits, and its dot ends the text. -/
@[simp] theorem digitsBefore_separator (s : Separator) (rest : List UInt8) :
    digitsBefore (s.bytes ++ rest) = if 0x2e ∈ s.bytes then [] else digitsBefore rest := by
  have hnone : ∀ c ∈ s.bytes, ¬ isdigit c = true := fun c hc => by simp [s.not_isdigit c hc]
  split_ifs with hdot
  · obtain ⟨front, after, hbytes, hfront⟩ := List.eq_append_cons_of_mem hdot
    rw [digitsBefore, hbytes, List.append_assoc,
      List.takeWhile_append_of_pos (forall_ne_dot hfront), List.cons_append,
      List.takeWhile_cons_of_neg (by simp), List.append_nil, List.filter_eq_nil_iff]
    exact fun c hc => hnone c (by rw [hbytes]; exact List.mem_append_left _ hc)
  · rw [digitsBefore, List.takeWhile_append_of_pos (forall_ne_dot hdot), List.filter_append,
      List.filter_eq_nil_iff.mpr hnone]
    rfl

@[simp] theorem digitsBefore_digits {width : ℕ} (number : Number width) :
    digitsBefore number.digits = number.digits := by
  have h := digitsBefore_number number []
  rwa [List.append_nil, digitsBefore_nil, List.append_nil] at h

@[simp] theorem digitsBefore_fraction (fraction : Option Fraction) :
    digitsBefore (Fraction.bytes fraction) = [] := by
  cases fraction <;> rfl

/-- Two digits are `00` if their value is zero. -/
theorem digitsValue_two {digits : List UInt8} (hlength : digits.length = 2)
    (h : ∀ c ∈ digits, isdigit c = true) : digitsValue digits = 0 ↔ digits = [0x30, 0x30] := by
  obtain ⟨a, b, rfl⟩ := List.length_eq_two.mp hlength
  have ha : 0x30 ≤ a ∧ a ≤ 0x39 := by simpa [isdigit] using h a (by simp)
  have hb : 0x30 ≤ b ∧ b ≤ 0x39 := by simpa [isdigit] using h b (by simp)
  have ha' : 0x30 ≤ a.toNat := UInt8.le_iff_toNat_le.mp ha.1
  have hb' : 0x30 ≤ b.toNat := UInt8.le_iff_toNat_le.mp hb.1
  have hvalue : digitsValue [a, b] = 10 * (a.toNat - 0x30) + (b.toNat - 0x30) := by
    simp [digitsValue]
  rw [hvalue, List.cons.injEq, List.cons.injEq, ← UInt8.toNat_inj, ← UInt8.toNat_inj]
  constructor
  · intro hzero
    refine ⟨?_, ?_, rfl⟩
    · change a.toNat = 0x30
      omega
    · change b.toNat = 0x30
      omega
  · rintro ⟨hzero, hzero', -⟩
    change a.toNat = 0x30 at hzero
    change b.toNat = 0x30 at hzero'
    omega

/-- The date of a buffer whose year has four digits. -/
theorem date_tsOfDigits {year month day rest : List UInt8} (hyear : year.length = 4)
    (hmonth : month.length = 2) (hday : day.length = 2) (hdigits : ∀ c ∈ month, isdigit c = true)
    (hdigits' : ∀ c ∈ day, isdigit c = true) (fraction : ℕ) (zeroToMin : Bool) :
    (tsOfDigits (year ++ month ++ day ++ rest) fraction zeroToMin).date =
      some (dateOf (digitsValue year) (digitsValue month) (digitsValue day) zeroToMin) := by
  rw [tsOfDigits_eq hyear hmonth hday, dateOf]
  simp only [atLeastOne, ← digitsValue_two hmonth hdigits, ← digitsValue_two hday hdigits']
  split_ifs <;> rfl

/-- The year for two digits. -/
def centuryYear (year : ℕ) : ℕ := if year < 70 then 2000 + year else 1900 + year

/-- The year with its century in front. -/
theorem withCentury_eq {digits : List UInt8} (hlength : digits.length = 6 ∨ digits.length = 12)
    (year : Number 2) {rest : List UInt8} (hdigits : digits = year.digits ++ rest) :
    ∃ front, front.length = 4 ∧ digitsValue front = centuryYear year.value ∧
      withCentury digits = front ++ rest := by
  obtain ⟨a, b, hyear⟩ := List.length_eq_two.mp year.length_eq
  have ha : 0x30 ≤ a ∧ a ≤ 0x39 := by
    simpa [isdigit] using year.isdigit_of_mem a (by rw [hyear]; simp)
  have hb : 0x30 ≤ b ∧ b ≤ 0x39 := by
    simpa [isdigit] using year.isdigit_of_mem b (by rw [hyear]; simp)
  have ha' : 0x30 ≤ a.toNat := UInt8.le_iff_toNat_le.mp ha.1
  have ha'' : a.toNat ≤ 0x39 := UInt8.le_iff_toNat_le.mp ha.2
  have hb' : 0x30 ≤ b.toNat := UInt8.le_iff_toNat_le.mp hb.1
  have hb'' : b.toNat ≤ 0x39 := UInt8.le_iff_toNat_le.mp hb.2
  have hvalue : year.value = 10 * (a.toNat - 0x30) + (b.toNat - 0x30) := by
    simp [Number.value, hyear, digitsValue]
  have hcentury : a ≤ 0x36 ↔ year.value < 70 := by
    rw [UInt8.le_iff_toNat_le, hvalue]
    change a.toNat ≤ 0x36 ↔ _
    omega
  have hhead : digits.headD 0 = a := by rw [hdigits, hyear]; rfl
  rw [withCentury, if_pos hlength, hhead, centuryYear]
  by_cases hearly : year.value < 70
  · refine ⟨[0x32, 0x30, a, b], rfl, ?_, ?_⟩
    · rw [if_pos hearly, hvalue]
      simp [digitsValue]
      omega
    · rw [if_pos (hcentury.mpr hearly), hdigits, hyear]
      rfl
  · refine ⟨[0x31, 0x39, a, b], rfl, ?_, ?_⟩
    · rw [if_neg hearly, hvalue]
      simp [digitsValue]
      omega
    · rw [if_neg (fun h => hearly (hcentury.mp h)), hdigits, hyear]
      rfl

/-- A year of four digits is two numbers of two. -/
theorem Number.exists_halves (year : Number 4) :
    ∃ front back : Number 2, year.digits = front.digits ++ back.digits ∧
      front.value = year.value / 100 ∧ back.value = year.value % 100 := by
  have hmem : ∀ c ∈ year.digits.take 2 ++ year.digits.drop 2, isdigit c = true := by
    rw [List.take_append_drop]
    exact year.isdigit_of_mem
  have hlength := year.length_eq
  let front : Number 2 := ⟨year.digits.take 2, by simp [hlength],
    fun c hc => hmem c (List.mem_append_left _ hc)⟩
  let back : Number 2 := ⟨year.digits.drop 2, by simp [hlength],
    fun c hc => hmem c (List.mem_append_right _ hc)⟩
  have hdigits : year.digits = front.digits ++ back.digits := (List.take_append_drop 2 _).symm
  have hvalue : year.value = front.value * 10 ^ back.digits.length + back.value := by
    rw [Number.value, hdigits]
    exact Decimal.value_append _ _
  rw [back.length_eq] at hvalue
  have hback := back.value_lt
  exact ⟨front, back, hdigits, by omega, by omega⟩

section Digits

variable {digits : List UInt8} (hfilter : digits.filter isdigit = digits)
include hfilter

/-- Eight digits or more: the fields of the date come first. -/
theorem date_full {year : Number 4} {month day : Number 2} (rest : List UInt8)
    (hdigits : digits = year.digits ++ (month.digits ++ (day.digits ++ rest)))
    (hcount : digits.length = 8 ∨ digits.length = 10 ∨ digits.length = 14) (fraction : ℕ)
    (zeroToMin : Bool) :
    (tsOfText digits fraction zeroToMin).date =
      some (dateOf year.value month.value day.value zeroToMin) := by
  rw [tsOfText_eq hfilter (by omega) (by omega)]
  have hbuff (zeros : List UInt8) : digits ++ zeros =
      year.digits ++ month.digits ++ day.digits ++ (rest ++ zeros) := by simp [hdigits]
  rw [hbuff]
  exact date_tsOfDigits year.length_eq month.length_eq day.length_eq month.isdigit_of_mem
    day.isdigit_of_mem fraction zeroToMin

/-- Four digits are a year. -/
theorem date_year {year : Number 4} (hdigits : digits = year.digits) (fraction : ℕ)
    (zeroToMin : Bool) :
    (tsOfText digits fraction zeroToMin).date = some (dateOf year.value 0 0 zeroToMin) := by
  have hcount : digits.length = 4 := hdigits ▸ year.length_eq
  rw [tsOfText_eq hfilter (by omega) (by omega), hcount, hdigits]
  have hzeros : ∀ c ∈ [(0x30 : UInt8), 0x30], isdigit c = true := isdigit_pair rfl rfl
  have hbuff : year.digits ++ List.replicate (14 - 4) 0x30 =
      year.digits ++ [0x30, 0x30] ++ [0x30, 0x30] ++ List.replicate 6 0x30 := by
    simp [List.replicate]
  rw [hbuff]
  exact date_tsOfDigits year.length_eq rfl rfl hzeros hzeros fraction zeroToMin

/-- Six or twelve digits have a year of two. -/
theorem date_century {year month day : Number 2} (rest : List UInt8)
    (hdigits : digits = year.digits ++ (month.digits ++ (day.digits ++ rest)))
    (hcount : digits.length = 6 ∨ digits.length = 12) (fraction : ℕ) (zeroToMin : Bool) :
    (tsOfText digits fraction zeroToMin).date =
      some (dateOf (centuryYear year.value) month.value day.value zeroToMin) := by
  obtain ⟨front, hfront, hvalue, hcentury⟩ := withCentury_eq hcount year hdigits
  have hmany : ¬ 14 < digits.length := by omega
  simp only [tsOfText, hfilter, if_neg hmany, hcentury]
  have hbuff (zeros : List UInt8) : front ++ (month.digits ++ (day.digits ++ rest)) ++ zeros =
      front ++ month.digits ++ day.digits ++ (rest ++ zeros) := by simp
  rw [hbuff, ← hvalue]
  exact date_tsOfDigits hfront month.length_eq day.length_eq month.isdigit_of_mem
    day.isdigit_of_mem fraction zeroToMin

/-- Six or twelve digits of a date with a year of four are taken apart in another way. -/
theorem date_shifted {year : Number 4} {month : Number 2} (rest : List UInt8)
    (hdigits : digits = year.digits ++ (month.digits ++ rest))
    (hcount : digits.length = 6 ∨ digits.length = 12) (fraction : ℕ) (zeroToMin : Bool) :
    (tsOfText digits fraction zeroToMin).date =
      some (dateOf (centuryYear (year.value / 100)) (year.value % 100) month.value zeroToMin) := by
  obtain ⟨front, back, hyear, hfront, hback⟩ := year.exists_halves
  rw [← hfront, ← hback]
  apply date_century hfilter rest _ hcount
  rw [hdigits, hyear, List.append_assoc]

end Digits

namespace DateText

/-- Year, month and day as `str_to_ts` takes them. -/
def tsDate (text : DateText) (zeroToMin : Bool) : Option DateStruct :=
  if text.isShort then dateOf (centuryYear text.year) text.month text.day zeroToMin
  else if text.digitCount = 4 then dateOf text.year 0 0 zeroToMin
  else if text.digitCount = 6 ∨ text.digitCount = 12 then
    dateOf (centuryYear (text.year / 100)) (text.year % 100) text.month zeroToMin
  else dateOf text.year text.month text.day zeroToMin

section Count

variable {text : DateText} (hlong : text.isShort = false)
include hlong

theorem tsDate_year (h : text.digitCount = 4) :
    text.tsDate zeroToMin = dateOf text.year 0 0 zeroToMin := by
  rw [tsDate, hlong, if_neg Bool.false_ne_true, if_pos h]

theorem tsDate_shifted (h : text.digitCount = 6 ∨ text.digitCount = 12) :
    text.tsDate zeroToMin =
      dateOf (centuryYear (text.year / 100)) (text.year % 100) text.month zeroToMin := by
  rw [tsDate, hlong, if_neg Bool.false_ne_true, if_neg (by omega), if_pos h]

theorem tsDate_full (h : text.digitCount = 8 ∨ text.digitCount = 10 ∨ text.digitCount = 14) :
    text.tsDate zeroToMin = dateOf text.year text.month text.day zeroToMin := by
  rw [tsDate, hlong, if_neg Bool.false_ne_true, if_neg (by omega), if_neg (by omega)]

end Count

/-- The digits in front of the dot have the date that `str_to_ts` takes. -/
theorem date_digitsBefore (text : DateText) (fraction : ℕ) (zeroToMin : Bool) :
    (tsOfText (digitsBefore text.bytes) fraction zeroToMin).date =
      some (text.tsDate zeroToMin) := by
  have hfilter : (digitsBefore text.bytes).filter isdigit = digitsBefore text.bytes := by
    simp [digitsBefore]
  cases text with
  | short year month day =>
    have hdigits : digitsBefore (short year month day).bytes =
        year.digits ++ (month.digits ++ (day.digits ++ [])) := by simp [bytes]
    exact date_century hfilter [] hdigits (by simp [hdigits, Number.length_eq]) fraction zeroToMin
  | compact year month day =>
    have hdigits : digitsBefore (compact year month day).bytes =
        year.digits ++ (month.digits ++ (day.digits ++ [])) := by simp [bytes]
    exact date_full hfilter [] hdigits (by simp [hdigits, Number.length_eq]) fraction zeroToMin
  | compactTime year month day hour minute second frac =>
    have hdigits : digitsBefore (compactTime year month day hour minute second frac).bytes =
        year.digits ++ (month.digits ++ (day.digits ++
          (hour.digits ++ (minute.digits ++ second.digits)))) := by simp [bytes]
    exact date_full hfilter _ hdigits (by simp [hdigits, Number.length_eq]) fraction zeroToMin
  | separated year s₁ month s₂ day =>
    by_cases h₁ : 0x2e ∈ s₁.bytes
    · have hdigits : digitsBefore (separated year s₁ month s₂ day).bytes = year.digits := by
        simp [bytes, h₁]
      rw [tsDate_year rfl (by simp [digitCount, h₁])]
      exact date_year hfilter hdigits fraction zeroToMin
    by_cases h₂ : 0x2e ∈ s₂.bytes
    · have hdigits : digitsBefore (separated year s₁ month s₂ day).bytes =
          year.digits ++ (month.digits ++ []) := by simp [bytes, h₁, h₂]
      rw [tsDate_shifted rfl (by simp [digitCount, h₁, h₂])]
      exact date_shifted hfilter [] hdigits (by simp [hdigits, Number.length_eq]) fraction zeroToMin
    · have hdigits : digitsBefore (separated year s₁ month s₂ day).bytes =
          year.digits ++ (month.digits ++ (day.digits ++ [])) := by simp [bytes, h₁, h₂]
      rw [tsDate_full rfl (by simp [digitCount, h₁, h₂])]
      exact date_full hfilter [] hdigits (by simp [hdigits, Number.length_eq]) fraction zeroToMin
  | separatedTime year s₁ month s₂ day s₃ hour s₄ minute s₅ second frac =>
    by_cases h₁ : 0x2e ∈ s₁.bytes
    · have hdigits : digitsBefore (separatedTime year s₁ month s₂ day s₃ hour s₄ minute s₅ second
          frac).bytes = year.digits := by simp [bytes, h₁]
      rw [tsDate_year rfl (by simp [digitCount, h₁])]
      exact date_year hfilter hdigits fraction zeroToMin
    by_cases h₂ : 0x2e ∈ s₂.bytes
    · have hdigits : digitsBefore (separatedTime year s₁ month s₂ day s₃ hour s₄ minute s₅ second
          frac).bytes = year.digits ++ (month.digits ++ []) := by simp [bytes, h₁, h₂]
      rw [tsDate_shifted rfl (by simp [digitCount, h₁, h₂])]
      exact date_shifted hfilter [] hdigits (by simp [hdigits, Number.length_eq]) fraction zeroToMin
    by_cases h₃ : 0x2e ∈ s₃.bytes
    · have hdigits : digitsBefore (separatedTime year s₁ month s₂ day s₃ hour s₄ minute s₅ second
          frac).bytes = year.digits ++ (month.digits ++ (day.digits ++ [])) := by
        simp [bytes, h₁, h₂, h₃]
      rw [tsDate_full rfl (by simp [digitCount, h₁, h₂, h₃])]
      exact date_full hfilter [] hdigits (by simp [hdigits, Number.length_eq]) fraction zeroToMin
    by_cases h₄ : 0x2e ∈ s₄.bytes
    · have hdigits : digitsBefore (separatedTime year s₁ month s₂ day s₃ hour s₄ minute s₅ second
          frac).bytes = year.digits ++ (month.digits ++ (day.digits ++ hour.digits)) := by
        simp [bytes, h₁, h₂, h₃, h₄]
      rw [tsDate_full rfl (by simp [digitCount, h₁, h₂, h₃, h₄])]
      exact date_full hfilter _ hdigits (by simp [hdigits, Number.length_eq]) fraction zeroToMin
    by_cases h₅ : 0x2e ∈ s₅.bytes
    · have hdigits : digitsBefore (separatedTime year s₁ month s₂ day s₃ hour s₄ minute s₅ second
          frac).bytes = year.digits ++ (month.digits ++
            (day.digits ++ (hour.digits ++ minute.digits))) := by
        simp [bytes, h₁, h₂, h₃, h₄, h₅]
      rw [tsDate_shifted rfl (by simp [digitCount, h₁, h₂, h₃, h₄, h₅])]
      exact date_shifted hfilter _ hdigits (by simp [hdigits, Number.length_eq]) fraction zeroToMin
    · have hdigits : digitsBefore (separatedTime year s₁ month s₂ day s₃ hour s₄ minute s₅ second
          frac).bytes = year.digits ++ (month.digits ++
            (day.digits ++ (hour.digits ++ (minute.digits ++ second.digits)))) := by
        simp [bytes, h₁, h₂, h₃, h₄, h₅]
      rw [tsDate_full rfl (by simp [digitCount, h₁, h₂, h₃, h₄, h₅])]
      exact date_full hfilter _ hdigits (by simp [hdigits, Number.length_eq]) fraction zeroToMin

/-- A text of a date has no terminator in it. -/
theorem zero_notMem_bytes (text : DateText) : 0 ∉ text.bytes := by
  have hnumber {width : ℕ} (number : Number width) : 0 ∉ number.digits :=
    fun h => absurd (number.isdigit_of_mem 0 h) (by decide)
  have hfraction (fraction : Option Fraction) : 0 ∉ Fraction.bytes fraction := by
    cases fraction with
    | none => exact List.not_mem_nil
    | some fraction =>
      have hdigits : 0 ∉ fraction.digits :=
        fun h => absurd (fraction.isdigit_of_mem 0 h) (by decide)
      simp [Fraction.bytes, hdigits]
  cases text <;> simp [bytes, hnumber, hfraction, Separator.zero_notMem]

end DateText

section Dates

variable {year month day : ℕ}

/-- A year of two digits gets a century in one of them only. -/
theorem dateOf_eq_century_iff (zeroToMin : Bool) :
    dateOf year month day zeroToMin = dateOf (centuryYear year) month day zeroToMin ↔
      zeroToMin = false ∧ (month = 0 ∨ day = 0) := by
  have hne : year ≠ centuryYear year := by
    unfold centuryYear
    split_ifs <;> omega
  by_cases hnull : (month = 0 ∨ day = 0) ∧ zeroToMin = false
  · rw [dateOf, dateOf, if_pos hnull, if_pos hnull]
    exact iff_of_true rfl ⟨hnull.2, hnull.1⟩
  · rw [dateOf, dateOf, if_neg hnull, if_neg hnull]
    refine iff_of_false (fun h => hne ?_) fun h => hnull ⟨h.2, h.1⟩
    exact (DateStruct.mk.inj (Option.some.inj h)).1

/-- A year alone has the smallest month and day. -/
theorem dateOf_eq_year_iff (zeroToMin : Bool) :
    dateOf year month day zeroToMin = dateOf year 0 0 zeroToMin ↔
      if zeroToMin then month ≤ 1 ∧ day ≤ 1 else month = 0 ∨ day = 0 := by
  cases zeroToMin with
  | false =>
    simp [dateOf]
    omega
  | true =>
    simp only [dateOf, Bool.true_eq_false, and_false, if_false, if_true, Option.some.injEq,
      DateStruct.mk.injEq, true_and]
    split_ifs <;> omega

/-- Six or twelve digits have the same date as all of them by coincidence only. -/
theorem dateOf_eq_shifted_iff (zeroToMin : Bool) :
    dateOf year month day zeroToMin =
        dateOf (centuryYear (year / 100)) (year % 100) month zeroToMin ↔
      zeroToMin = false ∧ (month = 0 ∨ day = 0 ∧ year % 100 = 0) ∨
        year = 2020 ∧ month = 20 ∧ day = 20 := by
  have hcentury : year = centuryYear (year / 100) ↔ year = 2020 := by
    unfold centuryYear
    split_ifs <;> omega
  cases zeroToMin with
  | false =>
    simp only [dateOf, and_true, true_and]
    by_cases hnull : month = 0 ∨ day = 0
    · by_cases hshifted : year % 100 = 0 ∨ month = 0
      · rw [if_pos hnull, if_pos hshifted]
        exact iff_of_true rfl (by omega)
      · rw [if_pos hnull, if_neg hshifted]
        exact iff_of_false (Option.some_ne_none _).symm (by omega)
    · by_cases hshifted : year % 100 = 0 ∨ month = 0
      · rw [if_neg hnull, if_pos hshifted]
        exact iff_of_false (Option.some_ne_none _) (by omega)
      · obtain ⟨hmonth, hday⟩ := not_or.mp hnull
        obtain ⟨hback, -⟩ := not_or.mp hshifted
        rw [if_neg hnull, if_neg hshifted, if_neg hmonth, if_neg hday, if_neg hback]
        simp only [Option.some.injEq, DateStruct.mk.injEq, hcentury]
        omega
  | true =>
    simp only [dateOf, Bool.true_eq_false, and_false, if_false, Option.some.injEq,
      DateStruct.mk.injEq, hcentury, false_and, false_or]
    split_ifs <;> omega

end Dates

/-- `str_to_date` and `str_to_ts` agree on a date exactly if it is undivided. -/
theorem strToDate_agree_strToTs_iff (text : DateText) (behind : List UInt8) (zeroToMin : Bool) :
    Agree text.bytes behind zeroToMin ↔ Undivided text zeroToMin := by
  obtain ⟨fraction, hts⟩ := exists_strToTs text.zero_notMem_bytes behind zeroToMin
  have hagree : Agree text.bytes behind zeroToMin ↔
      dateOf text.year text.month text.day zeroToMin = text.tsDate zeroToMin := by
    rw [Agree, text.strToDate_bytes, hts]
    constructor
    · rintro ⟨date, ts, hdate, hts, hsame⟩
      obtain rfl := Option.some.inj hdate
      obtain rfl := Option.some.inj hts
      rw [text.date_digitsBefore] at hsame
      exact (Option.some.inj hsame).symm
    · intro hsame
      exact ⟨_, _, rfl, rfl, by rw [text.date_digitsBefore, hsame]⟩
  rw [hagree, Undivided, DateText.tsDate]
  by_cases h₁ : text.isShort = true
  · rw [if_pos h₁, if_pos h₁, dateOf_eq_century_iff]
  rw [if_neg h₁, if_neg h₁]
  by_cases h₂ : text.digitCount = 4
  · rw [if_pos h₂, if_pos h₂, dateOf_eq_year_iff]
  rw [if_neg h₂, if_neg h₂]
  by_cases h₃ : text.digitCount = 6 ∨ text.digitCount = 12
  · rw [if_pos h₃, if_pos h₃, dateOf_eq_shifted_iff]
  · rw [if_neg h₃, if_neg h₃]
    exact iff_of_true rfl trivial

/-- `991231` is a date of the year 99 for one function and of 1999 for the other. -/
theorem strToDate_twoDigitYear_not_agree :
    strToDate [0x39, 0x39, 0x31, 0x32, 0x33, 0x31] false = some (some ⟨99, 12, 31⟩) ∧
      strToTs [0x2e] [0x39, 0x39, 0x31, 0x32, 0x33, 0x31, 0] 6 false true =
        some (.stored ⟨1999, 12, 31, 0, 0, 0, 0⟩) ∧
      ¬ Agree [0x39, 0x39, 0x31, 0x32, 0x33, 0x31] [] false := by
  have hdate : strToDate [0x39, 0x39, 0x31, 0x32, 0x33, 0x31] false = some (some ⟨99, 12, 31⟩) := by
    decide
  have hts : strToTs [0x2e] [0x39, 0x39, 0x31, 0x32, 0x33, 0x31, 0] 6 false true =
      some (.stored ⟨1999, 12, 31, 0, 0, 0, 0⟩) := by decide
  refine ⟨hdate, hts, ?_⟩
  rintro ⟨date, ts, hdate', hts', hsame⟩
  obtain rfl := Option.some.inj (hdate.symm.trans hdate')
  obtain rfl := Option.some.inj (hts.symm.trans hts')
  cases hsame

end MatrixOdbc.Driver.DateTime
