import MatrixOdbc.Driver.DateAgreement

/-!
# Two readings of a time

`str_to_time_as_long` looks for the first digit and takes three numbers from there on; digits
behind them are taken for a time again. `str_to_time_st` ends a number at every byte that is no
digit, also in front of the first one. So a blank or a sign shifts the fields of the one, and a
fraction is the time of the other.
-/

namespace MatrixOdbc.Driver.DateTime

variable {str rest behind : List UInt8} {room num : ℕ}

/-- `[-]H..H:MM:SS` behind blanks, with or without a fraction. The hours have as many digits as
the type `TIME` allows, and no number is bounded: the text may tell a time that is none. -/
structure TimeText where
  blanks : List UInt8
  blank_of_mem : ∀ c ∈ blanks, c = 0x20 ∨ c = 0x09
  negative : Bool
  hour : List UInt8
  hour_ne_nil : hour ≠ []
  length_hour : hour.length ≤ 3
  isdigit_hour : ∀ c ∈ hour, isdigit c = true
  minute : Number 2
  second : Number 2
  fraction : Option Fraction

/-- The digits of a fraction. -/
def Fraction.digitsOf : Option Fraction → List UInt8
  | some fraction => fraction.digits
  | none => []

namespace TimeText

variable (text : TimeText)

/-- What is in front of the first digit. -/
def lead : List UInt8 := text.blanks ++ if text.negative then [0x2d] else []

/-- The bytes of the text. -/
def bytes : List UInt8 :=
  text.lead ++ (text.hour ++ 0x3a :: (text.minute.digits ++ 0x3a ::
    (text.second.digits ++ Fraction.bytes text.fraction)))

/-- Hours, minutes and seconds. -/
def time : CTime := ⟨digitsValue text.hour, text.minute.value, text.second.value⟩

/-- The time is below zero. -/
def BelowZero : Prop :=
  text.negative = true ∧
    (text.time ≠ ⟨0, 0, 0⟩ ∨ digitsValue (Fraction.digitsOf text.fraction) ≠ 0)

/-- The time is above `838:59:59`, the last one of the type `TIME`, or its minutes or seconds are
none. -/
def OutOfRange : Prop :=
  838 < text.time.hour ∨ 59 < text.time.minute ∨ 59 < text.time.second ∨
    text.time = ⟨838, 59, 59⟩ ∧ digitsValue (Fraction.digitsOf text.fraction) ≠ 0

/-- No positive time of the type `TIME`, and not midnight, is what the text tells. -/
def Unrepresentable : Prop := text.BelowZero ∨ text.OutOfRange

end TimeText

/-- Hours, minutes and seconds of a packed time. -/
def unpack (time : ℕ) : CTime := ⟨time / 10000, time / 100 % 100, time % 100⟩

/-- A time as `str_to_time_as_long` packs it. -/
def pack (time : CTime) : ℕ := time.hour * 10000 + (time.minute * 100 + time.second)

/-- Both functions have the same hours, minutes and seconds, and not those of a positive time for
a time that is below zero or cannot be represented. -/
def TimesAgree (text : TimeText) (behind : List UInt8) : Prop :=
  ∃ time st, strToTimeAsLong text.bytes = some time ∧
    strToTimeSt (text.bytes ++ 0 :: behind) = some st ∧ unpack time = st ∧
      (text.Unrepresentable → time = 0 ∧ st = ⟨0, 0, 0⟩)

/-- Seconds and minutes above 59 are carried into minutes and hours. -/
def carried (time : CTime) : CTime where
  hour := time.hour + (time.minute + time.second / 60) / 60
  minute := (time.minute + time.second / 60) % 60
  second := time.second % 60

/-- The fields as so many bytes in front of the first digit shift them. -/
def shifted (time : CTime) : ℕ → CTime
  | 0 => carried time
  | 1 => carried ⟨0, time.hour, time.minute⟩
  | 2 => carried ⟨0, 0, time.hour⟩
  | _ => ⟨0, 0, 0⟩

/-- The fraction has no digit, and the text is midnight, or a time in range with nothing in front
of its first digit. Or the digits of the fraction happen to spell the shifted time, and they spell
midnight for a time that cannot be represented. -/
def Plain (text : TimeText) : Prop :=
  if Fraction.digitsOf text.fraction = [] then
    text.time = ⟨0, 0, 0⟩ ∨ text.lead = [] ∧ ¬ text.OutOfRange
  else
    digitsValue (Fraction.digitsOf text.fraction) % 2 ^ 32 =
        pack (shifted text.time text.lead.length) ∧
      (text.Unrepresentable → digitsValue (Fraction.digitsOf text.fraction) % 2 ^ 32 = 0)

/-- A number that is read with overflow. -/
theorem foldl_digits {digits : List UInt8} (h : ∀ c ∈ digits, isdigit c = true) {n : ℕ}
    (hn : n < 2 ^ 32) :
    digits.foldl (fun n c => (n * 10 + digit c) % 2 ^ 32) n =
      (n * 10 ^ digits.length + digitsValue digits) % 2 ^ 32 := by
  induction digits generalizing n with
  | nil => simpa [digitsValue] using (Nat.mod_eq_of_lt hn).symm
  | cons c digits ih =>
    have hc := h c List.mem_cons_self
    rw [List.foldl_cons, ih (fun c hc => h c (List.mem_cons_of_mem _ hc))
      (Nat.mod_lt _ (by decide)), digitsValue_cons hc, List.length_cons, Nat.add_mod,
      Nat.mod_mul_mod, ← Nat.add_mod]
    congr 1
    ring

/-- A field is the value of its digits. -/
theorem timeFields_digits {digits : List UInt8} (hne : digits ≠ [])
    (h : ∀ c ∈ digits, isdigit c = true) (hrest : rest.takeWhile isdigit = []) (fields : ℕ) :
    timeFields (fields + 1) (digits ++ rest) =
      (digitsValue digits % 2 ^ 32 :: (timeFields fields (skipSeparators rest)).1,
        (timeFields fields (skipSeparators rest)).2) := by
  obtain ⟨c, digits, rfl⟩ := List.exists_cons_of_ne_nil hne
  have hc := h c List.mem_cons_self
  have hall : ∀ c' ∈ digits, isdigit c' = true := fun c' hc' => h c' (List.mem_cons_of_mem _ hc')
  have hdrop : rest.dropWhile isdigit = rest := by
    have hsplit := List.takeWhile_append_dropWhile (p := isdigit) (l := rest)
    rwa [hrest, List.nil_append] at hsplit
  rw [List.cons_append, timeFields, List.takeWhile_append_of_pos hall, hrest, List.append_nil,
    List.dropWhile_append_of_pos hall, hdrop,
    foldl_digits hall (lt_trans (digit_eq hc).2 (by decide)), ← digitsValue_cons hc]

/-- What is in front of the first digit is stepped over. -/
theorem skipToDigit_append {lead : List UInt8} (hlead : ∀ c ∈ lead, isdigit c = false)
    {digits : List UInt8} (hne : digits ≠ []) (h : ∀ c ∈ digits, isdigit c = true)
    (rest : List UInt8) : skipToDigit (lead ++ (digits ++ rest)) = some (digits ++ rest) := by
  obtain ⟨c, digits, rfl⟩ := List.exists_cons_of_ne_nil hne
  have hc := h c List.mem_cons_self
  induction lead with
  | nil => rw [List.nil_append, List.cons_append, skipToDigit, if_pos hc]
  | cons b lead ih =>
    have hb := hlead b List.mem_cons_self
    rw [List.cons_append, skipToDigit, if_neg (by simp [hb])]
    exact ih fun c hc => hlead c (List.mem_cons_of_mem _ hc)

/-- Digits alone are the time. -/
theorem strToTimeAsLong_digits {digits : List UInt8} (hne : digits ≠ [])
    (h : ∀ c ∈ digits, isdigit c = true) :
    strToTimeAsLong digits = some (digitsValue digits % 2 ^ 32) := by
  have hskip : skipToDigit digits = some digits := by
    simpa using @skipToDigit_append [] (by simp) digits hne h []
  have hfields : timeFields 3 digits = ([digitsValue digits % 2 ^ 32], []) := by
    simpa [timeFields, skipSeparators] using @timeFields_digits [] digits hne h rfl 2
  rw [strToTimeAsLong_eq hskip, hfields, if_pos rfl, timeOfFields]
  simp

namespace TimeText

variable (text : TimeText)

theorem not_isdigit_lead : ∀ c ∈ text.lead, isdigit c = false ∧ c ≠ 0 := by
  intro c hc
  rcases List.mem_append.mp hc with hc | hc
  · rcases text.blank_of_mem c hc with rfl | rfl <;> decide
  · split_ifs at hc with hneg
    · rw [List.mem_singleton.mp hc]
      decide
    · cases hc

theorem digits_ne_nil {width : ℕ} (number : Number (width + 1)) : number.digits ≠ [] := by
  intro h
  have hlength := number.length_eq
  rw [h] at hlength
  cases hlength

/-- Hours of three digits at most. -/
theorem hour_lt : text.time.hour < 10 ^ 3 :=
  lt_of_lt_of_le (Number.value_lt ⟨text.hour, rfl, text.isdigit_hour⟩)
    (Nat.pow_le_pow_right (by decide) text.length_hour)

/-- One separator is stepped over. -/
theorem skipSeparators_cons {c : UInt8} (hc : isdigit c = false) {digits : List UInt8}
    (hne : digits ≠ []) (h : ∀ c ∈ digits, isdigit c = true) (rest : List UInt8) :
    skipSeparators (c :: (digits ++ rest)) = digits ++ rest := by
  obtain ⟨d, digits, rfl⟩ := List.exists_cons_of_ne_nil hne
  simp [skipSeparators, hc, h d List.mem_cons_self]

theorem skipSeparators_fraction (fraction : Option Fraction) :
    skipSeparators (Fraction.bytes fraction) = Fraction.digitsOf fraction := by
  cases fraction with
  | none => rfl
  | some fraction =>
    by_cases hne : fraction.digits = []
    · simp [Fraction.bytes, Fraction.digitsOf, hne, skipSeparators, isdigit]
    · have hskip := skipSeparators_cons (c := 0x2e) rfl hne fraction.isdigit_of_mem []
      rwa [List.append_nil] at hskip

/-- The fields of the text, and the fraction behind them. -/
theorem timeFields_bytes :
    timeFields 3 (text.hour ++ 0x3a :: (text.minute.digits ++ 0x3a ::
        (text.second.digits ++ Fraction.bytes text.fraction))) =
      ([text.time.hour, text.time.minute, text.time.second], Fraction.digitsOf text.fraction) := by
  have hhour : digitsValue text.hour % 2 ^ 32 = digitsValue text.hour :=
    Nat.mod_eq_of_lt (lt_trans text.hour_lt (by decide))
  have hminute : digitsValue text.minute.digits % 2 ^ 32 = text.minute.value :=
    Nat.mod_eq_of_lt (lt_trans text.minute.value_lt (by decide))
  have hsecond : digitsValue text.second.digits % 2 ^ 32 = text.second.value :=
    Nat.mod_eq_of_lt (lt_trans text.second.value_lt (by decide))
  rw [timeFields_digits text.hour_ne_nil text.isdigit_hour rfl,
    skipSeparators_cons rfl (digits_ne_nil _) text.minute.isdigit_of_mem,
    timeFields_digits (digits_ne_nil _) text.minute.isdigit_of_mem rfl,
    skipSeparators_cons rfl (digits_ne_nil _) text.second.isdigit_of_mem,
    timeFields_digits (digits_ne_nil _) text.second.isdigit_of_mem (takeWhile_fraction _),
    skipSeparators_fraction, hhour, hminute, hsecond]
  rfl

/-- Without digits behind it the time is that of the fields; else it is the fraction. -/
theorem strToTimeAsLong_bytes :
    strToTimeAsLong text.bytes = some (if Fraction.digitsOf text.fraction = [] then pack text.time
      else digitsValue (Fraction.digitsOf text.fraction) % 2 ^ 32) := by
  have hskip := skipToDigit_append (fun c hc => (text.not_isdigit_lead c hc).1) text.hour_ne_nil
    text.isdigit_hour (0x3a :: (text.minute.digits ++ 0x3a ::
      (text.second.digits ++ Fraction.bytes text.fraction)))
  have hfraction : ∀ c ∈ Fraction.digitsOf text.fraction, isdigit c = true := by
    cases text.fraction with
    | none => exact fun c hc => absurd hc List.not_mem_nil
    | some fraction => exact fraction.isdigit_of_mem
  rw [bytes, strToTimeAsLong_eq hskip, text.timeFields_bytes]
  dsimp only
  split_ifs with hnone
  · have hhour : ¬ 10000 < text.time.hour := by
      have hlt := text.hour_lt
      omega
    simp [timeOfFields, pack, hhour]
  · exact strToTimeAsLong_digits hnone hfraction

end TimeText

/-- Digits in front of the first token. -/
theorem timeTokens_digits_append {digits : List UInt8} (h : ∀ c ∈ digits, isdigit c = true)
    (hroom : digits.length ≤ room) :
    timeTokens room num (digits ++ str) =
      (timeTokens (room - digits.length) num str).map fun tokens =>
        digits.foldr consDigit tokens := by
  induction digits generalizing room with
  | nil => simp
  | cons c digits ih =>
    have hc := h c List.mem_cons_self
    rw [List.length_cons] at hroom
    have hgo : ¬ (c = 0 ∨ room = 0) := by
      rintro (rfl | hzero)
      · cases hc
      · omega
    rw [List.cons_append, timeTokens, if_neg hgo, if_pos hc,
      ih (fun c hc => h c (List.mem_cons_of_mem _ hc)) (by omega), List.length_cons, Option.map_map,
      Nat.sub_sub, Nat.add_comm 1]
    rfl

theorem foldr_consDigit (digits token : List UInt8) (tokens : List (List UInt8)) :
    digits.foldr consDigit (token :: tokens) = (digits ++ token) :: tokens := by
  induction digits with
  | nil => rfl
  | cons c digits ih =>
    rw [List.foldr_cons, ih]
    rfl

section Separator

variable {c : UInt8} (hc : isdigit c = false)
include hc

/-- A byte that is no digit ends a token. -/
theorem timeTokens_separator (hzero : c ≠ 0) (hroom : room ≠ 0) (hnum : num < 2) :
    timeTokens room num (c :: str) = (timeTokens (room - 1) (num + 1) str).map ([] :: ·) := by
  rw [timeTokens, if_neg (by simp [hzero, hroom]), if_neg (by simp [hc]), if_pos hnum]

/-- It ends the third token and the loop. -/
theorem timeTokens_third : timeTokens room 2 (c :: str) = some [[]] := by
  rw [timeTokens]
  by_cases hstop : c = 0 ∨ room = 0
  · rw [if_pos hstop]
  · rw [if_neg hstop, if_neg (by simp [hc]), if_neg (lt_irrefl 2)]

/-- A token and its end. -/
theorem timeTokens_token {digits : List UInt8} (h : ∀ c ∈ digits, isdigit c = true)
    (hzero : c ≠ 0) (hroom : digits.length < room) (hnum : num < 2) :
    timeTokens room num (digits ++ c :: str) =
      (timeTokens (room - digits.length - 1) (num + 1) str).map (digits :: ·) := by
  rw [timeTokens_digits_append h hroom.le, timeTokens_separator hc hzero (by omega) hnum,
    Option.map_map]
  congr 1
  funext tokens
  exact (foldr_consDigit digits [] tokens).trans (by rw [List.append_nil])

/-- The third token. -/
theorem timeTokens_last {digits : List UInt8} (h : ∀ c ∈ digits, isdigit c = true)
    (hroom : digits.length ≤ room) : timeTokens room 2 (digits ++ c :: str) = some [digits] := by
  rw [timeTokens_digits_append h hroom, timeTokens_third hc, Option.map_some, foldr_consDigit,
    List.append_nil]

end Separator

/-- Digits of a number that an `int` holds. -/
theorem atoiDigits_eq {digits : List UInt8} (h : digitsValue digits < 2 ^ 31) :
    atoiDigits digits = digitsValue digits := by
  unfold atoiDigits
  simp only [Int.bmod]
  omega

/-- Parts of three digits are carried without overflow. -/
theorem carryTime_natCast {hour minute second : ℕ} (hhour : hour < 10 ^ 3)
    (hminute : minute < 10 ^ 3) (hsecond : second < 10 ^ 3) :
    carryTime hour minute second = carried ⟨hour, minute, second⟩ := by
  have hbmod {n : ℤ} (hn : 0 ≤ n ∧ n < 2 ^ 31) : n.bmod (2 ^ 32) = n := by
    simp only [Int.bmod]
    omega
  have hcarried : (if (59 : ℤ) < second then ((minute : ℤ) + second / 60).bmod (2 ^ 32)
      else minute) = minute + second / 60 := by
    rw [hbmod (by omega)]
    split_ifs <;> omega
  have hhours : (if (59 : ℤ) < minute + second / 60 then
      ((hour : ℤ) + ((minute : ℤ) + second / 60) / 60).bmod (2 ^ 32) else hour) =
        hour + (minute + second / 60) / 60 := by
    rw [hbmod (by omega)]
    split_ifs <;> omega
  rw [carryTime, carried]
  simp only [hcarried, hhours, CTime.mk.injEq]
  refine ⟨?_, ?_, ?_⟩
  · rw [if_pos (by omega)]
    omega
  · split_ifs <;> omega
  · split_ifs <;> omega

namespace TimeText

variable (text : TimeText)

/-- The tokens of the text. -/
def tokens : ℕ → List (List UInt8)
  | 0 => [text.hour, text.minute.digits, text.second.digits]
  | 1 => [[], text.hour, text.minute.digits]
  | 2 => [[], [], text.hour]
  | _ => [[], [], []]

theorem timeTokens_bytes (behind : List UInt8) :
    timeTokens 23 0 (text.bytes ++ 0 :: behind) = some (text.tokens text.lead.length) := by
  have hhour := text.length_hour
  have hminute := text.minute.length_eq
  have hsecond := text.second.length_eq
  have hend : ∃ c str, Fraction.bytes text.fraction ++ 0 :: behind = c :: str ∧
      isdigit c = false := by
    cases text.fraction with
    | none => exact ⟨0, behind, rfl, rfl⟩
    | some fraction => exact ⟨0x2e, fraction.digits ++ 0 :: behind, rfl, rfl⟩
  obtain ⟨c, str, hend, hc⟩ := hend
  have hcolon : isdigit 0x3a = false ∧ (0x3a : UInt8) ≠ 0 := by decide
  have hlead := text.not_isdigit_lead
  simp only [bytes, List.append_assoc, List.cons_append, hend]
  cases hk : text.lead with
  | nil =>
    rw [List.nil_append,
      timeTokens_token hcolon.1 text.isdigit_hour hcolon.2 (by omega) (by decide),
      timeTokens_token hcolon.1 text.minute.isdigit_of_mem hcolon.2 (by omega) (by decide),
      timeTokens_last hc text.second.isdigit_of_mem (by omega)]
    rfl
  | cons a lead =>
    rw [hk] at hlead
    have ha := hlead a List.mem_cons_self
    rw [List.cons_append, timeTokens_separator ha.1 ha.2 (by decide) (by decide)]
    cases lead with
    | nil =>
      rw [List.nil_append,
        timeTokens_token hcolon.1 text.isdigit_hour hcolon.2 (by omega) (by decide),
        timeTokens_last hcolon.1 text.minute.isdigit_of_mem (by omega)]
      rfl
    | cons b lead =>
      have hb := hlead b (by simp)
      rw [List.cons_append, timeTokens_separator hb.1 hb.2 (by decide) (by decide)]
      cases lead with
      | nil =>
        rw [List.nil_append, timeTokens_last hcolon.1 text.isdigit_hour (by omega)]
        rfl
      | cons c lead =>
        have hc' := hlead c (by simp)
        rw [List.cons_append, timeTokens_third hc'.1]
        rfl

/-- `str_to_time_st` has the shifted time. -/
theorem strToTimeSt_bytes (behind : List UInt8) :
    strToTimeSt (text.bytes ++ 0 :: behind) = some (shifted text.time text.lead.length) := by
  have hhour := text.hour_lt
  have hminute : text.time.minute < 10 ^ 3 := lt_trans text.minute.value_lt (by decide)
  have hsecond : text.time.second < 10 ^ 3 := lt_trans text.second.value_lt (by decide)
  have hhour' : atoiDigits text.hour = text.time.hour :=
    atoiDigits_eq (lt_trans hhour (by decide))
  have hminute' : atoiDigits text.minute.digits = text.time.minute :=
    atoiDigits_eq (lt_trans hminute (by decide))
  have hsecond' : atoiDigits text.second.digits = text.time.second :=
    atoiDigits_eq (lt_trans hsecond (by decide))
  have hnone : atoiDigits [] = (0 : ℕ) := rfl
  rw [strToTimeSt, text.timeTokens_bytes, Option.map_some]
  apply congrArg some
  obtain hk | hk | hk | ⟨k, hk⟩ : text.lead.length = 0 ∨ text.lead.length = 1 ∨
      text.lead.length = 2 ∨ ∃ k, text.lead.length = k + 3 := by
    rcases text.lead.length with - | - | - | k
    · exact Or.inl rfl
    · exact Or.inr (Or.inl rfl)
    · exact Or.inr (Or.inr (Or.inl rfl))
    · exact Or.inr (Or.inr (Or.inr ⟨k, rfl⟩))
  · rw [hk]
    change carryTime (atoiDigits text.hour) (atoiDigits text.minute.digits)
      (atoiDigits text.second.digits) = carried text.time
    rw [hhour', hminute', hsecond']
    exact carryTime_natCast hhour hminute hsecond
  · rw [hk]
    change carryTime (atoiDigits []) (atoiDigits text.hour) (atoiDigits text.minute.digits) =
      carried ⟨0, text.time.hour, text.time.minute⟩
    rw [hnone, hhour', hminute']
    exact carryTime_natCast (by decide) hhour hminute
  · rw [hk]
    change carryTime (atoiDigits []) (atoiDigits []) (atoiDigits text.hour) =
      carried ⟨0, 0, text.time.hour⟩
    rw [hnone, hhour']
    exact carryTime_natCast (by decide) (by decide) hhour
  · rw [hk]
    change carryTime (atoiDigits []) (atoiDigits []) (atoiDigits []) = ⟨0, 0, 0⟩
    rw [hnone]
    exact carryTime_natCast (by decide) (by decide) (by decide)

/-- A sign is in front of the first digit. -/
theorem lead_ne_nil (h : text.negative = true) : text.lead ≠ [] := by
  rw [lead, if_pos h]
  simp

end TimeText

/-- The shifted fields are below a hundred. -/
theorem shifted_lt (time : CTime) (k : ℕ) :
    (shifted time k).minute < 100 ∧ (shifted time k).second < 100 := by
  have hcarried : ∀ time : CTime, (carried time).minute < 100 ∧ (carried time).second < 100 :=
    fun time => ⟨lt_trans (Nat.mod_lt _ (by decide)) (by decide),
      lt_trans (Nat.mod_lt _ (by decide)) (by decide)⟩
  rcases k with - | - | - | k
  · exact hcarried _
  · exact hcarried _
  · exact hcarried _
  · exact ⟨show 0 < 100 by decide, show 0 < 100 by decide⟩

/-- Bytes in front of the first digit shift every time but midnight, and without them a time stays
what it is if nothing is to be carried. -/
theorem shifted_eq_self_iff {time : CTime} (hhour : time.hour < 10 ^ 3)
    (hminute : time.minute < 10 ^ 2) (k : ℕ) :
    shifted time k = time ↔
      time = ⟨0, 0, 0⟩ ∨ k = 0 ∧ time.minute ≤ 59 ∧ time.second ≤ 59 := by
  obtain ⟨hour, minute, second⟩ := time
  dsimp only at hhour hminute ⊢
  rcases k with - | - | - | k
  · simp only [shifted, carried, CTime.mk.injEq, true_and]
    omega
  · simp only [shifted, carried, CTime.mk.injEq]
    omega
  · simp only [shifted, carried, CTime.mk.injEq]
    omega
  · simp only [shifted, CTime.mk.injEq]
    omega

/-- A packed time is taken apart again. -/
theorem unpack_eq_iff {time : ℕ} {st : CTime} (hminute : st.minute < 100)
    (hsecond : st.second < 100) : unpack time = st ↔ time = pack st := by
  have hst : st = ⟨st.hour, st.minute, st.second⟩ := rfl
  rw [unpack, pack, hst, CTime.mk.injEq]
  dsimp only
  omega

/-- `str_to_time_as_long` and `str_to_time_st` agree on a time exactly if it is plain. -/
theorem strToTimeAsLong_agree_strToTimeSt_iff (text : TimeText) (behind : List UInt8) :
    TimesAgree text behind ↔ Plain text := by
  have hmin : text.time.minute < 10 ^ 2 := text.minute.value_lt
  have hsec : text.time.second < 10 ^ 2 := text.second.value_lt
  obtain ⟨hminute, hsecond⟩ := shifted_lt text.time text.lead.length
  have hself := shifted_eq_self_iff text.hour_lt hmin text.lead.length
  rw [List.length_eq_zero_iff] at hself
  have hpack : ∀ time, unpack time = shifted text.time text.lead.length ↔
      time = pack (shifted text.time text.lead.length) := fun time => unpack_eq_iff hminute hsecond
  have hunpack : unpack (pack text.time) = text.time := (unpack_eq_iff hmin hsec).mpr rfl
  rw [TimesAgree, text.strToTimeAsLong_bytes, text.strToTimeSt_bytes, Plain]
  by_cases hnone : Fraction.digitsOf text.fraction = []
  · rw [if_pos hnone, if_pos hnone]
    constructor
    · rintro ⟨time, st, htime, hst, hsame, hzero⟩
      obtain rfl := Option.some.inj htime
      obtain rfl := Option.some.inj hst
      rw [hunpack] at hsame
      obtain hmidnight | ⟨hlead, -⟩ := hself.mp hsame.symm
      · exact Or.inl hmidnight
      · by_cases hrange : text.OutOfRange
        · exact Or.inl (hsame.trans (hzero (Or.inr hrange)).2)
        · exact Or.inr ⟨hlead, hrange⟩
    · intro hplain
      have hsame : shifted text.time text.lead.length = text.time := by
        refine hself.mpr (hplain.imp_right fun h => ⟨h.1, ?_⟩)
        have hrange := h.2
        unfold TimeText.OutOfRange at hrange
        omega
      refine ⟨_, _, rfl, rfl, by rw [hsame, hunpack], fun hbad => ?_⟩
      -- Only midnight is left, which is in range and not below zero.
      have hmidnight : text.time = ⟨0, 0, 0⟩ := by
        obtain hmidnight | ⟨hlead, hrange⟩ := hplain
        · exact hmidnight
        · exact absurd (hbad.resolve_right hrange).1 fun hneg => text.lead_ne_nil hneg hlead
      rw [hsame, hmidnight]
      exact ⟨rfl, rfl⟩
  · rw [if_neg hnone, if_neg hnone]
    constructor
    · rintro ⟨time, st, htime, hst, hsame, hzero⟩
      obtain rfl := Option.some.inj htime
      obtain rfl := Option.some.inj hst
      exact ⟨(hpack _).mp hsame, fun hbad => (hzero hbad).1⟩
    · rintro ⟨hsame, hzero⟩
      refine ⟨_, _, rfl, rfl, (hpack _).mpr hsame, fun hbad => ⟨hzero hbad, ?_⟩⟩
      rw [← (hpack _).mpr hsame, hzero hbad]
      rfl

/-- A fraction of one zero makes midnight of a time for the one function only. -/
theorem not_timesAgree_of_zero {text : TimeText} (hhour : text.time.hour ≠ 0)
    (hlead : text.lead = [])
    (hfraction : Fraction.digitsOf text.fraction = [0x30]) (behind : List UInt8) :
    ¬ TimesAgree text behind := by
  rintro ⟨time, st, htime, hst, hsame, -⟩
  rw [text.strToTimeAsLong_bytes, hfraction, if_neg (List.cons_ne_nil _ _)] at htime
  rw [text.strToTimeSt_bytes, hlead] at hst
  have hzero : 0 = time := Option.some.inj htime
  have hshifted : carried text.time = st := Option.some.inj hst
  rw [← hzero, ← hshifted] at hsame
  have hcarried : 0 = text.time.hour + (text.time.minute + text.time.second / 60) / 60 :=
    congrArg CTime.hour hsame
  omega

/-- `12:34:56.0` is midnight for the one, and not for the other. -/
theorem strToTimeAsLong_fraction_not_agree :
    ∃ text : TimeText,
      text.bytes = [0x31, 0x32, 0x3a, 0x33, 0x34, 0x3a, 0x35, 0x36, 0x2e, 0x30] ∧
        ¬ TimesAgree text [] := by
  have hzero : ∀ c ∈ [(0x30 : UInt8)], isdigit c = true := by
    intro c hc
    rw [List.mem_singleton.mp hc]
    rfl
  have htwelve : digitsValue [0x31, 0x32] = 12 := rfl
  refine ⟨{
    blanks := []
    blank_of_mem := fun c hc => absurd hc List.not_mem_nil
    negative := false
    hour := [0x31, 0x32]
    hour_ne_nil := List.cons_ne_nil _ _
    length_hour := by decide
    isdigit_hour := isdigit_pair rfl rfl
    minute := twoDigits 0x33 0x34 rfl rfl
    second := twoDigits 0x35 0x36 rfl rfl
    fraction := some ⟨[0x30], hzero⟩ }, rfl, not_timesAgree_of_zero ?_ rfl rfl []⟩
  change digitsValue [0x31, 0x32] ≠ 0
  rw [htwelve]
  decide

end MatrixOdbc.Driver.DateTime
