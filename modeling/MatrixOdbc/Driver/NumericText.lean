import MatrixOdbc.Driver.NumericReading

/-!
# Decimal texts in an SQL_NUMERIC_STRUCT

A decimal text is a number with a scale, and `sqlnum_from_str` has to store it at
the scale that is asked for. The function does so by design but for some kinds of
texts: the scale is kept in a signed byte, leading zeros count as digits for the
precision while the zeros of a larger scale do not, the room is checked before the
number is brought to its scale, and not after.
-/

namespace MatrixOdbc.Driver

open NumericState

/-- What may stand in front of a number. -/
inductive NumberSign where
  | absent | plus | minus
  deriving DecidableEq

/-- A sign, digits, a point and digits; all but the digits in front may be missing. -/
structure DecimalText where
  sign : NumberSign
  whole : List UInt8
  fraction : Option (List UInt8)
  whole_digits : ∀ c ∈ whole, Decimal.IsDigit c
  fraction_digits : ∀ c ∈ fraction.getD [], Decimal.IsDigit c

namespace DecimalText

/-- The text behind a minus. -/
def body (t : DecimalText) : List UInt8 :=
  (if t.sign = .plus then [0x2b] else []) ++
    (t.whole ++ match t.fraction with
      | some fraction => 0x2e :: fraction
      | none => [])

/-- The text. -/
def text (t : DecimalText) : List UInt8 :=
  if t.sign = .minus then 0x2d :: t.body else t.body

/-- The digits as a whole number. -/
def digits (t : DecimalText) : ℕ := Decimal.value (t.whole ++ t.fraction.getD [])

/-- The digits behind the point. -/
def decimals (t : DecimalText) : ℕ := (t.fraction.getD []).length

/-- The number, cut off behind the requested scale, as a multiple of the unit of that scale. -/
def truncated (t : DecimalText) (reqscale : ℤ) : ℕ :=
  if t.decimals ≤ reqscale then t.digits * 10 ^ (reqscale - t.decimals).toNat
  else t.digits / 10 ^ (t.decimals - reqscale).toNat

/-- A digit other than zero is cut off. -/
def Drops (t : DecimalText) (reqscale : ℤ) : Prop :=
  reqscale < t.decimals ∧ ¬ 10 ^ (t.decimals - reqscale).toNat ∣ t.digits

/-- A number with so many significant digits at most. -/
def HasDigits (n precision : ℕ) : Prop := ∃ m e, m < 10 ^ precision ∧ n = m * 10 ^ e

/-- The number does not fit 128 bits or has more significant digits than it may have. -/
def TooLarge (t : DecimalText) (reqprec : ℕ) (reqscale : ℤ) : Prop :=
  2 ^ 128 ≤ t.truncated reqscale ∨ ¬ HasDigits (t.truncated reqscale) reqprec

/-- A negative scale cuts off a whole digit other than zero. -/
def DropsWhole (t : DecimalText) (reqscale : ℤ) : Prop :=
  reqscale < 0 ∧ ¬ 10 ^ (-reqscale).toNat ∣ t.digits / 10 ^ t.decimals

/-- By design, a loss of whole digits is an overflow, too. -/
def Overflows (t : DecimalText) (reqprec : ℕ) (reqscale : ℤ) : Prop :=
  t.TooLarge reqprec reqscale ∨ t.DropsWhole reqscale

/-- The struct and the overflow flag are right: the flag is 1 for an overflow and 2 when a
digit was dropped, and without an overflow the struct holds the truncated number. -/
structure Stores (t : DecimalText) (reqscale : ℤ) (overflows : Prop) (out : SqlNumeric × ℕ) :
    Prop where
  overflow : out.2 = 1 ↔ overflows
  truncation : out.2 = 2 ↔ ¬ overflows ∧ t.Drops reqscale
  value : out.2 ≠ 1 → out.1.sign = (t.sign ≠ .minus) ∧ out.1.scale = reqscale ∧
    out.1.number = t.truncated reqscale

/-- The digits that the loop sees in front of the point: a plus is like a zero. -/
def front (t : DecimalText) : List UInt8 := (if t.sign = .plus then [0x30] else []) ++ t.whole

/-- The characters that count as digits. -/
def positions (t : DecimalText) : ℕ := t.front.length + t.decimals

/-- How many digits the loop takes in its last round. -/
def lastSegment (t : DecimalText) : ℕ :=
  match t.fraction with
  | some fraction => lastPointed t.front.length fraction.length
  | none => lastDigits t.front.length

/-- The number of decimals as an `SQLSCHAR`. -/
def keptScale (t : DecimalText) : ℤ := Int.bmod t.decimals 256

variable {t : DecimalText}

/-- Without a point, the scale is zero. -/
theorem keptScale_none (h : t.fraction = none) : t.keptScale = 0 := by
  have hdecimals : t.decimals = 0 := by simp [decimals, h]
  unfold keptScale
  rw [hdecimals, Nat.cast_zero, Int.zero_bmod]

/-- The scale for the digits behind a point. -/
theorem keptScale_some {fraction : List UInt8} (h : t.fraction = some fraction) :
    t.keptScale = Int.bmod fraction.length 256 := by
  have hdecimals : t.decimals = fraction.length := by simp [decimals, h]
  unfold keptScale
  rw [hdecimals]

theorem front_digits (t : DecimalText) : ∀ c ∈ t.front, Decimal.IsDigit c := by
  intro c hc
  rcases List.mem_append.mp hc with hc | hc
  · split_ifs at hc with hplus
    · obtain rfl := List.mem_singleton.mp hc
      exact ⟨by decide, by decide⟩
    · simp at hc
  · exact t.whole_digits c hc

theorem value_front (t : DecimalText) :
    Decimal.value (t.front ++ t.fraction.getD []) = t.digits := by
  rw [front, digits, List.append_assoc]
  split_ifs
  · exact Decimal.value_replicate_append 1 _
  · rfl

/-- No minus stands in front of the digits. -/
theorem head_body (t : DecimalText) : t.body.head? ≠ some 0x2d := by
  intro hhead
  have hmem := List.mem_of_head? hhead
  rcases List.mem_append.mp hmem with hsign | hmem
  · split_ifs at hsign with hplus
    · exact absurd (List.mem_singleton.mp hsign) (by decide)
    · simp at hsign
  rcases List.mem_append.mp hmem with hwhole | hmem
  · exact absurd (t.whole_digits _ hwhole).1 (by decide)
  · have hdigits := t.fraction_digits
    cases hfraction : t.fraction with
    | none => simp [hfraction] at hmem
    | some fraction =>
      simp only [hfraction, Option.getD_some, List.mem_cons] at hmem hdigits
      rcases hmem with hpoint | hmem
      · exact absurd hpoint (by decide)
      · exact absurd (hdigits _ hmem).1 (by decide)

/-- `strtoul` takes a plus like a zero. -/
theorem strtoull_plus (s : List UInt8) : strtoull (0x2b :: s) = strtoull (0x30 :: s) := by
  have hplus : (0x2b :: s).dropWhile isspaceByte = 0x2b :: s := by
    rw [List.dropWhile_cons]
    rfl
  have hzero : (0x30 :: s).dropWhile isspaceByte = 0x30 :: s := by
    rw [List.dropWhile_cons]
    rfl
  have htake : ((0x30 :: s).takeWhile fun c => 0x30 ≤ c && c ≤ 0x39) =
      0x30 :: s.takeWhile fun c => 0x30 ≤ c && c ≤ 0x39 := List.takeWhile_cons
  have hvalue : decimalValue (0x30 :: s.takeWhile fun c => 0x30 ≤ c && c ≤ 0x39) =
      decimalValue (s.takeWhile fun c => 0x30 ≤ c && c ≤ 0x39) := rfl
  have hminus : (0x2b : UInt8) ≠ 0x2d := by decide
  have hdigit : (0x30 : UInt8) ≠ 0x2d ∧ (0x30 : UInt8) ≠ 0x2b := by decide
  simp only [strtoull, hplus, hzero, List.head?_cons, Option.some.injEq, hminus, hdigit.1,
    hdigit.2, or_true, or_self, if_true, if_false, List.drop_one, List.tail_cons, htake, hvalue]

/-- The segments have the same length. -/
theorem segment_plus (decpt : Bool) (rest : List UInt8) :
    NumericState.segment decpt (0x2b :: rest) = NumericState.segment decpt (0x30 :: rest) := by
  simp [NumericState.segment, List.findIdx?_cons]

theorem segment_pos (decpt : Bool) (c : UInt8) (rest : List UInt8) :
    0 < (NumericState.segment decpt (c :: rest)).1 := by
  rw [NumericState.segment]
  have hused : 0 < if 4 < (c :: rest).length then 4 else (c :: rest).length := by
    rw [List.length_cons]
    split_ifs <;> omega
  cases (if decpt then (c :: rest).findIdx? (· = 0x2e) else none) with
  | none => exact hused
  | some point =>
    dsimp only
    by_cases hnear : point < if 4 < (c :: rest).length then 4 else (c :: rest).length
    · rw [if_pos hnear]
      exact Nat.succ_pos _
    · rw [if_neg hnear]
      exact hused

/-- The segments add the same number. -/
theorem addSegment_plus (num : NumericState) (s : List UInt8) :
    num.addSegment (0x2b :: s) = num.addSegment (0x30 :: s) := by
  have hlast : (0x2b :: s).getLast? = some 0x2e ↔ (0x30 :: s).getLast? = some 0x2e := by
    cases s with
    | nil => decide
    | cons c s => rw [List.getLast?_cons_cons, List.getLast?_cons_cons]
  simp only [addSegment, strtoull_plus, hlast, List.length_cons]

/-- The loop takes a plus like a zero. -/
theorem readDigits_plus (num : NumericState) (fuel : ℕ) (rest : List UInt8) :
    readDigits fuel num (0x2b :: rest) = readDigits fuel num (0x30 :: rest) := by
  cases fuel with
  | zero => rfl
  | succ fuel =>
    have hpos := segment_pos num.decpt 0x30 rest
    rw [readDigits, readDigits, segment_plus]
    generalize NumericState.segment num.decpt (0x30 :: rest) = seg at hpos
    obtain ⟨usedig, point⟩ := seg
    obtain ⟨used, rfl⟩ := Nat.exists_eq_succ_of_ne_zero hpos.ne'
    simp only [List.length_cons, List.take_succ_cons, List.drop_succ_cons, addSegment_plus]

/-- The number of digits in the last round is small. -/
theorem lastSegment_le (t : DecimalText) : t.lastSegment ≤ 4 := by
  unfold lastSegment lastPointed lastDigits
  split
  · split_ifs <;> omega
  · omega

/-- The loop over the text. -/
theorem readDigits_body (t : DecimalText) {num : NumericState}
    (h : WordsHold num.buildUp 0) (hdecpt : num.decpt = true) (hoverflow : num.overflow = 0)
    (hended : num.ended = false) (hprecision : num.precision = t.body.length % 256)
    (hscale : num.scale = 0) :
    BuildsUp (t.positions % 256) t.keptScale t.digits t.lastSegment
      (readDigits t.body.length num t.body) := by
  have hread : readDigits t.body.length num t.body = readDigits t.body.length num
      (t.front ++ match t.fraction with
        | some fraction => 0x2e :: fraction
        | none => []) := by
    generalize t.body.length = fuel
    unfold body front
    split_ifs with hplus
    · exact readDigits_plus num fuel _
    · rfl
  have hlength : t.body.length = t.front.length + (match t.fraction with
      | some fraction => 0x2e :: fraction
      | none => []).length := by
    unfold body front
    split_ifs
    · simp
      omega
    · simp
  have hvalue := value_front t
  have hdigits := t.fraction_digits
  rw [hread]
  cases hfraction : t.fraction with
  | none =>
    rw [hfraction] at hlength hvalue
    simp only [List.append_nil, List.length_nil, Nat.add_zero, Option.getD_none] at hlength hvalue
    have hdecimals : t.decimals = 0 := by simp [decimals, hfraction]
    have hplain := readDigits_plain hlength.ge h (by norm_num) t.front_digits hoverflow hended
    have hlast : t.lastSegment = lastDigits t.front.length := by simp [lastSegment, hfraction]
    have hkept : num.scale = t.keptScale := hscale.trans (keptScale_none hfraction).symm
    have hpositions : num.precision = t.positions % 256 := by
      rw [hprecision, hlength, positions, hdecimals, Nat.add_zero]
    rw [Nat.zero_mul, Nat.zero_add, hvalue, hkept, hpositions] at hplain
    rw [hlast, List.append_nil]
    exact hplain
  | some fraction =>
    rw [hfraction] at hlength hvalue hdigits
    simp only [List.length_cons, Option.getD_some] at hlength hvalue hdigits
    have hdecimals : t.decimals = fraction.length := by simp [decimals, hfraction]
    have hfuel : (t.front ++ 0x2e :: fraction).length ≤ t.body.length := by
      rw [List.length_append, List.length_cons, hlength]
    have hpointed := readDigits_pointed hfuel h (by norm_num) t.front_digits hdigits hdecpt
      hoverflow hended
    have hlast : t.lastSegment = lastPointed t.front.length fraction.length := by
      simp [lastSegment, hfraction]
    have hpositions : lessPrecision num.precision = t.positions % 256 := by
      rw [hprecision, hlength, positions, hdecimals, lessPrecision]
      omega
    rw [Nat.zero_mul, Nat.zero_add, hvalue, hpositions, ← keptScale_some hfraction] at hpointed
    rw [hlast]
    exact hpointed

/-- The function reports an overflow for a text that it reads to its end. -/
def Refused (t : DecimalText) (reqprec : ℕ) (reqscale : ℤ) : Prop :=
  WholeLost t.digits t.keptScale reqscale ∨
    CountExceeds (counted (t.positions % 256) t.keptScale reqscale) reqprec
      (brought t.digits t.keptScale reqscale) ∨
    (2 ^ 128 ≤ t.digits ∧ 10 ^ decimalsCut t.keptScale reqscale ∣ t.digits)

/-- The function gives up before the last round. -/
def GivesUp (t : DecimalText) : Prop := 2 ^ 128 ≤ t.digits / 10 ^ t.lastSegment

instance (t : DecimalText) : Decidable t.GivesUp := inferInstanceAs (Decidable (_ ≤ _))

/-- The start of the loop. -/
theorem sqlnumFromStr_eq (t : DecimalText) (reqprec : ℕ) (reqscale : ℤ) :
    ∃ num, BuildsUp (t.positions % 256) t.keptScale t.digits t.lastSegment num ∧
      sqlnumFromStr t.text reqprec reqscale =
        ({ precision := (num.bring reqprec reqscale).precision
           scale := (num.bring reqprec reqscale).scale
           sign := t.sign ≠ .minus
           val := if (num.bring reqprec reqscale).ended then List.replicate 16 0
             else compress (num.bring reqprec reqscale).buildUp },
          (num.bring reqprec reqscale).overflow) := by
  have hstart := @readDigits_body t
    { buildUp := List.replicate 8 0
      precision := t.body.length % 256
      scale := 0
      decpt := true
      overflow := 0
      ended := false } WordsHold.zero rfl rfl rfl rfl rfl
  refine ⟨_, hstart, ?_⟩
  by_cases hminus : t.sign = .minus
  · have htext : t.text = 0x2d :: t.body := if_pos hminus
    simp [sqlnumFromStr, htext, hminus]
  · have htext : t.text = t.body := if_neg hminus
    have hhead := t.head_body
    simp [sqlnumFromStr, htext, hhead, hminus]

/-- A text that is not read to its end is an overflow. -/
theorem sqlnumFromStr_of_givesUp (h : t.GivesUp) (reqprec : ℕ) (reqscale : ℤ) :
    (sqlnumFromStr t.text reqprec reqscale).2 = 1 := by
  obtain ⟨num, hbuilds, hrun⟩ := t.sqlnumFromStr_eq reqprec reqscale
  rw [GivesUp] at h
  rw [BuildsUp, if_pos h] at hbuilds
  rw [hrun]
  simp only [bring, hbuilds.2, if_true, hbuilds.1]

/-- The overflow of a number that is too long or whose digits do not fit. -/
theorem overflow_eq_one_iff {exceeds divides large : Prop} [Decidable exceeds] [Decidable divides]
    [Decidable large] :
    (if exceeds then 1 else if divides then if large then 1 else 0 else 2) = 1 ↔
      exceeds ∨ large ∧ divides := by
  by_cases hexceeds : exceeds
  · simp [hexceeds]
  · by_cases hdivides : divides
    · by_cases hlarge : large
      · simp [hdivides, hlarge]
      · simp [hexceeds, hdivides, hlarge]
    · simp [hexceeds, hdivides]

/-- The lost fraction of a number that is not refused. -/
theorem overflow_eq_two_iff {divides large : Prop} [Decidable divides] [Decidable large]
    (hfits : ¬ (large ∧ divides)) :
    (if divides then if large then 1 else 0 else 2) = 2 ↔ ¬ divides := by
  by_cases hdivides : divides
  · have hlarge : ¬ large := fun h => hfits ⟨h, hdivides⟩
    simp [hdivides, hlarge]
  · simp [hdivides]

/-- What comes out for a text that is read to its end. -/
theorem sqlnumFromStr_of_not_givesUp (h : ¬ t.GivesUp) (reqprec : ℕ) (reqscale : ℤ) :
    ((sqlnumFromStr t.text reqprec reqscale).2 = 1 ↔ t.Refused reqprec reqscale) ∧
      (¬ t.Refused reqprec reqscale →
        ((sqlnumFromStr t.text reqprec reqscale).2 = 2 ↔
          ¬ 10 ^ decimalsCut t.keptScale reqscale ∣ t.digits) ∧
        (sqlnumFromStr t.text reqprec reqscale).1.sign = (t.sign ≠ .minus) ∧
        (sqlnumFromStr t.text reqprec reqscale).1.scale =
          t.keptScale + raised t.keptScale reqscale - decimalsCut t.keptScale reqscale -
            wholeCut t.keptScale reqscale ∧
        (sqlnumFromStr t.text reqprec reqscale).1.number =
          brought t.digits t.keptScale reqscale % 2 ^ 128) := by
  obtain ⟨num, hbuilds, hrun⟩ := t.sqlnumFromStr_eq reqprec reqscale
  rw [GivesUp] at h
  rw [BuildsUp, if_neg h] at hbuilds
  obtain ⟨hwords, hprecision, hscale, hended, hoverflow⟩ := hbuilds
  have hbring := bring_eq hwords (by rw [hprecision]; exact Nat.mod_lt _ (by decide)) hended
    reqprec reqscale
  rw [hscale, hprecision, hoverflow] at hbring
  by_cases hlost : WholeLost t.digits t.keptScale reqscale
  · rw [if_pos hlost] at hbring
    rw [hrun]
    exact ⟨iff_of_true hbring.1 (Or.inl hlost), fun hkept => absurd (Or.inl hlost) hkept⟩
  · rw [if_neg hlost] at hbring
    obtain ⟨buildUp, hnum, hbrought⟩ := hbring
    rw [hrun, hnum]
    dsimp only
    refine ⟨?_, fun hkept => ?_⟩
    · rw [Refused, or_iff_right hlost]
      exact overflow_eq_one_iff
    · rw [Refused, or_iff_right hlost, not_or] at hkept
      rw [if_neg hkept.1, hended]
      exact ⟨overflow_eq_two_iff hkept.2, by simp, rfl, hbrought.compress⟩

/-- What the signed byte keeps of the number of decimals. -/
theorem keptScale_spec (t : DecimalText) :
    (t.decimals ≤ 127 → t.keptScale = t.decimals) ∧
      (127 < t.decimals → t.keptScale ≤ 127 ∧ t.keptScale + 256 ≤ t.decimals) := by
  unfold keptScale
  rw [Int.bmod_def]
  split_ifs <;> omega

/-- A number that is read to its end is not much larger than 128 bits. -/
theorem digits_lt (h : ¬ t.GivesUp) : t.digits < 2 ^ 144 := by
  rw [GivesUp, not_le, Nat.div_lt_iff_lt_mul (Nat.pow_pos (by decide))] at h
  calc t.digits < 2 ^ 128 * 10 ^ t.lastSegment := h
    _ ≤ 2 ^ 128 * 10 ^ 4 :=
        Nat.mul_le_mul_left _ (Nat.pow_le_pow_right (by decide) t.lastSegment_le)
    _ ≤ 2 ^ 144 := by norm_num

/-- Digits are cut off down to a smaller scale. -/
theorem cuts_of_le {scale reqscale : ℤ} (h : reqscale ≤ scale) :
    raised scale reqscale = 0 ∧
      decimalsCut scale reqscale + wholeCut scale reqscale = (scale - reqscale).toNat := by
  unfold raised wholeCut decimalsCut
  split_ifs <;> omega

/-- No digits are cut off for a larger scale, and a positive one is reached. -/
theorem cuts_of_lt {scale reqscale : ℤ} (h : scale < reqscale) :
    decimalsCut scale reqscale = 0 ∧ wholeCut scale reqscale = 0 ∧
      raised scale reqscale = if 0 < reqscale then (reqscale - scale).toNat else 0 := by
  unfold raised wholeCut decimalsCut
  split_ifs <;> omega

/-- Without a loss of whole digits, nothing is dropped from the decimals only if nothing
is dropped at all. -/
theorem dvd_decimalsCut_iff {n : ℕ} {scale reqscale : ℤ} (h : ¬ WholeLost n scale reqscale) :
    10 ^ decimalsCut scale reqscale ∣ n ↔
      10 ^ (decimalsCut scale reqscale + wholeCut scale reqscale) ∣ n := by
  constructor
  · intro hdvd
    rw [WholeLost, not_not] at h
    rw [pow_add, ← Nat.mul_div_cancel' hdvd]
    exact Nat.mul_dvd_mul_left _ h
  · intro hdvd
    exact (Nat.pow_dvd_pow 10 (Nat.le_add_right _ _)).trans hdvd

/-- The closed form of the result is what is to be stored. -/
def Matches (t : DecimalText) (reqscale : ℤ) : Prop :=
  (¬ 10 ^ decimalsCut t.keptScale reqscale ∣ t.digits ↔ t.Drops reqscale) ∧
    t.keptScale + raised t.keptScale reqscale - decimalsCut t.keptScale reqscale -
      wholeCut t.keptScale reqscale = reqscale ∧
    brought t.digits t.keptScale reqscale % 2 ^ 128 = t.truncated reqscale

/-- The words keep the number when it is not scaled up. -/
theorem brought_of_le {n : ℕ} {scale reqscale : ℤ} (h : reqscale ≤ scale) (hn : n < 2 ^ 144) :
    brought n scale reqscale = n / 10 ^ (scale - reqscale).toNat := by
  obtain ⟨hraised, hcuts⟩ := cuts_of_le h
  rw [brought, hraised, hcuts, pow_zero, Nat.mul_one, Nat.mod_eq_of_lt hn]

/-- The words of a number that is scaled up. -/
theorem brought_of_lt {n : ℕ} {scale reqscale : ℤ} (h : scale < reqscale) (hpos : 0 < reqscale) :
    brought n scale reqscale % 2 ^ 128 = n * 10 ^ (reqscale - scale).toNat % 2 ^ 128 := by
  obtain ⟨hcut, hwhole, hraised⟩ := cuts_of_lt h
  rw [if_pos hpos] at hraised
  rw [brought, hraised, hcut, hwhole, Nat.add_zero, pow_zero, Nat.div_one,
    Nat.mod_mod_of_dvd _ (Nat.pow_dvd_pow 2 (by decide))]

/-- A number with few decimals is stored as it should be when there is no overflow. -/
theorem matches_of_short {reqprec : ℕ} {reqscale : ℤ} (hdecimals : t.decimals ≤ 127)
    (hends : ¬ t.GivesUp) (hrefused : ¬ t.Refused reqprec reqscale)
    (hoverflows : ¬ t.Overflows reqprec reqscale) : t.Matches reqscale := by
  have hkept : t.keptScale = t.decimals := t.keptScale_spec.1 hdecimals
  have hlost : ¬ WholeLost t.digits t.keptScale reqscale := fun hlost => hrefused (Or.inl hlost)
  have hfits : t.truncated reqscale < 2 ^ 128 :=
    not_le.mp fun hlarge => hoverflows (Or.inl (Or.inl hlarge))
  rw [Matches, Drops, truncated]
  rw [truncated] at hfits
  rw [hkept] at hlost ⊢
  by_cases hle : reqscale ≤ t.decimals
  · obtain ⟨hraised, hcuts⟩ := cuts_of_le hle
    have hscaled : (if (t.decimals : ℤ) ≤ reqscale then
        t.digits * 10 ^ (reqscale - t.decimals).toNat
        else t.digits / 10 ^ (t.decimals - reqscale).toNat) =
        t.digits / 10 ^ (t.decimals - reqscale).toNat := by
      split_ifs with heq
      · obtain rfl : reqscale = t.decimals := le_antisymm hle heq
        simp
      · rfl
    rw [hscaled] at hfits ⊢
    refine ⟨?_, by omega, ?_⟩
    · rw [dvd_decimalsCut_iff hlost, hcuts]
      constructor
      · intro hdrops
        refine ⟨lt_of_le_of_ne hle ?_, hdrops⟩
        rintro rfl
        exact hdrops (by simp)
      · exact fun hdrops => hdrops.2
    · rw [brought_of_le hle (digits_lt hends), Nat.mod_eq_of_lt hfits]
  · have hlt : (t.decimals : ℤ) < reqscale := not_le.mp hle
    obtain ⟨hcut, hwhole, hraised⟩ := cuts_of_lt hlt
    rw [if_pos (by omega)] at hraised
    rw [if_pos hlt.le] at hfits ⊢
    refine ⟨?_, by omega, ?_⟩
    · rw [hcut, pow_zero]
      exact iff_of_false (fun hno => hno (one_dvd _)) fun hdrops => absurd hdrops.1 (by omega)
    · rw [brought_of_lt hlt (by omega), Nat.mod_eq_of_lt hfits]

/-- A number with more decimals than the signed byte counts is hardly ever stored. -/
theorem matches_of_long_iff {reqprec : ℕ} {reqscale : ℤ} (hreqscale : reqscale ≤ 127)
    (hdecimals : 127 < t.decimals) (hends : ¬ t.GivesUp)
    (hrefused : ¬ t.Refused reqprec reqscale) :
    t.Matches reqscale ↔
      2 ^ 128 ∣ t.digits / 10 ^ (t.keptScale - reqscale).toNat ∧
        (0 < reqscale ∨ reqscale ≤ t.keptScale) := by
  obtain ⟨hsmall, hwrap⟩ := t.keptScale_spec.2 hdecimals
  have hlost : ¬ WholeLost t.digits t.keptScale reqscale := fun hlost => hrefused (Or.inl hlost)
  have hnoticed : 10 ^ decimalsCut t.keptScale reqscale ∣ t.digits → t.digits < 2 ^ 128 :=
    fun hdvd => not_le.mp fun hlarge => hrefused (Or.inr (Or.inr ⟨hlarge, hdvd⟩))
  have hlt := digits_lt hends
  have htruncated : t.truncated reqscale =
      t.digits / 10 ^ (t.decimals - reqscale).toNat := if_neg (by omega)
  have hdrops : t.Drops reqscale ↔ ¬ 10 ^ (t.decimals - reqscale).toNat ∣ t.digits :=
    and_iff_right (by omega)
  rw [Matches, hdrops, htruncated]
  by_cases hle : reqscale ≤ t.keptScale
  · obtain ⟨hraised, hcuts⟩ := cuts_of_le hle
    have hpow : t.digits < 10 ^ (t.decimals - reqscale).toNat := by
      calc t.digits < 2 ^ 144 := hlt
        _ ≤ 10 ^ 144 := Nat.pow_le_pow_left (by decide) 144
        _ ≤ 10 ^ (t.decimals - reqscale).toNat :=
            Nat.pow_le_pow_right (by decide) (by omega)
    have hzero : 10 ^ (t.decimals - reqscale).toNat ∣ t.digits ↔ t.digits = 0 :=
      ⟨fun hdvd => Nat.eq_zero_of_dvd_of_lt hdvd hpow, fun h => h ▸ dvd_zero _⟩
    rw [hzero, Nat.div_eq_of_lt hpow, brought_of_le hle hlt, ← Nat.dvd_iff_mod_eq_zero]
    constructor
    · rintro ⟨-, -, hdvd⟩
      exact ⟨hdvd, Or.inr hle⟩
    · rintro ⟨hdvd, -⟩
      refine ⟨not_congr ⟨fun hcut => ?_, fun h => h ▸ dvd_zero _⟩, by omega, hdvd⟩
      -- all digits are dropped, or the room is noticed
      have hquotient : t.digits / 10 ^ (t.keptScale - reqscale).toNat = 0 :=
        Nat.eq_zero_of_dvd_of_lt hdvd ((Nat.div_le_self _ _).trans_lt (hnoticed hcut))
      rw [dvd_decimalsCut_iff hlost, hcuts] at hcut
      rw [← Nat.mul_div_cancel' hcut, hquotient, Nat.mul_zero]
  · have hup : t.keptScale < reqscale := not_le.mp hle
    obtain ⟨hcut, hwhole, hraised⟩ := cuts_of_lt hup
    rw [hcut, pow_zero] at hnoticed ⊢
    have hroom := hnoticed (one_dvd _)
    have hnocut : (t.keptScale - reqscale).toNat = 0 := by omega
    rw [hnocut, pow_zero, Nat.div_one]
    by_cases hpos : 0 < reqscale
    · rw [if_pos hpos] at hraised
      rw [brought_of_lt hup hpos]
      constructor
      · rintro ⟨hexact, -, hnumber⟩
        have hdvd : 10 ^ (t.decimals - reqscale).toNat ∣ t.digits :=
          not_not.mp fun hno => hexact.mpr hno (one_dvd _)
        obtain ⟨q, hq⟩ := hdvd
        rw [hq, Nat.mul_div_cancel_left _ (Nat.pow_pos (by decide))] at hnumber
        have hlong : 2 ^ 128 ∣ 10 ^ (t.decimals - reqscale).toNat * q *
            10 ^ (reqscale - t.keptScale).toNat := by
          rw [Nat.mul_right_comm, ← pow_add]
          refine Dvd.dvd.mul_right ?_ q
          calc 2 ^ 128 ∣ 10 ^ 128 := pow_dvd_pow_of_dvd (by decide) 128
            _ ∣ _ := Nat.pow_dvd_pow 10 (by omega)
        rw [Nat.mod_eq_zero_of_dvd hlong] at hnumber
        rw [hq, ← hnumber, Nat.mul_zero]
        exact ⟨dvd_zero _, Or.inl hpos⟩
      · rintro ⟨hdvd, -⟩
        have hzero : t.digits = 0 := Nat.eq_zero_of_dvd_of_lt hdvd hroom
        rw [hzero]
        refine ⟨by simp, by omega, by simp⟩
    · refine iff_of_false (fun hmatches => ?_) fun hboth => ?_
      · have := hmatches.2.1
        rw [if_neg hpos] at hraised
        omega
      · exact hboth.2.elim hpos hle

/-- The function does by design what it does with the text. It gives up only on a number that
overflows, and it refuses one exactly if it overflows. More than 127 decimals wrap the scale, and
then the low bytes of the number are right only if they are all zero. -/
def FollowsDesign (t : DecimalText) (reqprec : ℕ) (reqscale : ℤ) : Prop :=
  if t.GivesUp then t.Overflows reqprec reqscale
  else
    (t.Refused reqprec reqscale ↔ t.Overflows reqprec reqscale) ∧
      (127 < t.decimals → t.Overflows reqprec reqscale ∨
        (2 ^ 128 ∣ t.digits / 10 ^ (t.keptScale - reqscale).toNat ∧
          (0 < reqscale ∨ reqscale ≤ t.keptScale)))

/-- A text that is given up is stored right only as an overflow. -/
theorem stores_of_givesUp (hends : t.GivesUp) (reqprec : ℕ) (reqscale : ℤ) :
    Stores t reqscale (t.Overflows reqprec reqscale) (sqlnumFromStr t.text reqprec reqscale) ↔
      t.Overflows reqprec reqscale := by
  have hone := sqlnumFromStr_of_givesUp hends reqprec reqscale
  constructor
  · exact fun hstores => hstores.overflow.mp hone
  · intro hover
    refine ⟨iff_of_true hone hover, iff_of_false ?_ fun h => h.1 hover, fun hno => absurd hone hno⟩
    rw [hone]
    decide

/-- A text that is read to its end. -/
theorem stores_of_not_givesUp (hends : ¬ t.GivesUp) (reqprec : ℕ) (reqscale : ℤ) :
    Stores t reqscale (t.Overflows reqprec reqscale) (sqlnumFromStr t.text reqprec reqscale) ↔
      (t.Refused reqprec reqscale ↔ t.Overflows reqprec reqscale) ∧
        (t.Overflows reqprec reqscale ∨ t.Matches reqscale) := by
  obtain ⟨hone, hrest⟩ := sqlnumFromStr_of_not_givesUp hends reqprec reqscale
  constructor
  · intro hstores
    have hsame : t.Refused reqprec reqscale ↔ t.Overflows reqprec reqscale :=
      hone.symm.trans hstores.overflow
    refine ⟨hsame, or_iff_not_imp_left.mpr fun hover => ?_⟩
    have hrefused : ¬ t.Refused reqprec reqscale := fun h => hover (hsame.mp h)
    obtain ⟨htwo, -, hscale, hnumber⟩ := hrest hrefused
    obtain ⟨-, hvalueScale, hvalueNumber⟩ := hstores.value fun h => hrefused (hone.mp h)
    refine ⟨?_, hscale.symm.trans hvalueScale, hnumber.symm.trans hvalueNumber⟩
    rw [← htwo, hstores.truncation, and_iff_right hover]
  · rintro ⟨hsame, hcase⟩
    by_cases hover : t.Overflows reqprec reqscale
    · have hflag := hone.mpr (hsame.mpr hover)
      refine ⟨iff_of_true hflag hover, iff_of_false ?_ fun h => h.1 hover,
        fun hno => absurd hflag hno⟩
      rw [hflag]
      decide
    · have hrefused : ¬ t.Refused reqprec reqscale := fun h => hover (hsame.mp h)
      obtain ⟨htwo, hsign, hscale, hnumber⟩ := hrest hrefused
      obtain ⟨hdrops, hreached, hfits⟩ := hcase.resolve_left hover
      exact ⟨hone.trans hsame, by rw [htwo, hdrops, and_iff_right hover],
        fun _ => ⟨hsign, hscale.trans hreached, hnumber.trans hfits⟩⟩

/-- The function stores a decimal text exactly if it follows its design. -/
theorem sqlnumFromStr_stores_iff (t : DecimalText) (reqprec : UInt8) (reqscale : Int8) :
    Stores t reqscale.toInt (t.Overflows reqprec.toNat reqscale.toInt)
        (sqlnumFromStr t.text reqprec.toNat reqscale.toInt) ↔
      t.FollowsDesign reqprec.toNat reqscale.toInt := by
  have hreqscale : reqscale.toInt ≤ 127 := Int8.toInt_le reqscale
  generalize reqscale.toInt = reqscale at *
  generalize reqprec.toNat = reqprec
  unfold FollowsDesign
  split_ifs with hends
  · exact stores_of_givesUp hends reqprec reqscale
  rw [stores_of_not_givesUp hends]
  refine and_congr_right fun hsame => ?_
  by_cases hover : t.Overflows reqprec reqscale
  · exact iff_of_true (Or.inl hover) fun _ => Or.inl hover
  have hrefused : ¬ t.Refused reqprec reqscale := fun h => hover (hsame.mp h)
  rw [or_iff_right hover, or_iff_right hover]
  by_cases hlong : 127 < t.decimals
  · rw [matches_of_long_iff hreqscale hlong hends hrefused]
    exact ⟨fun h _ => h, fun h => h hlong⟩
  · exact iff_of_true (matches_of_short (not_lt.mp hlong) hends hrefused hover)
      fun h => absurd h hlong

/-- Tenths cut off with a negative scale are whole digits that are lost: an overflow by design,
though two digits are enough for the number. -/
theorem sqlnumFromStr_dropsWhole :
    ∃ t : DecimalText, ¬ Stores t (-1) (t.TooLarge 2 (-1)) (sqlnumFromStr t.text 2 (-1)) := by
  refine ⟨⟨.absent, [0x32, 0x35], some [0x32, 0x31, 0x32], ?_, ?_⟩, fun hstores => ?_⟩
  · simp [Decimal.IsDigit]
  · simp [Decimal.IsDigit]
  · have hone := hstores.overflow.mp (by decide +kernel)
    rcases hone with hroom | hdigits
    · exact absurd hroom (by decide +kernel)
    · exact hdigits ⟨2, 0, by decide, by decide +kernel⟩

end DecimalText

end MatrixOdbc.Driver
