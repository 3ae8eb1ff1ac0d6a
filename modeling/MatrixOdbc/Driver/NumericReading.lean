import MatrixOdbc.Driver.SqlNumeric

/-!
# Reading the text of a number

What the loop of `sqlnum_from_str` and the scaling behind it make of any decimal text.
The loop takes groups of four digits, and a group ends at the decimal point. Digits
that are too many are noticed at the end of a group, and the function gives up when
there is another one.
-/

namespace MatrixOdbc.Driver

/-- The words have room for 144 bits. -/
theorem WordsHold.lt_capacity {ary : List ℕ} {n : ℕ} (h : WordsHold ary n) : n < 2 ^ 144 := by
  obtain ⟨hnormal, hlength, rfl⟩ := h
  have hcapacity := hnormal.ofDigits_lt
  rw [Limbs.capacity, hlength] at hcapacity
  exact hcapacity.trans_le (by norm_num)

namespace NumericState

variable {num : NumericState} {n : ℕ} {rest : List UInt8}

/-- The text of a segment: digits, and the point when it ends with it. -/
def pointed (digits : List UInt8) (point : Bool) : List UInt8 :=
  digits ++ if point then [0x2e] else []

/-- Every byte of a segment is a digit or the point. -/
theorem mem_pointed {digits : List UInt8} {point : Bool} {c : UInt8}
    (hdigits : ∀ c ∈ digits, Decimal.IsDigit c) (hc : c ∈ pointed digits point) :
    Decimal.IsDigit c ∨ c = 0x2e := by
  rcases List.mem_append.mp hc with hc | hc
  · exact Or.inl (hdigits c hc)
  · cases point with
    | true => exact Or.inr (List.mem_singleton.mp hc)
    | false => simp at hc

/-- `strtoul` stops at the point. -/
theorem strtoull_pointed {digits : List UInt8} (point : Bool)
    (hdigits : ∀ c ∈ digits, Decimal.IsDigit c) (hlength : digits.length ≤ 4) :
    (strtoull (pointed digits point)).toNat % 2 ^ 32 = Decimal.value digits := by
  have hvalue := Decimal.value_lt hdigits
  have hpow : 10 ^ digits.length ≤ 10 ^ 4 := Nat.pow_le_pow_right (by decide) hlength
  have hhead : ∀ c, (pointed digits point).head? = some c →
      isspaceByte c = false ∧ c ≠ 0x2d ∧ c ≠ 0x2b := by
    intro c hc
    rcases mem_pointed hdigits (List.mem_of_head? hc) with hdigit | rfl
    · have hblank := @dropWhile_isspaceByte_digits [c] (by simpa using hdigit)
      obtain ⟨hminus, hplus⟩ := @head_digits [c] (by simpa using hdigit)
      refine ⟨?_, by simpa using hminus, by simpa using hplus⟩
      by_contra hspace
      simp [List.dropWhile_cons, hspace] at hblank
    · decide
  have hdrop : (pointed digits point).dropWhile isspaceByte = pointed digits point := by
    cases htext : pointed digits point with
    | nil => rfl
    | cons c text =>
      rw [htext] at hhead
      rw [List.dropWhile_cons, (hhead c rfl).1]
      rfl
  have hminus : (pointed digits point).head? ≠ some 0x2d := fun h => (hhead _ h).2.1 rfl
  have hplus : (pointed digits point).head? ≠ some 0x2b := fun h => (hhead _ h).2.2 rfl
  have htake : ((pointed digits point).takeWhile fun c => 0x30 ≤ c && c ≤ 0x39) = digits := by
    rw [pointed, List.takeWhile_append_of_pos]
    · cases point with
      | true => exact List.append_nil _
      | false => exact List.append_nil _
    · intro c hc
      obtain ⟨hlow, hhigh⟩ := hdigits c hc
      simp only [Bool.and_eq_true, decide_eq_true_eq]
      exact ⟨hlow, hhigh⟩
  have hsmall : Decimal.value digits < 2 ^ 32 := by omega
  simp only [strtoull, hdrop, hminus, hplus, or_self, if_false, htake, decimalValue_eq]
  rw [if_neg (by omega), BitVec.toNat_ofNat]
  omega

/-- A segment is added, and its last word tells whether more than 128 bits are needed. -/
theorem addSegment_eq (h : WordsHold num.buildUp n) (hn : n < 2 ^ 128)
    (hoverflow : num.overflow = 0) {digits : List UInt8} (point : Bool)
    (hdigits : ∀ c ∈ digits, Decimal.IsDigit c) (hlength : digits.length ≤ 4) :
    ∃ buildUp, num.addSegment (pointed digits point) =
        { num with
          buildUp := buildUp
          overflow := if 2 ^ 128 ≤ n * 10 ^ digits.length + Decimal.value digits then 1 else 0 } ∧
      WordsHold buildUp (n * 10 ^ digits.length + Decimal.value digits) := by
  have hvalue := Decimal.value_lt hdigits
  have hpow : 10 ^ digits.length ≤ 10 ^ 4 := Nat.pow_le_pow_right (by decide) hlength
  have hcount : (if (pointed digits point).getLast? = some 0x2e then
      (pointed digits point).length - 1 else (pointed digits point).length) = digits.length := by
    cases point with
    | true => simp [pointed]
    | false =>
      have hlast : digits.getLast? ≠ some 0x2e := fun hlast =>
        absurd (hdigits _ (List.mem_of_getLast? hlast)).1 (by decide)
      simp [pointed, hlast]
  have hsum : n * 10 ^ digits.length + Decimal.value digits < 2 ^ 144 := by
    have hle : n * 10 ^ digits.length ≤ 2 ^ 128 * 10 ^ 4 := Nat.mul_le_mul hn.le hpow
    have hroom : 2 ^ 128 * 10 ^ 4 + 10 ^ 4 ≤ 2 ^ 144 := by norm_num
    omega
  have hstep := h.scale_add hlength hvalue
  rw [Nat.mod_eq_of_lt hsum] at hstep
  refine ⟨_, ?_, hstep⟩
  have hlast : 2 ^ 16 ≤ (sqlnumCarry (Limbs.addLowest (2 ^ 32) (Decimal.value digits)
      (sqlnumScale num.buildUp digits.length))).getLastD 0 ↔
      2 ^ 128 ≤ n * 10 ^ digits.length + Decimal.value digits := by
    obtain ⟨hnormal, hwords, hnumber⟩ := hstep
    rw [← not_lt, ← not_lt, not_iff_not, hnormal.getLast_lt_iff, hnumber, hwords, ← pow_mul]
  simp only [addSegment, strtoull_pointed point hdigits hlength, hcount, hlast, hoverflow]

/-- How many digits the last segment of digits has. -/
def lastDigits (length : ℕ) : ℕ := (length - 1) % 4 + 1

/-- An overflow that has been noticed ends the function at the next segment. -/
theorem readDigits_ended {fuel : ℕ} (hfuel : rest.length ≤ fuel) (hne : rest ≠ [])
    (hoverflow : num.overflow = 1) :
    (readDigits fuel num rest).overflow = 1 ∧ (readDigits fuel num rest).ended = true := by
  cases rest with
  | nil => exact absurd rfl hne
  | cons first more =>
    cases fuel with
    | zero => simp at hfuel
    | succ fuel =>
      rw [readDigits]
      generalize segment num.decpt (first :: more) = seg
      obtain ⟨usedig, point⟩ := seg
      cases point <;> simp [hoverflow]

/-- What a part of the text makes of the number, when `last` of its digits are in the last
segment: either the digits before do not fit 128 bits, or all of them are in the words. -/
def BuildsUp (precision : ℕ) (scale : ℤ) (total last : ℕ) (out : NumericState) : Prop :=
  if 2 ^ 128 ≤ total / 10 ^ last then out.overflow = 1 ∧ out.ended = true
  else WordsHold out.buildUp total ∧ out.precision = precision ∧ out.scale = scale ∧
    out.ended = false ∧ out.overflow = if 2 ^ 128 ≤ total then 1 else 0

/-- The end of the text. -/
theorem buildsUp_end (h : WordsHold num.buildUp n) (hn : n < 2 ^ 128) (hoverflow : num.overflow = 0)
    (hended : num.ended = false) (last : ℕ) :
    BuildsUp num.precision num.scale n last num := by
  have hsmall : ¬ 2 ^ 128 ≤ n / 10 ^ last := by
    have := Nat.div_le_self n (10 ^ last)
    omega
  rw [BuildsUp, if_neg hsmall, if_neg (not_le.mpr hn)]
  exact ⟨h, rfl, rfl, hended, hoverflow⟩

/-- A text without the point is taken in groups of four. -/
theorem segment_digits (decpt : Bool) (hpoint : 0x2e ∉ rest) :
    segment decpt rest = (if 4 < rest.length then 4 else rest.length, false) := by
  have hnone : rest.findIdx? (· = 0x2e) = none := by
    rw [List.findIdx?_eq_none_iff]
    intro c hc
    simp only [decide_eq_false_iff_not]
    rintro rfl
    exact hpoint hc
  rw [segment, hnone, ite_self]

/-- One round over a segment that does not end with the point. -/
theorem readDigits_step {fuel usedig : ℕ}
    (hsegment : segment num.decpt rest = (usedig, false)) (hne : rest ≠ [])
    (hoverflow : num.overflow = 0) :
    readDigits (fuel + 1) num rest =
      readDigits fuel (num.addSegment (rest.take usedig)) (rest.drop usedig) := by
  cases rest with
  | nil => exact absurd rfl hne
  | cons first more =>
    rw [readDigits, hsegment]
    simp [hoverflow]

/-- Splitting digits off the front. -/
theorem value_split (n k : ℕ) (digits : List UInt8) (hk : k ≤ digits.length) :
    n * 10 ^ digits.length + Decimal.value digits =
      (n * 10 ^ k + Decimal.value (digits.take k)) * 10 ^ (digits.length - k) +
        Decimal.value (digits.drop k) := by
  have hvalue := Decimal.value_append (digits.take k) (digits.drop k)
  rw [List.take_append_drop, List.length_drop] at hvalue
  rw [hvalue, Nat.add_mul, Nat.mul_assoc, ← pow_add, Nat.add_sub_cancel' hk]
  ring

/-- Digits in front stay in front when fewer are cut off than follow them. -/
theorem le_div_of_front {front back value last : ℕ} (hlast : last ≤ back)
    (hfront : 2 ^ 128 ≤ front) : 2 ^ 128 ≤ (front * 10 ^ back + value) / 10 ^ last := by
  rw [Nat.le_div_iff_mul_le (Nat.pow_pos (by decide))]
  calc 2 ^ 128 * 10 ^ last ≤ front * 10 ^ back :=
        Nat.mul_le_mul hfront (Nat.pow_le_pow_right (by decide) hlast)
    _ ≤ front * 10 ^ back + value := Nat.le_add_right _ _

/-- The digits before the last segment, in the last segment and in a longer text. -/
theorem lastDigits_spec {length : ℕ} :
    (0 < length → length ≤ 4 → lastDigits length = length) ∧
      (4 < length → lastDigits length ≤ length - 4 ∧
        lastDigits (length - 4) = lastDigits length) := by
  unfold lastDigits
  omega

/-- The loop over digits, up to the end of the text. -/
theorem readDigits_plain {fuel : ℕ} (hfuel : rest.length ≤ fuel)
    (h : WordsHold num.buildUp n) (hn : n < 2 ^ 128)
    (hdigits : ∀ c ∈ rest, Decimal.IsDigit c) (hoverflow : num.overflow = 0)
    (hended : num.ended = false) :
    BuildsUp num.precision num.scale (n * 10 ^ rest.length + Decimal.value rest)
      (lastDigits rest.length) (readDigits fuel num rest) := by
  induction fuel generalizing num n rest with
  | zero =>
    obtain rfl := List.length_eq_zero_iff.mp (Nat.le_zero.mp hfuel)
    simpa [Decimal.value, readDigits] using buildsUp_end h hn hoverflow hended (lastDigits 0)
  | succ fuel ih =>
    by_cases hempty : rest = []
    · subst hempty
      simpa [Decimal.value, readDigits] using buildsUp_end h hn hoverflow hended (lastDigits 0)
    · have hlen : 0 < rest.length := List.length_pos_iff.mpr hempty
      have hpoint : 0x2e ∉ rest := fun hmem => absurd (hdigits _ hmem).1 (by decide)
      have htake : ∀ c ∈ rest.take 4, Decimal.IsDigit c :=
        fun c hc => hdigits c (List.mem_of_mem_take hc)
      obtain ⟨buildUp, hstep, hwords⟩ :=
        addSegment_eq h hn hoverflow false htake (List.length_take_le 4 rest)
      have hplain : pointed (rest.take 4) false = rest.take 4 := List.append_nil _
      rw [hplain, List.length_take] at hstep
      rw [List.length_take] at hwords
      have hsegment := segment_digits num.decpt hpoint
      by_cases hshort : rest.length ≤ 4
      · -- the last segment
        rw [if_neg (by omega)] at hsegment
        rw [readDigits_step hsegment hempty hoverflow, List.take_length, List.drop_length]
        rw [List.take_of_length_le hshort, Nat.min_eq_right hshort] at hstep
        rw [List.take_of_length_le hshort, Nat.min_eq_right hshort] at hwords
        have hbefore : ¬ 2 ^ 128 ≤ (n * 10 ^ rest.length + Decimal.value rest) /
            10 ^ lastDigits rest.length := by
          have hvalue := Decimal.value_lt hdigits
          rw [lastDigits_spec.1 hlen hshort, Nat.mul_comm,
            Nat.mul_add_div (Nat.pow_pos (by decide)), Nat.div_eq_of_lt hvalue]
          omega
        rw [BuildsUp, if_neg hbefore, hstep]
        cases fuel <;> exact ⟨hwords, rfl, rfl, hended, rfl⟩
      · rw [Nat.min_eq_left (by omega)] at hstep hwords
        rw [if_pos (by omega)] at hsegment
        obtain ⟨hlast, hsame⟩ := (@lastDigits_spec rest.length).2 (by omega)
        have hdrop : rest.drop 4 ≠ [] := by
          intro hnil
          rw [List.drop_eq_nil_iff] at hnil
          omega
        rw [readDigits_step hsegment hempty hoverflow, hstep,
          value_split n 4 rest (by omega)]
        by_cases hbig : 2 ^ 128 ≤ n * 10 ^ 4 + Decimal.value (rest.take 4)
        · rw [BuildsUp, if_pos (le_div_of_front hlast hbig), if_pos hbig]
          exact readDigits_ended (by rw [List.length_drop]; omega) hdrop rfl
        · rw [if_neg hbig]
          have hrest := @ih { num with buildUp := buildUp, overflow := 0 } _
            (rest.drop 4) (by rw [List.length_drop]; omega) hwords (not_le.mp hbig)
            (fun c hc => hdigits c (List.mem_of_mem_drop hc)) rfl hended
          rw [List.length_drop, hsame] at hrest
          exact hrest

/-- How many digits the last segment has, when the point follows so many digits. -/
def lastPointed (front back : ℕ) : ℕ := if back = 0 then front % 4 else lastDigits back

/-- A segment ends at the point, if it is near. -/
theorem segment_pointed {front back : List UInt8} (hpoint : 0x2e ∉ front) :
    segment true (front ++ 0x2e :: back) =
      if 4 ≤ front.length then (4, false) else (front.length + 1, true) := by
  have hfind : (front ++ 0x2e :: back).findIdx? (· = 0x2e) = some front.length := by
    rw [List.findIdx?_append, List.findIdx?_cons]
    have hnone : front.findIdx? (· = 0x2e) = none := by
      rw [List.findIdx?_eq_none_iff]
      intro c hc
      simp only [decide_eq_false_iff_not]
      rintro rfl
      exact hpoint hc
    simp [hnone]
  simp only [segment, hfind, if_true, List.length_append, List.length_cons]
  split_ifs <;> first | rfl | omega

/-- The round over the segment that ends with the point. -/
theorem readDigits_point_step {fuel : ℕ} {front back : List UInt8} (hpoint : 0x2e ∉ front)
    (hshort : front.length < 4) (hdecpt : num.decpt = true) (hoverflow : num.overflow = 0) :
    ∃ after : NumericState,
      readDigits (fuel + 1) num (front ++ 0x2e :: back) =
        readDigits fuel (after.addSegment (pointed front true)) back ∧
      after.buildUp = num.buildUp ∧ after.precision = lessPrecision num.precision ∧
      after.scale = Int.bmod back.length 256 ∧ after.overflow = 0 ∧ after.ended = num.ended := by
  have hsegment := @segment_pointed front back hpoint
  rw [if_neg (by omega)] at hsegment
  have htake : (front ++ 0x2e :: back).take (front.length + 1) = pointed front true := by
    rw [List.append_cons, List.take_append_of_le_length (by simp)]
    exact List.take_of_length_le (by simp)
  have hdrop : (front ++ 0x2e :: back).drop (front.length + 1) = back := by
    rw [List.append_cons, List.drop_append_of_le_length (by simp)]
    simp
  have hlength : (front ++ 0x2e :: back).length - (front.length + 1) = back.length := by
    simp
    omega
  refine ⟨{ num with
      scale := Int.bmod back.length 256
      precision := lessPrecision num.precision
      decpt := false }, ?_, by dsimp only, by dsimp only, by dsimp only, hoverflow,
    by dsimp only⟩
  generalize hrest : front ++ 0x2e :: back = rest at *
  cases rest with
  | nil => simp at hrest
  | cons first more =>
    rw [readDigits, hdecpt, hsegment]
    simp only [if_true, hlength, htake, hdrop, hoverflow, ne_eq, not_true, if_false]

/-- The last segment has no more digits than follow the one before. -/
theorem lastPointed_spec (front back : ℕ) :
    (0 < back → lastPointed front back ≤ back) ∧ (front < 4 → lastPointed front 0 = front) ∧
      (4 ≤ front → lastPointed front back ≤ front + back - 4 ∧
        lastPointed (front - 4) back = lastPointed front back) := by
  unfold lastPointed lastDigits
  refine ⟨fun h => ?_, fun h => ?_, fun h => ?_⟩
  · rw [if_neg (by omega)]
    omega
  · rw [if_pos rfl]
    omega
  · split_ifs <;> omega

/-- The segment that ends with the point, and the digits behind it. -/
theorem readDigits_afterPoint {fuel : ℕ} {front back : List UInt8} (hfuel : back.length ≤ fuel)
    (h : WordsHold num.buildUp n) (hn : n < 2 ^ 128)
    (hfront : ∀ c ∈ front, Decimal.IsDigit c) (hback : ∀ c ∈ back, Decimal.IsDigit c)
    (hshort : front.length < 4) (hoverflow : num.overflow = 0) (hended : num.ended = false) :
    BuildsUp num.precision num.scale
      (n * 10 ^ (front ++ back).length + Decimal.value (front ++ back))
      (lastPointed front.length back.length)
      (readDigits fuel (num.addSegment (pointed front true)) back) := by
  obtain ⟨buildUp, hstep, hwords⟩ := addSegment_eq h hn hoverflow true hfront (by omega)
  obtain ⟨hlastBack, hlastShort, -⟩ := lastPointed_spec front.length back.length
  have hvalue := value_split n front.length (front ++ back) (by simp)
  rw [List.take_left, List.drop_left, List.length_append, Nat.add_sub_cancel_left] at hvalue
  rw [hstep, List.length_append, hvalue]
  by_cases hempty : back = []
  · subst hempty
    have hbefore : ¬ 2 ^ 128 ≤ (n * 10 ^ front.length + Decimal.value front) /
        10 ^ front.length := by
      have hlt := Decimal.value_lt hfront
      rw [Nat.mul_comm, Nat.mul_add_div (Nat.pow_pos (by decide)), Nat.div_eq_of_lt hlt]
      omega
    have hsum : (n * 10 ^ front.length + Decimal.value front) * 10 ^ ([] : List UInt8).length +
        Decimal.value [] = n * 10 ^ front.length + Decimal.value front := by
      simp [Decimal.value]
    rw [hsum, List.length_nil, hlastShort hshort, BuildsUp, if_neg hbefore]
    cases fuel <;> exact ⟨hwords, rfl, rfl, hended, rfl⟩
  · have hpos := List.length_pos_iff.mpr hempty
    by_cases hbig : 2 ^ 128 ≤ n * 10 ^ front.length + Decimal.value front
    · rw [BuildsUp, if_pos (le_div_of_front (hlastBack hpos) hbig), if_pos hbig]
      exact readDigits_ended hfuel hempty rfl
    · rw [if_neg hbig]
      have hlast : lastPointed front.length back.length = lastDigits back.length := if_neg hpos.ne'
      have hrest := @readDigits_plain { num with buildUp := buildUp, overflow := 0 } _ back fuel
        hfuel hwords (not_le.mp hbig) hback rfl hended
      rw [hlast]
      exact hrest

/-- The loop over digits with a point between them. -/
theorem readDigits_pointed {fuel : ℕ} {front back : List UInt8}
    (hfuel : (front ++ 0x2e :: back).length ≤ fuel)
    (h : WordsHold num.buildUp n) (hn : n < 2 ^ 128)
    (hfront : ∀ c ∈ front, Decimal.IsDigit c) (hback : ∀ c ∈ back, Decimal.IsDigit c)
    (hdecpt : num.decpt = true) (hoverflow : num.overflow = 0) (hended : num.ended = false) :
    BuildsUp (lessPrecision num.precision) (Int.bmod back.length 256)
      (n * 10 ^ (front ++ back).length + Decimal.value (front ++ back))
      (lastPointed front.length back.length)
      (readDigits fuel num (front ++ 0x2e :: back)) := by
  induction fuel generalizing num n front with
  | zero => simp at hfuel
  | succ fuel ih =>
    have hpoint : 0x2e ∉ front := fun hmem => absurd (hfront _ hmem).1 (by decide)
    have hall : (front ++ 0x2e :: back).length = front.length + back.length + 1 := by
      simp
      omega
    rw [hall] at hfuel
    obtain ⟨-, -, hlastLong⟩ := lastPointed_spec front.length back.length
    by_cases hshort : front.length < 4
    · obtain ⟨after, hrun, hsame, hprecision, hscale, hafter, hgoes⟩ :=
        @readDigits_point_step num fuel front back hpoint hshort hdecpt hoverflow
      rw [hrun, ← hprecision, ← hscale]
      exact readDigits_afterPoint (by omega) (hsame ▸ h) hn hfront hback hshort hafter
        (hgoes.trans hended)
    · obtain ⟨hlast, hsame⟩ := hlastLong (by omega)
      have htake : ∀ c ∈ front.take 4, Decimal.IsDigit c :=
        fun c hc => hfront c (List.mem_of_mem_take hc)
      obtain ⟨buildUp, hstep, hwords⟩ :=
        addSegment_eq h hn hoverflow false htake (List.length_take_le 4 front)
      have hplain : pointed (front.take 4) false = front.take 4 := List.append_nil _
      rw [hplain, List.length_take, Nat.min_eq_left (by omega)] at hstep
      rw [List.length_take, Nat.min_eq_left (by omega)] at hwords
      have hsegment := @segment_pointed front back hpoint
      rw [if_pos (by omega), ← hdecpt] at hsegment
      have hvalue := value_split n 4 (front ++ back) (by rw [List.length_append]; omega)
      rw [List.take_append_of_le_length (by omega), List.drop_append_of_le_length (by omega)]
        at hvalue
      rw [readDigits_step hsegment (by simp) hoverflow, List.take_append_of_le_length (by omega),
        List.drop_append_of_le_length (by omega), hstep, hvalue]
      by_cases hbig : 2 ^ 128 ≤ n * 10 ^ 4 + Decimal.value (front.take 4)
      · rw [List.length_append, BuildsUp, if_pos (le_div_of_front hlast hbig), if_pos hbig]
        exact readDigits_ended (by simp; omega) (by simp) rfl
      · rw [if_neg hbig]
        have hrest := @ih { num with buildUp := buildUp, overflow := 0 } _
          (front.drop 4) (by simp; omega) hwords (not_le.mp hbig)
          (fun c hc => hfront c (List.mem_of_mem_drop hc)) hdecpt rfl hended
        rw [List.length_drop, hsame] at hrest
        have hlength : (front.drop 4 ++ back).length = (front ++ back).length - 4 := by
          simp
          omega
        rw [hlength] at hrest
        exact hrest

/-- Counting the precision down, with the wrap of an `SQLCHAR`. -/
theorem iterate_lessPrecision {precision : ℕ} (hprecision : precision < 256) (times : ℕ) :
    lessPrecision^[times] precision = (precision + 255 * times) % 256 := by
  induction times with
  | zero => simp [Nat.mod_eq_of_lt hprecision]
  | succ times ih =>
    rw [Function.iterate_succ_apply', ih, lessPrecision]
    omega

/-- Scaling back divides, and notices a digit that is cut off. -/
theorem scaleBack_spec (h : WordsHold num.buildUp n) (times : ℕ) :
    ∃ buildUp, scaleBack times num =
        { num with
          buildUp := buildUp
          overflow := if 10 ^ times ∣ n then num.overflow else 2
          precision := lessPrecision^[times] num.precision
          scale := num.scale - times } ∧
      WordsHold buildUp (n / 10 ^ times) := by
  induction times generalizing num n with
  | zero => exact ⟨num.buildUp, by simp [scaleBack], by simpa using h⟩
  | succ times ih =>
    obtain ⟨buildUp, hrun, hwords⟩ := @ih
      { num with
        buildUp := Limbs.divideLowest 10 (sqlnumUnscaleLe num.buildUp)
        overflow := if (sqlnumUnscaleLe num.buildUp).headD 0 % 10 ≠ 0 then 2 else num.overflow
        precision := lessPrecision num.precision
        scale := num.scale - 1 } _ h.unscale
    have hdvd : 10 ^ (times + 1) ∣ n ↔ n % 10 = 0 ∧ 10 ^ times ∣ n / 10 := by
      constructor
      · rintro ⟨k, rfl⟩
        have hten : 10 ^ (times + 1) * k = 10 * (10 ^ times * k) := by
          rw [pow_succ]
          ring
        rw [hten, Nat.mul_mod_right, Nat.mul_div_cancel_left _ (by decide)]
        exact ⟨rfl, Nat.dvd_mul_right _ _⟩
      · rintro ⟨hzero, k, hk⟩
        refine ⟨k, ?_⟩
        calc n = 10 * (n / 10) := (Nat.mul_div_cancel' (Nat.dvd_of_mod_eq_zero hzero)).symm
          _ = 10 ^ (times + 1) * k := by rw [hk, pow_succ]; ring
    refine ⟨buildUp, ?_, ?_⟩
    · rw [scaleBack, hrun, Function.iterate_succ_apply, h.head_unscale]
      simp only [NumericState.mk.injEq, true_and, and_true, hdvd]
      refine ⟨by omega, ?_⟩
      split_ifs <;> first | rfl | simp_all
    · rwa [Nat.div_div_eq_div_mul, ← pow_succ'] at hwords

/-- The code counts more digits than the precision has. A count of zero wraps first. -/
def CountExceeds (precision reqprec n : ℕ) : Prop :=
  if precision = 0 then n % 10 = 0 ∧ ¬ 10 ^ (256 - reqprec) ∣ n
  else ¬ 10 ^ (precision - reqprec) ∣ n

instance (precision reqprec n : ℕ) : Decidable (CountExceeds precision reqprec n) :=
  inferInstanceAs (Decidable (ite _ _ _))

/-- The comparison the check makes, for every count. -/
theorem lt_minimumPrecision_mod_iff {tmp : List ℕ} (h : WordsHold tmp n) {precision : ℕ}
    (hprecision : precision < 256) (reqprec : ℕ) :
    reqprec < minimumPrecision (if precision = 0 then 256 else precision) tmp % 256 ↔
      CountExceeds precision reqprec n := by
  unfold CountExceeds
  split_ifs with hzero
  · by_cases hdigit : n % 10 = 0
    · have hstep : minimumPrecision 256 tmp =
          minimumPrecision 255 (Limbs.divideLowest 10 (sqlnumUnscaleLe tmp)) := by
        rw [minimumPrecision, h.head_unscale, if_pos hdigit]
      have hle := minimumPrecision_le 255 (Limbs.divideLowest 10 (sqlnumUnscaleLe tmp))
      rw [← hstep] at hle
      rw [Nat.mod_eq_of_lt (by omega), lt_minimumPrecision_iff h]
      exact (and_iff_right hdigit).symm
    · have hstep : minimumPrecision 256 tmp = 256 := by
        rw [minimumPrecision, h.head_unscale, if_neg hdigit]
      rw [hstep]
      exact iff_of_false (by omega) fun hcount => hdigit hcount.1
  · have hle := minimumPrecision_le precision tmp
    rw [Nat.mod_eq_of_lt (by omega), lt_minimumPrecision_iff h]

/-- The check of the precision, for every count. -/
theorem checkPrecision_eq (h : WordsHold num.buildUp n) (hprecision : num.precision < 256)
    (reqprec : ℕ) :
    num.checkPrecision reqprec =
      { num with
        overflow := if CountExceeds num.precision reqprec n then 1 else num.overflow } := by
  have hiff := lt_minimumPrecision_mod_iff h hprecision reqprec
  rw [checkPrecision]
  by_cases hexceeds : CountExceeds num.precision reqprec n
  · rw [if_pos (hiff.mpr hexceeds), if_pos hexceeds]
  · rw [if_neg (hiff.not.mpr hexceeds), if_neg hexceeds]

/-- How often the number is multiplied by ten. -/
def raised (scale reqscale : ℤ) : ℕ :=
  if 0 < reqscale ∧ scale < reqscale then (reqscale - scale).toNat else 0

/-- How many decimals are cut off. -/
def decimalsCut (scale reqscale : ℤ) : ℕ :=
  if reqscale < scale then (min (scale - reqscale) scale).toNat else 0

/-- How many whole digits are taken away behind that, for a negative scale. -/
def wholeCut (scale reqscale : ℤ) : ℕ :=
  if reqscale < 0 then (scale - decimalsCut scale reqscale - reqscale).toNat else 0

/-- The number that is left in the words. -/
def brought (n : ℕ) (scale reqscale : ℤ) : ℕ :=
  n * 10 ^ raised scale reqscale % 2 ^ 144 /
    10 ^ (decimalsCut scale reqscale + wholeCut scale reqscale)

/-- The count of the digits that is compared with the precision. -/
def counted (precision : ℕ) (scale reqscale : ℤ) : ℕ :=
  (precision + 255 * (decimalsCut scale reqscale + wholeCut scale reqscale)) % 256

/-- Scaling, in closed form. -/
theorem toScale_eq (h : WordsHold num.buildUp n) (hprecision : num.precision < 256)
    (reqscale : ℤ) :
    ∃ buildUp, num.toScale reqscale =
        { num with
          buildUp := buildUp
          overflow := if 10 ^ decimalsCut num.scale reqscale ∣ n then num.overflow else 2
          precision := (num.precision + 255 * decimalsCut num.scale reqscale) % 256
          scale := num.scale + raised num.scale reqscale - decimalsCut num.scale reqscale } ∧
      WordsHold buildUp
        (n * 10 ^ raised num.scale reqscale % 2 ^ 144 / 10 ^ decimalsCut num.scale reqscale) := by
  have hlt : n < 2 ^ 144 := h.lt_capacity
  by_cases hup : 0 < reqscale ∧ num.scale < reqscale
  · have hraised : raised num.scale reqscale = (reqscale - num.scale).toNat := if_pos hup
    have hcut : decimalsCut num.scale reqscale = 0 := if_neg (by omega)
    obtain ⟨buildUp, hrun, hwords⟩ := scaleUp_spec h (reqscale - num.scale).toNat
    refine ⟨buildUp, ?_, ?_⟩
    · rw [toScale, if_pos hup, hrun, hcut, hraised]
      simp [Nat.mod_eq_of_lt hprecision]
    · rw [hcut, hraised, pow_zero, Nat.div_one]
      exact hwords
  · have hraised : raised num.scale reqscale = 0 := if_neg hup
    by_cases hback : reqscale < num.scale
    · have hcut : decimalsCut num.scale reqscale =
          (min (num.scale - reqscale) num.scale).toNat := if_pos hback
      obtain ⟨buildUp, hrun, hwords⟩ :=
        scaleBack_spec h (min (num.scale - reqscale) num.scale).toNat
      refine ⟨buildUp, ?_, ?_⟩
      · rw [toScale, if_neg hup, if_pos hback, hrun, hcut, hraised,
          iterate_lessPrecision hprecision]
        simp
      · rwa [hcut, hraised, pow_zero, Nat.mul_one, Nat.mod_eq_of_lt hlt]
    · have hcut : decimalsCut num.scale reqscale = 0 := if_neg hback
      refine ⟨num.buildUp, ?_, ?_⟩
      · rw [toScale, if_neg hup, if_neg hback, hcut, hraised]
        simp [Nat.mod_eq_of_lt hprecision]
      · rwa [hcut, hraised, pow_zero, Nat.mul_one, Nat.mod_eq_of_lt hlt, Nat.div_one]

/-- A negative scale would take away whole digits that are not all zero. -/
def WholeLost (n : ℕ) (scale reqscale : ℤ) : Prop :=
  ¬ 10 ^ wholeCut scale reqscale ∣ n / 10 ^ decimalsCut scale reqscale

instance (n : ℕ) (scale reqscale : ℤ) : Decidable (WholeLost n scale reqscale) :=
  inferInstanceAs (Decidable (¬ _))

/-- Without a negative scale, nothing is taken away from the whole digits. -/
theorem wholeCut_of_nonneg {scale reqscale : ℤ} (h : ¬ reqscale < 0) :
    wholeCut scale reqscale = 0 := if_neg h

/-- A negative scale never raises the number. -/
theorem raised_of_neg {scale reqscale : ℤ} (h : reqscale < 0) : raised scale reqscale = 0 :=
  if_neg (by omega)

/-- What follows the loop, in closed form. -/
theorem bring_eq (h : WordsHold num.buildUp n) (hprecision : num.precision < 256)
    (hended : num.ended = false) (reqprec : ℕ) (reqscale : ℤ) :
    if WholeLost n num.scale reqscale then
      (num.bring reqprec reqscale).overflow = 1 ∧ (num.bring reqprec reqscale).ended = true
    else
      ∃ buildUp, num.bring reqprec reqscale =
          { num with
            buildUp := buildUp
            precision := counted num.precision num.scale reqscale
            scale := num.scale + raised num.scale reqscale - decimalsCut num.scale reqscale -
              wholeCut num.scale reqscale
            overflow :=
              if CountExceeds (counted num.precision num.scale reqscale) reqprec
                  (brought n num.scale reqscale) then 1
              else if 10 ^ decimalsCut num.scale reqscale ∣ n then num.overflow else 2 } ∧
        WordsHold buildUp (brought n num.scale reqscale) := by
  obtain ⟨buildUp, hscale, hwords⟩ := toScale_eq h hprecision reqscale
  generalize hmid : num.toScale reqscale = mid at hscale
  have hmidEnded : mid.ended = false := by rw [hscale]; exact hended
  have hmidPrecision : mid.precision =
      (num.precision + 255 * decimalsCut num.scale reqscale) % 256 := by rw [hscale]
  have hmidScale : mid.scale =
      num.scale + raised num.scale reqscale - decimalsCut num.scale reqscale := by rw [hscale]
  have hmidWords : WordsHold mid.buildUp
      (n * 10 ^ raised num.scale reqscale % 2 ^ 144 / 10 ^ decimalsCut num.scale reqscale) := by
    rw [hscale]
    exact hwords
  have hmidLt : mid.precision < 256 := by
    rw [hmidPrecision]
    exact Nat.mod_lt _ (by decide)
  by_cases hneg : reqscale < 0
  · have hraised := @raised_of_neg num.scale reqscale hneg
    have hlt : n < 2 ^ 144 := h.lt_capacity
    rw [hraised, pow_zero, Nat.mul_one, Nat.mod_eq_of_lt hlt] at hmidWords
    have htimes : (mid.scale - reqscale).toNat = wholeCut num.scale reqscale := by
      rw [hmidScale, hraised, wholeCut, if_pos hneg]
      simp
    have hbring : num.bring reqprec reqscale =
        if (mid.scaleBackWhole (wholeCut num.scale reqscale)).ended then
          mid.scaleBackWhole (wholeCut num.scale reqscale)
        else (mid.scaleBackWhole (wholeCut num.scale reqscale)).checkPrecision reqprec := by
      simp only [bring, hended, Bool.false_eq_true, if_false, hmid, if_pos hneg, htimes]
    by_cases hlost : WholeLost n num.scale reqscale
    · obtain ⟨hend, hoverflow⟩ := scaleBackWhole_not_dvd hmidWords hlost
      rw [if_pos hlost, hbring, if_pos hend]
      exact ⟨hoverflow, hend⟩
    · obtain ⟨buildUp', hrun, hwords'⟩ := scaleBackWhole_dvd hmidWords (not_not.mp hlost)
      rw [Nat.div_div_eq_div_mul, ← pow_add] at hwords'
      have hbrought : brought n num.scale reqscale = n /
          10 ^ (decimalsCut num.scale reqscale + wholeCut num.scale reqscale) := by
        rw [brought, hraised, pow_zero, Nat.mul_one, Nat.mod_eq_of_lt hlt]
      have hcounted : lessPrecision^[wholeCut num.scale reqscale] mid.precision =
          counted num.precision num.scale reqscale := by
        rw [iterate_lessPrecision hmidLt, hmidPrecision, counted]
        omega
      have hend : (mid.scaleBackWhole (wholeCut num.scale reqscale)).ended = false := by
        rw [hrun]
        exact hmidEnded
      have hcheck := @checkPrecision_eq (mid.scaleBackWhole (wholeCut num.scale reqscale)) _
        (by rw [hrun]; exact hwords')
        (by rw [hrun, hcounted]; exact Nat.mod_lt _ (by decide)) reqprec
      rw [if_neg hlost, hbring, hend, if_neg (by decide), hcheck, hrun, hcounted, hbrought]
      refine ⟨buildUp', ?_, hwords'⟩
      rw [hscale]
  · have hwhole := @wholeCut_of_nonneg num.scale reqscale hneg
    have hbring : num.bring reqprec reqscale = mid.checkPrecision reqprec := by
      simp only [bring, hended, Bool.false_eq_true, if_false, hmid, if_neg hneg, hmidEnded]
    have hkept : ¬ WholeLost n num.scale reqscale := by
      rw [WholeLost, hwhole, pow_zero, not_not]
      exact one_dvd _
    rw [if_neg hkept, hbring, checkPrecision_eq hmidWords hmidLt]
    refine ⟨mid.buildUp, ?_, ?_⟩
    · rw [hmidPrecision, counted, brought, hwhole, Nat.add_zero, hscale]
      simp
    · rwa [brought, hwhole, Nat.add_zero]

end NumericState

end MatrixOdbc.Driver
