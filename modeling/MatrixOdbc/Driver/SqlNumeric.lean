import MatrixOdbc.Driver.ColumnNumber
import MatrixOdbc.Foundations.Limbs

/-!
# Numbers for SQL_C_NUMERIC

`sqlnum_from_str` reads the text of a number into the sixteen bytes of an
`SQL_NUMERIC_STRUCT`. It works with eight words of 32 bits, each of which holds 16 bits of the
number, and brings the number to the scale that is asked for.
-/

namespace MatrixOdbc.Driver

/-- `SQL_NUMERIC_STRUCT`: the precision is an `SQLCHAR`, the scale an `SQLSCHAR`. -/
structure SqlNumeric where
  precision : ℕ
  scale : ℤ
  sign : Bool
  val : List UInt8
  deriving DecidableEq

/-- `sqlnum_scale`. -/
def sqlnumScale (ary : List ℕ) (s : ℕ) : List ℕ := (Limbs.scale (2 ^ 32) 10)^[s] ary

/-- `sqlnum_unscale_le`. -/
def sqlnumUnscaleLe (ary : List ℕ) : List ℕ := Limbs.unscale (2 ^ 16) (2 ^ 32) 10 ary

/-- `sqlnum_carry`. -/
def sqlnumCarry (ary : List ℕ) : List ℕ := Limbs.carry (2 ^ 16) (2 ^ 32) ary

/-- The variables of `sqlnum_from_str`; `ended` after the jump to `end`. -/
structure NumericState where
  buildUp : List ℕ
  precision : ℕ
  scale : ℤ
  /-- The decimal point has not been passed yet. -/
  decpt : Bool
  overflow : ℕ
  ended : Bool
  deriving DecidableEq

namespace NumericState

/-- `--sqlnum->precision`. -/
def lessPrecision (precision : ℕ) : ℕ := (precision + 255) % 256

/-- How much of the text is a segment, and whether the segment ends with the decimal point. -/
def segment (decpt : Bool) (rest : List UInt8) : ℕ × Bool :=
  let usedig := if 4 < rest.length then 4 else rest.length
  match if decpt then rest.findIdx? (· = 0x2e) else none with
  | some point => if point < usedig then (point + 1, true) else (usedig, false)
  | none => (usedig, false)

/-- A segment is added to what has been built up. -/
def addSegment (num : NumericState) (curdigs : List UInt8) : NumericState :=
  let curnum := (strtoull curdigs).toNat % 2 ^ 32
  let digits := if curdigs.getLast? = some 0x2e then curdigs.length - 1 else curdigs.length
  let buildUp := sqlnumCarry (Limbs.addLowest (2 ^ 32) curnum (sqlnumScale num.buildUp digits))
  { num with
    buildUp := buildUp
    overflow := if 2 ^ 16 ≤ buildUp.getLastD 0 then 1 else num.overflow }

/-- The loop over the text in groups of at most four digits. -/
@[grind =] def readDigits : ℕ → NumericState → List UInt8 → NumericState
  | 0, num, _ => num
  | _ + 1, num, [] => num
  | fuel + 1, num, rest@(_ :: _) =>
    let (usedig, point) := segment num.decpt rest
    let num :=
      if point then
        { num with
          scale := Int.bmod (rest.length - usedig : ℕ) 256
          precision := lessPrecision num.precision
          decpt := false }
      else num
    if num.overflow ≠ 0 then { num with ended := true }
    else readDigits fuel (num.addSegment (rest.take usedig)) (rest.drop usedig)

/-- Scaling up to the scale that is asked for. -/
@[grind =] def scaleUp : ℕ → NumericState → NumericState
  | 0, num => num
  | times + 1, num =>
    scaleUp times
      { num with buildUp := sqlnumCarry (sqlnumScale num.buildUp 1), scale := num.scale + 1 }

/-- Scaling back, with decimals cut off. -/
@[grind =] def scaleBack : ℕ → NumericState → NumericState
  | 0, num => num
  | times + 1, num =>
    let buildUp := sqlnumUnscaleLe num.buildUp
    scaleBack times
      { num with
        buildUp := Limbs.divideLowest 10 buildUp
        overflow := if buildUp.headD 0 % 10 ≠ 0 then 2 else num.overflow
        precision := lessPrecision num.precision
        scale := num.scale - 1 }

/-- Scaling back whole numbers while there are no significant digits. -/
@[grind =] def scaleBackWhole : ℕ → NumericState → NumericState
  | 0, num => num
  | times + 1, num =>
    let buildUp := sqlnumUnscaleLe num.buildUp
    if buildUp.headD 0 % 10 ≠ 0 then { num with overflow := 1, ended := true }
    else
      scaleBackWhole times
        { num with
          buildUp := Limbs.divideLowest 10 buildUp
          precision := lessPrecision num.precision
          scale := num.scale - 1 }

/-- The scale that is asked for. -/
def toScale (num : NumericState) (reqscale : ℤ) : NumericState :=
  if 0 < reqscale ∧ num.scale < reqscale then scaleUp (reqscale - num.scale).toNat num
  else if reqscale < num.scale then
    scaleBack (min (num.scale - reqscale) num.scale).toNat num
  else num

/-- Zeros at the end do not count for the precision. -/
@[grind =] def minimumPrecision : ℕ → List ℕ → ℕ
  | 0, _ => 0
  | temp + 1, tmp =>
    let tmp := sqlnumUnscaleLe tmp
    if tmp.headD 0 % 10 = 0 then minimumPrecision temp (Limbs.divideLowest 10 tmp) else temp + 1

/-- The check of the precision: a count of zero wraps before it is looked at. -/
def checkPrecision (num : NumericState) (reqprec : ℕ) : NumericState :=
  let temp := if num.precision = 0 then 256 else num.precision
  if reqprec < minimumPrecision temp num.buildUp % 256 then { num with overflow := 1 } else num

/-- The sixteen bytes of the result. -/
def compress (buildUp : List ℕ) : List UInt8 :=
  buildUp.flatMap fun limb => [UInt8.ofNat limb, UInt8.ofNat (limb / 256)]

/-- What follows the loop over the digits. -/
def bring (num : NumericState) (reqprec : ℕ) (reqscale : ℤ) : NumericState :=
  if num.ended then num
  else
    let num := num.toScale reqscale
    let num := if reqscale < 0 then num.scaleBackWhole (num.scale - reqscale).toNat else num
    if num.ended then num else num.checkPrecision reqprec

end NumericState

/-- `sqlnum_from_str`: the struct and the overflow, `1` for digits that are lost and `2` for
decimals that are. Behind a jump to `end` the bytes are the zeros they were set to. -/
def sqlnumFromStr (numstr : List UInt8) (reqprec : ℕ) (reqscale : ℤ) : SqlNumeric × ℕ :=
  let sign : Bool := numstr.head? ≠ some 0x2d
  let text := if sign then numstr else numstr.drop 1
  let start : NumericState :=
    { buildUp := List.replicate 8 0
      precision := text.length % 256
      scale := 0
      decpt := true
      overflow := 0
      ended := false }
  let num := (start.readDigits text.length text).bring reqprec reqscale
  ({ precision := num.precision
     scale := num.scale
     sign := sign
     val := if num.ended then List.replicate 16 0 else NumericState.compress num.buildUp },
    num.overflow)

/-- The eight words hold a number. -/
def WordsHold (ary : List ℕ) (n : ℕ) : Prop :=
  Limbs.Normal (2 ^ 16) (2 ^ 32) ary ∧ ary.length = 8 ∧ Nat.ofDigits (2 ^ 16) ary = n

namespace WordsHold

variable {ary : List ℕ} {n : ℕ}

theorem zero : WordsHold (List.replicate 8 0) 0 := by
  refine ⟨?_, rfl, ?_⟩
  · simp [Limbs.Normal, List.replicate]
  · simp [List.replicate, Nat.ofDigits_cons]

/-- Multiplying by a power of ten and adding a segment. -/
theorem scale_add (h : WordsHold ary n) {digits curnum : ℕ} (hdigits : digits ≤ 4)
    (hcurnum : curnum < 10 ^ digits) :
    WordsHold (sqlnumCarry (Limbs.addLowest (2 ^ 32) curnum (sqlnumScale ary digits)))
      ((n * 10 ^ digits + curnum) % 2 ^ 144) := by
  obtain ⟨hnormal, hlength, hvalue⟩ := h
  have hpow : 10 ^ digits ≤ 10 ^ 4 := Nat.pow_le_pow_right (by decide) hdigits
  have hword : 2 ^ 16 * 10 ^ digits ≤ 2 ^ 32 := by
    calc 2 ^ 16 * 10 ^ digits ≤ 2 ^ 16 * 10 ^ 4 := Nat.mul_le_mul_left _ hpow
      _ ≤ 2 ^ 32 := by decide
  have hscale : sqlnumScale ary digits = Limbs.scale (2 ^ 32) (10 ^ digits) ary :=
    Limbs.iterate_scale (hnormal.lt_word (by decide)) digits
  obtain ⟨hresult, hnumber⟩ :=
    Limbs.carry_addLowest_scale hword (by decide) hcurnum hnormal
  have hcapacity : Limbs.capacity (2 ^ 16) (2 ^ 32) ary = 2 ^ 144 := by
    rw [Limbs.capacity, hlength]
    norm_num
  rw [hvalue, hcapacity] at hnumber
  rw [sqlnumCarry, hscale]
  refine ⟨hresult, ?_, hnumber⟩
  simp [hlength]

/-- Multiplying by ten. -/
theorem scale_one (h : WordsHold ary n) :
    WordsHold (sqlnumCarry (sqlnumScale ary 1)) (n * 10 % 2 ^ 144) := by
  have hstep := @scale_add ary n h 1 0 (by decide) (by decide)
  rwa [sqlnumScale, Function.iterate_one, Limbs.addLowest_zero_scale] at hstep

/-- The last digit. -/
theorem head_unscale (h : WordsHold ary n) : (sqlnumUnscaleLe ary).headD 0 % 10 = n % 10 := by
  obtain ⟨hnormal, -, rfl⟩ := h
  exact Limbs.head_unscale (by decide) (by decide) hnormal

/-- Dividing by ten. -/
theorem unscale (h : WordsHold ary n) :
    WordsHold (Limbs.divideLowest 10 (sqlnumUnscaleLe ary)) (n / 10) := by
  obtain ⟨hnormal, hlength, rfl⟩ := h
  obtain ⟨hresult, hnumber⟩ := @Limbs.divideLowest_unscale (2 ^ 16) (2 ^ 32) 10 ary
    (by decide) (by decide) hnormal
  refine ⟨hresult, ?_, hnumber⟩
  simp [sqlnumUnscaleLe, hlength]

/-- The highest word has more than 16 bits when the number has more than 128. -/
theorem getLast_lt (h : WordsHold ary n) (hn : n < 2 ^ 128) : ary.getLastD 0 < 2 ^ 16 := by
  obtain ⟨hnormal, hlength, rfl⟩ := h
  rw [hnormal.getLast_lt_iff, hlength, ← pow_mul]
  exact hn

/-- The bytes have the low 128 bits of the number. -/
theorem compress (h : WordsHold ary n) :
    Nat.ofDigits 256 ((NumericState.compress ary).map UInt8.toNat) = n % 2 ^ 128 := by
  obtain ⟨hnormal, hlength, rfl⟩ := h
  have hbytes : ∀ ary : List ℕ,
      Nat.ofDigits 256 ((NumericState.compress ary).map UInt8.toNat) =
        Nat.ofDigits (2 ^ 16) (ary.map (· % 2 ^ 16)) := by
    intro ary
    induction ary with
    | nil => rfl
    | cons limb ary ih =>
      rw [NumericState.compress, List.flatMap_cons, ← NumericState.compress, List.cons_append,
        List.cons_append, List.nil_append, List.map_cons, List.map_cons, Nat.ofDigits_cons,
        Nat.ofDigits_cons, ih, List.map_cons, Nat.ofDigits_cons, UInt8.toNat_ofNat',
        UInt8.toNat_ofNat']
      omega
  rw [hbytes, hnormal.ofDigits_map_mod, hlength, ← pow_mul]

end WordsHold

namespace NumericState

variable {num : NumericState} {n : ℕ}

/-- A segment of digits is added. -/
theorem addSegment_digits (h : WordsHold num.buildUp n) {curdigs : List UInt8}
    (hdigits : ∀ c ∈ curdigs, Decimal.IsDigit c) (hlength : curdigs.length ≤ 4)
    (hfits : n * 10 ^ curdigs.length + Decimal.value curdigs < 2 ^ 128) :
    ∃ buildUp, num.addSegment curdigs = { num with buildUp := buildUp } ∧
      WordsHold buildUp (n * 10 ^ curdigs.length + Decimal.value curdigs) := by
  have hvalue := Decimal.value_lt hdigits
  have hpow : 10 ^ curdigs.length ≤ 10 ^ 4 := Nat.pow_le_pow_right (by decide) hlength
  have hpoint : curdigs.getLast? ≠ some 0x2e := by
    intro hlast
    exact absurd (hdigits _ (List.mem_of_getLast? hlast)).1 (by decide)
  have hcurnum : (strtoull curdigs).toNat % 2 ^ 32 = Decimal.value curdigs := by
    rw [strtoull_digits hdigits (by omega), BitVec.toNat_ofNat, Nat.mod_eq_of_lt (by omega),
      Nat.mod_eq_of_lt (by omega)]
  have hstep := h.scale_add hlength hvalue
  rw [Nat.mod_eq_of_lt (hfits.trans (by norm_num))] at hstep
  refine ⟨_, ?_, hstep⟩
  simp only [addSegment, hcurnum, if_neg hpoint]
  rw [if_neg (Nat.not_le.mpr (hstep.getLast_lt hfits))]

/-- The loop reads digits to their end. -/
theorem readDigits_digits {fuel : ℕ} {rest : List UInt8} (hfuel : rest.length ≤ fuel)
    (h : WordsHold num.buildUp n) (hdigits : ∀ c ∈ rest, Decimal.IsDigit c)
    (hoverflow : num.overflow = 0)
    (hfits : n * 10 ^ rest.length + Decimal.value rest < 2 ^ 128) :
    ∃ buildUp, readDigits fuel num rest = { num with buildUp := buildUp } ∧
      WordsHold buildUp (n * 10 ^ rest.length + Decimal.value rest) := by
  induction fuel generalizing num n rest with
  | zero =>
    obtain rfl := List.length_eq_zero_iff.mp (Nat.le_zero.mp hfuel)
    exact ⟨num.buildUp, rfl, by simpa [Decimal.value] using h⟩
  | succ fuel ih =>
    cases hrest : rest with
    | nil =>
      subst hrest
      exact ⟨num.buildUp, rfl, by simpa [Decimal.value] using h⟩
    | cons first more =>
      rw [← hrest]
      obtain ⟨usedig, husedig⟩ : ∃ usedig,
          usedig = if 4 < rest.length then 4 else rest.length := ⟨_, rfl⟩
      have hpos : 0 < rest.length := by rw [hrest]; exact Nat.succ_pos _
      have hused : 0 < usedig ∧ usedig ≤ 4 ∧ usedig ≤ rest.length := by
        rw [husedig]
        split_ifs <;> omega
      have hnone : rest.findIdx? (· = 0x2e) = none := by
        rw [List.findIdx?_eq_none_iff]
        intro c hc
        have hlow := (hdigits c hc).1
        simp only [decide_eq_false_iff_not]
        rintro rfl
        exact absurd hlow (by decide)
      have hsegment : segment num.decpt rest = (usedig, false) := by
        rw [segment, hnone, ite_self, husedig]
      have htake : (rest.take usedig).length = usedig := by
        rw [List.length_take]
        omega
      have hvalue := Decimal.value_append (rest.take usedig) (rest.drop usedig)
      rw [List.take_append_drop, List.length_drop] at hvalue
      have hlast : n * 10 ^ rest.length + Decimal.value rest =
          (n * 10 ^ usedig + Decimal.value (rest.take usedig)) * 10 ^ (rest.length - usedig) +
            Decimal.value (rest.drop usedig) := by
        rw [hvalue, Nat.add_mul, Nat.mul_assoc, ← pow_add, Nat.add_sub_cancel' hused.2.2]
        ring
      have hpart : n * 10 ^ usedig + Decimal.value (rest.take usedig) ≤
          n * 10 ^ rest.length + Decimal.value rest := by
        rw [hlast]
        exact (Nat.le_mul_of_pos_right _ (Nat.pow_pos (by decide))).trans (Nat.le_add_right _ _)
      obtain ⟨buildUp, hstep, hwords⟩ := addSegment_digits h
        (fun c hc => hdigits c (List.mem_of_mem_take hc)) (htake.le.trans hused.2.1)
        (by rw [htake]; exact hpart.trans_lt hfits)
      rw [htake] at hwords
      obtain ⟨buildUp', hrun, hwords'⟩ := @ih { num with buildUp := buildUp } _
        (rest.drop usedig) (by rw [List.length_drop]; omega) hwords
        (fun c hc => hdigits c (List.mem_of_mem_drop hc)) hoverflow
        (by rw [List.length_drop, ← hlast]; exact hfits)
      rw [List.length_drop, ← hlast] at hwords'
      refine ⟨buildUp', ?_, hwords'⟩
      have hread : readDigits (fuel + 1) num rest =
          readDigits fuel (num.addSegment (rest.take usedig)) (rest.drop usedig) := by
        rw [hrest, readDigits, ← hrest, hsegment]
        simp [hoverflow]
      rw [hread, hstep, hrun]

/-- Scaling up multiplies by a power of ten. -/
theorem scaleUp_spec (h : WordsHold num.buildUp n) (times : ℕ) :
    ∃ buildUp, scaleUp times num =
        { num with buildUp := buildUp, scale := num.scale + times } ∧
      WordsHold buildUp (n * 10 ^ times % 2 ^ 144) := by
  induction times generalizing num n with
  | zero =>
    have hlt : n < 2 ^ 144 := by
      obtain ⟨hnormal, hlength, rfl⟩ := h
      have hcapacity := hnormal.ofDigits_lt
      rw [Limbs.capacity, hlength] at hcapacity
      exact hcapacity.trans_le (by norm_num)
    refine ⟨num.buildUp, by simp [scaleUp], ?_⟩
    rwa [pow_zero, Nat.mul_one, Nat.mod_eq_of_lt hlt]
  | succ times ih =>
    obtain ⟨buildUp, hrun, hwords⟩ := @ih
      { num with buildUp := sqlnumCarry (sqlnumScale num.buildUp 1), scale := num.scale + 1 } _
      h.scale_one
    rw [Nat.mod_mul_mod, Nat.mul_assoc, ← pow_succ'] at hwords
    refine ⟨buildUp, ?_, hwords⟩
    rw [scaleUp, hrun]
    simp only [NumericState.mk.injEq, true_and, and_true]
    omega

/-- Scaling back whole numbers divides by a power of ten. -/
theorem scaleBackWhole_dvd (h : WordsHold num.buildUp n) {times : ℕ} (hdvd : 10 ^ times ∣ n) :
    ∃ buildUp, scaleBackWhole times num =
        { num with
          buildUp := buildUp
          precision := lessPrecision^[times] num.precision
          scale := num.scale - times } ∧
      WordsHold buildUp (n / 10 ^ times) := by
  induction times generalizing num n with
  | zero =>
    refine ⟨num.buildUp, by simp [scaleBackWhole], ?_⟩
    rwa [pow_zero, Nat.div_one]
  | succ times ih =>
    obtain ⟨k, rfl⟩ := hdvd
    have hten : 10 ^ (times + 1) * k / 10 = 10 ^ times * k := by
      rw [pow_succ, Nat.mul_assoc, Nat.mul_comm, Nat.mul_assoc, Nat.mul_div_cancel_left _ (by decide),
        Nat.mul_comm]
    have hzero : ¬ (sqlnumUnscaleLe num.buildUp).headD 0 % 10 ≠ 0 := by
      rw [h.head_unscale, pow_succ, Nat.mul_assoc, Nat.mul_comm, Nat.mul_assoc, not_not]
      exact Nat.mul_mod_right _ _
    have hdivided := h.unscale
    rw [hten] at hdivided
    obtain ⟨buildUp, hrun, hwords⟩ := @ih
      { num with
        buildUp := Limbs.divideLowest 10 (sqlnumUnscaleLe num.buildUp)
        precision := lessPrecision num.precision
        scale := num.scale - 1 } _ hdivided (Nat.dvd_mul_right _ _)
    refine ⟨buildUp, ?_, ?_⟩
    · rw [scaleBackWhole, if_neg hzero, hrun, Function.iterate_succ_apply]
      simp only [NumericState.mk.injEq, true_and, and_true]
      omega
    · rwa [Nat.mul_div_cancel_left _ (Nat.pow_pos (by decide))] at hwords ⊢

/-- A digit that is not zero is not scaled away. -/
theorem scaleBackWhole_not_dvd (h : WordsHold num.buildUp n) {times : ℕ}
    (hdvd : ¬ 10 ^ times ∣ n) :
    (scaleBackWhole times num).ended = true ∧ (scaleBackWhole times num).overflow = 1 := by
  induction times generalizing num n with
  | zero => exact absurd (one_dvd n) hdvd
  | succ times ih =>
    by_cases hzero : (sqlnumUnscaleLe num.buildUp).headD 0 % 10 ≠ 0
    · rw [scaleBackWhole, if_pos hzero]
      exact ⟨rfl, rfl⟩
    · rw [scaleBackWhole, if_neg hzero]
      apply ih h.unscale
      intro hrest
      apply hdvd
      rw [h.head_unscale, not_not] at hzero
      obtain ⟨k, hk⟩ := hrest
      refine ⟨k, ?_⟩
      calc n = 10 * (n / 10) := (Nat.mul_div_cancel' (Nat.dvd_of_mod_eq_zero hzero)).symm
        _ = 10 ^ (times + 1) * k := by rw [hk, pow_succ]; ring

/-- The digits without the zeros at the end are more than a precision exactly when too few
zeros are there. -/
theorem lt_minimumPrecision_iff {tmp : List ℕ} (h : WordsHold tmp n) (temp reqprec : ℕ) :
    reqprec < minimumPrecision temp tmp ↔ ¬ 10 ^ (temp - reqprec) ∣ n := by
  induction temp generalizing tmp n with
  | zero => simp [minimumPrecision]
  | succ temp ih =>
    rw [minimumPrecision, h.head_unscale]
    by_cases hzero : n % 10 = 0
    · rw [if_pos hzero, ih h.unscale, not_iff_not]
      obtain ⟨k, rfl⟩ := Nat.dvd_of_mod_eq_zero hzero
      rw [Nat.mul_div_cancel_left _ (by decide)]
      by_cases hle : reqprec ≤ temp
      · rw [Nat.succ_sub hle, pow_succ', Nat.mul_dvd_mul_iff_left (by decide)]
      · rw [Nat.sub_eq_zero_of_le (by omega), Nat.sub_eq_zero_of_le (by omega)]
        simp
    · rw [if_neg hzero]
      by_cases hle : reqprec ≤ temp
      · refine iff_of_true (by omega) fun hdvd => hzero ?_
        rw [Nat.succ_sub hle, pow_succ'] at hdvd
        exact Nat.mod_eq_zero_of_dvd (dvd_of_mul_right_dvd hdvd)
      · apply iff_of_false (by omega)
        rw [Nat.sub_eq_zero_of_le (by omega)]
        simp

theorem minimumPrecision_le (temp : ℕ) (tmp : List ℕ) : minimumPrecision temp tmp ≤ temp := by
  induction temp generalizing tmp with
  | zero => exact le_refl _
  | succ temp ih =>
    rw [minimumPrecision]
    split_ifs
    · exact (ih _).trans (Nat.le_succ temp)
    · exact le_refl _

/-- The check of the precision. -/
theorem checkPrecision_spec (h : WordsHold num.buildUp n) {reqprec : ℕ}
    (hprecision : n = 0 ∨ 0 < num.precision ∧ num.precision < 256) :
    num.checkPrecision reqprec =
      { num with
        overflow := if 10 ^ (num.precision - reqprec) ∣ n then num.overflow else 1 } := by
  rw [checkPrecision]
  obtain rfl | ⟨hpos, hlt⟩ := hprecision
  · have hzero : ∀ temp, minimumPrecision temp num.buildUp = 0 := by
      intro temp
      have hno := (lt_minimumPrecision_iff h temp 0).not.mpr (not_not.mpr (dvd_zero _))
      omega
    rw [hzero, if_neg (by omega), if_pos (dvd_zero _)]
  · have hle := minimumPrecision_le num.precision num.buildUp
    rw [if_neg hpos.ne', Nat.mod_eq_of_lt (by omega)]
    by_cases hdvd : 10 ^ (num.precision - reqprec) ∣ n
    · rw [if_neg ((lt_minimumPrecision_iff h _ _).not.mpr (not_not.mpr hdvd)), if_pos hdvd]
    · rw [if_pos ((lt_minimumPrecision_iff h _ _).mpr hdvd), if_neg hdvd]

/-- Counting the precision down. -/
theorem lessPrecision_iterate {precision times : ℕ} (hprecision : precision < 256)
    (htimes : times ≤ precision) : lessPrecision^[times] precision = precision - times := by
  induction times with
  | zero => rfl
  | succ times ih =>
    rw [Function.iterate_succ_apply', ih (by omega), lessPrecision]
    omega

end NumericState

/-- The number in the bytes of the struct. -/
def SqlNumeric.number (num : SqlNumeric) : ℕ := Nat.ofDigits 256 (num.val.map UInt8.toNat)

/-- Digits are lost when a whole number is brought to a precision and a scale. The product has
room for 144 bits. -/
def LosesDigits (n reqprec : ℕ) (reqscale : ℤ) : Prop :=
  if 0 ≤ reqscale then
    ¬ 10 ^ ((Decimal.text n).length - reqprec) ∣ n * 10 ^ reqscale.toNat % 2 ^ 144
  else
    ¬ (10 ^ reqscale.natAbs ∣ n ∧
      10 ^ ((Decimal.text n).length - reqscale.natAbs - reqprec) ∣ n / 10 ^ reqscale.natAbs)

instance (n reqprec : ℕ) (reqscale : ℤ) : Decidable (LosesDigits n reqprec reqscale) :=
  inferInstanceAs (Decidable (ite _ _ _))

theorem losesDigits_of_nonneg {n reqprec : ℕ} {reqscale : ℤ} (h : ¬ reqscale < 0) :
    LosesDigits n reqprec reqscale ↔
      ¬ 10 ^ ((Decimal.text n).length - reqprec) ∣ n * 10 ^ reqscale.toNat % 2 ^ 144 := by
  unfold LosesDigits
  rw [if_pos (not_lt.mp h)]

theorem losesDigits_of_neg {n reqprec : ℕ} {reqscale : ℤ} (h : reqscale < 0) :
    LosesDigits n reqprec reqscale ↔
      ¬ (10 ^ reqscale.natAbs ∣ n ∧
        10 ^ ((Decimal.text n).length - reqscale.natAbs - reqprec) ∣
          n / 10 ^ reqscale.natAbs) := by
  unfold LosesDigits
  rw [if_neg (not_le.mpr h)]

/-- A whole number at a scale, as far as the struct has room for it. -/
def scaledNumber (n : ℕ) (reqscale : ℤ) : ℕ :=
  if 0 ≤ reqscale then n * 10 ^ reqscale.toNat % 2 ^ 128 else n / 10 ^ reqscale.natAbs

/-- Bringing a whole number to a scale and a precision. -/
theorem NumericState.bring_spec {num : NumericState} {n : ℕ} (h : WordsHold num.buildUp n)
    (hn : n < 2 ^ 64) (hprecision : num.precision = (Decimal.text n).length)
    (hscale : num.scale = 0) (hoverflow : num.overflow = 0) (hended : num.ended = false)
    (reqprec : ℕ) (reqscale : ℤ) :
    (num.bring reqprec reqscale).overflow = (if LosesDigits n reqprec reqscale then 1 else 0) ∧
      (¬ LosesDigits n reqprec reqscale →
        (num.bring reqprec reqscale).ended = false ∧ (num.bring reqprec reqscale).scale = reqscale ∧
          ∃ m, WordsHold (num.bring reqprec reqscale).buildUp m ∧
            m % 2 ^ 128 = scaledNumber n reqscale) := by
  have hlength : (Decimal.text n).length ≤ 20 :=
    Decimal.length_text_le (by decide) (hn.trans (by norm_num))
  have hpos : 0 < (Decimal.text n).length := List.length_pos_iff.mpr (Decimal.text_ne_nil n)
  by_cases hneg : reqscale < 0
  · -- The number is scaled back.
    have hsame : num.toScale reqscale = num := by
      rw [toScale, if_neg (by omega), hscale, if_pos hneg, min_eq_right (by omega)]
      rfl
    have htimes : (num.scale - reqscale).toNat = reqscale.natAbs := by omega
    have hbring : num.bring reqprec reqscale =
        if (scaleBackWhole reqscale.natAbs num).ended then scaleBackWhole reqscale.natAbs num
        else (scaleBackWhole reqscale.natAbs num).checkPrecision reqprec := by
      simp only [bring, hended, hsame, if_pos hneg, htimes, Bool.false_eq_true, if_false]
    have hloses := @losesDigits_of_neg n reqprec reqscale hneg
    rw [hbring, scaledNumber, if_neg (not_le.mpr hneg)]
    by_cases hdvd : 10 ^ reqscale.natAbs ∣ n
    · obtain ⟨buildUp, hrun, hwords⟩ := scaleBackWhole_dvd h hdvd
      have hcount : n / 10 ^ reqscale.natAbs = 0 ∨
          lessPrecision^[reqscale.natAbs] num.precision =
            (Decimal.text n).length - reqscale.natAbs ∧
          reqscale.natAbs < (Decimal.text n).length := by
        by_cases hzero : n = 0
        · left
          rw [hzero, Nat.zero_div]
        · right
          have hless : reqscale.natAbs < (Decimal.text n).length := by
            by_contra hge
            have hlt := (Decimal.length_text_le_iff (n := n) hpos).mp (le_refl _)
            have hle := Nat.le_of_dvd (Nat.pos_of_ne_zero hzero) hdvd
            have hpow := Nat.pow_le_pow_right (n := 10) (by decide) (Nat.not_lt.mp hge)
            omega
          exact ⟨by rw [hprecision, lessPrecision_iterate (by omega) hless.le], hless⟩
      have hcheck := @checkPrecision_spec
        { num with
          buildUp := buildUp
          precision := lessPrecision^[reqscale.natAbs] num.precision
          scale := num.scale - reqscale.natAbs } _ hwords reqprec (by
            obtain hzero | ⟨hcount, hless⟩ := hcount
            · exact Or.inl hzero
            · apply Or.inr
              dsimp only
              omega)
      have hcondition : (10 ^ (lessPrecision^[reqscale.natAbs] num.precision - reqprec) ∣
            n / 10 ^ reqscale.natAbs) ↔
          10 ^ ((Decimal.text n).length - reqscale.natAbs - reqprec) ∣ n / 10 ^ reqscale.natAbs := by
        obtain hzero | ⟨hcount, -⟩ := hcount
        · rw [hzero]
          exact iff_of_true (dvd_zero _) (dvd_zero _)
        · rw [hcount]
      rw [hrun, hcheck]
      dsimp only
      rw [hended, if_neg Bool.false_ne_true, hoverflow, hscale]
      refine ⟨?_, fun _ => ⟨rfl, by dsimp only; omega, _, hwords, ?_⟩⟩
      · by_cases hzeros : 10 ^ ((Decimal.text n).length - reqscale.natAbs - reqprec) ∣
            n / 10 ^ reqscale.natAbs
        · rw [if_pos (hcondition.mpr hzeros),
            if_neg (hloses.not.mpr (not_not.mpr ⟨hdvd, hzeros⟩))]
        · rw [if_neg (hcondition.not.mpr hzeros), if_pos (hloses.mpr fun hboth => hzeros hboth.2)]
      · apply Nat.mod_eq_of_lt
        exact (Nat.div_le_self _ _).trans_lt (hn.trans (by norm_num))
    · obtain ⟨hend, hlost⟩ := scaleBackWhole_not_dvd h hdvd
      have hlose := hloses.mpr fun hboth => hdvd hboth.1
      rw [hend, if_pos rfl, hlost, if_pos hlose]
      exact ⟨rfl, fun hkept => absurd hlose hkept⟩
  · -- The number is scaled up.
    obtain ⟨buildUp, hrun, hwords⟩ := scaleUp_spec h reqscale.toNat
    have hsame : num.toScale reqscale =
        { num with buildUp := buildUp, scale := num.scale + reqscale.toNat } := by
      rw [toScale]
      by_cases hup : 0 < reqscale
      · rw [if_pos ⟨hup, by omega⟩, show (reqscale - num.scale).toNat = reqscale.toNat by omega, hrun]
      · have hzero : reqscale = 0 := by omega
        rw [if_neg fun hboth => hup hboth.1, if_neg (by omega), ← hrun, hzero]
        rfl
    have hcheck := @checkPrecision_spec
      { num with buildUp := buildUp, scale := num.scale + reqscale.toNat } _ hwords reqprec
      (Or.inr (by dsimp only; omega))
    have hbring : num.bring reqprec reqscale = (num.toScale reqscale).checkPrecision reqprec := by
      simp only [bring, hended, if_neg hneg, Bool.false_eq_true, if_false]
      rw [hsame]
      simp [hended]
    have hloses := @losesDigits_of_nonneg n reqprec reqscale hneg
    rw [hbring, hsame, hcheck, scaledNumber, if_pos (not_lt.mp hneg)]
    dsimp only
    rw [hended, hprecision, hoverflow, hscale]
    refine ⟨?_, fun _ => ⟨rfl, by omega, _, hwords, ?_⟩⟩
    · by_cases hzeros : 10 ^ ((Decimal.text n).length - reqprec) ∣
          n * 10 ^ reqscale.toNat % 2 ^ 144
      · rw [if_pos hzeros, if_neg (hloses.not.mpr (not_not.mpr hzeros))]
      · rw [if_neg hzeros, if_pos (hloses.mpr hzeros)]
    · exact Nat.mod_mod_of_dvd _ (pow_dvd_pow 2 (by decide))

/-- What a whole number becomes. -/
theorem sqlnumFromStr_text {n : ℕ} (hn : n < 2 ^ 64) (negative : Bool) (reqprec : ℕ)
    (reqscale : ℤ) :
    ∃ num, sqlnumFromStr (if negative then 0x2d :: Decimal.text n else Decimal.text n)
        reqprec reqscale = (num, if LosesDigits n reqprec reqscale then 1 else 0) ∧
      (¬ LosesDigits n reqprec reqscale →
        num.sign = !negative ∧ num.scale = reqscale ∧
          num.number = scaledNumber n reqscale) := by
  have hdigits : ∀ c ∈ Decimal.text n, Decimal.IsDigit c := fun c => Decimal.isDigit_text
  have hlength : (Decimal.text n).length ≤ 20 :=
    Decimal.length_text_le (by decide) (hn.trans (by norm_num))
  have hsign : decide ((if negative = true then 0x2d :: Decimal.text n
      else Decimal.text n).head? ≠ some 0x2d) = !negative := by
    cases negative with
    | false => simpa using (head_digits hdigits).1
    | true => simp
  have htext : (if (!negative) = true then
        (if negative = true then 0x2d :: Decimal.text n else Decimal.text n)
      else (if negative = true then 0x2d :: Decimal.text n else Decimal.text n).drop 1) =
        Decimal.text n := by
    cases negative with
    | false => rfl
    | true => rfl
  have hvalue := Decimal.value_text n
  obtain ⟨buildUp, hread, hwords⟩ := @NumericState.readDigits_digits
    { buildUp := List.replicate 8 0
      precision := (Decimal.text n).length % 256
      scale := 0
      decpt := true
      overflow := 0
      ended := false } 0 _ (Decimal.text n) (le_refl _) WordsHold.zero hdigits rfl (by
        rw [hvalue, Nat.zero_mul, Nat.zero_add]
        exact hn.trans (by norm_num))
  rw [hvalue, Nat.zero_mul, Nat.zero_add] at hwords
  obtain ⟨hoverflow, hkept⟩ := @NumericState.bring_spec
    { buildUp := buildUp
      precision := (Decimal.text n).length % 256
      scale := 0
      decpt := true
      overflow := 0
      ended := false } n hwords hn (Nat.mod_eq_of_lt (by omega)) rfl rfl rfl reqprec reqscale
  simp only [sqlnumFromStr, hsign, htext, hread]
  refine ⟨_, by rw [hoverflow], fun hloses => ?_⟩
  obtain ⟨hend, hscale, m, hm, hnumber⟩ := hkept hloses
  refine ⟨rfl, hscale, ?_⟩
  rw [SqlNumeric.number, if_neg (by rw [hend]; exact Bool.false_ne_true), hm.compress, hnumber]

end MatrixOdbc.Driver
