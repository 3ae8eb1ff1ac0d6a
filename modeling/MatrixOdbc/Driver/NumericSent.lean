import MatrixOdbc.Driver.NumericLayout

/-!
# Numbers that are sent as text

`sqlnum_to_str` has to write the decimal text of a number at a scale, cut off to a precision,
into the buffer of its caller. The search for the first word that is not empty leaves the array
for every number that has less than 39 digits. For longer ones the conditions are those of the
layout.
-/

namespace MatrixOdbc.Driver

open CText

namespace SqlNumericStruct

/-- How many digits the number has more than the requested precision. -/
def excess (sqlnum : SqlNumericStruct) (reqprec : ℕ) : ℕ :=
  (Decimal.text sqlnum.number).length - reqprec

/-- The decimal text of the number at the requested scale, with the digits that are too many cut
off. -/
structure IsText (sqlnum : SqlNumericStruct) (reqprec : ℕ) (reqscale : ℤ) (t : DecimalText) :
    Prop where
  sign : t.sign = if sqlnum.sign = 0 then .minus else .absent
  nonempty : t.whole ++ t.fraction.getD [] ≠ []
  digits : t.digits =
    sqlnum.number / 10 ^ sqlnum.excess reqprec * 10 ^ (-reqscale).toNat
  decimals : t.decimals = (reqscale - sqlnum.excess reqprec).toNat

end SqlNumericStruct

namespace SqlnumText

/-- The function stays inside the array and the buffer, and leaves the text unless it reports
that digits of the whole number are lost. -/
structure Exact (sqlnum : SqlNumericStruct) (size : ℕ) (reqprec : ℕ) (reqscale : ℤ)
    (out : SqlnumText) : Prop where
  inArray : out.outside = false
  inBuffer : ∀ w ∈ out.text.writes, 0 ≤ w.1 ∧ w.1 + w.2 ≤ size
  text : out.trunc ≠ .whole → ∃ numbegin t, out.numbegin = some numbegin ∧
    IsString out.text.mem numbegin t.text ∧ sqlnum.IsText reqprec reqscale t
  truncation : out.trunc ≠ .whole → (out.trunc = .frac ↔ 0 < sqlnum.excess reqprec)

end SqlnumText

namespace SqlNumericStruct

/-- A sign in front of a text. -/
def signed (sqlnum : SqlNumericStruct) (s : List UInt8) : List UInt8 :=
  if sqlnum.sign = 0 then 0x2d :: s else s

/-- The sign is no more than the first byte. -/
theorem signed_inj (sqlnum : SqlNumericStruct) {s s' : List UInt8} :
    sqlnum.signed s = sqlnum.signed s' ↔ s = s' := by
  unfold signed
  split_ifs
  · exact List.cons_inj_right _
  · rfl

variable {sqlnum : SqlNumericStruct} {reqprec : ℕ} {reqscale : ℤ} {t : DecimalText}

/-- The text behind its sign. -/
theorem IsText.text_eq (h : sqlnum.IsText reqprec reqscale t) : t.text = sqlnum.signed t.body := by
  have hsign := h.sign
  unfold DecimalText.text signed
  by_cases hminus : sqlnum.sign = 0
  · rw [if_pos hminus] at hsign
    rw [if_pos hsign, if_pos hminus]
  · rw [if_neg hminus] at hsign
    rw [if_neg (by rw [hsign]; decide), if_neg hminus]

/-- There is no plus. -/
theorem IsText.ne_plus (h : sqlnum.IsText reqprec reqscale t) : t.sign ≠ .plus := by
  rw [h.sign]
  split_ifs
  · decide
  · decide

end SqlNumericStruct

/-- The point tells how many decimals there are. -/
theorem DecimalText.decimals_of_body {t : DecimalText} (hsign : t.sign ≠ .plus)
    {front back : List UInt8} (hbody : t.body = front ++ 0x2e :: back) :
    t.decimals = back.length := by
  have hwhole : 0x2e ∉ t.whole := fun h => absurd (t.whole_digits _ h).1 (by decide)
  have hdigits := t.fraction_digits
  rw [body, if_neg hsign, List.nil_append] at hbody
  cases hfraction : t.fraction with
  | none =>
    rw [hfraction, List.append_nil] at hbody
    exact absurd (hbody ▸ by simp) hwhole
  | some fraction =>
    rw [hfraction] at hbody hdigits
    have hpoint : 0x2e ∉ fraction := fun h => absurd (hdigits _ h).1 (by decide)
    obtain ⟨-, -, hback⟩ := (List.append_cons_inj_of_notMem hwhole hpoint).mp hbody
    rw [decimals, hfraction, Option.getD_some, hback]

/-- The text of digits with a fraction or without. -/
def digitText (sqlnum : SqlNumericStruct) (whole : List UInt8) (fraction : Option (List UInt8))
    (hwhole : ∀ c ∈ whole, Decimal.IsDigit c)
    (hfraction : ∀ c ∈ fraction.getD [], Decimal.IsDigit c) : DecimalText where
  sign := if sqlnum.sign = 0 then .minus else .absent
  whole := whole
  fraction := fraction
  whole_digits := hwhole
  fraction_digits := hfraction

/-- It has no plus in front. -/
theorem digitText_body {sqlnum : SqlNumericStruct} {whole : List UInt8}
    {fraction : Option (List UInt8)} {hwhole : ∀ c ∈ whole, Decimal.IsDigit c}
    {hfraction : ∀ c ∈ fraction.getD [], Decimal.IsDigit c} :
    (digitText sqlnum whole fraction hwhole hfraction).body =
      whole ++ fraction.elim [] (0x2e :: ·) := by
  have hsign : (digitText sqlnum whole fraction hwhole hfraction).sign ≠ .plus := by
    unfold digitText
    dsimp only
    split_ifs
    · decide
    · decide
  rw [DecimalText.body, if_neg hsign, List.nil_append]
  cases fraction with
  | none => rfl
  | some fraction => rfl

namespace SqlnumText

variable {sqlnum : SqlNumericStruct} {size reqprec : ℕ} {reqscale : ℤ} {mem : ℤ → UInt8}
  {laid : ℕ} {text : NumText} {s : List UInt8}

/-- The text with its sign. -/
def withSign (sqlnum : SqlNumericStruct) (text : NumText) : NumText :=
  if sqlnum.sign = 0 then text.prepend 0x2d else text

/-- The string of a signed text. -/
theorem isString_withSign (h : IsString text.mem (text.numstr + 1) s) :
    IsString (withSign sqlnum text).mem ((withSign sqlnum text).numstr + 1) (sqlnum.signed s) := by
  unfold withSign SqlNumericStruct.signed
  split_ifs
  · simp only [NumText.prepend, NumText.put, sub_add_cancel]
    exact h.cons (by decide)
  · exact h

/-- The text is right if it is the body of one that is. -/
theorem text_iff (h : IsString text.mem (text.numstr + 1) s) :
    (∃ numbegin t, some ((withSign sqlnum text).numstr + 1) = some numbegin ∧
        IsString (withSign sqlnum text).mem numbegin t.text ∧
        sqlnum.IsText reqprec reqscale t) ↔
      ∃ t : DecimalText, t.body = s ∧ sqlnum.IsText reqprec reqscale t := by
  have hstring := @isString_withSign sqlnum text s h
  constructor
  · rintro ⟨numbegin, t, hbegin, htext, hright⟩
    obtain rfl := Option.some.inj hbegin
    rw [hright.text_eq] at htext
    exact ⟨t, (sqlnum.signed_inj).mp (htext.eq hstring), hright⟩
  · rintro ⟨t, rfl, hright⟩
    refine ⟨_, t, rfl, ?_, hright⟩
    rw [hright.text_eq]
    exact hstring

end SqlnumText

/-- The writes stay in the buffer exactly if it has room for the text and the terminator. -/
theorem LaidOut.inBuffer_iff {mem : ℤ → UInt8} {size laid : ℕ} {text : NumText} {s : List UInt8}
    (h : LaidOut mem (size - 1) laid text s) :
    (∀ w ∈ text.writes, 0 ≤ w.1 ∧ w.1 + w.2 ≤ size) ↔ laid + 1 ≤ size := by
  have hplace := h.place
  constructor
  · intro hinside
    have := (hinside _ h.first).1
    dsimp only at this
    omega
  · intro hroom w hw
    have := h.inside w hw
    omega

/-- A text that is laid out, with its sign. -/
theorem LaidOut.withSign {mem : ℤ → UInt8} {terminator : ℤ} {laid : ℕ} {text : NumText}
    {s : List UInt8} (h : LaidOut mem terminator laid text s) (sqlnum : SqlNumericStruct) :
    LaidOut mem terminator (laid + if sqlnum.sign = 0 then 1 else 0)
      (SqlnumText.withSign sqlnum text) (sqlnum.signed s) := by
  unfold SqlnumText.withSign SqlNumericStruct.signed
  split_ifs
  · exact h.prepend (by decide)
  · exact h

namespace SqlnumText

variable {sqlnum : SqlNumericStruct} {size reqprec : ℕ} {reqscale : ℤ} {mem : ℤ → UInt8}
  {laid : ℕ} {text : NumText} {s : List UInt8} {out : SqlnumText}

/-- A text that is laid out is exact if there is room for it and it is right. -/
theorem exact_iff (h : LaidOut mem (size - 1) laid text s) (houtside : out.outside = false)
    (htext : out.text = withSign sqlnum text)
    (hbegin : out.numbegin = some ((withSign sqlnum text).numstr + 1))
    (htrunc : out.trunc ≠ .whole) :
    out.Exact sqlnum size reqprec reqscale ↔
      laid + (if sqlnum.sign = 0 then 1 else 0) + 1 ≤ size ∧
      (∃ t : DecimalText, t.body = s ∧ sqlnum.IsText reqprec reqscale t) ∧
      (out.trunc = .frac ↔ 0 < sqlnum.excess reqprec) := by
  have hroom := (h.withSign sqlnum).inBuffer_iff
  have hright := @text_iff sqlnum reqprec reqscale text s h.string
  rw [← hright, ← hroom, ← hbegin, ← htext]
  constructor
  · exact fun hexact => ⟨hexact.inBuffer, hexact.text htrunc, hexact.truncation htrunc⟩
  · rintro ⟨hinside, hstring, hreported⟩
    exact ⟨houtside, hinside, fun _ => hstring, fun _ => hreported⟩

end SqlnumText

/-- The digits of a long number. -/
theorem length_text_of_long {n : ℕ} (hlong : 10 ^ 38 ≤ n) (hn : n < 10 ^ 39) :
    (Decimal.text n).length = 39 := by
  have hle := (@Decimal.length_text_le_iff n 39 (by decide)).mpr hn
  have hgt := (@Decimal.length_text_le_iff n 38 (by decide)).not.mpr (not_lt.mpr hlong)
  omega

/-- The bytes hold no more than 39 digits. -/
theorem SqlNumericStruct.number_lt (sqlnum : SqlNumericStruct) : sqlnum.number < 10 ^ 39 := by
  have hlt := @Nat.ofDigits_lt_base_pow_length 256 (sqlnum.val.toList.map UInt8.toNat)
    (by decide) (by
      intro b hb
      obtain ⟨c, -, rfl⟩ := List.mem_map.mp hb
      exact c.toNat_lt)
  rw [List.length_map, Vector.length_toList] at hlt
  exact hlt.trans (by norm_num)

/-- The bytes that the text of such a number takes in the buffer. -/
def laidBytes (reqscale : ℤ) : ℕ :=
  if reqscale ≤ 0 then 39 + (-reqscale).toNat
  else if reqscale ≤ 39 then 40 else reqscale.toNat + 2

/-- Its text without truncation. -/
theorem length_spelled {reqscale : ℤ} (n : ℕ) :
    (spelled 39 reqscale n).length = if reqscale ≤ 0 then 39 else laidBytes reqscale := by
  unfold spelled laidBytes wholePart
  split_ifs <;> simp <;> omega

namespace SqlNumericStruct

variable {sqlnum : SqlNumericStruct} {reqprec : ℕ} {reqscale : ℤ}

/-- A whole number with zeros. -/
theorem exists_isText_zeros (hlong : 10 ^ 38 ≤ sqlnum.number) (hprec : 39 ≤ reqprec)
    (hscale : reqscale ≤ 0) :
    ∃ t : DecimalText,
      t.body = Decimal.fixed 39 sqlnum.number ++ List.replicate (-reqscale).toNat 0x30 ∧
      sqlnum.IsText reqprec reqscale t := by
  have hexcess : sqlnum.excess reqprec = 0 := by
    rw [excess, length_text_of_long hlong sqlnum.number_lt]
    omega
  have hdigits : ∀ c ∈ Decimal.fixed 39 sqlnum.number ++ List.replicate (-reqscale).toNat 0x30,
      Decimal.IsDigit c := by
    intro c hc
    rcases List.mem_append.mp hc with hc | hc
    · exact Decimal.isDigit_fixed hc
    · rw [List.eq_of_mem_replicate hc]
      exact ⟨by decide, by decide⟩
  refine ⟨digitText sqlnum _ none hdigits (by simp), ?_, ⟨rfl, ?_, ?_, ?_⟩⟩
  · simp [digitText_body]
  · simp [digitText, Decimal.fixed]
  · have hzeros := Decimal.value_replicate_append (-reqscale).toNat []
    rw [List.append_nil] at hzeros
    rw [hexcess, pow_zero, Nat.div_one, DecimalText.digits, digitText]
    dsimp only
    rw [Option.getD_none, List.append_nil, Decimal.value_append, hzeros,
      Decimal.value_fixed sqlnum.number_lt, List.length_replicate]
    rfl
  · rw [hexcess, DecimalText.decimals, digitText]
    simp
    omega

/-- A number has less digits when some are cut off. -/
theorem number_div_lt (sqlnum : SqlNumericStruct) {cut : ℕ} (hcut : cut ≤ 39) :
    sqlnum.number / 10 ^ cut < 10 ^ (39 - cut) := by
  rw [Nat.div_lt_iff_lt_mul (Nat.pow_pos (by decide)), ← pow_add, Nat.sub_add_cancel hcut]
  exact sqlnum.number_lt

/-- The whole part and decimals have the value of the number that is left. -/
theorem value_wholePart (sqlnum : SqlNumericStruct) {scale cut : ℕ} (hcut : cut ≤ 39)
    (hle : cut ≤ scale) :
    Decimal.value (wholePart 39 scale sqlnum.number ++
      Decimal.fixed (scale - cut) (sqlnum.number / 10 ^ cut)) = sqlnum.number / 10 ^ cut := by
  have hlt := sqlnum.number_div_lt hcut
  unfold wholePart
  split_ifs with hscale
  · have hback : sqlnum.number / 10 ^ scale = sqlnum.number / 10 ^ cut / 10 ^ (scale - cut) := by
      rw [Nat.div_div_eq_div_mul, ← pow_add, Nat.add_sub_cancel' hle]
    have hsum : 39 - scale + (scale - cut) = 39 - cut := by omega
    rw [hback, ← Decimal.fixed_add, hsum, Decimal.value_fixed hlt]
  · have hzero := Decimal.value_replicate_append 1
      (Decimal.fixed (scale - cut) (sqlnum.number / 10 ^ cut))
    rw [List.replicate_one] at hzero
    rw [hzero, Decimal.value_fixed]
    exact hlt.trans_le (Nat.pow_le_pow_right (by decide) (by omega))

/-- The digits of the whole part. -/
theorem isDigit_wholePart {count scale n : ℕ} :
    ∀ c ∈ wholePart count scale n, Decimal.IsDigit c := by
  intro c hc
  unfold wholePart at hc
  split_ifs at hc
  · exact Decimal.isDigit_fixed hc
  · obtain rfl := List.mem_singleton.mp hc
    exact ⟨by decide, by decide⟩

/-- A number with decimals, of which some may be cut off. -/
theorem exists_isText_decimals (hlong : 10 ^ 38 ≤ sqlnum.number)
    (hkept : (39 - reqprec : ℕ) < reqscale) :
    ∃ t : DecimalText,
      t.body = wholePart 39 reqscale.toNat sqlnum.number ++ 0x2e ::
        Decimal.fixed (reqscale.toNat - (39 - reqprec))
          (sqlnum.number / 10 ^ (39 - reqprec)) ∧
      sqlnum.IsText reqprec reqscale t := by
  have hexcess : sqlnum.excess reqprec = 39 - reqprec := by
    rw [excess, length_text_of_long hlong sqlnum.number_lt]
  refine ⟨digitText sqlnum (wholePart 39 reqscale.toNat sqlnum.number)
    (some (Decimal.fixed (reqscale.toNat - (39 - reqprec))
      (sqlnum.number / 10 ^ (39 - reqprec))))
    isDigit_wholePart fun c hc => Decimal.isDigit_fixed hc, ?_, ⟨rfl, ?_, ?_, ?_⟩⟩
  · rw [digitText_body]
    rfl
  · intro hnil
    have hlength := congrArg List.length (List.append_eq_nil_iff.mp hnil).2
    simp only [digitText, Option.getD_some, Decimal.length_fixed, List.length_nil] at hlength
    omega
  · have hpositive : (-reqscale).toNat = 0 := by omega
    rw [hexcess, hpositive, pow_zero, Nat.mul_one, DecimalText.digits, digitText]
    exact sqlnum.value_wholePart (by omega) (by omega)
  · rw [hexcess, DecimalText.decimals, digitText]
    simp only [Option.getD_some, Decimal.length_fixed]
    omega

/-- A number without its decimals. -/
theorem exists_isText_whole (hlong : 10 ^ 38 ≤ sqlnum.number) (hprec : 0 < reqprec)
    (hscale : 0 < reqscale) (hcut : (39 - reqprec : ℕ) = reqscale) :
    ∃ t : DecimalText,
      t.body = wholePart 39 reqscale.toNat sqlnum.number ∧
      sqlnum.IsText reqprec reqscale t := by
  have hexcess : sqlnum.excess reqprec = 39 - reqprec := by
    rw [excess, length_text_of_long hlong sqlnum.number_lt]
  have hpart : wholePart 39 reqscale.toNat sqlnum.number =
      Decimal.fixed (39 - reqscale.toNat) (sqlnum.number / 10 ^ reqscale.toNat) :=
    if_pos (by omega)
  refine ⟨digitText sqlnum (wholePart 39 reqscale.toNat sqlnum.number) none isDigit_wholePart
    (by simp), ?_, ⟨rfl, ?_, ?_, ?_⟩⟩
  · simp [digitText_body]
  · intro hnil
    have hlength := congrArg List.length (List.append_eq_nil_iff.mp hnil).1
    simp only [digitText, hpart, Decimal.length_fixed, List.length_nil] at hlength
    omega
  · have hpositive : (-reqscale).toNat = 0 := by omega
    have hsame : 39 - reqprec = reqscale.toNat := by omega
    rw [hexcess, hpositive, pow_zero, Nat.mul_one, DecimalText.digits, digitText, hsame]
    dsimp only
    rw [Option.getD_none, List.append_nil, hpart,
      Decimal.value_fixed (sqlnum.number_div_lt (by omega))]
  · rw [hexcess, DecimalText.decimals, digitText]
    simp only [Option.getD_none, List.length_nil]
    omega

/-- Decimals that should have been cut off are seen in the text. -/
theorem not_isText_of_uncut (hlong : 10 ^ 38 ≤ sqlnum.number) (hscale : 0 < reqscale)
    (hprec : reqprec < 39) {t : DecimalText} (hbody : t.body = spelled 39 reqscale sqlnum.number) :
    ¬ sqlnum.IsText reqprec reqscale t := by
  intro hright
  have hexcess : sqlnum.excess reqprec = 39 - reqprec := by
    rw [excess, length_text_of_long hlong sqlnum.number_lt]
  rw [spelled, if_pos hscale] at hbody
  have hdecimals := DecimalText.decimals_of_body hright.ne_plus hbody
  rw [hright.decimals, hexcess, Decimal.length_fixed] at hdecimals
  omega

/-- An empty text is no number. -/
theorem not_isText_of_nil {t : DecimalText} (hbody : t.body = []) :
    ¬ sqlnum.IsText reqprec reqscale t := by
  intro hright
  rw [DecimalText.body, if_neg hright.ne_plus, List.nil_append, List.append_eq_nil_iff] at hbody
  apply hright.nonempty
  cases hfraction : t.fraction with
  | none => simpa using hbody.1
  | some fraction => simp [hfraction] at hbody

end SqlNumericStruct

namespace SqlnumText

/-- The array was left or not before the text was finished. -/
theorem finish_outside (sqlnum : SqlNumericStruct) (outside : Bool)
    (cut : NumText × ℕ × ℤ × SqlnumTrunc) : (finish sqlnum outside cut).outside = outside := by
  obtain ⟨text, calcprec, reqscale, trunc⟩ := cut
  cases trunc with
  | no => rfl
  | frac => rfl
  | whole => rfl

variable {sqlnum : SqlNumericStruct} {size reqprec : ℕ} {reqscale : ℤ} {mem : ℤ → UInt8}
  {text : NumText}

/-- The start of the function for a long number. -/
theorem sqlnumToStr_eq (hlong : 10 ^ 38 ≤ sqlnum.number) (mem : ℤ → UInt8) (size : ℕ)
    (reqprec : UInt8) (reqscale : Int8) :
    ∃ text : NumText,
      LaidOut mem (size - 1) (spelled 39 reqscale.toInt sqlnum.number).length text
        (spelled 39 reqscale.toInt sqlnum.number) ∧
      sqlnumToStr sqlnum mem (size - 1) reqprec reqscale =
        finish { sqlnum with scale := reqscale.toInt } false
          (text.truncate (size - 1) 39 (min reqscale.toInt 39) reqprec.toNat) := by
  have hloop : DigitLoop.Holds
      { text := ({ mem := mem, writes := [], numstr := size - 1 } : NumText).prepend 0
        expanded := (wordsOf sqlnum.val.toList).reverse
        maxSpace := 0
        calcprec := 0
        outside := false } sqlnum.number := by
    refine ⟨?_, by simp, by simp⟩
    rw [List.reverse_reverse]
    exact wordsHold_wordsOf sqlnum
  obtain ⟨hlaid, hcalcprec, houtside⟩ := @DigitLoop.extractDigits_written _ _ 39 mem (size - 1) []
    hloop (fun _ => hlong) (LaidOut.start mem (size - 1)) reqscale.toInt 0
  rw [Nat.cast_zero, sub_zero, List.append_nil] at hlaid
  rw [Nat.zero_add] at hcalcprec
  obtain ⟨hpointed, hleft⟩ := hlaid.addPoint sqlnum.number_lt
  refine ⟨_, hpointed, ?_⟩
  rw [sqlnumToStr]
  simp only [hcalcprec, houtside, hleft]
  rfl

/-- A scale that is not positive. -/
theorem finish_nonpos_iff (hlong : 10 ^ 38 ≤ sqlnum.number)
    (h : LaidOut mem (size - 1) (spelled 39 reqscale sqlnum.number).length text
      (spelled 39 reqscale sqlnum.number))
    (hscale : reqscale ≤ 0) (hmin : -128 < reqscale) :
    (finish { sqlnum with scale := reqscale } false (text, 39, reqscale, .no)).Exact sqlnum size
        reqprec reqscale ↔
      laidBytes reqscale + 1 + (if sqlnum.sign = 0 then 1 else 0) ≤ size ∧ 39 ≤ reqprec := by
  have hdigits : spelled 39 reqscale sqlnum.number = Decimal.fixed 39 sqlnum.number :=
    if_neg (not_lt.mpr hscale)
  obtain ⟨zeros, hzeros, hlaid⟩ : ∃ zeros : NumText,
      (if reqscale < 0 then text.addZeros 39 reqscale else text) = zeros ∧
      LaidOut mem (size - 1)
        (Decimal.fixed 39 sqlnum.number ++ List.replicate (-reqscale).toNat 0x30).length zeros
        (Decimal.fixed 39 sqlnum.number ++ List.replicate (-reqscale).toNat 0x30) := by
    rw [hdigits] at h
    refine ⟨_, rfl, ?_⟩
    by_cases hneg : reqscale < 0
    · rw [if_pos hneg]
      have hmoved := h.addZeros (by simp [Decimal.fixed]) hneg hmin
      rwa [Decimal.length_fixed] at hmoved
    · obtain rfl : reqscale = 0 := by omega
      simpa using h
  have hrun : finish { sqlnum with scale := reqscale } false (text, 39, reqscale, .no) =
      { sqlnum := { sqlnum with scale := reqscale, precision := 39 }
        text := withSign sqlnum zeros
        numbegin := some ((withSign sqlnum zeros).numstr + 1)
        trunc := .no
        outside := false } := by
    rw [← hzeros]
    rfl
  have hlength : (Decimal.fixed 39 sqlnum.number ++
      List.replicate (-reqscale).toNat (0x30 : UInt8)).length = laidBytes reqscale := by
    simp [laidBytes, hscale]
  rw [hrun, exact_iff hlaid rfl rfl rfl (by simp), hlength]
  have hexcess : sqlnum.excess reqprec = 39 - reqprec := by
    rw [SqlNumericStruct.excess, length_text_of_long hlong sqlnum.number_lt]
  rw [hexcess]
  constructor
  · rintro ⟨hroom, -, hreported⟩
    have : ¬ 0 < 39 - reqprec := fun hpos => by simpa using hreported.mpr hpos
    omega
  · rintro ⟨hroom, hprec⟩
    refine ⟨by omega, SqlNumericStruct.exists_isText_zeros hlong hprec hscale, ?_⟩
    exact iff_of_false (by simp) (by omega)

/-- The bytes that are moved are written, for the scale that keeps its sign. -/
theorem mem_writes_addZeros {calcprec : ℕ} {w : ℤ × ℕ}
    (h : w ∈ (text.moveDown (-128) calcprec 1).writes) :
    w ∈ (text.addZeros calcprec (-128)).writes := by
  simp only [NumText.addZeros, NumText.fill, if_true]
  exact List.mem_cons_of_mem _ h

/-- A sign does not take a write back. -/
theorem mem_writes_withSign {w : ℤ × ℕ} (h : w ∈ text.writes) :
    w ∈ (withSign sqlnum text).writes := by
  unfold withSign
  split_ifs
  · exact List.mem_cons_of_mem _ h
  · exact h

/-- The scale of -128 keeps its sign, and the text is moved out of the buffer. -/
theorem not_exact_of_min
    (h : LaidOut mem (size - 1) (spelled 39 (-128) sqlnum.number).length text
      (spelled 39 (-128) sqlnum.number)) :
    ¬ (finish { sqlnum with scale := -128 } false (text, 39, -128, .no)).Exact sqlnum size
        reqprec (-128) := by
  intro hexact
  have hplace := h.place
  have hlength := @length_spelled (-128) sqlnum.number
  rw [if_pos (by decide)] at hlength
  obtain ⟨-, hwrites, -⟩ := NumText.moveDown_spec (-128) 39 1 text
  have hwrite := (hwrites (text.numstr + 129, 1)).mpr
    (Or.inr ⟨0, by decide, by simp; omega⟩)
  have hmem : (text.numstr + 129, 1) ∈
      (finish { sqlnum with scale := -128 } false (text, 39, -128, .no)).text.writes :=
    @mem_writes_withSign sqlnum (text.addZeros 39 (-128)) _ (mem_writes_addZeros hwrite)
  have hinside := (hexact.inBuffer _ hmem).2
  dsimp only at hinside
  omega

/-- The end of the function for a scale that is not negative. -/
theorem finish_of_nonneg {outside : Bool} {calcprec : ℕ} {left : ℤ} {trunc : SqlnumTrunc}
    (hleft : 0 ≤ left) (htrunc : trunc ≠ .whole) :
    finish sqlnum outside (text, calcprec, left, trunc) =
      { sqlnum := { sqlnum with precision := calcprec }
        text := withSign sqlnum text
        numbegin := some ((withSign sqlnum text).numstr + 1)
        trunc := trunc
        outside := outside } := by
  have hnot : ¬ left < 0 := not_lt.mpr hleft
  cases trunc with
  | no => simp only [finish, if_neg hnot, withSign]
  | frac => simp only [finish, if_neg hnot, withSign]
  | whole => exact absurd rfl htrunc

/-- A positive scale, and digits within the precision. -/
theorem finish_untruncated_iff (hlong : 10 ^ 38 ≤ sqlnum.number)
    (h : LaidOut mem (size - 1) (spelled 39 reqscale sqlnum.number).length text
      (spelled 39 reqscale sqlnum.number))
    (hscale : 0 < reqscale) (hprec : 39 ≤ reqprec) :
    (finish { sqlnum with scale := reqscale } false (text, 39, min reqscale 39, .no)).Exact sqlnum
        size reqprec reqscale ↔
      laidBytes reqscale + 1 + (if sqlnum.sign = 0 then 1 else 0) ≤ size := by
  have hlength := @length_spelled reqscale sqlnum.number
  rw [if_neg (by omega)] at hlength
  have hcut : 39 - reqprec = 0 := by omega
  obtain ⟨t, hbody, hright⟩ := @SqlNumericStruct.exists_isText_decimals sqlnum reqprec reqscale
    hlong (by omega)
  rw [hcut, Nat.sub_zero, pow_zero, Nat.div_one] at hbody
  have hspelled : spelled 39 reqscale sqlnum.number = t.body := by
    rw [hbody, spelled, if_pos hscale]
  have hexcess : sqlnum.excess reqprec = 0 := by
    rw [SqlNumericStruct.excess, length_text_of_long hlong sqlnum.number_lt, hcut]
  rw [finish_of_nonneg (by omega) (by simp), exact_iff h rfl rfl rfl (by simp), hlength, hexcess]
  constructor
  · exact fun hexact => by omega
  · exact fun hroom => ⟨by omega, ⟨t, hspelled.symm, hright⟩, by simp⟩

/-- Digits of the whole number would be lost. -/
theorem finish_whole_iff
    (h : LaidOut mem (size - 1) (spelled 39 reqscale sqlnum.number).length text
      (spelled 39 reqscale sqlnum.number))
    (hscale : 0 < reqscale) (hlost : reqprec + reqscale < 39) :
    (finish { sqlnum with scale := reqscale } false
        (text.truncate (size - 1) 39 (min reqscale 39) reqprec)).Exact sqlnum size reqprec
        reqscale ↔
      laidBytes reqscale + 1 ≤ size ∧
        (mem (size - 2 - laidBytes reqscale) = 0 → laidBytes reqscale + 2 + reqscale ≤ size) := by
  have hlength := @length_spelled reqscale sqlnum.number
  rw [if_neg (by omega)] at hlength
  have hplace := h.place
  have hroom := h.inBuffer_iff
  rw [hlength] at hplace hroom
  have hnumstr : (size : ℤ) - 2 - laidBytes reqscale = text.numstr := by omega
  obtain ⟨scale, rfl⟩ : ∃ scale : ℕ, reqscale = scale := ⟨reqscale.toNat, by omega⟩
  have hmin : min (scale : ℤ) 39 = scale := by omega
  have hcount : scale = min (scale : ℤ).toNat (39 - reqprec) := by omega
  have hmore : reqprec < 39 := by omega
  rw [hnumstr, hmin]
  by_cases hbyte : mem text.numstr = 0
  · obtain ⟨text', -, -, hwrites, hrun⟩ :=
      h.truncate_of_eq hbyte hmore hscale hcount
    rw [hrun, if_pos (by omega), ← hroom]
    constructor
    · intro hexact
      have hinside := hexact.inBuffer
      refine ⟨fun w hw => hinside w ((hwrites w).mpr (Or.inl hw)), fun _ => ?_⟩
      have hlast := (hinside _ ((hwrites _).mpr (Or.inr ⟨scale - 1, by omega, rfl⟩))).1
      dsimp only at hlast
      omega
    · rintro ⟨hinside, hfront⟩
      have hfront := hfront hbyte
      refine ⟨rfl, fun w hw => ?_, fun hno => absurd rfl hno, fun hno => absurd rfl hno⟩
      rcases (hwrites w).mp hw with hw | ⟨i, hi, rfl⟩
      · exact hinside w hw
      · dsimp only
        omega
  · have hsplit : spelled 39 scale sqlnum.number =
        (wholePart 39 scale sqlnum.number ++ [0x2e]) ++ Decimal.fixed scale sqlnum.number := by
      rw [spelled, if_pos hscale, Int.toNat_natCast, List.append_assoc]
      rfl
    rw [hlength, hsplit] at h
    obtain ⟨text', -, hlaid, hrun⟩ := h.truncate_of_ne hbyte hmore hscale
      (by rw [Decimal.length_fixed]; exact hcount)
    rw [Decimal.length_fixed] at hrun
    rw [hrun, if_pos (by omega), ← hlaid.inBuffer_iff]
    constructor
    · exact fun hexact => ⟨hexact.inBuffer, fun hzero => absurd hzero hbyte⟩
    · rintro ⟨hinside, -⟩
      exact ⟨rfl, hinside, fun hno => absurd rfl hno, fun hno => absurd rfl hno⟩

/-- A zero in front of the text keeps its decimals. -/
theorem not_exact_of_misled (hlong : 10 ^ 38 ≤ sqlnum.number)
    (h : LaidOut mem (size - 1) (spelled 39 reqscale sqlnum.number).length text
      (spelled 39 reqscale sqlnum.number))
    (hscale : 0 < reqscale) (hmore : reqprec < 39) (hfrac : 39 ≤ reqprec + reqscale)
    (hbyte : mem text.numstr = 0) :
    ¬ (finish { sqlnum with scale := reqscale } false
        (text.truncate (size - 1) 39 (min reqscale 39) reqprec)).Exact sqlnum size reqprec
        reqscale := by
  intro hexact
  have hcount : 39 - reqprec = min (min reqscale 39).toNat (39 - reqprec) := by omega
  obtain ⟨text', hnumstr, hstring, -, hrun⟩ :=
    h.truncate_of_eq hbyte hmore (by omega : 0 < min reqscale 39) hcount
  rw [hrun, if_neg (by omega), finish_of_nonneg (by omega) (by simp)] at hexact
  obtain ⟨cut, hcut⟩ : ∃ cut : NumText, cut = (if text'.mem (text.numstr - 1 - (39 - reqprec : ℕ)) =
      0x2e then text'.put (text.numstr - 1 - (39 - reqprec : ℕ)) 0 else text') := ⟨_, rfl⟩
  have hkept : IsString cut.mem (cut.numstr + 1) (spelled 39 reqscale sqlnum.number) := by
    rw [hcut]
    split_ifs
    · simp only [NumText.put, hnumstr]
      exact hstring.congr fun q hq _ => Function.update_of_ne (by omega) _ _
    · rw [hnumstr]
      exact hstring
  rw [← hcut] at hexact
  obtain ⟨t, hbody, hright⟩ :=
    (@text_iff sqlnum reqprec reqscale cut _ hkept).mp (hexact.text (by simp))
  exact SqlNumericStruct.not_isText_of_uncut hlong hscale hmore hbody hright

/-- Some decimals are cut off, but not all. -/
theorem finish_cut_iff (hlong : 10 ^ 38 ≤ sqlnum.number)
    (h : LaidOut mem (size - 1) (spelled 39 reqscale sqlnum.number).length text
      (spelled 39 reqscale sqlnum.number))
    (hmore : reqprec < 39) (hfrac : 39 < reqprec + reqscale) (hbyte : mem text.numstr ≠ 0) :
    (finish { sqlnum with scale := reqscale } false
        (text.truncate (size - 1) 39 (min reqscale 39) reqprec)).Exact sqlnum size reqprec
        reqscale ↔
      laidBytes reqscale + 1 + (if sqlnum.sign = 0 then 1 else 0) ≤ size := by
  have hlength := @length_spelled reqscale sqlnum.number
  rw [if_neg (by omega)] at hlength
  obtain ⟨t, hbody, hright⟩ := @SqlNumericStruct.exists_isText_decimals sqlnum reqprec reqscale
    hlong (by omega)
  obtain ⟨kept, hkept⟩ : ∃ kept, reqscale.toNat - (39 - reqprec) = kept + 1 :=
    ⟨reqscale.toNat - (39 - reqprec) - 1, by omega⟩
  -- the last digit that is left is no point
  obtain ⟨front, d, hd, hfront⟩ : ∃ front d, d < 10 ∧ t.body = front ++ [Decimal.digitByte d] := by
    rw [hbody, hkept, Decimal.fixed]
    exact ⟨_, _, Nat.mod_lt _ (by decide), (List.append_assoc _ (_ :: _) _).symm⟩
  have hsplit : spelled 39 reqscale sqlnum.number =
      t.body ++ Decimal.fixed (39 - reqprec) sqlnum.number := by
    have hsum : reqscale.toNat = (reqscale.toNat - (39 - reqprec)) + (39 - reqprec) := by omega
    have hadd := Decimal.fixed_add (reqscale.toNat - (39 - reqprec)) (39 - reqprec) sqlnum.number
    rw [← hsum] at hadd
    rw [spelled, if_pos (by omega), hbody, List.append_assoc, List.cons_append, ← hadd]
  rw [hlength, hsplit] at h
  obtain ⟨text', hnumstr, hlaid, hrun⟩ :=
    h.truncate_of_ne hbyte hmore (by omega : 0 < min reqscale 39)
      (by rw [Decimal.length_fixed]; omega)
  rw [Decimal.length_fixed] at hrun
  have hlast : text'.mem (text.numstr + t.body.length) = Decimal.digitByte d := by
    have hstring := hlaid.string
    rw [hfront, hnumstr] at hstring
    rw [← hstring.last, hfront]
    congr 1
    simp
    omega
  have hpoint : Decimal.digitByte d ≠ 0x2e := by
    intro heq
    have hbyte' := Decimal.toNat_digitByte hd
    rw [heq] at hbyte'
    simp at hbyte'
    omega
  have hexcess : sqlnum.excess reqprec = 39 - reqprec := by
    rw [SqlNumericStruct.excess, length_text_of_long hlong sqlnum.number_lt]
  rw [hrun, if_neg (by omega), hlast, if_neg hpoint, finish_of_nonneg (by omega) (by simp),
    exact_iff hlaid rfl rfl rfl (by simp), hexcess]
  constructor
  · exact fun hexact => by omega
  · exact fun hroom => ⟨by omega, ⟨t, rfl, hright⟩, iff_of_true rfl (by omega)⟩

/-- All decimals are cut off, and the point, too. -/
theorem finish_cutAll_iff (hlong : 10 ^ 38 ≤ sqlnum.number)
    (h : LaidOut mem (size - 1) (spelled 39 reqscale sqlnum.number).length text
      (spelled 39 reqscale sqlnum.number))
    (hmore : reqprec < 39) (hfrac : reqprec + reqscale = 39) (hbyte : mem text.numstr ≠ 0) :
    (finish { sqlnum with scale := reqscale } false
        (text.truncate (size - 1) 39 (min reqscale 39) reqprec)).Exact sqlnum size reqprec
        reqscale ↔
      laidBytes reqscale + 1 + (if sqlnum.sign = 0 then 1 else 0) ≤ size ∧ reqprec ≠ 0 := by
  have hlength := @length_spelled reqscale sqlnum.number
  rw [if_neg (by omega)] at hlength
  have hsame : reqscale.toNat = 39 - reqprec := by omega
  have hsplit : spelled 39 reqscale sqlnum.number =
      (wholePart 39 reqscale.toNat sqlnum.number ++ [0x2e]) ++
        Decimal.fixed (39 - reqprec) sqlnum.number := by
    rw [spelled, if_pos (by omega), List.append_assoc, hsame]
    rfl
  rw [hlength, hsplit] at h
  obtain ⟨text', hnumstr, hlaid, hrun⟩ :=
    h.truncate_of_ne hbyte hmore (by omega : 0 < min reqscale 39)
      (by rw [Decimal.length_fixed]; omega)
  rw [Decimal.length_fixed] at hrun
  obtain ⟨hpoint, hwhole⟩ := hlaid.cutPoint
  rw [hnumstr] at hpoint hwhole
  have hexcess : sqlnum.excess reqprec = 39 - reqprec := by
    rw [SqlNumericStruct.excess, length_text_of_long hlong sqlnum.number_lt]
  rw [hrun, if_neg (by omega), if_pos hpoint, finish_of_nonneg (by omega) (by simp),
    exact_iff hwhole rfl rfl rfl (by simp), hexcess]
  constructor
  · rintro ⟨hroom, ⟨t, hbody, hright⟩, -⟩
    refine ⟨by omega, ?_⟩
    rintro rfl
    have hnil : wholePart 39 reqscale.toNat sqlnum.number = [] := by
      rw [hsame, wholePart, if_pos (by omega)]
      rfl
    exact SqlNumericStruct.not_isText_of_nil (hbody.trans hnil) hright
  · rintro ⟨hroom, hprec⟩
    refine ⟨by omega, ?_, iff_of_true rfl (by omega)⟩
    exact SqlNumericStruct.exists_isText_whole hlong (by omega) (by omega) (by omega)

end SqlnumText

/-- The number has 39 digits, the scale can change its sign, and the buffer has room. A whole
number must not have more digits than the precision, and decimals are cut off only when the byte
in front of the text is not zero; something has to be left of them. Where whole digits would be
lost, a zero in that byte takes more room. -/
def SqlNumericStruct.Fits (sqlnum : SqlNumericStruct) (mem : ℤ → UInt8) (size reqprec : ℕ)
    (reqscale : ℤ) : Prop :=
  10 ^ 38 ≤ sqlnum.number ∧ reqscale ≠ -128 ∧
    if 0 < reqscale ∧ reqprec + reqscale < 39 then
      laidBytes reqscale + 1 ≤ size ∧
        (mem (size - 2 - laidBytes reqscale) = 0 → laidBytes reqscale + 2 + reqscale ≤ size)
    else
      laidBytes reqscale + 1 + (if sqlnum.sign = 0 then 1 else 0) ≤ size ∧
        (reqscale ≤ 0 → 39 ≤ reqprec) ∧
        (0 < reqscale → reqprec < 39 →
          mem (size - 2 - laidBytes reqscale) ≠ 0 ∧ (reqprec = 0 → reqscale ≠ 39))

/-- The search leaves the array for every number that has less digits than the loop has rounds. -/
theorem sqlnumToStr_outside {sqlnum : SqlNumericStruct} (hshort : sqlnum.number < 10 ^ 38)
    (mem : ℤ → UInt8) (numstr : ℤ) (reqprec : UInt8) (reqscale : Int8) :
    (sqlnumToStr sqlnum mem numstr reqprec reqscale).outside = true := by
  rw [sqlnumToStr, SqlnumText.finish_outside]
  refine DigitLoop.extractDigits_outside ⟨?_, by simp, by simp⟩ hshort _ 0
  rw [List.reverse_reverse]
  exact wordsHold_wordsOf sqlnum

/-- The text of a number is exact, in an array and a buffer that are not left, exactly if the
number fits. -/
theorem sqlnumToStr_exact_iff (sqlnum : SqlNumericStruct) (mem : ℤ → UInt8) (size : ℕ)
    (reqprec : UInt8) (reqscale : Int8) :
    (sqlnumToStr sqlnum mem (size - 1) reqprec reqscale).Exact sqlnum size reqprec.toNat
        reqscale.toInt ↔
      sqlnum.Fits mem size reqprec.toNat reqscale.toInt := by
  by_cases hlong : 10 ^ 38 ≤ sqlnum.number
  swap
  · refine iff_of_false (fun hexact => ?_) fun hfits => hlong hfits.1
    have hinside := hexact.inArray
    rw [sqlnumToStr_outside (not_le.mp hlong)] at hinside
    exact absurd hinside (by decide)
  obtain ⟨text, h, hrun⟩ := SqlnumText.sqlnumToStr_eq hlong mem size reqprec reqscale
  have hrange : -128 ≤ reqscale.toInt := Int8.le_toInt reqscale
  rw [hrun, SqlNumericStruct.Fits, and_iff_right hlong]
  generalize reqscale.toInt = reqscale at *
  generalize reqprec.toNat = reqprec
  by_cases hscale : 0 < reqscale
  swap
  · have htruncate : text.truncate (size - 1) 39 (min reqscale 39) reqprec =
        (text, 39, reqscale, .no) := by
      rw [NumText.truncate, if_neg (by omega), min_eq_left (by omega)]
    rw [htruncate, if_neg (by omega)]
    by_cases hmin : reqscale = -128
    · subst hmin
      exact iff_of_false (SqlnumText.not_exact_of_min h) fun hfits => hfits.1 rfl
    · rw [SqlnumText.finish_nonpos_iff hlong h (by omega) (by omega), and_iff_right hmin]
      refine and_congr_right fun _ => ?_
      exact ⟨fun hprec => ⟨fun _ => hprec, fun hpos => absurd hpos hscale⟩,
        fun hfits => hfits.1 (by omega)⟩
  rw [and_iff_right (by omega)]
  by_cases hmore : reqprec < 39
  swap
  · have htruncate : text.truncate (size - 1) 39 (min reqscale 39) reqprec =
        (text, 39, min reqscale 39, .no) := by
      rw [NumText.truncate, if_neg (by omega)]
    rw [htruncate, if_neg (by omega),
      SqlnumText.finish_untruncated_iff hlong h hscale (by omega)]
    exact ⟨fun hroom => ⟨hroom, fun hneg => absurd hneg (by omega),
      fun _ hless => absurd hless hmore⟩, fun hfits => hfits.1⟩
  by_cases hlost : reqprec + reqscale < 39
  · rw [if_pos ⟨hscale, hlost⟩, SqlnumText.finish_whole_iff h hscale hlost]
  rw [if_neg (by omega)]
  have hnumstr : (size : ℤ) - 2 - laidBytes reqscale = text.numstr := by
    have hplace := h.place
    rw [length_spelled, if_neg (by omega)] at hplace
    omega
  rw [hnumstr]
  by_cases hbyte : mem text.numstr = 0
  · refine iff_of_false ?_ fun hfits => (hfits.2.2 hscale hmore).1 hbyte
    exact SqlnumText.not_exact_of_misled hlong h hscale hmore (by omega) hbyte
  by_cases hall : reqprec + reqscale = 39
  · rw [SqlnumText.finish_cutAll_iff hlong h hmore hall hbyte]
    refine and_congr_right fun _ => ⟨fun hprec => ?_, fun hfits hzero => ?_⟩
    · exact ⟨fun hneg => absurd hneg (by omega), fun _ _ => ⟨hbyte, fun hzero => absurd hzero hprec⟩⟩
    · exact (hfits.2 hscale hmore).2 hzero (by omega)
  · rw [SqlnumText.finish_cut_iff hlong h hmore (by omega) hbyte]
    refine ⟨fun hroom => ⟨hroom, fun hneg => absurd hneg (by omega), fun _ _ => ⟨hbyte, ?_⟩⟩,
      fun hfits => hfits.1⟩
    intro hzero
    omega

/-- The number five leaves the array, whatever the memory, the precision and the scale are. -/
theorem sqlnumToStr_five : ∃ sqlnum : SqlNumericStruct, sqlnum.number = 5 ∧
    ¬ (sqlnumToStr sqlnum (fun _ => 1) (128 - 1) 5 0).Exact sqlnum 128 5 0 := by
  refine ⟨⟨0, 0, 1, #v[5, 0, 0, 0, 0, 0, 0, 0, 0, 0, 0, 0, 0, 0, 0, 0]⟩, by decide, fun hexact => ?_⟩
  exact absurd hexact.inArray (by decide +kernel)

end MatrixOdbc.Driver
