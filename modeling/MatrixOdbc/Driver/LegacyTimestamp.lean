import MatrixOdbc.Driver.DateAgreement

/-!
# Timestamps of old servers

`complete_timestamp` of `driver/utility.cc`, byte by byte. The value is the list of the bytes of
the given length, and the buffer has 21 bytes. The function has no result when it reads a byte
behind the value or writes one behind the buffer.
-/

namespace MatrixOdbc.Driver.DateTime

variable {value written rest : List UInt8} {i : ℕ}

/-- `*pos++= c`; the bytes in front of `pos` are those that have been written. -/
def push (written : List UInt8) (c : UInt8) : Option (List UInt8) :=
  if written.length < 21 then some (written ++ [c]) else none

/-- The byte behind the `i`-th field. -/
def separator (i : ℕ) : UInt8 := if i < 2 then 0x2d else if i = 2 then 0x20 else 0x3a

/-- Two digits and the byte behind them. -/
def pushField (i : ℕ) (a b : UInt8) (written : List UInt8) : Option (List UInt8) :=
  (push written a).bind fun written =>
    (push written b).bind fun written => push written (separator i)

/-- A field is stored as a whole or not at all. -/
theorem pushField_eq (i : ℕ) (a b : UInt8) (written : List UInt8) :
    pushField i a b written =
      if written.length + 3 ≤ 21 then some (written ++ [a, b, separator i]) else none := by
  simp only [pushField, push]
  by_cases h : written.length + 3 ≤ 21
  · rw [if_pos h, if_pos (by omega), Option.bind_some, if_pos (by simp; omega), Option.bind_some,
      if_pos (by simp; omega)]
    simp
  · rw [if_neg h]
    by_cases hfirst : written.length < 21
    · rw [if_pos hfirst, Option.bind_some]
      by_cases hsecond : (written ++ [a]).length < 21
      · rw [if_pos hsecond, Option.bind_some, if_neg (by simp; omega)]
      · rw [if_neg hsecond, Option.bind_none]
    · rw [if_neg hfirst, Option.bind_none]

theorem length_pushField {a b : UInt8} {written' : List UInt8}
    (h : pushField i a b written = some written') :
    written'.length = written.length + 3 ∧ written.length + 3 ≤ 21 := by
  rw [pushField_eq] at h
  split_ifs at h with hroom
  · rw [← Option.some.inj h]
    exact ⟨by simp, hroom⟩

/-- The loop that fills the buffer with zeros; it ends at one address only. -/
def fillFields (written : List UInt8) (i : ℕ) : Option (List UInt8) :=
  if written.length = 20 then some written
  else
    match _h : pushField i 0x30 0x30 written with
    | some written' => fillFields written' (i + 1)
    | none => none
  termination_by 21 - written.length
  decreasing_by
    have := length_pushField _h
    omega

/-- `(int)length`. -/
def toInt (length : UInt64) : ℤ := (length.toNat : ℤ).bmod (2 ^ 32)

/-- The loop that copies the fields, and the loop behind it. -/
def copyFields : UInt64 → ℕ → List UInt8 → List UInt8 → Option (List UInt8)
  | length, i, written, a :: b :: value =>
    if 0 < toInt length then
      (pushField i a b written).bind fun written => copyFields (length - 2) (i + 1) written value
    else fillFields written i
  | length, i, written, _ => if 0 < toInt length then none else fillFields written i

/-- `value[0] == '0' && value[1] == '0'`. -/
def monthIsZero : List UInt8 → Option Bool
  | [] => none
  | a :: value => if a = 0x30 then value.head?.map (· == 0x30) else some false

/-- From the month on. -/
def completeFields (written : List UInt8) (length : UInt64) (value : List UInt8) :
    Option (Option (List UInt8)) :=
  (monthIsZero value).bind fun zero =>
    if zero then some none else (copyFields ((length &&& 30) - 2) 1 written value).map some

/-- From `buff[2]` on. -/
def completeYear (century : List UInt8) (length : UInt64) :
    List UInt8 → Option (Option (List UInt8))
  | c :: d :: value => completeFields (century ++ [c, d, 0x2d]) length value
  | _ => none

/-- The century for the first digit of the year, compared as a `char`. -/
def century (c : UInt8) : List UInt8 := if c ≤ 0x36 ∨ 0x80 ≤ c then [0x32, 0x30] else [0x31, 0x39]

/-- `complete_timestamp`: the first bytes of the buffer, or the null pointer. -/
def completeTimestamp (value : List UInt8) : Option (Option (List UInt8)) :=
  let length := UInt64.ofNat value.length
  if length = 6 ∨ length = 10 ∨ length = 12 then
    value.head?.bind fun c => completeYear (century c) length value
  else completeYear (value.take 2) (length - 2) (value.drop 2)

/-- Fields with the bytes behind them, from the `i`-th on. -/
def groups : ℕ → List (UInt8 × UInt8) → List UInt8
  | _, [] => []
  | i, field :: fields => field.1 :: field.2 :: separator i :: groups (i + 1) fields

/-- Fields as they stand in a value. -/
def digitsOf (fields : List (UInt8 × UInt8)) : List UInt8 :=
  fields.flatMap fun field => [field.1, field.2]

theorem length_digitsOf (fields : List (UInt8 × UInt8)) :
    (digitsOf fields).length = 2 * fields.length := by
  induction fields with
  | nil => rfl
  | cons field fields ih =>
    rw [digitsOf, List.flatMap_cons, List.length_append, ← digitsOf, ih, List.length_cons]
    simp only [List.length_cons, List.length_nil]
    omega

theorem length_groups (i : ℕ) (fields : List (UInt8 × UInt8)) :
    (groups i fields).length = 3 * fields.length := by
  induction fields generalizing i with
  | nil => rfl
  | cons field fields ih =>
    rw [groups, List.length_cons, List.length_cons, List.length_cons, ih, List.length_cons]
    omega

/-- The second loop fills up with zeros. -/
theorem fillFields_eq {k : ℕ} (h : written.length + 3 * k = 20) :
    fillFields written i = some (written ++ groups i (List.replicate k (0x30, 0x30))) := by
  induction k generalizing written i with
  | zero =>
    rw [fillFields, if_pos (by omega)]
    simp [groups]
  | succ k ih =>
    have hfield : pushField i 0x30 0x30 written = some (written ++ [0x30, 0x30, separator i]) := by
      rw [pushField_eq, if_pos (by omega)]
    rw [fillFields, if_neg (by omega)]
    split
    · rename_i written' hwritten
      obtain rfl := Option.some.inj (hwritten.symm.trans hfield)
      rw [ih (by simp only [List.length_append, List.length_cons, List.length_nil]; omega),
        List.append_assoc]
      rfl
    · rename_i hnone
      cases hnone.symm.trans hfield

/-- A small number is not cut. -/
theorem toInt_ofNat {k : ℕ} (h : k < 2 ^ 31) : toInt (UInt64.ofNat k) = k := by
  have hnat : (UInt64.ofNat k).toNat = k := UInt64.toNat_ofNat_of_lt' (lt_trans h (by decide))
  unfold toInt
  rw [hnat]
  simp only [Int.bmod]
  omega

/-- A round of the first loop. -/
theorem copyFields_pos {length : UInt64} (h : 0 < toInt length) (i : ℕ) (a b : UInt8) :
    copyFields length i written (a :: b :: value) =
      (pushField i a b written).bind fun written => copyFields (length - 2) (i + 1) written value :=
  if_pos h

/-- The end of the first loop. -/
theorem copyFields_neg {length : UInt64} (h : ¬ 0 < toInt length) (i : ℕ) :
    copyFields length i written value = fillFields written i := by
  unfold copyFields
  split
  · exact if_neg h
  · exact if_neg h

/-- The first loop copies so many fields, and the second one fills up. -/
theorem copyFields_digitsOf {fields : List (UInt8 × UInt8)} (hfew : fields.length ≤ 15)
    (i : ℕ) (hroom : written.length ≤ 21) (rest : List UInt8) :
    copyFields (UInt64.ofNat (2 * fields.length)) i written (digitsOf fields ++ rest) =
      if written.length + 3 * fields.length ≤ 21 then
        fillFields (written ++ groups i fields) (i + fields.length)
      else none := by
  induction fields generalizing i written with
  | nil =>
    have hstop : ¬ 0 < toInt (UInt64.ofNat (2 * ([] : List (UInt8 × UInt8)).length)) := by
      have hzero := @toInt_ofNat 0 (by decide)
      rw [List.length_nil, Nat.mul_zero, hzero]
      exact lt_irrefl 0
    rw [copyFields_neg hstop, if_pos (by simpa using hroom), groups, List.append_nil]
    rfl
  | cons field fields ih =>
    obtain ⟨a, b⟩ := field
    rw [List.length_cons] at hfew ⊢
    have hgo : 0 < toInt (UInt64.ofNat (2 * (fields.length + 1))) := by
      have hle : 2 * (fields.length + 1) ≤ 30 := by omega
      have hint := toInt_ofNat (lt_of_le_of_lt hle (by decide))
      omega
    have hless : UInt64.ofNat (2 * (fields.length + 1)) - 2 = UInt64.ofNat (2 * fields.length) := by
      rw [Nat.mul_succ, UInt64.ofNat_add]
      exact UInt64.add_sub_cancel _ _
    change copyFields _ i written (a :: b :: (digitsOf fields ++ rest)) = _
    rw [copyFields_pos hgo, hless, pushField_eq]
    by_cases hfit : written.length + 3 ≤ 21
    · rw [if_pos hfit, Option.bind_some, ih (by omega) (i + 1) (by simpa using hfit)]
      have hlength : (written ++ [a, b, separator i]).length = written.length + 3 := by simp
      rw [hlength, List.append_assoc, show i + 1 + fields.length = i + (fields.length + 1) by omega]
      have hsum : written.length + 3 + 3 * fields.length =
          written.length + 3 * (fields.length + 1) := by omega
      rw [hsum]
      rfl
    · rw [if_neg hfit, Option.bind_none, if_neg (by omega)]

/-- A list is so many fields, and one byte perhaps. -/
theorem exists_fields (value : List UInt8) :
    ∃ fields rest, value = digitsOf fields ++ rest ∧ fields.length = value.length / 2 := by
  induction value using List.twoStepInduction with
  | nil => exact ⟨[], [], rfl, rfl⟩
  | singleton a => exact ⟨[], [a], rfl, by simp⟩
  | cons_cons a b value ih _ =>
    obtain ⟨fields, rest, rfl, hlength⟩ := ih
    refine ⟨(a, b) :: fields, rest, rfl, ?_⟩
    rw [List.length_cons, hlength, List.length_cons, List.length_cons]
    omega

/-- The number of bytes that the mask leaves. -/
theorem mask_length {k : ℕ} (h : k < 30) :
    (UInt64.ofNat (k + 2) &&& 30) - 2 = UInt64.ofNat (2 * (k / 2)) := by
  interval_cases k <;> decide

/-- The month is read, and is zero. -/
theorem monthIsZero_eq (hne : value ≠ []) (hzero : value ≠ [0x30]) :
    monthIsZero value = some (value.take 2 == [0x30, 0x30]) := by
  obtain ⟨a, value, rfl⟩ := List.exists_cons_of_ne_nil hne
  by_cases ha : a = 0x30
  · have hmore : value ≠ [] := by
      rintro rfl
      exact hzero (by rw [ha])
    obtain ⟨b, value, rfl⟩ := List.exists_cons_of_ne_nil hmore
    simp [monthIsZero, ha]
  · cases value with
    | nil => simp [monthIsZero, ha]
    | cons b value => simp [monthIsZero, ha]

theorem monthIsZero_eq_none (h : value = [] ∨ value = [0x30]) : monthIsZero value = none := by
  rcases h with rfl | rfl <;> rfl

/-- A month of zeros is the null pointer. -/
theorem completeFields_zero (h : value.take 2 = [0x30, 0x30]) (written : List UInt8)
    (length : UInt64) : completeFields written length value = some none := by
  have hne : value ≠ [] := by
    rintro rfl
    cases h
  have hzero : value ≠ [0x30] := by
    rintro rfl
    cases h
  rw [completeFields, monthIsZero_eq hne hzero, h, Option.bind_some,
    if_pos (beq_self_eq_true _)]

section Fields

variable {fields : List (UInt8 × UInt8)} (hvalue : value = digitsOf fields ++ rest)
  (hfields : fields.length = value.length / 2) (hlength : value.length < 30)
  (hwritten : written.length = 5) (hne : value ≠ []) (hzero : value ≠ [0x30])
  (hmonth : value.take 2 ≠ [0x30, 0x30])
include hvalue hfields hlength hne hzero hmonth

/-- Another month and the other fields are copied. -/
theorem completeFields_copy (written : List UInt8) :
    completeFields written (UInt64.ofNat (value.length + 2)) value =
      (copyFields (UInt64.ofNat (2 * fields.length)) 1 written (digitsOf fields ++ rest)).map
        some := by
  rw [completeFields, monthIsZero_eq hne hzero, Option.bind_some, if_neg (by simpa using hmonth),
    mask_length (by omega), hfields, ← hvalue]

include hwritten

/-- Up to five fields fit into the buffer. -/
theorem completeFields_eq (hfit : fields.length ≤ 5) :
    completeFields written (UInt64.ofNat (value.length + 2)) value =
      some (some (written ++ groups 1 fields ++
        groups (1 + fields.length) (List.replicate (5 - fields.length) (0x30, 0x30)))) := by
  rw [completeFields_copy hvalue hfields hlength hne hzero hmonth,
    copyFields_digitsOf (by omega) 1 (by omega) rest, if_pos (by omega), fillFields_eq,
    Option.map_some]
  rw [List.length_append, length_groups]
  omega

/-- More fields do not. -/
theorem completeFields_eq_none (hmany : 5 < fields.length) :
    completeFields written (UInt64.ofNat (value.length + 2)) value = none := by
  rw [completeFields_copy hvalue hfields hlength hne hzero hmonth,
    copyFields_digitsOf (by omega) 1 (by omega) rest, if_neg (by omega), Option.map_none]

end Fields

/-- From the month on the value and the buffer are kept to if the month is there and is zero, or
the value is short. -/
theorem completeFields_ne_none_iff (hwritten : written.length = 5) (hlength : value.length < 30) :
    completeFields written (UInt64.ofNat (value.length + 2)) value ≠ none ↔
      value.take 2 = [0x30, 0x30] ∨ value ≠ [] ∧ value ≠ [0x30] ∧ value.length < 12 := by
  by_cases hmonth : value.take 2 = [0x30, 0x30]
  · rw [completeFields_zero hmonth]
    exact iff_of_true (Option.some_ne_none _) (Or.inl hmonth)
  by_cases hread : value = [] ∨ value = [0x30]
  · rw [completeFields, monthIsZero_eq_none hread, Option.bind_none]
    apply iff_of_false (fun h => h rfl)
    rintro (hzero | ⟨hne, hzero, -⟩)
    · exact hmonth hzero
    · exact hread.elim hne hzero
  obtain ⟨hne, hzero⟩ := not_or.mp hread
  obtain ⟨fields, rest, hvalue, hfields⟩ := exists_fields value
  by_cases hfit : fields.length ≤ 5
  · rw [completeFields_eq hvalue hfields hlength hwritten hne hzero hmonth hfit]
    exact iff_of_true (Option.some_ne_none _) (Or.inr ⟨hne, hzero, by omega⟩)
  · rw [completeFields_eq_none hvalue hfields hlength hwritten hne hzero hmonth (by omega)]
    apply iff_of_false (fun h => h rfl)
    rintro (hmonth' | ⟨-, -, hshort⟩)
    · exact hmonth hmonth'
    · omega

/-- The number of digits of the year. -/
def yearLength (value : List UInt8) : ℕ :=
  if value.length = 6 ∨ value.length = 10 ∨ value.length = 12 then 2 else 4

/-- The four digits of the year. -/
def yearOf (value : List UInt8) : List UInt8 :=
  if yearLength value = 2 then century (value.getD 0 0) ++ value.take 2 else value.take 4

/-- What is behind the year. -/
def behindYear (value : List UInt8) : List UInt8 := value.drop (yearLength value)

/-- The test for a year of two digits. -/
theorem ofNat_length_eq_iff {n : ℕ} (h : n < 19) :
    (UInt64.ofNat n = 6 ∨ UInt64.ofNat n = 10 ∨ UInt64.ofNat n = 12) ↔
      (n = 6 ∨ n = 10 ∨ n = 12) := by
  revert n
  decide

theorem length_yearOf (h : 4 ≤ value.length) : (yearOf value).length = 4 := by
  have hcentury (c : UInt8) : (century c).length = 2 := by
    rw [century]
    split_ifs <;> rfl
  rw [yearOf]
  split_ifs
  · rw [List.length_append, hcentury, List.length_take]
    omega
  · rw [List.length_take]
    omega

/-- A value that has a year is completed from the month on. -/
theorem completeTimestamp_eq (hyear : 4 ≤ value.length) (hlength : value.length < 19) :
    completeTimestamp value = completeFields (yearOf value ++ [0x2d])
      (UInt64.ofNat ((behindYear value).length + 2)) (behindYear value) := by
  obtain ⟨a, b, c, d, tail, rfl⟩ : ∃ a b c d tail, value = a :: b :: c :: d :: tail := by
    rcases value with - | ⟨a, - | ⟨b, - | ⟨c, - | ⟨d, tail⟩⟩⟩⟩
    · exact absurd hyear (by decide)
    · exact absurd hyear (by simp)
    · exact absurd hyear (by simp)
    · exact absurd hyear (by simp)
    · exact ⟨a, b, c, d, tail, rfl⟩
  rw [completeTimestamp]
  by_cases hshort : (a :: b :: c :: d :: tail).length = 6 ∨
      (a :: b :: c :: d :: tail).length = 10 ∨ (a :: b :: c :: d :: tail).length = 12
  · have hyearLength : yearLength (a :: b :: c :: d :: tail) = 2 := if_pos hshort
    have hyearOf : yearOf (a :: b :: c :: d :: tail) = century a ++ [a, b] := if_pos hyearLength
    rw [if_pos ((ofNat_length_eq_iff hlength).mpr hshort), behindYear, hyearLength, hyearOf,
      List.append_assoc]
    rfl
  · have hyearLength : yearLength (a :: b :: c :: d :: tail) = 4 := if_neg hshort
    have hyearOf : yearOf (a :: b :: c :: d :: tail) = [a, b, c, d] := by
      rw [yearOf, hyearLength]
      rfl
    have hless : UInt64.ofNat (a :: b :: c :: d :: tail).length - 2 =
        UInt64.ofNat (tail.length + 2) := by
      have htwo : (2 : UInt64) = UInt64.ofNat 2 := rfl
      have hlength : (a :: b :: c :: d :: tail).length = tail.length + 2 + 2 := rfl
      rw [hlength, UInt64.ofNat_add, htwo, UInt64.add_sub_cancel]
    rw [if_neg (fun h => hshort ((ofNat_length_eq_iff hlength).mp h)), behindYear, hyearLength,
      hyearOf, hless]
    rfl

/-- Without a year bytes behind the value are read. -/
theorem completeTimestamp_eq_none (h : value.length < 4) : completeTimestamp value = none := by
  have hshort : ¬ (UInt64.ofNat value.length = 6 ∨ UInt64.ofNat value.length = 10 ∨
      UInt64.ofNat value.length = 12) := by
    rw [ofNat_length_eq_iff (by omega)]
    omega
  rw [completeTimestamp]
  rw [if_neg hshort]
  rcases value with - | ⟨a, - | ⟨b, - | ⟨c, - | ⟨d, tail⟩⟩⟩⟩
  · rfl
  · rfl
  · rfl
  · rfl
  · exact absurd h (by simp)

/-- The month and the fields behind it are inside the value, and the fields that are copied are
inside the buffer. -/
def Inside (value : List UInt8) : Prop :=
  value.length = 5 ∧ value.getD 4 0 ≠ 0x30 ∨ 6 ≤ value.length ∧ value.length ≤ 15 ∨
    16 ≤ value.length ∧ (value.drop 4).take 2 = [0x30, 0x30]

/-- `complete_timestamp` keeps to the value and to the buffer exactly if it is so. -/
theorem completeTimestamp_ne_none_iff (hlength : value.length < 19) :
    completeTimestamp value ≠ none ↔ Inside value := by
  by_cases hyear : value.length < 4
  · rw [completeTimestamp_eq_none hyear, Inside]
    exact iff_of_false (fun h => h rfl) (by omega)
  have hbehind : (behindYear value).length = value.length - yearLength value := List.length_drop ..
  have hyearOf : (yearOf value).length = 4 := length_yearOf (by omega)
  rw [completeTimestamp_eq (by omega) hlength,
    completeFields_ne_none_iff (by rw [List.length_append, hyearOf]; rfl) (by omega), hbehind]
  by_cases hshort : value.length = 6 ∨ value.length = 10 ∨ value.length = 12
  · have hyearLength : yearLength value = 2 := if_pos hshort
    have hlong : 4 ≤ (behindYear value).length := by omega
    rw [hyearLength]
    refine iff_of_true (Or.inr ⟨?_, ?_, by omega⟩) (Or.inr (Or.inl (by omega)))
    · intro hnil
      exact absurd (hnil ▸ hlong) (by decide)
    · intro hsingle
      exact absurd (hsingle ▸ hlong) (by decide)
  · have hyearLength : yearLength value = 4 := if_neg hshort
    rw [behindYear, hyearLength, Inside]
    have hgetD : value.getD 4 0 = (value.drop 4).getD 0 0 := by
      rw [List.getD_eq_getElem?_getD, List.getD_eq_getElem?_getD, List.getElem?_drop]
    rw [hgetD]
    rcases hdrop : value.drop 4 with - | ⟨a, - | ⟨b, tail⟩⟩
    · have hfour := congrArg List.length hdrop
      rw [List.length_drop, List.length_nil] at hfour
      apply iff_of_false
      · rintro (hmonth | ⟨hne, -⟩)
        · cases hmonth
        · exact hne rfl
      · omega
    · have hfive := congrArg List.length hdrop
      rw [List.length_drop, List.length_singleton] at hfive
      constructor
      · rintro (hmonth | ⟨-, hzero, -⟩)
        · cases hmonth
        · exact Or.inl ⟨by omega, fun ha => hzero (congrArg (fun a => [a]) ha)⟩
      · rintro (⟨-, ha⟩ | hmore | hmore)
        · exact Or.inr ⟨List.cons_ne_nil _ _, fun h => ha (List.cons.inj h).1, by omega⟩
        · omega
        · omega
    · have hmore := congrArg List.length hdrop
      rw [List.length_drop, List.length_cons, List.length_cons] at hmore
      constructor
      · rintro (hmonth | ⟨-, -, hfew⟩)
        · by_cases hfew : value.length ≤ 15
          · exact Or.inr (Or.inl ⟨by omega, hfew⟩)
          · exact Or.inr (Or.inr ⟨by omega, hmonth⟩)
        · exact Or.inr (Or.inl ⟨by omega, by omega⟩)
      · rintro (⟨hfive, -⟩ | ⟨-, hfew⟩ | ⟨-, hmonth⟩)
        · omega
        · exact Or.inr ⟨List.cons_ne_nil _ _, by simp, by omega⟩
        · exact Or.inl hmonth

/-- The short forms of a timestamp: `YYMMDD`, `YYMMDDHHMM` and `YYMMDDHHMMSS`, and `YYYYMMDD` and
`YYYYMMDDHHMMSS`. -/
inductive ShortForm where
  | two (year month day : Number 2) (time : List (Number 2))
    (length_time : time.length = 0 ∨ time.length = 2 ∨ time.length = 3)
  | four (year : Number 4) (month day : Number 2) (time : List (Number 2))
    (length_time : time.length = 0 ∨ time.length = 3)

/-- The digits of a field. -/
def Number.pair (n : Number 2) : UInt8 × UInt8 := (n.digits.getD 0 0, n.digits.getD 1 0)

theorem Number.digits_eq_pair (n : Number 2) : n.digits = [n.pair.1, n.pair.2] := by
  obtain ⟨a, b, hdigits⟩ := List.length_eq_two.mp n.length_eq
  simp only [Number.pair, hdigits]
  rfl

/-- The year with its century. -/
def fullYear (year : Number 2) : List UInt8 :=
  (if year.value < 70 then [0x32, 0x30] else [0x31, 0x39]) ++ year.digits

/-- A field of the time, or zeros. -/
def timeField (time : List (Number 2)) (k : ℕ) : List UInt8 :=
  (time[k]?.map Number.digits).getD [0x30, 0x30]

/-- `YYYY-MM-DD HH:MM:SS`. -/
def ansiText (year : List UInt8) (month day : Number 2) (time : List (Number 2)) : List UInt8 :=
  year ++ 0x2d :: (month.digits ++ 0x2d :: (day.digits ++ 0x20 :: (timeField time 0 ++ 0x3a ::
    (timeField time 1 ++ 0x3a :: timeField time 2))))

namespace ShortForm

/-- The bytes of the value. -/
def bytes : ShortForm → List UInt8
  | two year month day time _ =>
    year.digits ++ (month.digits ++ (day.digits ++ time.flatMap Number.digits))
  | four year month day time _ =>
    year.digits ++ (month.digits ++ (day.digits ++ time.flatMap Number.digits))

/-- The month. -/
def month : ShortForm → Number 2
  | two _ month _ _ _ => month
  | four _ month _ _ _ => month

/-- The timestamp in full, with zeros for what the value does not have. -/
def text : ShortForm → List UInt8
  | two year month day time _ => ansiText (fullYear year) month day time
  | four year month day time _ => ansiText year.digits month day time

end ShortForm

/-- The century is that of the year. -/
theorem century_eq (year : Number 2) :
    century (year.digits.getD 0 0) = if year.value < 70 then [0x32, 0x30] else [0x31, 0x39] := by
  obtain ⟨a, b, hdigits⟩ := List.length_eq_two.mp year.length_eq
  have hisdigit := year.isdigit_of_mem
  rw [hdigits] at hisdigit
  have ha := hisdigit a (by simp)
  have hb := hisdigit b (by simp)
  have hvalue : year.value = digit a * 10 + digit b := by
    rw [Number.value, hdigits, digitsValue_cons ha, digitsValue_cons hb]
    simp [digitsValue]
  have hle : 0x30 ≤ a.toNat ∧ a.toNat ≤ 0x39 := by
    have hboth : 0x30 ≤ a ∧ a ≤ 0x39 := by simpa [isdigit] using ha
    exact ⟨UInt8.le_iff_toNat_le.mp hboth.1, UInt8.le_iff_toNat_le.mp hboth.2⟩
  have hiff : (a ≤ 0x36 ∨ 0x80 ≤ a) ↔ year.value < 70 := by
    rw [UInt8.le_iff_toNat_le, UInt8.le_iff_toNat_le, hvalue, (digit_eq ha).1]
    have hten := (digit_eq hb).2
    change a.toNat ≤ 0x36 ∨ 0x80 ≤ a.toNat ↔ _
    omega
  rw [hdigits, List.getD_cons_zero, century]
  exact if_congr hiff rfl rfl

/-- Fields in the order of a date and a time, with zeros behind them. -/
theorem groups_fields (month day : Number 2) {time : List (Number 2)} (h : time.length ≤ 3)
    (year : List UInt8) :
    year ++ [0x2d] ++ groups 1 (month.pair :: day.pair :: time.map Number.pair) ++
      groups (time.length + 3) (List.replicate (3 - time.length) (0x30, 0x30)) =
        ansiText year month day time ++ [0x3a] := by
  have hfield (n : Number 2) : n.digits = [n.pair.1, n.pair.2] := n.digits_eq_pair
  rcases time with - | ⟨hour, - | ⟨minute, - | ⟨second, time⟩⟩⟩
  · simp [ansiText, timeField, groups, separator, hfield]
  · simp [ansiText, timeField, groups, separator, hfield]
  · simp [ansiText, timeField, groups, separator, hfield]
  · obtain rfl : time = [] := by
      rw [List.length_cons, List.length_cons, List.length_cons] at h
      exact List.length_eq_zero_iff.mp (by omega)
    simp [ansiText, timeField, groups, separator, hfield]

/-- The digits of fields in the order of a value. -/
theorem digitsOf_map_pair (numbers : List (Number 2)) :
    digitsOf (numbers.map Number.pair) = numbers.flatMap Number.digits := by
  rw [digitsOf, List.flatMap_map]
  congr 1
  funext n
  exact n.digits_eq_pair.symm

/-- The month is zero exactly if its digits are. -/
theorem take_month (month day : Number 2) (time : List UInt8) :
    (month.digits ++ (day.digits ++ time)).take 2 = month.digits :=
  List.take_left' month.length_eq

/-- A value with a date and a time behind the year is completed. -/
theorem completeTimestamp_fields {value : List UInt8} (month day : Number 2)
    {time : List (Number 2)} (h : time.length ≤ 3)
    (hvalue : value.length = yearLength value + (4 + 2 * time.length))
    (hbehind : behindYear value =
      month.digits ++ (day.digits ++ time.flatMap Number.digits)) :
    completeTimestamp value =
      some (if month.digits = [0x30, 0x30] then none
        else some (ansiText (yearOf value) month day time ++ [0x3a])) := by
  have hyear : 2 ≤ yearLength value ∧ yearLength value ≤ 4 := by
    rw [yearLength]
    split_ifs <;> decide
  have hyearOf : (yearOf value).length = 4 := length_yearOf (by omega)
  rw [completeTimestamp_eq (by omega) (by omega)]
  have htake := take_month month day (time.flatMap Number.digits)
  rw [← hbehind] at htake
  by_cases hmonth : month.digits = [0x30, 0x30]
  · rw [if_pos hmonth, completeFields_zero (htake.trans hmonth)]
  · rw [if_neg hmonth]
    have hfields : behindYear value =
        digitsOf (month.pair :: day.pair :: time.map Number.pair) ++ [] := by
      have hmap := digitsOf_map_pair (month :: day :: time)
      rw [List.map_cons, List.map_cons] at hmap
      rw [hmap, hbehind, List.append_nil]
      rfl
    have hcount : (month.pair :: day.pair :: time.map Number.pair).length = time.length + 2 := by
      simp
    have hlength : (behindYear value).length = 4 + 2 * time.length := by
      rw [behindYear, List.length_drop]
      omega
    have hne : behindYear value ≠ [] := fun hnil => by
      rw [hnil, List.length_nil] at hlength
      omega
    have hzero : behindYear value ≠ [0x30] := fun hsingle => by
      rw [hsingle, List.length_singleton] at hlength
      omega
    rw [completeFields_eq hfields (by omega) (by omega)
      (by rw [List.length_append, hyearOf]; rfl) hne hzero (fun h => hmonth (htake.symm.trans h))
      (by omega), hcount, show 1 + (time.length + 2) = time.length + 3 by omega,
      show 5 - (time.length + 2) = 3 - time.length by omega, groups_fields month day h]

theorem length_flatMap_digits (time : List (Number 2)) :
    (time.flatMap Number.digits).length = 2 * time.length := by
  rw [← digitsOf_map_pair, length_digitsOf, List.length_map]

/-- The short forms are completed, unless the month is zero. -/
theorem ShortForm.completeTimestamp_bytes (form : ShortForm) :
    completeTimestamp form.bytes =
      some (if form.month.digits = [0x30, 0x30] then none else some (form.text ++ [0x3a])) := by
  cases form with
  | two year month day time htime =>
    have hlength : (two year month day time htime).bytes.length = 6 + 2 * time.length := by
      rw [bytes, List.length_append, List.length_append, List.length_append, year.length_eq,
        month.length_eq, day.length_eq, length_flatMap_digits]
      omega
    have hyear : yearLength (two year month day time htime).bytes = 2 := by
      rw [yearLength, if_pos (by omega)]
    have hbehind : behindYear (two year month day time htime).bytes =
        month.digits ++ (day.digits ++ time.flatMap Number.digits) := by
      rw [behindYear, hyear, bytes]
      exact List.drop_left' year.length_eq
    have hhead : (two year month day time htime).bytes.getD 0 0 = year.digits.getD 0 0 := by
      obtain ⟨a, b, hdigits⟩ := List.length_eq_two.mp year.length_eq
      rw [bytes, hdigits]
      rfl
    have hyearOf : yearOf (two year month day time htime).bytes = fullYear year := by
      rw [yearOf, if_pos hyear, hhead, bytes, List.take_left' year.length_eq, fullYear, century_eq]
    rw [completeTimestamp_fields month day (by omega) (by omega) hbehind, hyearOf]
    rfl
  | four year month day time htime =>
    have hlength : (four year month day time htime).bytes.length = 8 + 2 * time.length := by
      rw [bytes, List.length_append, List.length_append, List.length_append, year.length_eq,
        month.length_eq, day.length_eq, length_flatMap_digits]
      omega
    have hyear : yearLength (four year month day time htime).bytes = 4 := by
      rw [yearLength, if_neg (by omega)]
    have hbehind : behindYear (four year month day time htime).bytes =
        month.digits ++ (day.digits ++ time.flatMap Number.digits) := by
      rw [behindYear, hyear, bytes]
      exact List.drop_left' year.length_eq
    have hyearOf : yearOf (four year month day time htime).bytes = year.digits := by
      rw [yearOf, if_neg (by omega), bytes]
      exact List.take_left' year.length_eq
    rw [completeTimestamp_fields month day (by omega) (by omega) hbehind, hyearOf]
    rfl

/-- Inside the value and the buffer there is a result, and a short form is completed unless the
month is zero. -/
theorem completeTimestamp_complete {value : List UInt8} (hlength : value.length < 19)
    (hinside : Inside value) :
    (∃ result, completeTimestamp value = some result) ∧ ∀ form : ShortForm, form.bytes = value →
      completeTimestamp value =
        some (if form.month.digits = [0x30, 0x30] then none else some (form.text ++ [0x3a])) := by
  constructor
  · exact Option.ne_none_iff_exists'.mp ((completeTimestamp_ne_none_iff hlength).mpr hinside)
  · rintro form rfl
    exact form.completeTimestamp_bytes

/-- `8001312359` is the last minute of a January. -/
theorem completeTimestamp_complete_minute :
    completeTimestamp [0x38, 0x30, 0x30, 0x31, 0x33, 0x31, 0x32, 0x33, 0x35, 0x39] =
      some (some [0x31, 0x39, 0x38, 0x30, 0x2d, 0x30, 0x31, 0x2d, 0x33, 0x31, 0x20, 0x32, 0x33,
        0x3a, 0x35, 0x39, 0x3a, 0x30, 0x30, 0x3a]) :=
  (completeTimestamp_complete (by decide) (Or.inr (Or.inl ⟨by decide, by decide⟩))).2
    (.two (twoDigits 0x38 0x30 rfl rfl) (twoDigits 0x30 0x31 rfl rfl) (twoDigits 0x33 0x31 rfl rfl)
      [twoDigits 0x32 0x33 rfl rfl, twoDigits 0x35 0x39 rfl rfl] (Or.inr (Or.inl rfl))) rfl

/-- A short form with the month zero is not completed. -/
theorem ShortForm.completeTimestamp_ne {form : ShortForm} (h : form.month.digits = [0x30, 0x30]) :
    completeTimestamp form.bytes ≠ some (some (form.text ++ [0x3a])) := by
  rw [form.completeTimestamp_bytes, if_pos h]
  intro hsome
  cases hsome

/-- `990010` has the month zero. -/
theorem completeTimestamp_noMonth_ne :
    ∃ form : ShortForm, form.bytes = [0x39, 0x39, 0x30, 0x30, 0x31, 0x30] ∧
      completeTimestamp form.bytes ≠ some (some (form.text ++ [0x3a])) :=
  ⟨.two (twoDigits 0x39 0x39 rfl rfl) (twoDigits 0x30 0x30 rfl rfl) (twoDigits 0x31 0x30 rfl rfl) []
    (Or.inl rfl), rfl, ShortForm.completeTimestamp_ne rfl⟩

end MatrixOdbc.Driver.DateTime
