import MatrixOdbc.Driver.BoundParam

/-!
# Dates and times in a text

`get_fractional_part`, `str_to_ts`, `str_to_time_st`, `str_to_date` and `str_to_time_as_long` of
`driver/utility.cc`, byte by byte. A memory is the list of the bytes that may be read from the
pointer on. A function has no result when it reads a byte behind them, or a part of a date that
it has not stored.
-/

namespace MatrixOdbc.Driver.DateTime

deriving instance DecidableEq for CTime

/-- `strlen`. -/
def strlen : List UInt8 → Option ℕ
  | [] => none
  | c :: str => if c = 0 then some 0 else (strlen str).map (· + 1)

/-- `strchr` for a byte that is not the terminator. -/
def strchr (c : UInt8) : List UInt8 → Option (Option ℕ)
  | [] => none
  | b :: str =>
    if b = c then some (some 0)
    else if b = 0 then some none
    else (strchr c str).map (Option.map (· + 1))

/-- `is_prefix`. -/
def isPrefix : List UInt8 → List UInt8 → Option Bool
  | _, [] => some true
  | [], _ :: _ => none
  | b :: s, c :: t => if b = c then isPrefix s t else some false

/-- The loop that looks for the decimal point of the locale. It reads a byte before it tests
whether that is one of the `left` bytes of the text. -/
def findDecimalPoint (decimalPoint : List UInt8) : ℕ → List UInt8 → Option (Option ℕ)
  | _, [] => none
  | 0, _ :: _ => some none
  | left + 1, c :: str =>
    if c = 0 then some none
    else
      let matched := if decimalPoint.head? = some c then isPrefix (c :: str) decimalPoint
        else some false
      if matched = none then none
      else if matched = some true then some (some 0)
      else (findDecimalPoint decimalPoint left str).map (Option.map (· + 1))

/-- The loop that copies the fraction. A byte that is no digit stays where it is, and the buffer
is stepped over to its end. -/
def fillFraction : List UInt8 → List UInt8 → List UInt8
  | b :: buff, c :: str =>
    if isdigit c then c :: fillFraction buff str else b :: fillFraction buff (c :: str)
  | buff, _ => buff

/-- The length of a text; a negative one stands for a text that is terminated. -/
def textLength (memory : List UInt8) (len : ℤ) : Option ℕ :=
  if len < 0 then strlen memory else some len.toNat

/-- The search of `get_fractional_part`. With `dontUseSetLocale` the decimal point is a dot, which
is looked for up to the terminator. -/
def searchDecimalPoint (decimalPoint memory : List UInt8) (len : ℕ) (dontUseSetLocale : Bool) :
    Option (Option ℕ) :=
  if dontUseSetLocale then strchr 0x2e memory else findDecimalPoint decimalPoint len memory

/-- The end of `get_fractional_part`: the decimal point unless it is the last byte, and the
fraction in nanoseconds. -/
def fractionAt (memory : List UInt8) (len decpointLen : ℕ) : Option ℕ → Option ℕ × ℕ
  | some decptr =>
    if decptr + decpointLen < len then
      let str := (memory.take len).drop (decptr + decpointLen)
      let buff := fillFraction (List.replicate 9 0x30 ++ [0]) str
      (some decptr, digitsValue (buff.take 9))
    else (none, 0)
  | none => (none, 0)

/-- `get_fractional_part`: where the decimal point is, and the fraction. -/
def getFractionalPart (decimalPoint memory : List UInt8) (len : ℤ) (dontUseSetLocale : Bool) :
    Option (Option ℕ × ℕ) := do
  let len ← textLength memory len
  let decptr ← searchDecimalPoint decimalPoint memory len dontUseSetLocale
  some (fractionAt memory len (if dontUseSetLocale then 1 else decimalPoint.length) decptr)

/-- A given length. -/
theorem getFractionalPart_natCast (decimalPoint memory : List UInt8) (len : ℕ)
    (dontUseSetLocale : Bool) :
    getFractionalPart decimalPoint memory len dontUseSetLocale =
      (searchDecimalPoint decimalPoint memory len dontUseSetLocale).map
        (fractionAt memory len (if dontUseSetLocale then 1 else decimalPoint.length)) := by
  have hlen : ¬ (len : ℤ) < 0 := by omega
  rw [getFractionalPart, textLength, if_neg hlen, Int.toNat_natCast, Option.bind_eq_bind,
    Option.bind_some, Option.map_eq_bind]
  rfl

/-- What `str_to_ts` returns: 0 with what it stores, `SQLTS_NULL_DATE` or `SQLTS_BAD_DATE`. -/
inductive TsResult where
  | stored (ts : TimestampStruct)
  | nullDate
  | badDate
  deriving DecidableEq

/-- The digits with a century in front where the year has two. -/
def withCentury (digits : List UInt8) : List UInt8 :=
  if digits.length = 6 ∨ digits.length = 12 then
    (if digits.headD 0 ≤ 0x36 then [0x32, 0x30] else [0x31, 0x39]) ++ digits
  else digits

/-- The number in a part of the buffer of `str_to_ts`. -/
def field (buff : List UInt8) (pos len : ℕ) : ℕ := digitsValue ((buff.drop pos).take len)

/-- `str_to_ts` from its 14 digits on. -/
def tsOfDigits (buff : List UInt8) (fraction : ℕ) (zeroToMin : Bool) : TsResult :=
  let noMonth := (buff.drop 4).take 2 = [0x30, 0x30]
  let noDay := (buff.drop 6).take 2 = [0x30, 0x30]
  if (noMonth ∨ noDay) ∧ zeroToMin = false then .nullDate
  else
    let buff := if noMonth then buff.set 5 0x31 else buff
    let buff := if noDay then buff.set 7 0x31 else buff
    .stored
      { year := field buff 0 4
        month := field buff 4 2
        day := field buff 6 2
        hour := field buff 8 2
        minute := field buff 10 2
        second := field buff 12 2
        fraction := fraction }

/-- `str_to_ts` from the text in front of the fraction on. -/
def tsOfText (text : List UInt8) (fraction : ℕ) (zeroToMin : Bool) : TsResult :=
  let digits := text.filter isdigit
  if 14 < digits.length then .badDate
  else
    let buff := withCentury digits
    tsOfDigits (buff ++ List.replicate (14 - buff.length) 0x30) fraction zeroToMin

/-- `str_to_ts`. -/
def strToTs (decimalPoint memory : List UInt8) (len : ℤ) (zeroToMin dontUseSetLocale : Bool) :
    Option TsResult := do
  let len ← textLength memory len
  let part ← getFractionalPart decimalPoint memory len dontUseSetLocale
  some (tsOfText (memory.take (part.1.getD len)) part.2 zeroToMin)

/-- A given length. -/
theorem strToTs_natCast {decimalPoint memory : List UInt8} {len : ℕ} {zeroToMin : Bool}
    {dontUseSetLocale : Bool} {decptr : Option ℕ} {fraction : ℕ}
    (h : getFractionalPart decimalPoint memory len dontUseSetLocale = some (decptr, fraction)) :
    strToTs decimalPoint memory len zeroToMin dontUseSetLocale =
      some (tsOfText (memory.take (decptr.getD len)) fraction zeroToMin) := by
  have hlen : ¬ (len : ℤ) < 0 := by omega
  rw [strToTs, textLength, if_neg hlen, Int.toNat_natCast, Option.bind_eq_bind, Option.bind_some, h]
  rfl

/-- A digit in front of the first token. -/
def consDigit (c : UInt8) : List (List UInt8) → List (List UInt8)
  | [] => [[c]]
  | token :: tokens => (c :: token) :: tokens

/-- The loop of `str_to_time_st` with so many bytes of its buffer left and the number of the token
that is being read: this token and those behind it. -/
def timeTokens : ℕ → ℕ → List UInt8 → Option (List (List UInt8))
  | _, _, [] => none
  | room, num, c :: str =>
    if c = 0 ∨ room = 0 then some [[]]
    else if isdigit c then (timeTokens (room - 1) num str).map (consDigit c)
    else if num < 2 then (timeTokens (room - 1) (num + 1) str).map ([] :: ·)
    else some [[]]

/-- `atoi` of digits. -/
def atoiDigits (digits : List UInt8) : ℤ := (min (digitsValue digits : ℤ) (2 ^ 63 - 1)).bmod (2 ^ 32)

/-- The end of `str_to_time_st`: too many seconds and minutes are carried. -/
def carryTime (hour minute second : ℤ) : CTime :=
  let minute := if 59 < second then (minute + second / 60).bmod (2 ^ 32) else minute
  let second := if 59 < second then second % 60 else second
  let hour := if 59 < minute then (hour + minute / 60).bmod (2 ^ 32) else hour
  let minute := if 59 < minute then minute % 60 else minute
  { hour := ((if hour < 65536 then hour else 65535) % 2 ^ 16).toNat
    minute := (minute % 2 ^ 16).toNat
    second := (second % 2 ^ 16).toNat }

/-- `str_to_time_st`. The buffer has 24 bytes. -/
def strToTimeSt (memory : List UInt8) : Option CTime :=
  (timeTokens 23 0 memory).map fun tokens =>
    carryTime (atoiDigits (tokens.getD 0 [])) (atoiDigits (tokens.getD 1 []))
      (atoiDigits (tokens.getD 2 []))

/-- The first loop of `str_to_date` and of `str_to_time_as_long`. It reads a byte before it tests
for the end. -/
def skipToDigit : List UInt8 → Option (List UInt8)
  | [] => none
  | c :: str => if isdigit c then some (c :: str) else skipToDigit str

/-- The loop over the bytes that are no digits behind a field. -/
def skipSeparators (str : List UInt8) : List UInt8 := str.dropWhile (!isdigit ·)

/-- `(uchar) (*str - '0')`. -/
def digit (c : UInt8) : ℕ := (c - 0x30).toNat

/-- The loop over the digits of a field of a date, with `field_length`. -/
def dateField : ℕ → ℕ → List UInt8 → ℕ × List UInt8
  | tmpValue, fieldLength + 1, c :: str =>
    if isdigit c then dateField ((tmpValue * 10 + digit c) % 2 ^ 32) fieldLength str
    else (tmpValue, c :: str)
  | tmpValue, _, str => (tmpValue, str)

/-- The main loop of `str_to_date` for so many more fields. -/
def dateFields : ℕ → ℕ → List UInt8 → List ℕ
  | 0, _, _ => []
  | _ + 1, _, [] => []
  | fields + 1, fieldLength, c :: str =>
    let (value, str) := dateField (digit c) fieldLength str
    value :: dateFields fields 1 (skipSeparators str)

/-- `SQL_DATE_STRUCT`. -/
structure DateStruct where
  year : ℕ
  month : ℕ
  day : ℕ
  deriving DecidableEq

/-- `str_to_date` from the fields that were found on; no date is the null date. -/
def dateOfFields (date : List ℕ) (zeroToMin : Bool) : Option (Option DateStruct) :=
  let i := date.length
  if i ≤ 1 ∨ (1 < i ∧ date[1]? = some 0) ∨ (2 < i ∧ date[2]? = some 0) then
    if zeroToMin = false then some none
    else do
      let year ← date[0]?
      let month := if date.getD 1 0 = 0 then 1 else date.getD 1 0
      let day := if date.getD 2 0 = 0 then 1 else date.getD 2 0
      some (some ⟨year, month, day⟩)
  else do
    let date := date ++ List.replicate (3 - i) 1
    some (some ⟨← date[0]?, ← date[1]?, ← date[2]?⟩)

/-- `str_to_date`. -/
def strToDate (text : List UInt8) (zeroToMin : Bool) : Option (Option DateStruct) := do
  let str ← skipToDigit text
  let digits := (str.takeWhile isdigit).length
  let yearLength := if digits = 4 ∨ digits = 8 ∨ 14 ≤ digits then 4 else 2
  dateOfFields (dateFields 3 (yearLength - 1) str) zeroToMin

/-- The main loop of `str_to_time_as_long` for so many more fields: the fields, and the text
behind them. -/
def timeFields : ℕ → List UInt8 → List ℕ × List UInt8
  | 0, str => ([], str)
  | _ + 1, [] => ([], [])
  | fields + 1, c :: str =>
    let value := (str.takeWhile isdigit).foldl (fun n c => (n * 10 + digit c) % 2 ^ 32) (digit c)
    let (date, rest) := timeFields fields (skipSeparators (str.dropWhile isdigit))
    (value :: date, rest)

/-- `str_to_time_as_long` from the fields of its loop on. -/
def timeOfFields (date : List ℕ) : Option ℕ := do
  let first ← date[0]?
  if 10000 < first ∨ date.length < 3 then some first
  else some (first * 10000 + (date.getD 1 0 * 100 + date.getD 2 0))

theorem length_skipSeparators_le (str : List UInt8) : (skipSeparators str).length ≤ str.length :=
  (List.dropWhile_suffix _).length_le

/-- The first loop stops at a digit. -/
theorem skipToDigit_eq_some {text str : List UInt8} (h : skipToDigit text = some str) :
    str.length ≤ text.length ∧ ∃ c rest, str = c :: rest ∧ isdigit c = true := by
  induction text with
  | nil => cases h
  | cons c text ih =>
    rw [skipToDigit] at h
    split_ifs at h with hc
    · obtain rfl := Option.some.inj h
      exact ⟨le_refl _, c, text, rfl, hc⟩
    · obtain ⟨hle, hdigit⟩ := ih h
      exact ⟨Nat.le_succ_of_le hle, hdigit⟩

/-- What is behind the fields is no longer than the text. -/
theorem length_timeFields_le (fields : ℕ) (str : List UInt8) :
    (timeFields fields str).2.length ≤ str.length := by
  induction fields generalizing str with
  | zero => exact le_refl _
  | succ fields ih =>
    cases str with
    | nil => exact le_refl _
    | cons c str =>
      have hskip := length_skipSeparators_le (str.dropWhile isdigit)
      have hdrop := (List.dropWhile_suffix (l := str) isdigit).length_le
      have hrest := ih (skipSeparators (str.dropWhile isdigit))
      rw [timeFields, List.length_cons]
      dsimp only
      omega

/-- A field takes at least its first byte. -/
theorem length_timeFields_lt {fields : ℕ} {text str : List UInt8}
    (h : skipToDigit text = some str) :
    (timeFields (fields + 1) str).2.length < text.length := by
  obtain ⟨hle, c, rest, rfl, -⟩ := skipToDigit_eq_some h
  have hskip := length_skipSeparators_le (rest.dropWhile isdigit)
  have hdrop := (List.dropWhile_suffix (l := rest) isdigit).length_le
  have hrest := length_timeFields_le fields (skipSeparators (rest.dropWhile isdigit))
  rw [List.length_cons] at hle
  rw [timeFields]
  dsimp only
  omega

/-- `str_to_time_as_long`. A text that goes on behind three fields is taken for a timestamp, and
the time is looked for in the rest. -/
def strToTimeAsLong (text : List UInt8) : Option ℕ :=
  if text = [] then some 0
  else
    match _h : skipToDigit text with
    | none => none
    | some str =>
      if (timeFields 3 str).2 = [] then timeOfFields (timeFields 3 str).1
      else strToTimeAsLong (timeFields 3 str).2
  termination_by text.length
  decreasing_by exact length_timeFields_lt _h

/-- Without a digit only the empty text has a time. -/
theorem strToTimeAsLong_eq_none {text : List UInt8} (hne : text ≠ [])
    (h : skipToDigit text = none) : strToTimeAsLong text = none := by
  rw [strToTimeAsLong, if_neg hne]
  split
  · rfl
  · next hstr =>
    rw [h] at hstr
    cases hstr

/-- One call, from the first digit on. -/
theorem strToTimeAsLong_eq {text str : List UInt8} (h : skipToDigit text = some str) :
    strToTimeAsLong text =
      if (timeFields 3 str).2 = [] then timeOfFields (timeFields 3 str).1
      else strToTimeAsLong (timeFields 3 str).2 := by
  have hne : text ≠ [] := by
    rintro rfl
    cases h
  rw [strToTimeAsLong, if_neg hne]
  split
  · next hnone =>
    rw [hnone] at h
    cases h
  · next hstr =>
    obtain rfl := Option.some.inj (h.symm.trans hstr)
    rfl

end MatrixOdbc.Driver.DateTime
