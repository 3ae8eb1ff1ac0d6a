import MatrixOdbc.Driver.SqlNumeric
import MatrixOdbc.Foundations.CText

/-!
# The text of an SQL_NUMERIC_STRUCT

`sqlnum_to_str` writes the text of the number backwards, from the last byte of a buffer on.
The digits come from eight words, the highest first, that are divided by ten; then the decimal
point, the truncation and the zeros of a negative scale are put in place. The memory around the
buffer is part of the model, and every write is noted.
-/

namespace MatrixOdbc.Driver

open CText

/-- The memory, the writes that were made to it, as places with a number of bytes, and the
place of the next byte, `numstr`. -/
structure NumText where
  mem : ℤ → UInt8
  writes : List (ℤ × ℕ)
  numstr : ℤ

namespace NumText

/-- A byte is written. -/
def put (text : NumText) (place : ℤ) (c : UInt8) : NumText :=
  { text with
    mem := Function.update text.mem place c
    writes := (place, 1) :: text.writes }

/-- `*numstr--= c`. -/
def prepend (text : NumText) (c : UInt8) : NumText :=
  { text.put text.numstr c with numstr := text.numstr - 1 }

/-- `memset`. -/
def fill (text : NumText) (place : ℤ) (c : UInt8) (count : ℕ) : NumText :=
  { text with
    mem := fun q => if place ≤ q ∧ q < place + count then c else text.mem q
    writes := (place, count) :: text.writes }

end NumText

/-- `sqlnum_unscale_be`, from the first word on. -/
def unscaleBe : List ℕ → List ℕ
  | high :: low :: ary => high / 10 :: unscaleBe ((low + high % 10 * 2 ^ 16) % 2 ^ 32 :: ary)
  | ary => ary
  termination_by ary => ary.length

/-- `sqlnum_unscale_be`. -/
def sqlnumUnscaleBe (ary : List ℕ) (start : ℕ) : List ℕ :=
  ary.take start ++ unscaleBe (ary.drop start)

/-- The words of the bytes, the lowest first. -/
def wordsOf : List UInt8 → List ℕ
  | low :: high :: val => (high.toNat * 256 + low.toNat) :: wordsOf val
  | _ => []

/-- The search for a word that is not empty. It has no end of its own: the source goes on
behind the array, which is the index 8 here. -/
def skipEmpty (expanded : List ℕ) (maxSpace : ℕ) : ℕ :=
  maxSpace + ((expanded.drop maxSpace).takeWhile (· = 0)).length

/-- The variables of the loop; `outside` when the search has left the array. -/
structure DigitLoop where
  text : NumText
  expanded : List ℕ
  maxSpace : ℕ
  calcprec : ℕ
  outside : Bool

namespace DigitLoop

/-- The last word. -/
def lastWord (loop : DigitLoop) : ℕ := loop.expanded.getD 7 0

/-- `while (!expanded[max_space]) ++max_space`. What the words behind the array are is not
known; the search is taken to end at the first one. -/
def skip (loop : DigitLoop) : DigitLoop :=
  { loop with
    maxSpace := skipEmpty loop.expanded loop.maxSpace
    outside := loop.outside || decide (8 ≤ skipEmpty loop.expanded loop.maxSpace) }

/-- The special case for zero. -/
def zero (loop : DigitLoop) : DigitLoop :=
  if loop.text.mem (loop.text.numstr + 1) = 0 then
    { loop with text := loop.text.prepend 0x30, calcprec := 1 }
  else loop

/-- A digit is written, and the decimal point in front of the last decimal. -/
def digit (loop : DigitLoop) (reqscale : ℤ) (j : ℕ) : DigitLoop :=
  let text := loop.text.prepend (Decimal.digitByte (loop.lastWord % 10))
  { loop with
    text := if (j : ℤ) = reqscale - 1 then text.prepend 0x2e else text
    expanded := loop.expanded.set 7 (loop.lastWord / 10)
    calcprec := loop.calcprec + 1 }

/-- The loop over the digits, for `j` and so many digits from there on. -/
def extractDigits (reqscale : ℤ) : ℕ → ℕ → DigitLoop → DigitLoop
  | 0, _, loop => loop
  | digits + 1, j, loop =>
    let loop := loop.skip
    if 7 ≤ loop.maxSpace then
      if loop.lastWord = 0 then loop.zero
      else extractDigits reqscale digits (j + 1) (loop.digit reqscale j)
    else
      extractDigits reqscale digits (j + 1)
        ({ loop with
          expanded := sqlnumUnscaleBe loop.expanded loop.maxSpace }.digit reqscale j)

end DigitLoop

/-- `SQLNUM_TRUNC_FRAC` and `SQLNUM_TRUNC_WHOLE`. -/
inductive SqlnumTrunc where
  | no | frac | whole
  deriving DecidableEq

namespace NumText

/-- Zeros in front of the digits while there are less than the scale has, the decimal point and
one more zero; the scale that is left. -/
def addPoint (text : NumText) (calcprec : ℕ) (reqscale : ℤ) : NumText × ℤ :=
  if calcprec < reqscale then
    ((((fun text => prepend text 0x30)^[(reqscale - calcprec).toNat] text).prepend 0x2e).prepend
      0x30, calcprec)
  else (text, reqscale)

/-- Digits are cut off from the end while there are too many, and decimals are left: the place
behind them, and how many digits and decimals are left. -/
def cutDigits (reqprec : ℕ) : ℕ → NumText → ℤ → ℕ → NumText × ℤ × ℕ × ℕ
  | 0, text, last, calcprec => (text, last, calcprec, 0)
  | reqscale + 1, text, last, calcprec =>
    if reqprec < calcprec then
      cutDigits reqprec reqscale (text.put last 0) (last - 1) (calcprec - 1)
    else (text, last, calcprec, reqscale + 1)

/-- Fractional truncation. The end of the text is looked for from the byte in front of it. -/
def truncate (text : NumText) (terminator : ℤ) (calcprec : ℕ) (reqscale : ℤ) (reqprec : ℕ) :
    NumText × ℕ × ℤ × SqlnumTrunc :=
  if reqprec < calcprec ∧ 0 < reqscale then
    let last := text.numstr + strlen text.mem (terminator - text.numstr).toNat text.numstr - 1
    match cutDigits reqprec reqscale.toNat text last calcprec with
    | (text, last, calcprec, reqscale) =>
      if reqprec < calcprec ∧ reqscale = 0 then (text, calcprec, reqscale, .whole)
      else (if text.mem last = 0x2e then text.put last 0 else text, calcprec, reqscale, .frac)
  else (text, calcprec, reqscale, .no)

/-- So many bytes are moved down, from the `i`-th one on. -/
def moveDown (reqscale : ℤ) : ℕ → ℤ → NumText → NumText
  | 0, _, text => text
  | count + 1, i, text =>
    moveDown reqscale count (i + 1)
      (text.put (text.numstr + i - reqscale) (text.mem (text.numstr + i)))

/-- Zeros for a negative scale. The scale changes its sign in an `SQLSCHAR`, which has no 128. -/
def addZeros (text : NumText) (calcprec : ℕ) (reqscale : ℤ) : NumText :=
  let reqscale := if reqscale = -128 then -128 else -reqscale
  let text := text.moveDown reqscale calcprec 1
  let text := { text with numstr := text.numstr - reqscale }
  text.fill (text.numstr + calcprec + 1) 0x30 (reqscale % 2 ^ 64).toNat

end NumText

/-- `SQL_NUMERIC_STRUCT` with its sixteen bytes. -/
structure SqlNumericStruct where
  precision : ℕ
  scale : ℤ
  sign : UInt8
  val : Vector UInt8 16

namespace SqlNumericStruct

/-- The number in the bytes. -/
def number (sqlnum : SqlNumericStruct) : ℕ :=
  Nat.ofDigits 256 (sqlnum.val.toList.map UInt8.toNat)

end SqlNumericStruct

/-- What `sqlnum_to_str` leaves: the struct, the buffer, `numbegin` when it was set, the
truncation, and whether the array of the words was left. -/
structure SqlnumText where
  sqlnum : SqlNumericStruct
  text : NumText
  numbegin : Option ℤ
  trunc : SqlnumTrunc
  outside : Bool

/-- What follows the truncation: nothing when digits of the whole number would be lost. -/
def SqlnumText.finish (sqlnum : SqlNumericStruct) (outside : Bool) :
    NumText × ℕ × ℤ × SqlnumTrunc → SqlnumText
  | (text, _, _, .whole) =>
    { sqlnum := sqlnum, text := text, numbegin := none, trunc := .whole, outside := outside }
  | (text, calcprec, reqscale, trunc) =>
    let text := if reqscale < 0 then text.addZeros calcprec reqscale else text
    let text := if sqlnum.sign = 0 then text.prepend 0x2d else text
    { sqlnum := { sqlnum with precision := calcprec }, text := text,
      numbegin := some (text.numstr + 1), trunc := trunc, outside := outside }

/-- `sqlnum_to_str`, from the last byte of the buffer on. -/
def sqlnumToStr (sqlnum : SqlNumericStruct) (mem : ℤ → UInt8) (numstr : ℤ) (reqprec : UInt8)
    (reqscale : Int8) : SqlnumText :=
  let loop := DigitLoop.extractDigits reqscale.toInt 39 0
    { text := ({ mem := mem, writes := [], numstr := numstr } : NumText).prepend 0
      expanded := (wordsOf sqlnum.val.toList).reverse
      maxSpace := 0
      calcprec := 0
      outside := false }
  let pointed := loop.text.addPoint loop.calcprec reqscale.toInt
  .finish { sqlnum with scale := reqscale.toInt } loop.outside
    (pointed.1.truncate numstr loop.calcprec pointed.2 reqprec.toNat)

end MatrixOdbc.Driver
