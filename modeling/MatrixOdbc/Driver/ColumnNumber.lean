import MatrixOdbc.Driver.OutParams
import MatrixOdbc.Foundations.BigEndian
import MatrixOdbc.Foundations.Decimal
import Mathlib.Data.List.TakeWhile

/-!
# The numbers of a column

`get_int64`, `get_uint64` and `get_string` read a column of the current row. A statement that
was prepared on the server has the column in the buffer that it bound, with a type, a size and
a sign of its own; every other statement has the text that the server sent.
-/

namespace MatrixOdbc.Driver

open MatrixOdbc.Foundations

/-- `strtoll` to base 10. -/
def strtoll (s : List UInt8) : ℤ :=
  let s := s.dropWhile isspaceByte
  let negative := s.head? = some 0x2d
  let s := if s.head? = some 0x2d ∨ s.head? = some 0x2b then s.drop 1 else s
  let n := decimalValue (s.takeWhile fun c => 0x30 ≤ c && c ≤ 0x39)
  if negative then max (-2 ^ 63) (-n) else min (2 ^ 63 - 1) n

/-- The loop of `binary2numeric`. -/
def binary2numericLoop (dst : BitVec 64) : List UInt8 → BitVec 64
  | [] => dst
  | byte :: src => binary2numericLoop (dst + byte.toBitVec.setWidth 64 <<< (src.length * 8)) src

/-- `binary2numeric`, for both types of 64 bits. With more than eight bytes the loop goes on
without an end. -/
def binary2numeric (src : List UInt8) : Option (BitVec 64) :=
  if src.length ≤ 8 then some (binary2numericLoop 0 src) else none

/-- The types of buffers that hold a whole number. -/
inductive BufferType where
  | tiny | short | int24 | long | longlong | year | bit
  deriving DecidableEq

/-- A buffer that a result is bound to: its bytes are as many as `buffer_length` says. -/
structure ResultBind where
  bufferType : BufferType
  buffer : List UInt8
  /-- What `length` points to. -/
  length : ℕ
  isNull : Bool
  isUnsigned : Bool

/-- The number in the first bytes, the lowest first. -/
def loadBytes (buffer : List UInt8) : ℕ := bigEndianValue buffer.reverse

/-- A number of so many bits as one of 64 bits, read with a sign or without one. -/
def loadNumber (width : ℕ) (signed : Bool) (buffer : List UInt8) : BitVec 64 :=
  if signed then (BitVec.ofNat width (loadBytes buffer)).signExtend 64
  else (BitVec.ofNat width (loadBytes buffer)).setWidth 64

/-- `ssps_get_int64`: the bits are the same for `long long` and `unsigned long long`. One byte
is a `char` in both branches, whose sign is the compiler's choice. -/
def sspsGetInt64 (charSigned : Bool) (colRbind : ResultBind) : Option (BitVec 64) :=
  match colRbind.bufferType with
  | .bit => binary2numeric (colRbind.buffer.take colRbind.length)
  | _ =>
    some <|
      if colRbind.isNull then 0
      else
        match colRbind.buffer.length with
        | 1 =>
          if colRbind.isUnsigned then loadNumber 8 charSigned colRbind.buffer
          else loadNumber 8 charSigned colRbind.buffer
        | 2 => loadNumber 16 (!colRbind.isUnsigned) colRbind.buffer
        | 4 => loadNumber 32 (!colRbind.isUnsigned) colRbind.buffer
        | 8 => loadNumber 64 (!colRbind.isUnsigned) colRbind.buffer
        | _ => 0

/-- `ssps_get_string`: the number is printed to a buffer of 29 bytes. -/
def sspsGetString (charSigned : Bool) (colRbind : ResultBind) : Option (List UInt8) :=
  if colRbind.isNull then none
  else do
    let number ← sspsGetInt64 charSigned colRbind
    return (if colRbind.isUnsigned then Decimal.text number.toNat
      else Decimal.signedText number.toInt).take 28

/-- A column of the current row: the buffer it is bound to where the statement is prepared on
the server, the text up to its end where it is not. -/
structure RowColumn where
  ssps : Bool
  colRbind : ResultBind
  value : List UInt8

/-- `get_int64`. -/
def getInt64 (charSigned : Bool) (column : RowColumn) : Option ℤ :=
  if column.ssps then (sspsGetInt64 charSigned column.colRbind).map BitVec.toInt
  else some (strtoll (column.value.takeWhile (· ≠ 0)))

/-- `get_uint64`. -/
def getUint64 (charSigned : Bool) (column : RowColumn) : Option ℕ :=
  if column.ssps then (sspsGetInt64 charSigned column.colRbind).map BitVec.toNat
  else some (strtoull (column.value.takeWhile (· ≠ 0))).toNat

/-- `get_string`. -/
def getStringValue (charSigned : Bool) (column : RowColumn) : Option (List UInt8) :=
  if column.ssps then sspsGetString charSigned column.colRbind
  else some (column.value.takeWhile (· ≠ 0))

/-- The bytes are a number with the most significant one first. -/
theorem binary2numericLoop_eq (dst : BitVec 64) (src : List UInt8) :
    binary2numericLoop dst src = dst + BitVec.ofNat 64 (bigEndianValue src) := by
  induction src generalizing dst with
  | nil => simp [binary2numericLoop, bigEndianValue]
  | cons byte src ih =>
    have hbyte : byte.toBitVec.setWidth 64 <<< (src.length * 8) =
        BitVec.ofNat 64 (byte.toNat * 256 ^ src.length) := by
      apply BitVec.eq_of_toNat_eq
      rw [BitVec.toNat_shiftLeft, BitVec.toNat_setWidth, BitVec.toNat_ofNat, Nat.shiftLeft_eq,
        Nat.mul_comm src.length, pow_mul]
      have hlt : byte.toBitVec.toNat < 2 ^ 64 := byte.toBitVec.isLt.trans (by decide)
      rw [Nat.mod_eq_of_lt hlt]
      rfl
    rw [binary2numericLoop, ih, hbyte, bigEndianValue_cons, BitVec.ofNat_add, BitVec.add_assoc]

/-- Up to eight bytes are read. -/
theorem binary2numeric_eq {src : List UInt8} (h : src.length ≤ 8) :
    binary2numeric src = some (BitVec.ofNat 64 (bigEndianValue src)) := by
  rw [binary2numeric, if_pos h, binary2numericLoop_eq]
  exact congrArg some (BitVec.zero_add _)

theorem decimalValue_eq (digits : List UInt8) : decimalValue digits = Decimal.value digits := rfl

/-- Digits are no blanks. -/
theorem dropWhile_isspaceByte_digits {digits : List UInt8}
    (h : ∀ c ∈ digits, Decimal.IsDigit c) : digits.dropWhile isspaceByte = digits := by
  cases digits with
  | nil => rfl
  | cons c digits =>
    obtain ⟨hlow, hhigh⟩ := h c List.mem_cons_self
    have hblank : isspaceByte c = false := by
      simp only [isspaceByte, Bool.or_eq_false_iff, Bool.and_eq_false_iff, decide_eq_false_iff_not]
      refine ⟨?_, Or.inr ?_⟩
      · rintro rfl
        exact absurd hlow (by decide)
      · intro hle
        have hle' : c.toNat ≤ 0x0d := hle
        omega
    rw [List.dropWhile_cons, hblank]
    rfl

/-- Digits are read to their end. -/
theorem takeWhile_digits {digits : List UInt8} (h : ∀ c ∈ digits, Decimal.IsDigit c) :
    (digits.takeWhile fun c => 0x30 ≤ c && c ≤ 0x39) = digits := by
  rw [List.takeWhile_eq_self_iff]
  intro c hc
  obtain ⟨hlow, hhigh⟩ := h c hc
  simp only [Bool.and_eq_true, decide_eq_true_eq]
  exact ⟨hlow, hhigh⟩

/-- No digit is a sign. -/
theorem head_digits {digits : List UInt8} (h : ∀ c ∈ digits, Decimal.IsDigit c) :
    digits.head? ≠ some 0x2d ∧ digits.head? ≠ some 0x2b := by
  cases digits with
  | nil => exact ⟨nofun, nofun⟩
  | cons c digits =>
    obtain ⟨hlow, -⟩ := h c List.mem_cons_self
    refine ⟨?_, ?_⟩
    · rintro hc
      obtain rfl := Option.some.inj hc
      exact absurd hlow (by decide)
    · rintro hc
      obtain rfl := Option.some.inj hc
      exact absurd hlow (by decide)

/-- `strtoull` reads digits that fit. -/
theorem strtoull_digits {digits : List UInt8} (h : ∀ c ∈ digits, Decimal.IsDigit c)
    (hfits : Decimal.value digits < 2 ^ 64) :
    strtoull digits = BitVec.ofNat 64 (Decimal.value digits) := by
  obtain ⟨hminus, hplus⟩ := head_digits h
  simp only [strtoull, dropWhile_isspaceByte_digits h, hminus, hplus, or_self, if_false,
    takeWhile_digits h, decimalValue_eq, if_neg (Nat.not_le.mpr hfits)]

/-- `strtoull` reads digits behind a minus, too. -/
theorem strtoull_minus {digits : List UInt8} (h : ∀ c ∈ digits, Decimal.IsDigit c)
    (hfits : Decimal.value digits < 2 ^ 64) :
    strtoull (0x2d :: digits) = -BitVec.ofNat 64 (Decimal.value digits) := by
  have hdrop : (0x2d :: digits).dropWhile isspaceByte = 0x2d :: digits := by
    rw [List.dropWhile_cons]
    rfl
  simp only [strtoull, hdrop, List.head?_cons, true_or, if_true, List.drop_succ_cons,
    List.drop_zero, takeWhile_digits h, decimalValue_eq, if_neg (Nat.not_le.mpr hfits)]

/-- `strtoll` reads digits up to the largest number. -/
theorem strtoll_digits {digits : List UInt8} (h : ∀ c ∈ digits, Decimal.IsDigit c) :
    strtoll digits = min (2 ^ 63 - 1) (Decimal.value digits : ℤ) := by
  obtain ⟨hminus, hplus⟩ := head_digits h
  simp only [strtoll, dropWhile_isspaceByte_digits h, hminus, hplus, or_self, if_false,
    takeWhile_digits h, decimalValue_eq]

/-- `strtoll` reads digits behind a minus down to the smallest number. -/
theorem strtoll_minus {digits : List UInt8} (h : ∀ c ∈ digits, Decimal.IsDigit c) :
    strtoll (0x2d :: digits) = max (-2 ^ 63) (-(Decimal.value digits : ℤ)) := by
  have hdrop : (0x2d :: digits).dropWhile isspaceByte = 0x2d :: digits := by
    rw [List.dropWhile_cons]
    rfl
  simp only [strtoll, hdrop, List.head?_cons, true_or, if_true, List.drop_succ_cons,
    List.drop_zero, takeWhile_digits h, decimalValue_eq]

end MatrixOdbc.Driver
