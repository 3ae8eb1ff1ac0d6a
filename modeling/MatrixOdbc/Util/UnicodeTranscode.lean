import MatrixOdbc.Foundations.Buffer
import MatrixOdbc.Foundations.Loop
import MatrixOdbc.Foundations.Utf
import MatrixOdbc.Util.StringUtil

/-!
# Unicode transcoding

The conversions of `util/unicode_transcode.cc` and the two functions of
`util/stringutil.cc` that apply them to a whole string, for `SQLWCHAR` of two
bytes. A pointer into a text is the list of the units or bytes from there on, and
a UTF-32 character is a number below `2 ^ 32`.
-/

namespace MatrixOdbc.Util

open WhileLoop

/-- The number of values of a `UTF32`. -/
def utf32Size : ℕ := 2 ^ 32

/-- `utf16toutf32`: the number of units consumed and the character. -/
def utf16toutf32 (i : List SQLWCHAR) : ℕ × ℕ :=
  let high := (charAt i 0).toNat
  if 0xd800 ≤ high ∧ high ≤ 0xdbff then
    let u := 0x10000 ||| ((high &&& 0x3ff) <<< 10)
    let low := (charAt i 1).toNat
    if low < 0xdc00 ∨ 0xdfff < low then (0, u) else (2, u ||| (low &&& 0x3ff))
  else (1, high)

/-- `utf32toutf16`: the units produced. -/
def utf32toutf16 (i : ℕ) : List SQLWCHAR :=
  if i < 0xffff then [UInt16.ofNat (i &&& 0xffff)]
  else if i < 0x10ffff then
    let i := (i + utf32Size - 0x10000) % utf32Size
    [UInt16.ofNat (0xd800 ||| (i >>> 10)), UInt16.ofNat (0xdc00 ||| (i &&& 0x3ff))]
  else []

/-- The loop of `utf8toutf32` over `x` bytes behind the first: whether all of
them are continuation bytes, and the character read so far. -/
def utf8toutf32Tail : ℕ → List UInt8 → ℕ → Bool × ℕ
  | 0, _, u => (true, u)
  | x + 1, i, u =>
    let byte := (i.headD 0).toNat
    let u := (u <<< 6) ||| (byte &&& 0x3f)
    if byte >>> 6 ≠ 2 then (false, u) else utf8toutf32Tail x i.tail u

/-- `utf8toutf32`: the number of bytes consumed, or 0, and the character. -/
def utf8toutf32 (i : List UInt8) : ℕ × ℕ :=
  let byte := (i.headD 0).toNat
  if byte < 0x80 then (1, byte)
  else
    let (len, u) :=
      if byte < 0xe0 then (2, byte &&& 0x1f)
      else if byte < 0xf0 then (3, byte &&& 0x0f)
      else (4, byte &&& 0x07)
    let (valid, u) := utf8toutf32Tail (len - 1) i.tail u
    (if valid then len else 0, u)

/-- The loop of `utf32toutf8` that writes `x` continuation bytes. -/
def utf32toutf8Tail (i : ℕ) : ℕ → List UInt8
  | 0 => []
  | x + 1 => UInt8.ofNat ((1 <<< 7) ||| ((i >>> (6 * x)) &&& 0x3f)) :: utf32toutf8Tail i x

/-- `utf32toutf8`: the bytes produced. -/
def utf32toutf8 (i : ℕ) : List UInt8 :=
  if i < 0x80 then [UInt8.ofNat (i &&& 0x7f)]
  else if i < 0x800 then UInt8.ofNat ((3 <<< 6) ||| (i >>> 6)) :: utf32toutf8Tail i 1
  else if i < 0x10000 then UInt8.ofNat ((7 <<< 5) ||| (i >>> 12)) :: utf32toutf8Tail i 2
  else if i < 0x10ffff then UInt8.ofNat ((0xf <<< 4) ||| (i >>> 18)) :: utf32toutf8Tail i 3
  else []

/-- A character becomes four bytes at most. -/
theorem length_utf32toutf8_le (i : ℕ) : (utf32toutf8 i).length ≤ 4 := by
  rw [utf32toutf8]
  split_ifs
  all_goals simp [utf32toutf8Tail]

/-- `MAX_BYTES_PER_UTF8_CP`. -/
def MAX_BYTES_PER_UTF8_CP : ℕ := 4

/-- The local variables of `sqlwchar_as_utf8_ext` in its loop. -/
structure EncodeState where
  str : ℕ
  i : ℕ
  u8 : List UInt8
  utf8mb4Used : Bool

/-- One evaluation of the loop of `sqlwchar_as_utf8_ext`. -/
def encodeBody (str : List SQLWCHAR) (strEnd : ℕ) (s : EncodeState) :
    Step EncodeState EncodeState :=
  if strEnd ≤ s.str then .done s
  else
    let (consumed, u32) := utf16toutf32 (str.drop s.str)
    if consumed = 0 then .done s
    else
      let c := utf32toutf8 u32
      .next ⟨s.str + consumed, s.i + c.length, Buffer.store s.u8 s.i c,
        s.utf8mb4Used || c.length == 4⟩

/-- What `sqlwchar_as_utf8_ext` leaves behind: the memory at the returned
pointer, `none` for NULL, and the values of its output parameters. -/
structure EncodeResult where
  u8 : Option (List UInt8)
  len : ℤ
  utf8mb4Used : Bool

/-- The bytes that the result announces. -/
def EncodeResult.text (r : EncodeResult) : List UInt8 := (r.u8.getD []).take r.len.toNat

/-- `sqlwchar_as_utf8_ext`. The parameter `malloc` gives the block that is
allocated for a size, or `none`; `utf8mb4Used` is the flag before the call. -/
def sqlwcharAsUtf8Ext (malloc : ℕ → Option (List UInt8)) (str : Option (List SQLWCHAR))
    (len : Option ℤ) (buff : Option (List UInt8)) (buffMax : ℕ) (utf8mb4Used : Bool) :
    Option EncodeResult :=
  let len := len.getD (sqlwcharlen (str.getD []))
  match str with
  | none => some ⟨buff, 0, utf8mb4Used⟩
  | some str =>
    if len ≤ 0 then some ⟨buff, 0, utf8mb4Used⟩
    else
      let chars := len.toNat
      let u8 := if buff.isNone ∨ buffMax < chars * MAX_BYTES_PER_UTF8_CP then
        malloc (MAX_BYTES_PER_UTF8_CP * chars + 1) else buff
      match u8 with
      | none => some ⟨none, -1, utf8mb4Used⟩
      | some u8 =>
        (run (encodeBody str chars) (chars + 1) ⟨0, 0, u8, utf8mb4Used⟩).map fun s =>
          ⟨some s.u8, s.i, s.utf8mb4Used⟩

/-- The local variables of `utf8_as_sqlwchar` and the buffer it fills. -/
structure DecodeState where
  i : ℕ
  pos : ℕ
  out : List SQLWCHAR

/-- One evaluation of the loop of `utf8_as_sqlwchar`. -/
def decodeBody (outEnd : ℕ) (bytes : List UInt8) (inLen : ℕ) (s : DecodeState) :
    Step DecodeState DecodeState :=
  if inLen ≤ s.i ∨ outEnd ≤ s.pos then .done s
  else
    let (consumed, u32) := utf8toutf32 (bytes.drop s.i)
    if consumed = 0 then .done s
    else
      let units := utf32toutf16 u32
      .next ⟨s.i + consumed, s.pos + units.length, Buffer.store s.out s.pos units⟩

/-- A number as it is returned in an `SQLSMALLINT`. -/
def toSmallint (n : ℕ) : ℤ := (n : ℤ).bmod (2 ^ 16)

/-- `utf8_as_sqlwchar`: the buffer `out` after the call and the number returned. -/
def utf8AsSqlwchar (out : List SQLWCHAR) (outMax : ℕ) (bytes : List UInt8) (inLen : ℕ) :
    Option (List SQLWCHAR × ℤ) :=
  (run (decodeBody outMax bytes inLen) (inLen + 1) ⟨0, 0, out⟩).map fun s =>
    (Buffer.store s.out s.pos [0], toSmallint s.pos)

end MatrixOdbc.Util
