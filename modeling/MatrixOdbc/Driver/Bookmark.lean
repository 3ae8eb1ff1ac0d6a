import MatrixOdbc.Driver.IntegerRange
import MatrixOdbc.Driver.WideResult
import MatrixOdbc.Util.UnicodeTranscode

/-!
# Bookmarks

`sql_get_bookmark_data` of `driver/results.cc` with `copy_binary_result`, for the
first call on a row, when `getdata.source` is NULL. The function gets the decimal
text of a row number. What it writes is kept for every address, so that a byte
outside the buffer is seen. What `strtod` makes of the text, and the numbers that a
statement prepared on the server has in the column of that number, are arbitrary.
-/

namespace MatrixOdbc.Driver

open MatrixOdbc.Foundations Util WhileLoop

/-- The C types that a bookmark can be requested as. -/
inductive BookmarkCType where
  | concise (cType : NumberCType)
  | SQL_C_DEFAULT
  | SQL_ARD_TYPE
  | other
  deriving DecidableEq

/-- What was written: the last byte at every address, or nothing. -/
abbrev Written8 := ℕ → Option UInt8

/-- Bytes are written from an address on. -/
def Written8.store (written : Written8) (addr : ℕ) (bytes : List UInt8) : Written8 :=
  fun a => if addr ≤ a ∧ a < addr + bytes.length then bytes[a - addr]? else written a

/-- The bytes of a number, the lowest first. -/
def numberBytes (size : ℕ) (number : ℤ) : List UInt8 :=
  (bigEndian size (number % 256 ^ size).toNat).reverse

/-- The bytes of wide characters. -/
def wideBytes (units : List SQLWCHAR) : List UInt8 :=
  units.flatMap fun unit => numberBytes 2 unit.toNat

/-- A call of `sql_get_bookmark_data`. The address `rgbValue` is zero for NULL, and
the flag `pcbValue` tells whether a length is asked for. The type in `arrec` is there
unless the record is missing. -/
structure BookmarkCall where
  fCType : BookmarkCType
  arrec : Option BookmarkCType
  rgbValue : ℕ
  cbValueMax : ℕ
  pcbValue : Bool
  row : ℕ
  row_lt : row < 2 ^ 64
  opts : StmtOptions
  strtodFloat : BitVec 32
  strtodDouble : BitVec 64
  ssps : Bool
  sspsInt64 : BitVec 64
  sspsUint64 : BitVec 64
  sspsFloat : BitVec 32
  sspsDouble : BitVec 64

/-- What a call leaves behind. -/
structure BookmarkOutcome where
  rc : SQLRETURN
  written : Written8
  pcbValue : Option ℤ

namespace BookmarkCall

variable (call : BookmarkCall)

/-- `value`, as `std::to_string` prints the row number. -/
def value : List UInt8 := Decimal.text call.row

/-- `get_int`, `get_uint`, `get_int64`, `get_uint64` and `get_double`. -/
def getInt : ℤ :=
  Int.bmod (if call.ssps then call.sspsInt64.toInt else strtoll call.value) (2 ^ 32)
@[inherit_doc getInt] def getUint : ℕ :=
  (if call.ssps then call.sspsUint64.toNat else (strtoull call.value).toNat) % 2 ^ 32
@[inherit_doc getInt] def getInt64 : ℤ :=
  if call.ssps then call.sspsInt64.toInt else strtoll call.value
@[inherit_doc getInt] def getUint64 : ℕ :=
  if call.ssps then call.sspsUint64.toNat else (strtoull call.value).toNat
@[inherit_doc getInt] def getFloat : ℕ :=
  (if call.ssps then call.sspsFloat else call.strtodFloat).toNat
@[inherit_doc getInt] def getDouble : ℕ :=
  (if call.ssps then call.sspsDouble else call.strtodDouble).toNat

/-- The cases for numbers: the size of the type and the number that is written. -/
def number : NumberCType → Option (ℕ × ℤ)
  | .SQL_C_TINYINT | .SQL_C_STINYINT => some (1, call.getInt)
  | .SQL_C_UTINYINT => some (1, call.getUint)
  | .SQL_C_SHORT | .SQL_C_SSHORT => some (2, call.getInt)
  | .SQL_C_USHORT => some (2, call.getUint)
  | .SQL_C_LONG | .SQL_C_SLONG =>
    some (4, if looksLikeDate call.value then dateInteger call.value else call.getInt64)
  | .SQL_C_ULONG => some (4, call.getUint64)
  | .SQL_C_FLOAT => some (4, call.getFloat)
  | .SQL_C_DOUBLE => some (8, call.getDouble)
  | .SQL_C_SBIGINT => some (8, call.getInt64)
  | .SQL_C_UBIGINT => some (8, call.getUint64)
  | _ => none

/-- An error, which writes nothing. -/
def refused : BookmarkOutcome := ⟨.SQL_ERROR, fun _ => none, none⟩

/-- A case for a number, behind what was written before. -/
def storeNumber (written : Written8) (size : ℕ) (number : ℤ) : BookmarkOutcome where
  rc := .SQL_SUCCESS
  written :=
    if call.rgbValue ≠ 0 ∧ call.opts.retrieveData then
      written.store call.rgbValue (numberBytes size number)
    else written
  pcbValue := some size

/-- `copy_binary_result` for the first call, and the terminator behind it. -/
def copyText : BookmarkOutcome :=
  let length := call.value.length
  let srcBytes :=
    if call.opts.maxLength ≠ 0 ∧ call.opts.maxLength < length then call.opts.maxLength else length
  let copyBytes := min call.cbValueMax srcBytes
  let written : Written8 :=
    if call.rgbValue ≠ 0 ∧ call.opts.retrieveData then
      Written8.store (fun _ => none) call.rgbValue (call.value.take copyBytes)
    else fun _ => none
  let resultEnd := call.rgbValue + min length call.cbValueMax
  { rc := if call.cbValueMax < srcBytes then .SQL_SUCCESS_WITH_INFO else .SQL_SUCCESS
    written := if resultEnd = 0 then written else written.store resultEnd [0]
    pcbValue := if call.opts.retrieveData then some srcBytes else none }

/-- The room for wide characters, as an `SQLINTEGER`. -/
def wideRoom : ℤ := Int.bmod (call.cbValueMax / 2 : ℕ) (2 ^ 32)

/-- The case `SQL_C_WCHAR`, which goes on with the one of `SQL_C_TINYINT`. The
terminator is written unless its address is NULL. -/
def copyWide : Option BookmarkOutcome :=
  if call.opts.retrieveData then do
    let (units, ret) ← utf8AsSqlwchar [] call.wideRoom.toNat call.value call.value.length
    let written : Written8 :=
      if call.rgbValue = 0 ∧ units.length = 1 then fun _ => none
      else Written8.store (fun _ => none) call.rgbValue (wideBytes units)
    if ret = 0 then return ⟨.SQL_SUCCESS_WITH_INFO, written, none⟩
    else return call.storeNumber written 1 call.getInt
  else return call.storeNumber (fun _ => none) 1 call.getInt

/-- The type that the switch sees; there is none without a record. -/
def target : Option BookmarkCType :=
  match call.fCType with
  | .SQL_C_DEFAULT => some (.concise .SQL_C_BINARY)
  | .SQL_ARD_TYPE => call.arrec
  | cType => some cType

/-- `sql_get_bookmark_data`. -/
def sqlGetBookmarkData : Option BookmarkOutcome :=
  if call.cbValueMax < 8 then some refused
  else
    match call.target with
    | none => some refused
    | some (.concise .SQL_C_CHAR) | some (.concise .SQL_C_BINARY) => some call.copyText
    | some (.concise .SQL_C_WCHAR) => call.copyWide
    | some (.concise cType) =>
      match call.number cType with
      | some (size, number) => some (call.storeNumber (fun _ => none) size number)
      | none => some refused
    | some _ => some refused

/-- The bytes of the row number in a type, if the type has it. Texts end with a
terminator. -/
def form : NumberCType → Option (List UInt8)
  | .SQL_C_CHAR => some (call.value ++ [0])
  | .SQL_C_BINARY => some call.value
  | .SQL_C_WCHAR => some (wideBytes (call.value.map (fun c => UInt16.ofNat c.toNat) ++ [0]))
  | .SQL_C_FLOAT => some (numberBytes 4 call.strtodFloat.toNat)
  | .SQL_C_DOUBLE => some (numberBytes 8 call.strtodDouble.toNat)
  | cType =>
    match cType.range, call.number cType with
    | some (low, high), some (size, _) =>
      if low ≤ call.row ∧ call.row ≤ high then some (numberBytes size call.row) else none
    | _, _ => none

/-- The length of the row number in a type. -/
def formLength : NumberCType → ℕ
  | .SQL_C_CHAR | .SQL_C_BINARY => call.value.length
  | .SQL_C_WCHAR => 2 * call.value.length
  | cType => ((call.number cType).map Prod.fst).getD 0

/-- The row number is in the buffer, if there is one, and its length is the matching one. -/
def Delivered (out : BookmarkOutcome) : Prop :=
  ∃ cType, call.target = some (.concise cType) ∧
    (call.rgbValue ≠ 0 → ∃ bytes, call.form cType = some bytes ∧
      ∀ i < bytes.length, out.written (call.rgbValue + i) = bytes[i]?) ∧
    (call.pcbValue = true → out.pcbValue = some (call.formLength cType : ℤ))

/-- Nothing outside the buffer is written, and what is not delivered is reported. -/
structure DeliversOrReports (out : BookmarkOutcome) : Prop where
  inside : ∀ a, out.written a ≠ none →
    call.rgbValue ≠ 0 ∧ call.rgbValue ≤ a ∧ a < call.rgbValue + call.cbValueMax
  delivered : out.rc = .SQL_SUCCESS_WITH_INFO ∨ out.rc = .SQL_ERROR ∨
    (out.rc = .SQL_SUCCESS ∧ call.Delivered out)

/-- The number that a statement prepared on the server has in the column. -/
def columnNumber : NumberCType → ℤ
  | .SQL_C_UTINYINT | .SQL_C_USHORT | .SQL_C_ULONG | .SQL_C_UBIGINT => call.sspsUint64.toNat
  | .SQL_C_FLOAT => call.sspsFloat.toNat
  | .SQL_C_DOUBLE => call.sspsDouble.toNat
  | _ => call.sspsInt64.toInt

/-- The row number in a type for numbers. -/
def rowNumber : NumberCType → ℤ
  | .SQL_C_FLOAT => call.strtodFloat.toNat
  | .SQL_C_DOUBLE => call.strtodDouble.toNat
  | _ => call.row

/-- A text is delivered when it is shorter than the buffer and not cut. -/
def TextFits : Prop :=
  call.rgbValue ≠ 0 ∧ call.value.length < call.cbValueMax ∧ call.opts.retrieveData = true ∧
    (call.opts.maxLength = 0 ∨ call.value.length ≤ call.opts.maxLength)

/-- There is no room for a wide character, or no length is asked for and the text with
its terminator fits, and its first byte is the lowest byte of the number. -/
def WideFits : Prop :=
  (call.opts.retrieveData = true ∧ call.wideRoom ≤ 0) ∨
  (call.pcbValue = false ∧
    ((call.opts.retrieveData = false ∧ call.rgbValue = 0) ∨
      (call.opts.retrieveData = true ∧ call.rgbValue ≠ 0 ∧ call.value.length ≤ call.wideRoom ∧
        2 * (call.value.length + 1) ≤ call.cbValueMax ∧
        (numberBytes 1 call.getInt)[0]? = call.value[0]?)))

/-- There is no buffer, or the type has the row number, and so has the column of a
statement prepared on the server. -/
def NumberFits (cType : NumberCType) (size : ℕ) : Prop :=
  call.rgbValue = 0 ∨
  (call.opts.retrieveData = true ∧
    (∀ low high, cType.range = some (low, high) → call.row ≤ high) ∧
    (call.ssps = true → call.columnNumber cType % 256 ^ size = call.rowNumber cType % 256 ^ size))

/-- The call is refused, or what it delivers fits. -/
def Fits : Prop :=
  call.cbValueMax < 8 ∨
    match call.target with
    | some (.concise .SQL_C_CHAR) | some (.concise .SQL_C_BINARY) => call.TextFits
    | some (.concise .SQL_C_WCHAR) => call.WideFits
    | some (.concise cType) => ∀ size number, call.number cType = some (size, number) →
        call.NumberFits cType size
    | _ => True

end BookmarkCall

namespace Written8

variable {written : Written8} {addr : ℕ} {bytes : List UInt8}

theorem store_add {i : ℕ} (h : i < bytes.length) : written.store addr bytes (addr + i) = bytes[i]? := by
  rw [store, if_pos ⟨Nat.le_add_right _ _, by omega⟩, Nat.add_sub_cancel_left]

theorem store_of_notMem {a : ℕ} (h : ¬ (addr ≤ a ∧ a < addr + bytes.length)) :
    written.store addr bytes a = written a := if_neg h

/-- The addresses that are written. -/
theorem store_ne_none {a : ℕ} : written.store addr bytes a ≠ none ↔
    (addr ≤ a ∧ a < addr + bytes.length) ∨ written a ≠ none := by
  by_cases h : addr ≤ a ∧ a < addr + bytes.length
  · obtain ⟨i, rfl⟩ := Nat.exists_eq_add_of_le h.1
    have hi : i < bytes.length := by omega
    rw [store_add hi, List.getElem?_eq_getElem hi]
    exact iff_of_true (Option.some_ne_none _) (Or.inl h)
  · rw [store_of_notMem h]
    exact ⟨Or.inr, fun h' => h'.resolve_left h⟩

end Written8

@[simp] theorem length_numberBytes (size : ℕ) (number : ℤ) : (numberBytes size number).length = size := by
  rw [numberBytes, List.length_reverse, length_bigEndian]

/-- Bytes are the same for numbers that agree up to the size. -/
theorem numberBytes_inj {size : ℕ} {n m : ℤ} :
    numberBytes size n = numberBytes size m ↔ n % 256 ^ size = m % 256 ^ size := by
  have hpos : (0 : ℤ) < 256 ^ size := by positivity
  have hn := Int.emod_nonneg n hpos.ne'
  have hm := Int.emod_nonneg m hpos.ne'
  have hltn := Int.emod_lt_of_pos n hpos
  have hltm := Int.emod_lt_of_pos m hpos
  have hcast : ((256 ^ size : ℕ) : ℤ) = 256 ^ size := by push_cast; rfl
  have htoNat {k : ℤ} (h : k < 256 ^ size) (h₀ : 0 ≤ k) : k.toNat % 256 ^ size = k.toNat := by
    apply Nat.mod_eq_of_lt
    omega
  rw [numberBytes, numberBytes, List.reverse_inj, bigEndian_inj, htoNat hltn hn, htoNat hltm hm]
  omega

/-- A byte as a wide character. -/
theorem numberBytes_two (c : UInt8) : numberBytes 2 ((UInt16.ofNat c.toNat).toNat : ℤ) = [c, 0] := by
  have hc := c.toNat_lt
  have hunit : (UInt16.ofNat c.toNat).toNat = c.toNat := by
    rw [UInt16.toNat_ofNat']
    omega
  have hmod : ((c.toNat : ℤ) % 256 ^ 2).toNat = c.toNat := by omega
  have hhigh : c.toNat / 256 = 0 := by omega
  rw [hunit, numberBytes, hmod]
  simp [bigEndian, hhigh]

/-- The wide characters of bytes. -/
theorem wideBytes_map (text : List UInt8) :
    wideBytes (text.map fun c => UInt16.ofNat c.toNat) = text.flatMap fun c => [c, 0] := by
  rw [wideBytes, List.flatMap_map]
  congr 1
  funext c
  exact numberBytes_two c

theorem wideBytes_append (units units' : List SQLWCHAR) :
    wideBytes (units ++ units') = wideBytes units ++ wideBytes units' := by
  simp [wideBytes]

theorem wideBytes_zero : wideBytes [0] = [0, 0] := by decide

theorem length_flatMap_pair (text : List UInt8) :
    (text.flatMap fun c => [c, 0]).length = 2 * text.length := by
  induction text with
  | nil => rfl
  | cons c text ih =>
    rw [List.flatMap_cons, List.length_append, ih, List.length_cons]
    simp only [List.length_cons, List.length_nil]
    omega

theorem getElem?_flatMap_pair (text rest : List UInt8) {i : ℕ} (hi : i < text.length) :
    (text.flatMap (fun c => [c, 0]) ++ rest)[2 * i]? = text[i]? := by
  induction text generalizing i with
  | nil => exact absurd hi (Nat.not_lt_zero i)
  | cons c text ih =>
    cases i with
    | zero => rfl
    | succ i =>
      rw [List.flatMap_cons, Nat.mul_succ]
      exact ih (Nat.lt_of_succ_lt_succ hi)

/-- Small numbers are returned as they are. -/
theorem toSmallint_eq {n : ℕ} (h : n < 2 ^ 15) : toSmallint n = n := by
  unfold toSmallint
  simp only [Int.bmod]
  omega

/-- The wide characters that digits are read as. -/
def wideDigits (text : List UInt8) : List SQLWCHAR := text.map fun c => UInt16.ofNat c.toNat

/-- One digit is decoded while there is room. -/
theorem decodeBody_digit {room i : ℕ} {text : List UInt8} (hdigits : ∀ c ∈ text, Decimal.IsDigit c)
    (hi : i < text.length) (hroom : i < room) :
    decodeBody room text text.length ⟨i, i, wideDigits (text.take i)⟩ =
      .next ⟨i + 1, i + 1, wideDigits (text.take (i + 1))⟩ := by
  obtain ⟨-, hlow⟩ := hdigits text[i] (List.getElem_mem hi)
  have hchar : utf8toutf32 (text.drop i) = (1, text[i].toNat) := by
    rw [List.drop_eq_getElem_cons hi, utf8toutf32]
    exact if_pos (show text[i].toNat < 0x80 by omega)
  have hunit : utf32toutf16 text[i].toNat = [UInt16.ofNat text[i].toNat] := by
    have hmask : text[i].toNat &&& 0xffff = text[i].toNat := by
      rw [show 0xffff = 2 ^ 16 - 1 from rfl, Nat.and_two_pow_sub_one_eq_mod]
      omega
    rw [utf32toutf16, if_pos (by omega), hmask]
  have hlength : i = (wideDigits (text.take i)).length := by
    rw [wideDigits, List.length_map, List.length_take]
    omega
  have hstore : Buffer.store (wideDigits (text.take i)) i [UInt16.ofNat text[i].toNat] =
      wideDigits (text.take (i + 1)) := by
    have hnew := @Buffer.store_append _ _ [] [UInt16.ofNat text[i].toNat] _ hlength
    rw [List.append_nil] at hnew
    rw [hnew, List.take_succ_eq_append_getElem hi, List.drop_nil, List.append_nil]
    simp only [wideDigits, List.map_append, List.map_cons, List.map_nil]
  rw [decodeBody, if_neg (by dsimp only; omega), hchar]
  simp only [if_neg Nat.one_ne_zero, hunit, hstore, List.length_singleton]

/-- Digits are decoded one for one until the room is used up. -/
theorem run_decodeBody_digits {room fuel i : ℕ} {text : List UInt8}
    (hdigits : ∀ c ∈ text, Decimal.IsDigit c) (hi : i ≤ min text.length room)
    (hfuel : min text.length room - i < fuel) :
    run (decodeBody room text text.length) fuel ⟨i, i, wideDigits (text.take i)⟩ =
      some ⟨min text.length room, min text.length room, wideDigits (text.take room)⟩ := by
  induction fuel generalizing i with
  | zero => exact absurd hfuel (Nat.not_lt_zero _)
  | succ fuel ih =>
    by_cases hend : i = min text.length room
    · have htake : text.take i = text.take room := by
        rw [hend, Nat.min_comm, ← List.take_eq_take_min]
      have hstop : text.length ≤ i ∨ room ≤ i := by omega
      rw [run_succ_done (by rw [decodeBody, if_pos hstop]), htake, hend]
    · rw [run_succ_next (decodeBody_digit hdigits (by omega) (by omega))]
      exact ih (by omega) (by omega)

/-- The wide characters of digits, as many as there is room for, and a terminator. -/
theorem utf8AsSqlwchar_digits {text : List UInt8} (room : ℕ)
    (hdigits : ∀ c ∈ text, Decimal.IsDigit c) :
    utf8AsSqlwchar [] room text text.length =
      some (wideDigits (text.take room) ++ [0], toSmallint (min text.length room)) := by
  have hrun := @run_decodeBody_digits room (text.length + 1) 0 text hdigits
    (Nat.zero_le _) (by omega)
  have hlength : min text.length room = (wideDigits (text.take room)).length := by
    rw [wideDigits, List.length_map, List.length_take, Nat.min_comm]
  have hstore := @Buffer.store_append _ _ [] [(0 : SQLWCHAR)] _ hlength
  rw [List.append_nil, List.drop_nil, List.append_nil] at hstore
  rw [utf8AsSqlwchar]
  rw [show wideDigits (text.take 0) = [] from rfl] at hrun
  rw [hrun, Option.map_some, hstore]

namespace BookmarkCall

variable {call : BookmarkCall}

theorem value_isDigit {c : UInt8} (h : c ∈ call.value) : Decimal.IsDigit c := Decimal.isDigit_text h

theorem value_length_pos : 0 < call.value.length := List.length_pos_of_ne_nil (Decimal.text_ne_nil _)

theorem value_length_le : call.value.length ≤ 20 := by
  apply Decimal.length_text_le (by decide)
  have := call.row_lt
  omega

theorem looksLikeDate_value : looksLikeDate call.value = false := by
  have hminus : call.value[4]? ≠ some 0x2d := by
    intro h
    have hdigit := value_isDigit (List.mem_of_getElem? h)
    exact absurd hdigit.1 (by decide)
  simp [looksLikeDate, hminus]

/-- The text is read as the row number, which is cut at the largest `long long`. -/
theorem strtoll_value : strtoll call.value = min (2 ^ 63 - 1) (call.row : ℤ) := by
  rw [strtoll_digits fun c hc => value_isDigit hc, value, Decimal.value_text]

theorem strtoull_value : (strtoull call.value).toNat = call.row := by
  have hlt := call.row_lt
  have hvalue : Decimal.value call.value = call.row := Decimal.value_text _
  rw [strtoull_digits (fun c hc => value_isDigit hc) (by omega), hvalue, BitVec.toNat_ofNat,
    Nat.mod_eq_of_lt hlt]

/-- A number is delivered exactly when its bytes are those of the row number, if there
is a buffer. -/
theorem storeNumber_deliversOrReports_iff {cType : NumberCType} {size : ℕ} {number : ℤ}
    (htarget : call.target = some (.concise cType)) (hlength : call.formLength cType = size)
    (hpos : 0 < size) (hroom : size ≤ call.cbValueMax)
    (hform : ∀ bytes, call.form cType = some bytes → bytes.length = size) :
    call.DeliversOrReports (call.storeNumber (fun _ => none) size number) ↔
      call.rgbValue = 0 ∨ (call.opts.retrieveData = true ∧
        call.form cType = some (numberBytes size number)) := by
  by_cases hbuffer : call.rgbValue = 0
  · refine iff_of_true ⟨?_, ?_⟩ (Or.inl hbuffer)
    · intro a ha
      simp [storeNumber, hbuffer] at ha
    · refine Or.inr (Or.inr ⟨rfl, cType, htarget, fun h => absurd hbuffer h, fun _ => ?_⟩)
      rw [hlength]
      rfl
  by_cases hretrieve : call.opts.retrieveData = true
  swap
  · refine iff_of_false ?_ (by simp [hbuffer, hretrieve])
    rintro ⟨-, hdelivered⟩
    obtain ⟨-, cType', htarget', hcontent, -⟩ := (hdelivered.resolve_left (by
      intro h; cases h)).resolve_left (by intro h; cases h)
    obtain rfl : cType = cType' := by simpa [htarget] using htarget'
    obtain ⟨bytes, hbytes, hwritten⟩ := hcontent hbuffer
    have hzero := hwritten 0 (by rw [hform bytes hbytes]; exact hpos)
    rw [List.getElem?_eq_getElem (by rw [hform bytes hbytes]; exact hpos)] at hzero
    simp [storeNumber, hretrieve] at hzero
  have hwritten : (call.storeNumber (fun _ => none) size number).written =
      Written8.store (fun _ => none) call.rgbValue (numberBytes size number) :=
    if_pos ⟨hbuffer, hretrieve⟩
  have hinside : ∀ a, (call.storeNumber (fun _ => none) size number).written a ≠ none →
      call.rgbValue ≠ 0 ∧ call.rgbValue ≤ a ∧ a < call.rgbValue + call.cbValueMax := by
    intro a ha
    rw [hwritten, Written8.store_ne_none, length_numberBytes] at ha
    obtain ⟨hle, hlt⟩ := ha.resolve_right (by simp)
    exact ⟨hbuffer, hle, by omega⟩
  constructor
  · rintro ⟨-, hdelivered⟩
    obtain ⟨-, cType', htarget', hcontent, -⟩ := (hdelivered.resolve_left (by
      intro h; cases h)).resolve_left (by intro h; cases h)
    obtain rfl : cType = cType' := by simpa [htarget] using htarget'
    obtain ⟨bytes, hbytes, hsame⟩ := hcontent hbuffer
    have hsize := hform bytes hbytes
    refine Or.inr ⟨hretrieve, ?_⟩
    rw [hbytes]
    congr 1
    apply List.ext_getElem?
    intro i
    by_cases hi : i < size
    · rw [← hsame i (by omega), hwritten, Written8.store_add (by rwa [length_numberBytes])]
    · rw [List.getElem?_eq_none (by omega), List.getElem?_eq_none (by rw [length_numberBytes]; omega)]
  · intro h
    obtain ⟨-, hbytes⟩ := h.resolve_left hbuffer
    refine ⟨hinside, Or.inr (Or.inr ⟨rfl, cType, htarget, fun _ => ⟨_, hbytes, ?_⟩, fun _ => ?_⟩)⟩
    · intro i hi
      rw [hwritten, Written8.store_add hi]
    · rw [hlength]
      rfl

/-- A number of 32 bits has the low bytes of the number it is cut from. -/
theorem emod_of_emod_eq {x y : ℤ} {size : ℕ} (hsize : size ≤ 4) (h : x % 2 ^ 32 = y % 2 ^ 32) :
    x % 256 ^ size = y % 256 ^ size := by
  have hdvd : (256 : ℤ) ^ size ∣ 2 ^ 32 := by
    have hpow : (256 : ℤ) ^ size = 2 ^ (8 * size) := by
      rw [pow_mul]
      norm_num
    rw [hpow]
    exact pow_dvd_pow 2 (by omega)
  rw [← Int.emod_emod_of_dvd x hdvd, h, Int.emod_emod_of_dvd y hdvd]

theorem getInt_emod {size : ℕ} (hsize : size ≤ 4) :
    call.getInt % 256 ^ size = call.getInt64 % 256 ^ size := by
  apply emod_of_emod_eq hsize
  rw [getInt, getInt64]
  exact Int.bmod_emod

theorem getUint_emod {size : ℕ} (hsize : size ≤ 4) :
    (call.getUint : ℤ) % 256 ^ size = (call.getUint64 : ℤ) % 256 ^ size := by
  apply emod_of_emod_eq hsize
  rw [getUint, getUint64]
  omega

/-- The bytes that are written are those of the row number exactly when the type has the
number, and so has the column of a statement prepared on the server. -/
theorem form_eq_iff {cType : NumberCType} {size : ℕ} {number low high : ℤ}
    (hrange : cType.range = some (low, high)) (hlow : low ≤ 0)
    (hform : call.form cType =
      if low ≤ call.row ∧ call.row ≤ high then some (numberBytes size call.row) else none)
    (hrow : call.rowNumber cType = call.row)
    (hssps : call.ssps = true → number % 256 ^ size = call.columnNumber cType % 256 ^ size)
    (htext : call.ssps = false → call.row ≤ high → number % 256 ^ size = call.row % 256 ^ size) :
    call.form cType = some (numberBytes size number) ↔
      (∀ low high, cType.range = some (low, high) → call.row ≤ high) ∧
        (call.ssps = true →
          call.columnNumber cType % 256 ^ size = call.rowNumber cType % 256 ^ size) := by
  have hhigh : (∀ low high, cType.range = some (low, high) → (call.row : ℤ) ≤ high) ↔
      (call.row : ℤ) ≤ high := by
    constructor
    · exact fun h => h low high hrange
    · intro h low' high' hrange'
      rw [hrange] at hrange'
      cases hrange'
      exact h
  rw [hform, hhigh, hrow]
  by_cases hfits : (call.row : ℤ) ≤ high
  · have hboth : low ≤ call.row ∧ (call.row : ℤ) ≤ high := ⟨by omega, hfits⟩
    rw [if_pos hboth, Option.some_inj, numberBytes_inj]
    cases hprepared : call.ssps with
    | false => exact iff_of_true (htext hprepared hfits).symm ⟨hfits, fun h => by cases h⟩
    | true =>
      rw [hssps hprepared]
      exact ⟨fun h => ⟨hfits, fun _ => h.symm⟩, fun h => (h.2 rfl).symm⟩
  · rw [if_neg fun h => hfits h.2]
    exact iff_of_false (fun h => by cases h) fun h => hfits h.1

/-- What is read with a sign. -/
theorem getInt64_cases : (call.ssps = true → call.getInt64 = call.sspsInt64.toInt) ∧
    (call.ssps = false → (call.row : ℤ) ≤ 2 ^ 63 - 1 → call.getInt64 = call.row) := by
  constructor
  · intro h
    rw [getInt64, if_pos h]
  · intro h hle
    rw [getInt64, h, if_neg Bool.false_ne_true, strtoll_value, min_eq_right hle]

/-- What is read without a sign. -/
theorem getUint64_cases : (call.ssps = true → call.getUint64 = call.sspsUint64.toNat) ∧
    (call.ssps = false → call.getUint64 = call.row) := by
  constructor
  · intro h
    rw [getUint64, if_pos h]
  · intro h
    rw [getUint64, h, if_neg Bool.false_ne_true, strtoull_value]

/-- The cases of the switch for numbers. -/
structure NumberCase (call : BookmarkCall) (cType : NumberCType) (size : ℕ) (number : ℤ) : Prop where
  pos : 0 < size
  le : size ≤ 8
  formLength : call.formLength cType = size
  length : ∀ bytes, call.form cType = some bytes → bytes.length = size
  form : call.form cType = some (numberBytes size number) ↔
    (∀ low high, cType.range = some (low, high) → call.row ≤ high) ∧
      (call.ssps = true →
        call.columnNumber cType % 256 ^ size = call.rowNumber cType % 256 ^ size)

theorem length_of_form {cType : NumberCType} {size : ℕ} {low high : ℤ} {bytes : List UInt8}
    (hform : call.form cType =
      if low ≤ call.row ∧ call.row ≤ high then some (numberBytes size call.row) else none)
    (h : call.form cType = some bytes) : bytes.length = size := by
  rw [hform] at h
  split_ifs at h
  rw [← Option.some.inj h, length_numberBytes]

/-- A type that is read with a sign. -/
theorem numberCase_signed {cType : NumberCType} {size : ℕ} {number low high : ℤ}
    (hpos : 0 < size) (hle : size ≤ 8) (hlength : call.formLength cType = size)
    (hrange : cType.range = some (low, high)) (hlow : low ≤ 0) (hhigh : high ≤ 2 ^ 63 - 1)
    (hform : call.form cType =
      if low ≤ call.row ∧ call.row ≤ high then some (numberBytes size call.row) else none)
    (hrow : call.rowNumber cType = call.row)
    (hcolumn : call.columnNumber cType = call.sspsInt64.toInt)
    (hnumber : number % 256 ^ size = call.getInt64 % 256 ^ size) :
    NumberCase call cType size number where
  pos := hpos
  le := hle
  formLength := hlength
  length := fun _ => length_of_form hform
  form := by
    obtain ⟨hprepared, htext⟩ := @getInt64_cases call
    apply form_eq_iff hrange hlow hform hrow
    · intro h
      rw [hnumber, hprepared h, hcolumn]
    · intro h hfits
      rw [hnumber, htext h (hfits.trans hhigh)]

/-- A type that is read without a sign. -/
theorem numberCase_unsigned {cType : NumberCType} {size : ℕ} {number low high : ℤ}
    (hpos : 0 < size) (hle : size ≤ 8) (hlength : call.formLength cType = size)
    (hrange : cType.range = some (low, high)) (hlow : low ≤ 0)
    (hform : call.form cType =
      if low ≤ call.row ∧ call.row ≤ high then some (numberBytes size call.row) else none)
    (hrow : call.rowNumber cType = call.row)
    (hcolumn : call.columnNumber cType = call.sspsUint64.toNat)
    (hnumber : number % 256 ^ size = (call.getUint64 : ℤ) % 256 ^ size) :
    NumberCase call cType size number where
  pos := hpos
  le := hle
  formLength := hlength
  length := fun _ => length_of_form hform
  form := by
    obtain ⟨hprepared, htext⟩ := @getUint64_cases call
    apply form_eq_iff hrange hlow hform hrow
    · intro h
      rw [hnumber, hprepared h, hcolumn]
    · intro h hfits
      rw [hnumber, htext h]

/-- A floating-point type. -/
theorem numberCase_float {cType : NumberCType} {size : ℕ} {number text column : ℕ}
    (hpos : 0 < size) (hle : size ≤ 8) (hlength : call.formLength cType = size)
    (hrange : cType.range = none) (hform : call.form cType = some (numberBytes size text))
    (hrow : call.rowNumber cType = text) (hcolumn : call.columnNumber cType = column)
    (hnumber : number = if call.ssps then column else text) :
    NumberCase call cType size number where
  pos := hpos
  le := hle
  formLength := hlength
  length := fun bytes h => by
    rw [hform] at h
    rw [← Option.some.inj h, length_numberBytes]
  form := by
    rw [hform, Option.some_inj, numberBytes_inj, hrow, hcolumn, hnumber]
    have hnone : ∀ low high, cType.range = some (low, high) → (call.row : ℤ) ≤ high := by
      intro low high h
      rw [hrange] at h
      cases h
    cases hprepared : call.ssps with
    | false => exact iff_of_true rfl ⟨hnone, fun h => by cases h⟩
    | true => exact ⟨fun h => ⟨hnone, fun _ => h.symm⟩, fun h => (h.2 rfl).symm⟩

/-- Every case for numbers is one of these. -/
theorem numberCase_of_number {cType : NumberCType} {size : ℕ} {number : ℤ}
    (h : call.number cType = some (size, number)) : NumberCase call cType size number := by
  have hlong : (if looksLikeDate call.value then dateInteger call.value else call.getInt64) =
      call.getInt64 := by rw [looksLikeDate_value, if_neg Bool.false_ne_true]
  cases cType
  case SQL_C_TINYINT | SQL_C_STINYINT | SQL_C_SHORT | SQL_C_SSHORT =>
    cases h
    exact numberCase_signed (by decide) (by decide) rfl rfl (by norm_num) (by norm_num) rfl rfl rfl
      (getInt_emod (by decide))
  case SQL_C_UTINYINT | SQL_C_USHORT =>
    cases h
    exact numberCase_unsigned (by decide) (by decide) rfl rfl (by norm_num) rfl rfl rfl
      (getUint_emod (by decide))
  case SQL_C_LONG | SQL_C_SLONG =>
    rw [BookmarkCall.number, hlong] at h
    cases h
    exact numberCase_signed (by decide) (by decide) rfl rfl (by norm_num) (by norm_num) rfl rfl rfl rfl
  case SQL_C_SBIGINT =>
    cases h
    exact numberCase_signed (by decide) (by decide) rfl rfl (by norm_num) (by norm_num) rfl rfl rfl rfl
  case SQL_C_ULONG | SQL_C_UBIGINT =>
    cases h
    exact numberCase_unsigned (by decide) (by decide) rfl rfl (by norm_num) rfl rfl rfl rfl
  case SQL_C_FLOAT =>
    cases h
    refine numberCase_float (by decide) (by decide) rfl rfl rfl rfl rfl ?_
    rw [getFloat]
    split_ifs <;> rfl
  case SQL_C_DOUBLE =>
    cases h
    refine numberCase_float (by decide) (by decide) rfl rfl rfl rfl rfl ?_
    rw [getDouble]
    split_ifs <;> rfl
  all_goals cases h

/-- What delivery means for a successful call. -/
theorem deliversOrReports_success_iff {out : BookmarkOutcome} (hrc : out.rc = .SQL_SUCCESS)
    {cType : NumberCType} (htarget : call.target = some (.concise cType)) :
    call.DeliversOrReports out ↔
      (∀ a, out.written a ≠ none →
        call.rgbValue ≠ 0 ∧ call.rgbValue ≤ a ∧ a < call.rgbValue + call.cbValueMax) ∧
      (call.rgbValue ≠ 0 → ∃ bytes, call.form cType = some bytes ∧
        ∀ i < bytes.length, out.written (call.rgbValue + i) = bytes[i]?) ∧
      (call.pcbValue = true → out.pcbValue = some (call.formLength cType : ℤ)) := by
  constructor
  · rintro ⟨hinside, hdelivered⟩
    rw [hrc] at hdelivered
    obtain ⟨-, cType', htarget', hcontent, hlength⟩ :=
      (hdelivered.resolve_left (by decide)).resolve_left (by decide)
    obtain rfl : cType = cType' := by simpa [htarget] using htarget'
    exact ⟨hinside, hcontent, hlength⟩
  · rintro ⟨hinside, hcontent, hlength⟩
    exact ⟨hinside, Or.inr (Or.inr ⟨hrc, cType, htarget, hcontent, hlength⟩)⟩

/-- The terminator lies inside the buffer exactly when the text is shorter. -/
theorem copyText_inside_iff : (∀ a, call.copyText.written a ≠ none →
      call.rgbValue ≠ 0 ∧ call.rgbValue ≤ a ∧ a < call.rgbValue + call.cbValueMax) ↔
    (call.cbValueMax = 0 ∧ call.rgbValue = 0) ∨
      (call.rgbValue ≠ 0 ∧ call.value.length < call.cbValueMax) := by
  have hpos := @value_length_pos call
  constructor
  · intro h
    by_cases hend : call.rgbValue + min call.value.length call.cbValueMax = 0
    · exact Or.inl (by omega)
    · have hwritten := h (call.rgbValue + min call.value.length call.cbValueMax) (by
        simp only [copyText, if_neg hend]
        rw [Written8.store_ne_none]
        exact Or.inl ⟨le_rfl, Nat.lt_succ_self _⟩)
      exact Or.inr ⟨hwritten.1, by omega⟩
  · rintro (⟨hroom, hnull⟩ | ⟨hbuffer, hlt⟩) a ha
    · simp [copyText, hroom, hnull] at ha
    · have hend : call.rgbValue + min call.value.length call.cbValueMax ≠ 0 := by omega
      simp only [copyText, if_neg hend] at ha
      rw [Written8.store_ne_none] at ha
      refine ⟨hbuffer, ?_⟩
      rcases ha with ⟨hle, hlt'⟩ | ha
      · rw [List.length_singleton] at hlt'
        omega
      · split_ifs at ha
        all_goals first
          | exact absurd rfl ha
          | rw [Written8.store_ne_none, List.length_take] at ha
            obtain ⟨hle, hlt'⟩ := ha.resolve_right (by simp)
            omega

/-- A text is delivered, or its cut is reported, exactly when it fits. -/
theorem copyText_deliversOrReports_iff {cType : NumberCType}
    (htype : cType = .SQL_C_CHAR ∨ cType = .SQL_C_BINARY)
    (htarget : call.target = some (.concise cType)) (hroom : 8 ≤ call.cbValueMax) :
    call.DeliversOrReports call.copyText ↔ call.TextFits := by
  have hpos := @value_length_pos call
  by_cases hfits : call.rgbValue ≠ 0 ∧ call.value.length < call.cbValueMax
  swap
  · refine iff_of_false (fun h => ?_) fun h => hfits ⟨h.1, h.2.1⟩
    rcases copyText_inside_iff.mp h.inside with ⟨hzero, -⟩ | h'
    · omega
    · exact hfits h'
  obtain ⟨hbuffer, hlt⟩ := hfits
  have hinside := copyText_inside_iff.mpr (Or.inr ⟨hbuffer, hlt⟩)
  generalize hsrc : (if call.opts.maxLength ≠ 0 ∧ call.opts.maxLength < call.value.length then
    call.opts.maxLength else call.value.length) = srcBytes
  have hsrcLe : srcBytes ≤ call.value.length := by
    rw [← hsrc]
    split_ifs <;> omega
  have hrc : call.copyText.rc = .SQL_SUCCESS := by
    simp only [copyText, hsrc]
    rw [if_neg (by omega)]
  have hend : call.rgbValue + min call.value.length call.cbValueMax ≠ 0 := by omega
  have hmin : min call.value.length call.cbValueMax = call.value.length := by omega
  have hcopy : min call.cbValueMax srcBytes = srcBytes := by omega
  have hcut : srcBytes = call.value.length ↔
      call.opts.maxLength = 0 ∨ call.value.length ≤ call.opts.maxLength := by
    rw [← hsrc]
    split_ifs <;> omega
  rw [deliversOrReports_success_iff hrc htarget]
  by_cases hretrieve : call.opts.retrieveData = true
  swap
  · -- only the terminator is written
    refine iff_of_false ?_ fun h => hretrieve h.2.2.1
    rintro ⟨-, hcontent, -⟩
    obtain ⟨bytes, hbytes, hwritten⟩ := hcontent hbuffer
    have hlength : 0 < bytes.length := by
      rcases htype with rfl | rfl <;> cases hbytes
      · simp
      · exact hpos
    have hzero := hwritten 0 hlength
    simp only [copyText, if_neg hend, if_neg fun h => hretrieve (And.right h)] at hzero
    rw [Written8.store_of_notMem (by omega), List.getElem?_eq_getElem hlength] at hzero
    cases hzero
  have hwritten : call.copyText.written = Written8.store
      (Written8.store (fun _ => none) call.rgbValue (call.value.take srcBytes))
        (call.rgbValue + call.value.length) [0] := by
    simp only [copyText, if_neg hend, hsrc, hcopy, if_pos (And.intro hbuffer hretrieve)]
    rw [hmin]
  have htaken : (call.value.take srcBytes).length = srcBytes := by
    rw [List.length_take]
    omega
  have hpcb : call.copyText.pcbValue = some (srcBytes : ℤ) := by
    simp only [copyText, if_pos hretrieve, hsrc]
  have htext : ∀ i < call.value.length, call.copyText.written (call.rgbValue + i) =
      if i < srcBytes then call.value[i]? else none := by
    intro i hi
    rw [hwritten, Written8.store_of_notMem (by omega)]
    split_ifs with hcopied
    · rw [Written8.store_add (by omega), List.getElem?_take_of_lt hcopied]
    · exact Written8.store_of_notMem (by omega)
  have hlast : call.copyText.written (call.rgbValue + call.value.length) = some 0 := by
    rw [hwritten]
    exact Written8.store_add (i := 0) (by decide)
  constructor
  · rintro ⟨-, hcontent, -⟩
    obtain ⟨bytes, hbytes, hsame⟩ := hcontent hbuffer
    refine ⟨hbuffer, hlt, hretrieve, hcut.mp ?_⟩
    by_contra hshort
    have hi : srcBytes < call.value.length := by omega
    have hbyte : srcBytes < bytes.length := by
      rcases htype with rfl | rfl <;> cases hbytes
      · rw [List.length_append]
        omega
      · exact hi
    have hmissing := hsame srcBytes hbyte
    rw [htext srcBytes hi, if_neg (lt_irrefl _), List.getElem?_eq_getElem hbyte] at hmissing
    cases hmissing
  · rintro ⟨-, -, -, hmax⟩
    have hall := hcut.mpr hmax
    refine ⟨hinside, fun _ => ?_, fun _ => ?_⟩
    · rcases htype with rfl | rfl
      · refine ⟨call.value ++ [0], rfl, ?_⟩
        intro i hi
        rw [List.length_append, List.length_singleton] at hi
        rcases Nat.lt_succ_iff_lt_or_eq.mp hi with hi | rfl
        · rw [htext i hi, if_pos (by omega), List.getElem?_append_left hi]
        · rw [hlast, List.getElem?_append_right le_rfl, Nat.sub_self]
          rfl
      · refine ⟨call.value, rfl, ?_⟩
        intro i hi
        rw [htext i hi, if_pos (by omega)]
    · rw [hpcb, hall]
      rcases htype with rfl | rfl <;> rfl

theorem form_wide : call.form .SQL_C_WCHAR =
    some ((call.value.flatMap fun c => [c, 0]) ++ [0, 0]) := by
  rw [form, wideBytes_append, wideBytes_map, wideBytes_zero]

/-- The wide characters that are stored. -/
theorem copyWide_units : utf8AsSqlwchar [] call.wideRoom.toNat call.value call.value.length =
    some (wideDigits (call.value.take call.wideRoom.toNat) ++ [0],
      ((min call.value.length call.wideRoom.toNat : ℕ) : ℤ)) := by
  have hle := @value_length_le call
  rw [utf8AsSqlwchar_digits _ fun c hc => value_isDigit hc, toSmallint_eq (by omega)]

/-- Without room for a wide character the call reports a cut. -/
theorem copyWide_of_noRoom (hretrieve : call.opts.retrieveData = true) (hroom : call.wideRoom ≤ 0) :
    call.copyWide = some ⟨.SQL_SUCCESS_WITH_INFO,
      if call.rgbValue = 0 then fun _ => none
      else Written8.store (fun _ => none) call.rgbValue [0, 0], none⟩ := by
  have hzero : call.wideRoom.toNat = 0 := Int.toNat_of_nonpos hroom
  have hunits := @copyWide_units call
  rw [hzero, List.take_zero, Nat.min_zero] at hunits
  rw [copyWide, if_pos hretrieve, hzero, hunits]
  by_cases hbuffer : call.rgbValue = 0
  · simp [hbuffer, wideDigits]
  · simp [hbuffer, wideDigits, wideBytes_zero]

/-- With room the digits are stored, and the case of `SQL_C_TINYINT` follows. -/
theorem copyWide_of_room (hretrieve : call.opts.retrieveData = true) (hroom : 0 < call.wideRoom) :
    call.copyWide = some (call.storeNumber
      (Written8.store (fun _ => none) call.rgbValue
        (wideBytes (wideDigits (call.value.take call.wideRoom.toNat) ++ [0]))) 1 call.getInt) := by
  have hpos := @value_length_pos call
  have hunits := @copyWide_units call
  have hsome : ((min call.value.length call.wideRoom.toNat : ℕ) : ℤ) ≠ 0 := by omega
  have hlength : ¬ (call.rgbValue = 0 ∧
      (wideDigits (call.value.take call.wideRoom.toNat) ++ [0]).length = 1) := by
    rintro ⟨-, h⟩
    rw [List.length_append, wideDigits, List.length_map, List.length_take,
      List.length_singleton] at h
    omega
  rw [copyWide, if_pos hretrieve, hunits]
  simp only [Option.bind_eq_bind, Option.bind_some, if_neg hsome, if_neg hlength, Option.pure_def]

/-- What is stored for wide characters. -/
def wideStored (call : BookmarkCall) : List UInt8 :=
  ((call.value.take call.wideRoom.toNat).flatMap fun c => [c, 0]) ++ [0, 0]

theorem length_wideStored :
    call.wideStored.length = 2 * (min call.value.length call.wideRoom.toNat + 1) := by
  rw [wideStored, List.length_append, length_flatMap_pair, List.length_take]
  simp only [List.length_cons, List.length_nil]
  omega

/-- Everything was stored when there was room for it. -/
theorem form_wide_eq_iff (hroom : 0 < call.wideRoom) :
    call.value.length ≤ call.wideRoom ↔ ∀ i, 0 < i → i < 2 * (call.value.length + 1) →
      call.wideStored[i]? = ((call.value.flatMap fun c => [c, 0]) ++ [0, 0])[i]? := by
  constructor
  · intro hle i _ _
    rw [wideStored, List.take_of_length_le (by omega)]
  · intro h
    by_contra hlt
    have hm : call.wideRoom.toNat < call.value.length := by omega
    have hsame := h (2 * call.wideRoom.toNat) (by omega) (by omega)
    have hend : call.wideStored[2 * call.wideRoom.toNat]? = some 0 := by
      have hlength : ((call.value.take call.wideRoom.toNat).flatMap fun c => [c, 0]).length =
          2 * call.wideRoom.toNat := by
        rw [length_flatMap_pair, List.length_take]
        omega
      rw [wideStored, List.getElem?_append_right hlength.le, hlength, Nat.sub_self]
      rfl
    rw [hend, getElem?_flatMap_pair _ _ hm] at hsame
    have hdigit := value_isDigit (List.mem_of_getElem? hsame.symm)
    exact absurd hdigit.1 (by decide)

/-- The length of the tiny integer is not the one of wide characters. -/
theorem storeNumber_one_pcbValue_ne {written : Written8} {number : ℤ} :
    (call.storeNumber written 1 number).pcbValue ≠ some (call.formLength .SQL_C_WCHAR : ℤ) := by
  intro h
  have heq : (1 : ℤ) = (2 * call.value.length : ℕ) := Option.some.inj h
  omega

/-- Without `retrieve_data` nothing is written. -/
theorem copyWide_notRetrieved (hretrieve : ¬ call.opts.retrieveData = true)
    (htarget : call.target = some (.concise .SQL_C_WCHAR)) :
    call.DeliversOrReports (call.storeNumber (fun _ => none) 1 call.getInt) ↔
      call.pcbValue = false ∧ call.rgbValue = 0 := by
  have hnothing : (call.storeNumber (fun _ => none) 1 call.getInt).written = fun _ => none :=
    if_neg fun h => hretrieve h.2
  rw [deliversOrReports_success_iff rfl htarget, hnothing]
  constructor
  · rintro ⟨-, hcontent, hlength⟩
    refine ⟨?_, ?_⟩
    · rw [← Bool.not_eq_true]
      exact fun h => storeNumber_one_pcbValue_ne (hlength h)
    · by_contra hbuffer
      obtain ⟨bytes, hbytes, hwritten⟩ := hcontent hbuffer
      have hpos : 0 < bytes.length := by
        rw [form_wide] at hbytes
        rw [← Option.some.inj hbytes, List.length_append]
        exact Nat.lt_add_left _ (by decide)
      have hzero := hwritten 0 hpos
      rw [List.getElem?_eq_getElem hpos] at hzero
      cases hzero
  · rintro ⟨hpcb, hbuffer⟩
    refine ⟨fun a h => absurd rfl h, fun h => absurd hbuffer h, fun h => ?_⟩
    rw [hpcb] at h
    cases h

/-- The tiny integer is stored over the wide characters. -/
theorem wideStored_eq {number : ℤ} (hretrieve : call.opts.retrieveData = true)
    (hbuffer : call.rgbValue ≠ 0) :
    (call.storeNumber (Written8.store (fun _ => none) call.rgbValue call.wideStored) 1
      number).written = Written8.store (Written8.store (fun _ => none) call.rgbValue
        call.wideStored) call.rgbValue (numberBytes 1 number) := if_pos ⟨hbuffer, hretrieve⟩

/-- What is left in memory then. -/
theorem wideStored_written {number : ℤ} (hretrieve : call.opts.retrieveData = true)
    (hbuffer : call.rgbValue ≠ 0) (i : ℕ) :
    (call.storeNumber (Written8.store (fun _ => none) call.rgbValue call.wideStored) 1
      number).written (call.rgbValue + i) =
        if i = 0 then (numberBytes 1 number)[0]? else call.wideStored[i]? := by
  rw [wideStored_eq hretrieve hbuffer]
  split_ifs with hi
  · rw [hi]
    apply Written8.store_add
    rw [length_numberBytes]
    exact Nat.one_pos
  · rw [Written8.store_of_notMem (by rw [length_numberBytes]; omega)]
    by_cases hlt : i < call.wideStored.length
    · exact Written8.store_add hlt
    · rw [Written8.store_of_notMem (by omega), List.getElem?_eq_none (by omega)]

/-- With room for a wide character the text is delivered only without a length. -/
theorem copyWide_retrieved (hretrieve : call.opts.retrieveData = true) (hroom : 0 < call.wideRoom)
    (htarget : call.target = some (.concise .SQL_C_WCHAR)) :
    call.DeliversOrReports (call.storeNumber
        (Written8.store (fun _ => none) call.rgbValue call.wideStored) 1 call.getInt) ↔
      call.pcbValue = false ∧ call.rgbValue ≠ 0 ∧ call.value.length ≤ call.wideRoom ∧
        2 * (call.value.length + 1) ≤ call.cbValueMax ∧
        (numberBytes 1 call.getInt)[0]? = call.value[0]? := by
  have hstored := @length_wideStored call
  have hpos := @value_length_pos call
  rw [deliversOrReports_success_iff rfl htarget]
  by_cases hbuffer : call.rgbValue = 0
  · refine iff_of_false (fun h => ?_) fun h => h.2.1 hbuffer
    refine (h.1 0 ?_).1 hbuffer
    have hnumber : (call.storeNumber (Written8.store (fun _ => none) call.rgbValue call.wideStored) 1
        call.getInt).written = Written8.store (fun _ => none) call.rgbValue call.wideStored :=
      if_neg fun h => h.1 hbuffer
    rw [hnumber, Written8.store_ne_none]
    exact Or.inl ⟨by omega, by omega⟩
  have hwritten := @wideStored_written call call.getInt hretrieve hbuffer
  have hfirst : ((call.value.flatMap fun c => [c, 0]) ++ [0, 0])[0]? = call.value[0]? :=
    getElem?_flatMap_pair _ _ hpos
  have hlength : ((call.value.flatMap fun c => [c, 0]) ++ [0, 0]).length =
      2 * (call.value.length + 1) := by
    rw [List.length_append, length_flatMap_pair]
    rfl
  constructor
  · rintro ⟨hinside, hcontent, hpcb⟩
    obtain ⟨bytes, hbytes, hsame⟩ := hcontent hbuffer
    rw [form_wide] at hbytes
    cases hbytes
    have hfits : call.value.length ≤ call.wideRoom := by
      rw [form_wide_eq_iff hroom]
      intro i hi hlt
      rw [← hsame i (by rwa [hlength]), hwritten, if_neg hi.ne']
    refine ⟨?_, hbuffer, hfits, ?_, ?_⟩
    · rw [← Bool.not_eq_true]
      exact fun h => storeNumber_one_pcbValue_ne (hpcb h)
    · have hlast := hinside (call.rgbValue + (2 * call.value.length + 1)) (by
        rw [hwritten, if_neg (Nat.succ_ne_zero _), List.getElem?_eq_getElem (by omega)]
        exact Option.some_ne_none _)
      omega
    · have hzero := hsame 0 (by omega)
      rw [hwritten, if_pos rfl, hfirst] at hzero
      exact hzero
  · rintro ⟨hpcb, -, hfits, hmax, hzero⟩
    refine ⟨?_, fun _ => ⟨_, form_wide, ?_⟩, fun h => ?_⟩
    · intro a ha
      rw [wideStored_eq hretrieve hbuffer, Written8.store_ne_none, Written8.store_ne_none,
        length_numberBytes] at ha
      rcases ha with ha | ha | ha
      · exact ⟨hbuffer, ha.1, by omega⟩
      · exact ⟨hbuffer, ha.1, by omega⟩
      · exact absurd rfl ha
    · intro i hi
      rw [hlength] at hi
      rw [hwritten]
      split_ifs with hz
      · rw [hz, hfirst, hzero]
      · exact (form_wide_eq_iff hroom).mp hfits i (Nat.pos_of_ne_zero hz) hi
    · rw [hpcb] at h
      cases h

/-- Wide characters are delivered, or their cut is reported, exactly when they fit. -/
theorem copyWide_deliversOrReports_iff (htarget : call.target = some (.concise .SQL_C_WCHAR))
    (hmax : 8 ≤ call.cbValueMax) :
    ∃ out, call.copyWide = some out ∧ (call.DeliversOrReports out ↔ call.WideFits) := by
  by_cases hretrieve : call.opts.retrieveData = true
  swap
  · refine ⟨_, if_neg hretrieve, ?_⟩
    rw [copyWide_notRetrieved hretrieve htarget, WideFits]
    simp [hretrieve]
  by_cases hroom : call.wideRoom ≤ 0
  · refine ⟨_, copyWide_of_noRoom hretrieve hroom, iff_of_true ⟨?_, Or.inl rfl⟩
      (Or.inl ⟨hretrieve, hroom⟩)⟩
    intro a ha
    by_cases hbuffer : call.rgbValue = 0
    · simp [hbuffer] at ha
    · simp only [if_neg hbuffer] at ha
      rw [Written8.store_ne_none] at ha
      obtain ⟨hle, hlt⟩ := ha.resolve_right (by simp)
      simp only [List.length_cons, List.length_nil] at hlt
      exact ⟨hbuffer, hle, by omega⟩
  · refine ⟨_, copyWide_of_room hretrieve (by omega), ?_⟩
    have hstored : wideBytes (wideDigits (call.value.take call.wideRoom.toNat) ++ [0]) =
        call.wideStored := by
      rw [wideBytes_append, wideDigits, wideBytes_map, wideBytes_zero, wideStored]
    rw [hstored, copyWide_retrieved hretrieve (by omega) htarget, WideFits]
    simp [hretrieve, hroom]

/-- A case for a number is right exactly when the number fits. -/
theorem number_deliversOrReports_iff {cType : NumberCType} {size : ℕ} {number : ℤ}
    (htarget : call.target = some (.concise cType)) (hmax : 8 ≤ call.cbValueMax)
    (h : call.number cType = some (size, number)) :
    call.DeliversOrReports (call.storeNumber (fun _ => none) size number) ↔
      call.NumberFits cType size := by
  obtain ⟨hpos, hle, hlength, hsize, hform⟩ := numberCase_of_number h
  rw [storeNumber_deliversOrReports_iff htarget hlength hpos (by omega) hsize, hform, NumberFits]

/-- A refusal reports. -/
theorem refused_deliversOrReports : call.DeliversOrReports refused :=
  ⟨fun _ h => absurd rfl h, Or.inr (Or.inl rfl)⟩

/-- A type that is neither has no case. -/
theorem number_or_refused {cType : NumberCType} (htarget : call.target = some (.concise cType))
    (hmax : 8 ≤ call.cbValueMax) :
    ∃ out, (match call.number cType with
      | some (size, number) => some (call.storeNumber (fun _ => none) size number)
      | none => some refused) = some out ∧
      (call.DeliversOrReports out ↔ ∀ size number, call.number cType = some (size, number) →
        call.NumberFits cType size) := by
  cases hnumber : call.number cType with
  | none =>
    refine ⟨refused, rfl, iff_of_true refused_deliversOrReports fun size number h => ?_⟩
    cases h
  | some written =>
    obtain ⟨size, number⟩ := written
    refine ⟨_, rfl, ?_⟩
    rw [number_deliversOrReports_iff htarget hmax hnumber]
    constructor
    · intro h size' number' heq
      cases heq
      exact h
    · exact fun h => h size number rfl

/-- A bookmark is delivered inside its buffer, or what is missing is reported, exactly
when it fits. -/
theorem sqlGetBookmarkData_deliversOrReports_iff (call : BookmarkCall) :
    ∃ out, call.sqlGetBookmarkData = some out ∧ (call.DeliversOrReports out ↔ call.Fits) := by
  by_cases hmax : call.cbValueMax < 8
  · exact ⟨refused, if_pos hmax, iff_of_true refused_deliversOrReports (Or.inl hmax)⟩
  have hroom : 8 ≤ call.cbValueMax := Nat.le_of_not_lt hmax
  rw [sqlGetBookmarkData, if_neg hmax, Fits, or_iff_right hmax]
  cases htarget : call.target with
  | none => exact ⟨refused, rfl, iff_of_true refused_deliversOrReports trivial⟩
  | some target =>
    cases target with
    | concise cType =>
      cases cType
      case SQL_C_CHAR => exact ⟨_, rfl, copyText_deliversOrReports_iff (Or.inl rfl) htarget hroom⟩
      case SQL_C_BINARY => exact ⟨_, rfl, copyText_deliversOrReports_iff (Or.inr rfl) htarget hroom⟩
      case SQL_C_WCHAR => exact copyWide_deliversOrReports_iff htarget hroom
      all_goals exact number_or_refused htarget hroom
    | SQL_C_DEFAULT => exact ⟨refused, rfl, iff_of_true refused_deliversOrReports trivial⟩
    | SQL_ARD_TYPE => exact ⟨refused, rfl, iff_of_true refused_deliversOrReports trivial⟩
    | other => exact ⟨refused, rfl, iff_of_true refused_deliversOrReports trivial⟩

/-- Row 10000000 is requested as text, with a buffer of eight bytes at address 64. -/
def eightDigits : BookmarkCall where
  fCType := .concise .SQL_C_CHAR
  arrec := none
  rgbValue := 64
  cbValueMax := 8
  pcbValue := true
  row := 10000000
  row_lt := by norm_num
  opts := ⟨0, true⟩
  strtodFloat := 0
  strtodDouble := 0
  ssps := false
  sspsInt64 := 0
  sspsUint64 := 0
  sspsFloat := 0
  sspsDouble := 0

/-- The terminator is written behind the buffer, and the call succeeds. -/
theorem eightDigits_not_deliversOrReports :
    ¬ ∃ out, eightDigits.sqlGetBookmarkData = some out ∧ eightDigits.DeliversOrReports out := by
  rintro ⟨out, hout, hdelivers⟩
  have htext : eightDigits.copyText = out := Option.some.inj hout
  have hend : out.written 72 = some 0 := by
    rw [← htext]
    rfl
  have hinside := (hdelivers.inside 72 (by rw [hend]; exact Option.some_ne_none _)).2.2
  exact absurd hinside (by decide)

end BookmarkCall

end MatrixOdbc.Driver
