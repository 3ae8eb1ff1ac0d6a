import MatrixOdbc.Foundations.TextBuffer
import MatrixOdbc.Util.KvBounds

/-!
# Output strings

The functions of `driver/ansi.cc` and `driver/unicode.cc` that return a text to the
application, from the text that the driver has. Each of them is written out by hand: when it
copies, what it tests before it warns, and where the connection comes from that takes
the warning. The assertions in them are off, as in a release.
-/

namespace MatrixOdbc.Driver

open TextBuffer Util

variable {bits : ℕ} {α : Type*} {nul : α}

/-- The arguments for a text: if the pointer is not null, the size of the buffer as an integer of
so many bits, and if the pointer for the length is not null. -/
structure OutArgs (bits : ℕ) where
  given : Bool
  max : ℤ
  lenGiven : Bool
  le_max : -2 ^ (bits - 1) ≤ max
  max_lt : max < 2 ^ (bits - 1)

/-- A text of the driver, which ends at its terminator. No object is larger than a `ptrdiff_t`. -/
structure CString where
  chars : List UInt8
  nonzero : 0 ∉ chars
  length_lt : chars.length < 2 ^ 63

/-- What `sqlchar_as_sqlwchar` makes of a text, with a length that is an `SQLINTEGER`. -/
structure WideText where
  units : List SQLWCHAR
  length_lt : units.length < 2 ^ 31

/-- A statement given to `SQLNativeSql`: the memory that it lies in, and its length or `SQL_NTS`. -/
structure NativeText (nul : α) where
  memory : List α
  inLen : ℤ
  readable : inLen = SQL_NTS ∧ nul ∈ memory ∨
    0 ≤ inLen ∧ inLen ≤ memory.length ∧ inLen < 2 ^ 31

/-- The characters of the statement. -/
def NativeText.chars [DecidableEq α] (s : NativeText nul) : List α :=
  if s.inLen = SQL_NTS then s.memory.takeWhile (· ≠ nul) else s.memory.take s.inLen.toNat

/-- The five characters of an SQLSTATE. -/
structure SqlState (nul : α) where
  chars : List α
  nonzero : nul ∉ chars
  length_eq : chars.length = 5

/-- The kinds of handles. -/
inductive HandleType where
  | env
  | dbc
  | stmt
  | desc
  deriving DecidableEq

/-- A number as it is passed in an `SQLSMALLINT`. -/
def toSqlsmallint (n : ℤ) : ℤ := n.bmod (2 ^ 16)

/-- `max /= sizeof(SQLWCHAR)`, which is a division of `size_t`. -/
def OutArgs.inUnits (a : OutArgs bits) : ℤ := (a.max % 2 ^ 64 / 2).bmod (2 ^ bits)

/-- `strmake`: so many characters of a text, or up to its end, and a terminator. -/
def strmake : List UInt8 → ℕ → List UInt8
  | _, 0 => [0]
  | [], _ + 1 => [0]
  | c :: src, length + 1 => if c = 0 then [0] else c :: strmake src length

/-- What an ANSI call leaves behind. It calls `strmake` with one character less than the
buffer has room for. -/
def returnChars (a : OutArgs bits) (value : CString) (copies cuts : Bool) (len : ℤ) :
    Output UInt8 where
  stored := if copies then some (strmake value.chars (a.max - 1).toNat) else none
  length := if a.lenGiven then some len else none
  truncated := cuts

/-- A call of `memcpy` with so many characters, and a terminator behind them. A negative number
becomes the size of no object. -/
def copyOut (nul : α) (a : OutArgs bits) (src : List α) (count : ℤ) (cuts : Bool) (len : ℤ) :
    Outcome α :=
  if a.given = false ∨ count < 0 then .undefined
  else .done
    { stored := some (src.take count.toNat ++ [nul])
      length := if a.lenGiven then some len else none
      truncated := cuts }

/-- What a wide call leaves behind. It copies `myodbc_min(len, max - 1)` units. -/
def returnUnits (a : OutArgs bits) (value : WideText) (max : ℤ) (copies cuts : Bool) (len : ℤ) :
    Outcome SQLWCHAR :=
  if copies then
    copyOut 0 a value.units
      (if (value.units.length : ℤ) < max - 1 then value.units.length else max - 1) cuts len
  else .done
    { stored := none
      length := if a.lenGiven then some len else none
      truncated := cuts }

/-- `dbc->set_error`, if there is something to report: an environment has no connection, and with
the handle of a connection its error is replaced, so that a text of it can no longer be read. -/
def HandleType.report (handleType : HandleType) (readsError cuts : Bool) (outcome : Outcome α) :
    Outcome α :=
  if cuts && (handleType = .env || handleType = .dbc && readsError) then .undefined else outcome

/-- `SQLColAttributeImpl`, with `numAttr` if there is a pointer for the numeric attribute. -/
def SQLColAttributeImpl (a : OutArgs 16) (numAttr : Bool) (value : CString) : Outcome UInt8 :=
  let len := toSqlinteger value.chars.length
  .done (returnChars a value (a.given && 1 < a.max) ((a.given || numAttr) && a.max - 1 < len)
    (toSqlsmallint len))

/-- `SQLDescribeCol`. -/
def SQLDescribeCol (a : OutArgs 16) (value : CString) : Outcome UInt8 :=
  let len := toSqlinteger value.chars.length
  .done (returnChars a value (a.given && 1 < a.max) (a.given && a.max - 1 < len)
    (toSqlsmallint len))

/-- `SQLGetConnectAttrImpl`, which asks for the value only if there is a buffer. The smallest
`SQLINTEGER` less one does not exist. -/
def SQLGetConnectAttrImpl (a : OutArgs 32) (value : CString) : Outcome UInt8 :=
  let len := toSqlinteger value.chars.length
  if a.given = false then .done ⟨none, none, false⟩
  else if a.max = -2 ^ 31 then .undefined
  else .done (returnChars a value (a.given && 1 < a.max) (a.max - 1 < len) len)

/-- `SQLGetCursorName`. -/
def SQLGetCursorName (a : OutArgs 16) (name : CString) : Outcome UInt8 :=
  let len := toSqlinteger name.chars.length
  if a.max < 0 then .refused (some "HY090")
  else .done (returnChars a name (a.given && 1 < a.max) (a.given && a.max - 1 < len)
    (toSqlsmallint len))

/-- `SQLGetDiagField`, where lengths are compared as `size_t`. The text is that of the error of the
handle (its message or SQLSTATE) or another one, as those of the data source are. -/
def SQLGetDiagField (handleType : HandleType) (ofError : Bool) (a : OutArgs 16) (value : CString) :
    Outcome UInt8 :=
  let len := value.chars.length
  let cuts := a.given && (a.max - 1) % 2 ^ 64 < len
  handleType.report (ofError && 1 < a.max) cuts
    (.done (returnChars a value (a.given && 1 < a.max) cuts (toSqlsmallint len)))

/-- `SQLGetDiagRecImpl`: what becomes of the message, and what is stored as the SQLSTATE. Both are
read from the error of the handle behind the warning. -/
def SQLGetDiagRecImpl (handleType : HandleType) (stateGiven : Bool) (state : SqlState (0 : UInt8))
    (a : OutArgs 16) (message : CString) : Outcome UInt8 × Option (List UInt8) :=
  let len := message.chars.length
  let cuts := a.given && a.max ≠ 0 && (a.max - 1) % 2 ^ 64 < len
  if a.max < 0 then (.refused none, none)
  else
    (handleType.report (1 < a.max || stateGiven) cuts
      (.done (returnChars a message (a.given && 1 < a.max) cuts (toSqlsmallint len))),
      if stateGiven then some (strmake state.chars 5) else none)

/-- `SQLGetInfo`, where lengths are compared as `size_t`. -/
def SQLGetInfo (a : OutArgs 16) (value : CString) : Outcome UInt8 :=
  let len := value.chars.length
  .done (returnChars a value (a.given && 1 < a.max)
    (a.given && a.max ≠ 0 && (a.max - 1) % 2 ^ 64 < len) (toSqlsmallint len))

/-- `SQLNativeSql` and `SQLNativeSqlW`, which differ in the type of a character. -/
def nativeSql [DecidableEq α] (a : OutArgs 32) (s : NativeText nul) : Outcome α :=
  let inLen := if s.inLen = SQL_NTS then toSqlinteger (s.memory.takeWhile (· ≠ nul)).length
    else s.inLen
  let cuts := a.given && a.max ≤ inLen
  if 0 < a.max then
    copyOut nul a s.memory (if a.max - 1 < inLen then a.max - 1 else inLen) cuts inLen
  else .done
    { stored := none
      length := if a.lenGiven then some inLen else none
      truncated := cuts }

/-- `SQLNativeSql`. -/
def SQLNativeSql (a : OutArgs 32) (s : NativeText (0 : UInt8)) : Outcome UInt8 := nativeSql a s

/-- `SQLColAttributeWImpl`, with the size of the buffer in bytes. -/
def SQLColAttributeWImpl (a : OutArgs 16) (numAttr : Bool) (value : WideText) : Outcome SQLWCHAR :=
  let len := value.units.length
  returnUnits a value a.inUnits (0 < a.inUnits) ((a.given || numAttr) && a.inUnits - 1 < len)
    (toSqlsmallint (toSqlsmallint len * 2))

/-- `SQLDescribeColW`. -/
def SQLDescribeColW (a : OutArgs 16) (value : WideText) : Outcome SQLWCHAR :=
  let len := value.units.length
  returnUnits a value a.max (a.given && 0 < a.max) (a.given && a.max - 1 < len)
    (toSqlsmallint len)

/-- `SQLGetConnectAttrWImpl`, with the size of the buffer in bytes. -/
def SQLGetConnectAttrWImpl (a : OutArgs 32) (value : WideText) : Outcome SQLWCHAR :=
  let len := value.units.length
  if a.given = false then .done ⟨none, none, false⟩
  else returnUnits a value a.inUnits (0 < a.inUnits) (a.inUnits - 1 < len)
    (toSqlinteger (len * 2))

/-- `SQLGetCursorNameW`. -/
def SQLGetCursorNameW (a : OutArgs 16) (name : WideText) : Outcome SQLWCHAR :=
  let len := name.units.length
  if a.max < 0 then .refused (some "HY090")
  else returnUnits a name a.max (0 < a.max) (a.given && a.max - 1 < len) (toSqlsmallint len)

/-- `SQLGetDiagFieldW`, with the size of the buffer in bytes. The text was read in front of the
warning, to convert it. -/
def SQLGetDiagFieldW (handleType : HandleType) (a : OutArgs 16) (value : WideText) :
    Outcome SQLWCHAR :=
  let len := value.units.length
  let cuts := a.given && a.inUnits - 1 < len
  handleType.report false cuts
    (returnUnits a value a.inUnits (0 < a.inUnits) cuts (toSqlsmallint (toSqlsmallint len * 2)))

/-- `SQLGetDiagRecWImpl`, with the size of the buffer in characters. The SQLSTATE is read behind the
warning. -/
def SQLGetDiagRecWImpl (handleType : HandleType) (stateGiven : Bool)
    (state : SqlState (0 : SQLWCHAR)) (a : OutArgs 16) (message : WideText) :
    Outcome SQLWCHAR × Option (List SQLWCHAR) :=
  let len := message.units.length
  let cuts := a.given && a.max ≠ 0 && a.max - 1 < len
  if a.max < 0 then (.refused none, none)
  else
    (handleType.report stateGiven cuts (returnUnits a message a.max (0 < a.max) cuts (toSqlsmallint len)),
      if stateGiven then some (state.chars.take 5 ++ [0]) else none)

/-- `SQLGetInfoW`, with the size of the buffer in bytes. -/
def SQLGetInfoW (a : OutArgs 16) (value : WideText) : Outcome SQLWCHAR :=
  let len := value.units.length
  returnUnits a value a.inUnits (a.given && 0 < a.inUnits)
    (a.given && a.inUnits ≠ 0 && a.inUnits - 1 < len) (toSqlsmallint (toSqlsmallint len * 2))

/-- `SQLNativeSqlW`. -/
def SQLNativeSqlW (a : OutArgs 32) (s : NativeText (0 : SQLWCHAR)) : Outcome SQLWCHAR :=
  nativeSql a s

end MatrixOdbc.Driver
