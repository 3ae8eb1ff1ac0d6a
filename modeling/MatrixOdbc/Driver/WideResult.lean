import MatrixOdbc.Foundations.Loop
import MatrixOdbc.Foundations.Utf
import MatrixOdbc.MysqlStrings.Charset
import MatrixOdbc.Util.StringUtil

/-!
# Retrieving wide-character data

`copy_wchar_result` of `driver/utility.cc` with the encoder of `utf16le` that it
calls. A pointer into the
source is an offset into the column value, and `result` is an offset into the
buffer of the call. The field `inBounds` records whether every write so far was
inside that buffer; it influences nothing.
-/

namespace MatrixOdbc.Driver

open Util MysqlStrings

/-- `my_uni_utf16le`: the units written for a code point. None are written when
it returns `MY_CS_ILUNI`; the buffer of the caller is large enough. -/
def myUniUtf16le (wc : ℕ) : List SQLWCHAR :=
  if wc < 0xD800 ∨ (0xDFFF < wc ∧ wc ≤ 0xFFFF) then [UInt16.ofNat wc]
  else if wc < 0xFFFF ∨ 0x10FFFF < wc then []
  else
    [UInt16.ofNat (0xD800 ||| (((wc - 0x10000) >>> 10) &&& 0x3FF)),
      UInt16.ofNat (0xDC00 ||| ((wc - 0x10000) &&& 0x3FF))]

/-- `GETDATA`, as far as it is used for wide data. `dstBytes` is `none` for the
value `(ulong)~0L`. -/
structure GetData where
  source : Option ℕ
  latest : SQLWCHAR
  latestBytes : ℕ
  dstBytes : Option ℕ
  dstOffset : ℕ
  deriving DecidableEq

/-- The options of the statement that the function reads. -/
structure StmtOptions where
  maxLength : ℕ
  retrieveData : Bool

/-- The local variables of `copy_wchar_result` and the buffer of the call. -/
structure CopyState where
  src : ℕ
  result : Option ℕ
  buffer : List SQLWCHAR
  usedChars : ℕ
  errorCount : ℕ
  getdata : GetData
  inBounds : Bool
  deriving DecidableEq

namespace CopyState

/-- `*result = c`, a write that stays out when data is not retrieved. -/
def put (retrieve : Bool) (i : ℕ) (c : SQLWCHAR) (s : CopyState) : CopyState :=
  if retrieve then
    { s with buffer := s.buffer.set i c, inBounds := s.inBounds && decide (i < s.buffer.length) }
  else s

/-- `stmt->getdata.source+= cnvres`. -/
def advanceSource (cnvres : ℕ) (s : CopyState) : CopyState :=
  { s with getdata := { s.getdata with source := s.getdata.source.map (· + cnvres) } }

/-- When the end of the buffer is reached, terminate it and copy nothing more. -/
def closeAtEnd (retrieve : Bool) (resultEnd : ℕ) (s : CopyState) : CopyState :=
  if s.result = some resultEnd then { s.put retrieve resultEnd 0 with result := none } else s

/-- The end of the loop body: the source is consumed while there is a buffer. -/
def finishChar (retrieve : Bool) (resultEnd cnvres : ℕ) (s : CopyState) : CopyState :=
  (if s.result.isSome then s.advanceSource cnvres else s).closeAtEnd retrieve resultEnd

/-- Terminate what was copied. -/
def terminate (retrieve : Bool) (s : CopyState) : CopyState :=
  match s.result with
  | some i => s.put retrieve i 0
  | none => s

/-- `*result++ = c` while there is a buffer. -/
def append (retrieve : Bool) (c : SQLWCHAR) (s : CopyState) : CopyState :=
  match s.result with
  | some i => { s.put retrieve i c with result := some (i + 1) }
  | none => s

end CopyState

open CopyState WhileLoop

/-- Store the units of one character. The loop is left early when the second
unit has to wait for the next call. -/
def storeUnits (retrieve : Bool) (resultEnd cnvres : ℕ) (u₀ : SQLWCHAR) (u₁ : Option SQLWCHAR)
    (s : CopyState) : Step CopyState (CopyState × Bool) :=
  let s := ({ s with src := s.src + cnvres } : CopyState).append retrieve u₀
  match u₁ with
  | none => .next (finishChar retrieve resultEnd cnvres { s with usedChars := s.usedChars + 1 })
  | some u₁ =>
    let s := { s with usedChars := s.usedChars + 2 }
    match s.result with
    | none => .next s
    | some i =>
      if i ≠ resultEnd then .next (finishChar retrieve resultEnd cnvres (s.append retrieve u₁))
      else
        let s := { s.put retrieve i 0 with
          result := none
          getdata := { s.getdata with latest := u₁, latestBytes := 2 } }
        if s.getdata.dstBytes.isSome then .done (s.advanceSource cnvres, true)
        else .next (finishChar retrieve resultEnd cnvres s)

/-- One evaluation of the conversion loop. It ends with the state and whether
the conversion got through. -/
def convertBody (retrieve : Bool) (value : List UInt8) (resultEnd : ℕ) (s : CopyState) :
    Step CopyState (CopyState × Bool) :=
  if value.length ≤ s.src then .done (s, true)
  else
    let (cnvres, wc) := myMbWcUtf8mb4 (value.drop s.src)
    if cnvres < 0 ∧ cnvres ≤ MY_CS_TOOSMALL then .done (s, false)
    else
      let (cnvres, wc, errorCount) :=
        if cnvres = MY_CS_ILSEQ then (1, '?'.toNat, s.errorCount + 1)
        else if cnvres < 0 then (cnvres.natAbs, '?'.toNat, s.errorCount + 1)
        else (cnvres.natAbs, wc, s.errorCount)
      let (ubuf, errorCount) :=
        -- `latest_bytes` is compared with the error code, as the source has it
        if myUniUtf16le wc = [] ∧ (s.getdata.latestBytes : ℤ) = MY_CS_ILUNI ∧ wc ≠ '?'.toNat then
          (myUniUtf16le '?'.toNat, errorCount + 1)
        else (myUniUtf16le wc, errorCount)
      let s := { s with errorCount }
      match ubuf with
      | [] => .done (s, false)
      | u₀ :: us => storeUnits retrieve resultEnd cnvres u₀ us.head? s

/-- `SQLRETURN`. -/
inductive SQLRETURN where
  | SQL_SUCCESS | SQL_SUCCESS_WITH_INFO | SQL_NO_DATA_FOUND | SQL_ERROR
  deriving DecidableEq

/-- What a call leaves behind. `availBytes` is `none` when it is not written. -/
structure CopyOutcome where
  rc : SQLRETURN
  buffer : List SQLWCHAR
  availBytes : Option ℕ
  getdata : GetData
  inBounds : Bool
  deriving DecidableEq

/-- The first statements of `copy_wchar_result`: a buffer of one unit only gets
its terminator. -/
def copyEnter (buffer : List SQLWCHAR) (getdata : GetData) : CopyState :=
  let result := if buffer.length = 0 then none else some 0
  let s : CopyState := ⟨getdata.source.getD 0, result, buffer, 0, 0,
    { getdata with source := some (getdata.source.getD 0) }, true⟩
  if result = some (buffer.length - 1) then { s.put true 0 0 with result := none } else s

/-- A unit that was left over by the last call goes first. -/
def copyLatest (opts : StmtOptions) (s : CopyState) : CopyState :=
  if s.getdata.latestBytes ≠ 0 then
    let resultEnd := s.buffer.length - 1
    let s := match s.result with
      | some i => { s.put opts.retrieveData i s.getdata.latest with result := some (i + 1) }
      | none => { s with inBounds := false }
    { s.closeAtEnd opts.retrieveData resultEnd with
      usedChars := 1
      getdata := { s.getdata with latestBytes := 0 } }
  else s

/-- The statements of `copy_wchar_result` behind the loop. -/
def copyFinish (opts : StmtOptions) (resultLen : ℕ) (s : CopyState) : CopyOutcome :=
  let s := s.terminate opts.retrieveData
  let getdata : GetData :=
    if resultLen ≠ 0 ∧ s.getdata.dstBytes = none then
      { s.getdata with dstBytes := some (s.usedChars * 2), dstOffset := 0 }
    else s.getdata
  let dstBytes := getdata.dstBytes.getD (ulongSize - 1)
  let availBytes :=
    if opts.retrieveData then
      some (if resultLen ≠ 0 then dstBytes - getdata.dstOffset else s.usedChars * 2)
    else none
  let getdata :=
    { getdata with dstOffset := getdata.dstOffset + min (resultLen - 1) s.usedChars * 2 }
  let rc : SQLRETURN := if resultLen = 0 ∨ getdata.dstOffset < dstBytes ∨ s.errorCount ≠ 0 then
    .SQL_SUCCESS_WITH_INFO else .SQL_SUCCESS
  ⟨rc, s.buffer, availBytes, getdata, s.inBounds⟩

/-- The value after the maximal length of the statement has been applied. -/
def limitLength (opts : StmtOptions) (value : List UInt8) : List UInt8 :=
  if opts.maxLength ≠ 0 then value.take opts.maxLength else value

/-- `copy_wchar_result` with the buffer of the call, whose length is
`result_len`. The loop consumes a byte in every round, so that it ends within
the given number of rounds. -/
def copyWcharResult (opts : StmtOptions) (value : List UInt8) (getdata : GetData)
    (buffer : List SQLWCHAR) : Option CopyOutcome :=
  let value := limitLength opts value
  let s := copyEnter buffer getdata
  if getdata.dstBytes.any (· ≤ getdata.dstOffset) then
    some ⟨.SQL_NO_DATA_FOUND, s.buffer, none, s.getdata, s.inBounds⟩
  else do
    let (s, converted) ← run (convertBody opts.retrieveData value (buffer.length - 1))
      (value.length + 1) (copyLatest opts s)
    if converted then some (copyFinish opts buffer.length s)
    else some ⟨.SQL_ERROR, s.buffer, none, s.getdata, s.inBounds⟩

/-- A sequence of `SQLGetData` calls on one column. -/
def retrieveAll (opts : StmtOptions) (value : List UInt8) :
    GetData → List (List SQLWCHAR) → Option (List CopyOutcome)
  | _, [] => some []
  | getdata, buffer :: buffers => do
    let out ← copyWcharResult opts value getdata buffer
    let outs ← retrieveAll opts value out.getdata buffers
    some (out :: outs)

end MatrixOdbc.Driver
