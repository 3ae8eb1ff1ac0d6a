import MatrixOdbc.Util.TempBuf
import Mathlib.Algebra.Order.Ring.Int

/-!
# Parameters whose data come at execution

`SQLExecute`, `SQLParamData`, `SQLPutData` and `SQLCancel` of `driver/execute.cc` for a
prepared statement that is executed with one set of parameters. A parameter whose length
indicator asks for data at execution is sent to the application for its data; what is
put for it is gathered in the record of the application parameter descriptor. The record
outlives the execution. A call that uses a null pointer has no result: the assertions in
front of it are compiled out.
-/

namespace MatrixOdbc.Driver

open Util

/-- `SQL_NULL_DATA`, `SQL_DATA_AT_EXEC`, `SQL_NTS` and `SQL_COLUMN_IGNORE`, the lengths
with a meaning of their own. -/
def sqlNullData : ℤ := -1
@[inherit_doc sqlNullData] def sqlDataAtExec : ℤ := -2
@[inherit_doc sqlNullData] def sqlNts : ℤ := -3
@[inherit_doc sqlNullData] def sqlColumnIgnore : ℤ := -6

/-- `SQL_LEN_DATA_AT_EXEC_OFFSET`. -/
def sqlLenDataAtExecOffset : ℤ := -100

/-- `SQL_C_DEFAULT` and `SQL_C_WCHAR`. -/
def sqlCDefault : ℤ := 99
@[inherit_doc sqlCDefault] def sqlCWchar : ℤ := -8

/-- A record of the application parameter descriptor with its `par_struct`.
`indicator` and `octetLength` are the values behind the two pointers. -/
structure ApdRec where
  conciseType : ℤ
  dataPtr : Option ℕ
  indicator : Option ℤ
  octetLength : Option ℤ
  tempbuf : TempBuf
  isDae : Bool
  realParamDone : Bool

/-- What a parameter becomes in the statement: `NULL`, `DEFAULT`, the value at the bound
address or the data that have been put. -/
inductive ParamValue where
  | null
  | default
  | bound
  | data (bytes : List UInt8)
  deriving DecidableEq

/-- The arguments of `SQLPutData`. `rgbValue` is the memory that may be read. -/
structure Put where
  rgbValue : Option (List UInt8)
  cbValue : ℤ

namespace Put

/-- `SQL_NULL_DATA` is put. -/
def isNull (p : Put) : Bool := p.cbValue = sqlNullData

/-- `CHECK_DATA_POINTER` and `CHECK_STRLEN_OR_IND`. A missing address with
`SQL_DEFAULT_PARAM` passes both, and then no memory is found for that length. -/
def rejected (p : Put) : Bool :=
  match p.rgbValue with
  | none => p.cbValue ≠ 0 ∧ p.cbValue ≠ sqlNullData
  | some _ => p.cbValue < 0 ∧ p.cbValue ≠ sqlNts ∧ p.cbValue ≠ sqlNullData

/-- `sqlwcharlen` of a memory, in bytes. -/
def wideLength : List UInt8 → ℕ
  | a :: b :: rest => if a = 0 ∧ b = 0 then 0 else wideLength rest + 2
  | _ => 0

/-- The bytes that are added, with the length of a terminated text counted in `SQLPutData`. -/
def chunk (p : Put) (conciseType : ℤ) : List UInt8 :=
  let memory := p.rgbValue.getD []
  if p.rejected || p.isNull then []
  else if p.cbValue = sqlNts then
    if conciseType = sqlCWchar then memory.take (wideLength memory)
    else memory.takeWhile (· ≠ 0)
  else memory.take p.cbValue.toNat

end Put

namespace ApdRec

/-- `IS_DATA_AT_EXEC`. -/
def isDataAtExec (r : ApdRec) : Bool :=
  r.octetLength.any fun n => n = sqlDataAtExec ∨ n ≤ sqlLenDataAtExecOffset

/-- `par.reset`. -/
def parReset (r : ApdRec) : ApdRec := { r with tempbuf := r.tempbuf.reset, isDae := false }

/-- What `find_next_dae_param` does to the record it finds. -/
def ask (r : ApdRec) : ApdRec := { r.parReset with isDae := true }

/-- What `SQLPutData` does to the record of the current parameter. -/
def put (r : ApdRec) (p : Put) : ApdRec :=
  if p.rejected then r
  else if p.isNull then r.parReset
  else { r with tempbuf := r.tempbuf.addToBuffer (p.chunk r.conciseType) }

/-- `put_default_value`: a bind is made `NULL`, a text gets the word. -/
def putDefaultValue (sspsUsed : Bool) : ParamValue := if sspsUsed then .null else .default

/-- The beginning of `insert_param`: what is taken as the value of the parameter. -/
def insertParamValue (r : ApdRec) (sspsUsed : Bool) : ParamValue :=
  if r.indicator = some sqlNullData then .null
  else if r.octetLength = none ∨ r.octetLength = some sqlNts then .bound
  else if r.octetLength = some sqlColumnIgnore ∨
      (r.octetLength = some 0 ∧ r.conciseType = sqlCDefault ∧ r.tempbuf.buf = none) then
    putDefaultValue sspsUsed
  else if r.isDataAtExec then
    match r.tempbuf.value with
    | none => putDefaultValue sspsUsed
    | some bytes => .data bytes
  else .bound

end ApdRec

/-- The statement as far as the calls read and write it. `daeNormal` is
`dae_type == DAE_NORMAL`. -/
structure DaeStmt where
  apd : List ApdRec
  paramCount : ℕ
  currentParam : ℕ
  daeNormal : Bool
  sspsUsed : Bool

/-- What a call answers. `executed` carries the values of the parameters in the statement
that is sent; there are none when `insert_params` fails. -/
inductive DaeReply where
  | error
  | needData (token : Option ℕ)
  | executed (values : Option (List ParamValue))
  deriving DecidableEq

namespace DaeStmt

/-- `insert_params` of the first row: every parameter needs a bound record. -/
def insertParams (s : DaeStmt) : Option (List ParamValue) :=
  let params := s.apd.take s.paramCount
  if params.length = s.paramCount ∧ params.all ApdRec.realParamDone then
    some (params.map fun r => r.insertParamValue s.sspsUsed)
  else none

/-- `free_reset_out_params`, which every closing and every new execution runs. -/
def resetParams (s : DaeStmt) : DaeStmt :=
  { s with apd := s.apd.map ApdRec.parReset, daeNormal := false }

/-- `my_SQLExecute`: a record that wants data at execution, found by
`desc_find_dae_rec` among all records, stops the execution. -/
def execute (s : DaeStmt) : DaeReply × DaeStmt :=
  let s := s.resetParams
  if s.paramCount = 0 then (.executed (some []), s)
  else
    match s.apd.findIdx? ApdRec.isDataAtExec with
    | some i => (.needData none, { s with currentParam := i, daeNormal := true })
    | none => (.executed s.insertParams, s)

/-- The `i`-th record wants data at execution. -/
def isDataAtExec (s : DaeStmt) (i : ℕ) : Bool := (s.apd[i]?).any ApdRec.isDataAtExec

/-- The search for a record that wants data at execution among some parameters. `octet_length_ptr`
of a parameter is read before it is known that it has a record. -/
def searchDaeParam (apd : List ApdRec) : List ℕ → Option (Option ℕ)
  | [] => some none
  | i :: params =>
    (apd[i]?).bind fun r => if r.isDataAtExec then some (some i) else searchDaeParam apd params

/-- The search of `find_next_dae_param`. -/
def findNextDaeParam (s : DaeStmt) : Option (Option ℕ) :=
  searchDaeParam s.apd (List.range' s.currentParam (s.paramCount - s.currentParam))

/-- `SQLParamData`: the next parameter is asked for, or the statement is executed. -/
def paramData (s : DaeStmt) : Option (DaeReply × DaeStmt) :=
  if s.daeNormal then
    s.findNextDaeParam.map fun
      | some i =>
        (.needData ((s.apd[i]?).bind ApdRec.dataPtr),
          { s with apd := s.apd.modify i ApdRec.ask, currentParam := i + 1 })
      | none => (.executed s.insertParams, { s with daeNormal := false })
  else some (.error, s)

/-- `SQLPutData`; only parameters of the statement itself are followed here. Where no data are
wanted the descriptor of `SQLSetPos` is used, which is not there. -/
def putData (s : DaeStmt) (p : Put) : Option DaeStmt :=
  if p.rejected then some s
  else if s.daeNormal then
    if 0 < s.currentParam then
      some { s with apd := s.apd.modify (s.currentParam - 1) (ApdRec.put · p) }
    else some s
  else none

/-- An application that answers the requests one after another: for each it puts the
given data and calls `SQLParamData` again. The tokens it was sent, the last reply and
the statement afterwards. -/
def answerRequests : List (List Put) → DaeStmt → Option (List (Option ℕ) × DaeReply × DaeStmt)
  | [], s => s.paramData.map fun r => ([], r)
  | puts :: answers, s =>
    s.paramData.bind fun
      | (.needData token, s') =>
        (puts.foldlM putData s').bind fun s' =>
          (answerRequests answers s').map fun rest => (token :: rest.1, rest.2)
      | (reply, s') => some ([], reply, s')

/-- A new record of the descriptor. -/
def newRecord : ApdRec := ⟨sqlCDefault, none, none, none, .empty, false, false⟩

/-- `desc_get_rec` with `expand`. -/
def expand (apd : List ApdRec) (i : ℕ) : List ApdRec :=
  apd ++ List.replicate (i + 1 - apd.length) newRecord

/-- Calls of the application, and what it does to the memory it has bound. -/
inductive Call where
  | execute
  | paramData
  | putData (p : Put)
  | close
  | resetParams
  | bindParameter (i : ℕ) (conciseType : ℤ) (dataPtr : Option ℕ) (strLenOrInd : Option ℤ)
  | writeLength (i : ℕ) (strLenOrInd : ℤ)

/-- A call. `SQLCancel` and `SQLFreeStmt(SQL_CLOSE)` drop what was put;
`SQLFreeStmt(SQL_RESET_PARAMS)` drops the records as well. -/
def step (s : DaeStmt) : Call → Option DaeStmt
  | .execute => some s.execute.2
  | .paramData => s.paramData.map Prod.snd
  | .putData p => s.putData p
  | .close => some s.resetParams
  | .resetParams => some { s.resetParams with apd := [] }
  | .bindParameter i conciseType dataPtr strLenOrInd =>
    some { s with apd := (expand s.apd i).modify i fun r =>
        ⟨conciseType, dataPtr, strLenOrInd, strLenOrInd, r.tempbuf.reset, false, true⟩ }
  | .writeLength i strLenOrInd =>
    some { s with apd := s.apd.modify i fun r =>
        { r with
          indicator := r.indicator.map fun _ => strLenOrInd
          octetLength := r.octetLength.map fun _ => strLenOrInd } }

/-- An execution with the calls that come before it. -/
structure Episode where
  calls : List Call
  answers : List (List Put)

/-- What holds at every execution of a run: `C` of the calls that come before it and of the
statement in front of them, and `P` of the statement and of the answers. The run ends where a call
has no result. -/
def AtEveryExecution (C : List Call → DaeStmt → Prop) (P : DaeStmt → List (List Put) → Prop) :
    List Episode → DaeStmt → Prop
  | [], _ => True
  | e :: episodes, s =>
    C e.calls s ∧ ∀ s', e.calls.foldlM step s = some s' →
      P s' e.answers ∧ ∀ exchange, answerRequests e.answers s'.execute.2 = some exchange →
        AtEveryExecution C P episodes exchange.2.2

end DaeStmt

end MatrixOdbc.Driver
