import Mathlib.Algebra.Order.Ring.Int
import Mathlib.Logic.Function.Basic
import Mathlib.Tactic.Common

/-!
# Descriptors

`desc_get_rec`, `DESC::set_field` and `MySQLGetDescField` of `driver/desc.cc`, with the
tables of the descriptor fields, and `my_SQLBindParameter` of `driver/prepare.cc`. Every
field goes through one copy that is driven by its entry in the table. What the functions
may run into, a failed assertion or a null pointer that is read through, is an outcome of
its own; assertions are compiled in or not.

`count` is refreshed by `rcount` before each use, so it is not kept apart from the records.
-/

namespace MatrixOdbc.Driver

/-- The descriptor fields: those of the header, then those of a record. -/
inductive DescField where
  | allocType | arraySize | arrayStatusPtr | bindOffsetPtr | bindType | count | rowsProcessedPtr
  | autoUniqueValue | baseColumnName | baseTableName | caseSensitive | catalogName | conciseType
  | dataPtr | displaySize | fixedPrecScale | indicatorPtr | label | length | literalPrefix
  | literalSuffix | localTypeName | name | nullable | numPrecRadix | octetLength | octetLengthPtr
  | parameterType | precision | rowver | scale | schemaName | searchable | tableName | type
  | typeName | unnamed | isUnsigned | updatable | datetimeIntervalCode | datetimeIntervalPrecision
  deriving DecidableEq

/-- The types of fields and buffers, `SQL_IS_POINTER` and so on. -/
inductive BufType where
  | nts | pointer | uinteger | integer | usmallint | smallint | ulen | len
  deriving DecidableEq

/-- The buffer length that stands for a type. -/
def BufType.code : BufType → ℤ
  | nts => -3
  | pointer => -4
  | uinteger => -5
  | integer => -6
  | usmallint => -7
  | smallint => -8
  | ulen => -9
  | len => -10

/-- The type a buffer length stands for. -/
def BufType.ofCode (buflen : ℤ) : Option BufType :=
  [nts, pointer, uinteger, integer, usmallint, smallint, ulen, len].find? fun t => t.code = buflen

/-- `fld_loc`. -/
inductive FldLoc where
  | header | record
  deriving DecidableEq

/-- `desc_field`, without the offset. -/
structure FieldDesc where
  loc : FldLoc
  perms : ℕ
  dataType : BufType

/-- Permissions of a header field, and the base of those of a record field. -/
def P_RI : ℕ := 1
@[inherit_doc P_RI] def P_WI : ℕ := 2
@[inherit_doc P_RI] def P_RA : ℕ := 4
@[inherit_doc P_RI] def P_WA : ℕ := 8

/-- `P_PAR`; `P_ROW` is the permission itself. -/
def P_PAR (p : ℕ) : ℕ := p <<< 4

/-- Permissions of record fields. -/
def PR_RIR : ℕ := P_RI
@[inherit_doc PR_RIR] def PR_RAR : ℕ := P_RA
@[inherit_doc PR_RIR] def PR_WAR : ℕ := P_WA ||| PR_RAR
@[inherit_doc PR_RIR] def PR_RIP : ℕ := P_PAR P_RI
@[inherit_doc PR_RIR] def PR_WIP : ℕ := P_PAR P_WI ||| PR_RIP
@[inherit_doc PR_RIR] def PR_RAP : ℕ := P_PAR P_RI
@[inherit_doc PR_RIR] def PR_WAP : ℕ := P_PAR P_WA ||| PR_RAP

/-- `getfield`. -/
def getfield : DescField → FieldDesc
  | .allocType => ⟨.header, P_RI ||| P_RA, .smallint⟩
  | .arraySize => ⟨.header, P_RA ||| P_WA, .ulen⟩
  | .arrayStatusPtr => ⟨.header, P_RI ||| P_WI ||| P_RA ||| P_WA, .pointer⟩
  | .bindOffsetPtr => ⟨.header, P_RA ||| P_WA, .pointer⟩
  | .bindType => ⟨.header, P_RA ||| P_WA, .integer⟩
  | .count => ⟨.header, P_RI ||| P_WI ||| P_RA ||| P_WA, .len⟩
  | .rowsProcessedPtr => ⟨.header, P_RI ||| P_WI, .pointer⟩
  | .autoUniqueValue => ⟨.record, PR_RIR, .integer⟩
  | .baseColumnName => ⟨.record, PR_RIR, .pointer⟩
  | .baseTableName => ⟨.record, PR_RIR, .pointer⟩
  | .caseSensitive => ⟨.record, PR_RIR ||| PR_RIP, .integer⟩
  | .catalogName => ⟨.record, PR_RIR, .pointer⟩
  | .conciseType => ⟨.record, PR_WAR ||| PR_WAP ||| PR_RIR ||| PR_WIP, .smallint⟩
  | .dataPtr => ⟨.record, PR_WAR ||| PR_WAP, .pointer⟩
  | .displaySize => ⟨.record, PR_RIR, .len⟩
  | .fixedPrecScale => ⟨.record, PR_RIR ||| PR_RIP, .smallint⟩
  | .indicatorPtr => ⟨.record, PR_WAR ||| PR_WAP, .pointer⟩
  | .label => ⟨.record, PR_RIR, .pointer⟩
  | .length => ⟨.record, PR_WAR ||| PR_WAP ||| PR_RIR ||| PR_WIP, .ulen⟩
  | .literalPrefix => ⟨.record, PR_RIR, .pointer⟩
  | .literalSuffix => ⟨.record, PR_RIR, .pointer⟩
  | .localTypeName => ⟨.record, PR_RIR ||| PR_RIP, .pointer⟩
  | .name => ⟨.record, PR_RIR ||| PR_WIP, .nts⟩
  | .nullable => ⟨.record, PR_RIR ||| PR_RIP, .smallint⟩
  | .numPrecRadix => ⟨.record, PR_WAR ||| PR_WAP ||| PR_RIR ||| PR_WIP, .integer⟩
  | .octetLength => ⟨.record, PR_WAR ||| PR_WAP ||| PR_RIR ||| PR_WIP, .len⟩
  | .octetLengthPtr => ⟨.record, PR_WAR ||| PR_WAP, .pointer⟩
  | .parameterType => ⟨.record, PR_WIP, .smallint⟩
  | .precision => ⟨.record, PR_WAR ||| PR_WAP ||| PR_RIR ||| PR_WIP, .smallint⟩
  | .rowver => ⟨.record, PR_RIR ||| PR_RIP, .smallint⟩
  | .scale => ⟨.record, PR_WAR ||| PR_WAP ||| PR_RIR ||| PR_WIP, .smallint⟩
  | .schemaName => ⟨.record, PR_RIR, .pointer⟩
  | .searchable => ⟨.record, PR_RIR, .smallint⟩
  | .tableName => ⟨.record, PR_RIR, .pointer⟩
  | .type => ⟨.record, PR_WAR ||| PR_WAP ||| PR_RIR ||| PR_WIP, .smallint⟩
  | .typeName => ⟨.record, PR_RIR ||| PR_RIP, .pointer⟩
  | .unnamed => ⟨.record, PR_RIR ||| PR_WIP, .smallint⟩
  | .isUnsigned => ⟨.record, PR_RIR ||| PR_RIP, .smallint⟩
  | .updatable => ⟨.record, PR_RIR, .smallint⟩
  | .datetimeIntervalCode => ⟨.record, PR_WAR ||| PR_WAP ||| PR_RIR ||| PR_WIP, .smallint⟩
  | .datetimeIntervalPrecision => ⟨.record, PR_WAR ||| PR_WAP ||| PR_RIR ||| PR_WIP, .integer⟩

/-- `get_dticode_from_concise_type`. The concise interval types are 101 up to 113, and
their codes 1 up to 13. -/
def getDticodeFromConciseType (conciseType : ℤ) : ℤ :=
  if conciseType = 91 then 1
  else if conciseType = 92 then 2
  else if conciseType = 11 ∨ conciseType = 93 then 3
  else if 101 ≤ conciseType ∧ conciseType ≤ 113 then conciseType - 100
  else 0

/-- `get_concise_type_from_datetime_code`. -/
def getConciseTypeFromDatetimeCode (dticode : ℤ) : ℤ :=
  if dticode = 1 then 91
  else if dticode = 2 then 91
  else if dticode = 3 then 93
  else 0

/-- `get_concise_type_from_interval_code`. -/
def getConciseTypeFromIntervalCode (dticode : ℤ) : ℤ :=
  if 1 ≤ dticode ∧ dticode ≤ 13 then dticode + 100 else 0

/-- `SQL_DATETIME` and `SQL_INTERVAL`. -/
def sqlDatetime : ℤ := 9
@[inherit_doc sqlDatetime] def sqlInterval : ℤ := 10

/-- `SQL_C_NUMERIC`. -/
def sqlCNumeric : ℤ := 2

/-- `get_type_from_concise_type`. -/
def getTypeFromConciseType (conciseType : ℤ) : ℤ :=
  if 91 ≤ conciseType ∧ conciseType ≤ 93 then sqlDatetime
  else if 101 ≤ conciseType ∧ conciseType ≤ 113 then sqlInterval
  else conciseType

/-- `desc_ref_type`. -/
inductive DescRefType where
  | imp | app
  deriving DecidableEq

/-- `desc_desc_type`. -/
inductive DescDescType where
  | param | row | unknown
  deriving DecidableEq

/-- What a field holds: a number, which may be an address, or the address of a constant
text or of the parameter data of the record. -/
inductive DescValue where
  | number (n : ℤ)
  | text (s : List Char)
  | paramData
  deriving DecidableEq

/-- The number a field holds. -/
def DescValue.toInt : DescValue → ℤ
  | number n => n
  | _ => 0

/-- `DESCREC`. -/
structure DescRec where
  fields : DescField → DescValue
  paramData : List UInt8
  isDae : Bool
  realParamDone : Bool

namespace DescRec

/-- Store numbers in some fields. -/
def put (r : DescRec) (fld : DescField) (n : ℤ) : DescRec :=
  { r with fields := Function.update r.fields fld (.number n) }

/-- `desc_rec_init_apd` and `desc_rec_init_ard`. -/
def initApp (r : DescRec) : DescRec :=
  ((((r.put .conciseType 99).put .dataPtr 0).put .indicatorPtr 0).put .octetLengthPtr 0).put .type 99

/-- `desc_rec_init_ipd`. -/
def initIpd (r : DescRec) : DescRec :=
  let r := (((r.put .fixedPrecScale 1).put .nullable 1).put .parameterType 1).put .isUnsigned 0
  { r with
    fields := Function.update (Function.update (Function.update r.fields .localTypeName (.text []))
      .typeName (.text ['V', 'A', 'R', 'C', 'H', 'A', 'R'])) .name (.text []) }

/-- `desc_rec_init_ird`. -/
def initIrd (r : DescRec) : DescRec :=
  let r := ((((r.put .autoUniqueValue 0).put .caseSensitive 1).put .conciseType 12).put
    .displaySize 100).put .fixedPrecScale 1
  let r := ((((r.put .length 100).put .nullable 2).put .type 12).put .unnamed 1).put .isUnsigned 0
  { r with
    fields := Function.update r.fields .typeName (.text ['V', 'A', 'R', 'C', 'H', 'A', 'R']) }

/-- `reset_to_defaults`. -/
def resetToDefaults (refType : DescRefType) (descType : DescDescType) (r : DescRec) : DescRec :=
  let r := { r with paramData := [], isDae := false }
  match refType, descType with
  | .app, .param => r.initApp
  | .imp, .param => r.initIpd
  | .app, .row => r.initApp
  | .imp, .row => r.initIrd
  | _, .unknown => r

/-- A new record. -/
def new (refType : DescRefType) (descType : DescDescType) : DescRec :=
  resetToDefaults refType descType ⟨fun _ => .number 0, [], false, false⟩

end DescRec

/-- What descriptors read of the statement they belong to: whether bookmarks are on, and
whether it is prepared. -/
structure DescStmt where
  bookmarks : Bool
  prepared : Bool
  deriving DecidableEq

/-- `DESC`. A descriptor that the application has allocated has no statement. -/
structure Desc where
  refType : DescRefType
  descType : DescDescType
  header : DescField → DescValue
  bookmark2 : List DescRec
  records2 : List DescRec
  stmt : Option DescStmt

/-- What a call may run into. `overrun` is a copy to a field that writes past it. -/
inductive DescFault where
  | assertion
  | nullField
  | nullStmt
  | emptyVector
  | nullRecord
  | overrun
  deriving DecidableEq

/-- The errors of the descriptor functions. -/
inductive DescError where
  | HY007 | HY016 | HY091 | HY092 | HY015 | HY093 | invalidIndex
  deriving DecidableEq

/-- The return value of a call. -/
inductive DescReply where
  | success
  | error (e : DescError)
  deriving DecidableEq

/-- A record of a descriptor. -/
inductive RecRef where
  | bookmark (index : ℕ)
  | record (index : ℕ)
  deriving DecidableEq

namespace Desc

/-- `DESC::DESC`. -/
def new (stmt : Option DescStmt) (allocType : ℤ) (refType : DescRefType)
    (descType : DescDescType) : Desc where
  refType := refType
  descType := descType
  header := Function.update (Function.update (fun _ => .number 0) .arraySize (.number 1))
    .allocType (.number allocType)
  bookmark2 := []
  records2 := []
  stmt := stmt

/-- `is_ird`. -/
def isIrd (d : Desc) : Bool := d.descType = .row && d.refType = .imp

/-- `is_ard`. -/
def isArd (d : Desc) : Bool := d.descType = .row && d.refType = .app

/-- `is_apd`. -/
def isApd (d : Desc) : Bool := d.descType = .param && d.refType = .app

/-- `is_ipd`. -/
def isIpd (d : Desc) : Bool := d.descType = .param && d.refType = .imp

/-- `rcount`. -/
def rcount (d : Desc) : ℕ := d.records2.length

/-- A new record of the descriptor. -/
def newRec (d : Desc) : DescRec := .new d.refType d.descType

/-- The records are expanded to a number of them. -/
def expandTo (d : Desc) (n : ℕ) : Desc :=
  { d with records2 := d.records2 ++ List.replicate (n - d.rcount) d.newRec }

/-- `desc_get_rec`. An error it sets for the statement is not kept. -/
def getRec (asserts : Bool) (d : Desc) (recnum : ℤ) (expand : Bool) :
    Except DescFault (Option RecRef × Desc) :=
  if asserts ∧ recnum < 0 then .error .assertion
  else if recnum < 0 then
    match d.stmt with
    | none => .error .nullStmt
    | some stmt =>
      if recnum = -1 ∧ stmt.bookmarks then
        let d := if expand ∧ d.bookmark2 = [] then { d with bookmark2 := [d.newRec] } else d
        if d.bookmark2 = [] then .error .emptyVector
        else .ok (some (.bookmark (d.bookmark2.length - 1)), d)
      else .ok (none, d)
  else
    let d := if expand then d.expandTo (recnum.toNat + 1) else d
    .ok (if recnum.toNat < d.rcount then some (.record recnum.toNat) else none, d)

/-- The record a reference names. -/
def recAt (d : Desc) : RecRef → Option DescRec
  | .bookmark index => d.bookmark2[index]?
  | .record index => d.records2[index]?

/-- The record with a number as `set_field` finds or makes it; 0 is the bookmark record. -/
def target (d : Desc) (recnum : ℤ) : DescRec :=
  (if recnum < 1 then d.bookmark2.getLast? else d.records2[(recnum - 1).toNat]?).getD d.newRec

/-- One record is changed. -/
def modifyRec (d : Desc) (f : DescRec → DescRec) : RecRef → Desc
  | .bookmark index => { d with bookmark2 := d.bookmark2.modify index f }
  | .record index => { d with records2 := d.records2.modify index f }

/-- `DESC::set_error`: the message begins with a text of the connection of the statement. -/
def setError (d : Desc) (e : DescError) : Except DescFault (DescReply × Desc) :=
  if d.stmt.isSome then .ok (.error e, d) else .error .nullStmt

/-- The permission that a record field needs, from the base one. -/
def recPerms (d : Desc) (p : ℕ) : ℕ := if d.descType = .param then P_PAR p else p

/-- The permission check of a call that needs `imp` on implementation descriptors and `app`
on application descriptors. -/
def permits (d : Desc) (imp app : ℕ) (fld : FieldDesc) : Bool :=
  let p := if d.refType = .app then app else imp
  fld.perms &&& (if fld.loc = .header then p else d.recPerms p) ≠ 0

end Desc

/-- The number that is stored in a field of a type. -/
def BufType.stored (t : BufType) (src : BitVec 64) : ℤ :=
  match t with
  | smallint => (src.setWidth 16).toInt
  | usmallint => (src.setWidth 16).toNat
  | integer => (src.setWidth 32).toInt
  | uinteger => (src.setWidth 32).toNat
  | len => src.toInt
  | ulen | pointer | nts => src.toNat

/-- `apply_desc_val`: `none` is a copy past the field. -/
def applyDescVal (dest : DescValue) (destType : BufType) (src : BitVec 64) (buflen : ℤ) :
    Option DescValue :=
  match BufType.ofCode buflen with
  | some .smallint | some .integer | some .len | some .usmallint | some .uinteger | some .ulen =>
    match destType with
    | .pointer | .nts => some dest
    | destType => some (.number (destType.stored src))
  | some .nts | some .pointer =>
    match destType with
    | .smallint | .usmallint | .integer | .uinteger => none
    | destType => some (.number (destType.stored src))
  | none => some dest

/-- The check of the buffer length against the type of the field. -/
def typeMatches (fld : FieldDesc) (buflen : ℤ) : Bool :=
  decide (fld.dataType = .pointer) == decide (buflen = BufType.pointer.code)

/-- Some applications do not give a correct buffer length; 0 stands for the type of the
field. -/
def givenLength (fld : FieldDesc) (buflen : ℤ) : ℤ :=
  if buflen = 0 then fld.dataType.code else buflen

/-- The fields that are set without unbinding the value. -/
def isBindingPtr (fld : DescField) : Bool :=
  fld = .dataPtr || fld = .octetLengthPtr || fld = .indicatorPtr

namespace DescRec

/-- The type fields are brought in line with the one that has been set. -/
def deriveTypes (fld : DescField) (r : DescRec) : DescRec :=
  match fld with
  | .type => (r.put .conciseType (r.fields .type).toInt).put .datetimeIntervalCode 0
  | .conciseType =>
    (r.put .type (getTypeFromConciseType (r.fields .conciseType).toInt)).put .datetimeIntervalCode
      (getDticodeFromConciseType (r.fields .conciseType).toInt)
  | .datetimeIntervalCode =>
    r.put .conciseType
      (if (r.fields .type).toInt = sqlDatetime then
        getConciseTypeFromDatetimeCode (r.fields .datetimeIntervalCode).toInt
      else getConciseTypeFromIntervalCode (r.fields .datetimeIntervalCode).toInt)
  | _ => r

/-- The defaults of a type. -/
def typeDefaults (isArd : Bool) (fld : DescField) (r : DescRec) : DescRec :=
  if (fld = .type ∨ fld = .conciseType) ∧ isArd ∧ (r.fields .type).toInt = sqlCNumeric then
    (r.put .precision 38).put .scale 0
  else r

/-- What is done behind the copy. -/
def afterSet (d : Desc) (fld : DescField) (val : BitVec 64) (r : DescRec) : DescRec :=
  let r := if d.isArd || d.isApd || d.isIpd then typeDefaults d.isArd fld (deriveTypes fld r) else r
  if d.isApd ∧ val ≠ 0 ∧ isBindingPtr fld then { r with realParamDone := true } else r

/-- The parameter data of the record are extended by the name, and the value is unbound. -/
def beforeSet (fld : DescField) (text : List UInt8) (r : DescRec) : DescRec :=
  let r := if fld = .name then { r with paramData := r.paramData ++ text ++ [0] } else r
  if isBindingPtr fld then r else r.put .dataPtr 0

/-- `set_field`, from the checks on. A name is stored as the address of the parameter
data. -/
def setField (d : Desc) (fld : DescField) (val : BitVec 64) (text : List UInt8) (buflen : ℤ)
    (r : DescRec) : Option DescRec :=
  let r := r.beforeSet fld text
  let value :=
    if fld = .name then some (if buflen = BufType.nts.code then .paramData else r.fields fld)
    else applyDescVal (r.fields fld) (getfield fld).dataType val buflen
  value.map fun value => afterSet d fld val { r with fields := Function.update r.fields fld value }

end DescRec

namespace Desc

/-- `set_field` for a header field, behind the permission checks. -/
def setHeader (asserts : Bool) (d : Desc) (fld : DescField) (val : BitVec 64) (buflen : ℤ) :
    Except DescFault (DescReply × Desc) :=
  let buflen := givenLength (getfield fld) buflen
  if typeMatches (getfield fld) buflen = false then d.setError .HY015
  else
    match (if fld = .count then d.getRec asserts ((val - 1).setWidth 32).toInt true
      else .ok (none, d)) with
    | .error fault => .error fault
    | .ok (_, d) =>
      match applyDescVal (d.header fld) (getfield fld).dataType val buflen with
      | none => .error .overrun
      | some value => .ok (.success, { d with header := Function.update d.header fld value })

/-- `set_field` for a field of a record, behind the permission checks. -/
def setRecord (asserts : Bool) (d : Desc) (recnum : ℤ) (fld : DescField) (val : BitVec 64)
    (text : List UInt8) (buflen : ℤ) : Except DescFault (DescReply × Desc) :=
  if recnum < 1 ∧ d.stmt = none then .error .nullStmt
  else if recnum < 1 ∧ d.stmt.any (fun stmt => !stmt.bookmarks) then d.setError .invalidIndex
  else
    match d.getRec asserts (recnum - 1) true with
    | .error fault => .error fault
    | .ok (ref, d) =>
      let buflen := givenLength (getfield fld) buflen
      if typeMatches (getfield fld) buflen = false then d.setError .HY015
      else if fld = .unnamed ∧ val = 0 then d.setError .HY092
      else
        match ref.bind fun ref => (d.recAt ref).map fun r => (ref, r) with
        | none => .error .nullRecord
        | some (ref, r) =>
          match r.setField d fld val text buflen with
          | none => .error .overrun
          | some r => .ok (.success, d.modifyRec (fun _ => r) ref)

/-- `DESC::set_field`. `fldid` is `none` for a number that is no field identifier, and
`text` is the text at the address `val`, up to its end. -/
def setField (asserts : Bool) (d : Desc) (recnum : ℤ) (fldid : Option DescField)
    (val : BitVec 64) (text : List UInt8) (buflen : ℤ) : Except DescFault (DescReply × Desc) :=
  if d.isIrd ∧ fldid ≠ some .arrayStatusPtr ∧ fldid ≠ some .rowsProcessedPtr then
    d.setError .HY016
  else
    match fldid with
    | none => d.setError .HY091
    | some fld =>
      if d.permits P_WI P_WA (getfield fld) = false then d.setError .HY091
      else
        match (getfield fld).loc with
        | .header => d.setHeader asserts fld val buflen
        | .record => d.setRecord asserts recnum fld val text buflen

end Desc

/-- A number as it is written to a buffer of a type. -/
def BufType.written (t : BufType) (n : ℤ) : ℤ :=
  match t with
  | smallint => (BitVec.ofInt 16 n).toInt
  | usmallint => (BitVec.ofInt 16 n).toNat
  | integer => (BitVec.ofInt 32 n).toInt
  | uinteger => (BitVec.ofInt 32 n).toNat
  | len => (BitVec.ofInt 64 n).toInt
  | ulen | pointer | nts => (BitVec.ofInt 64 n).toNat

/-- The copy of a field to the buffer, if there is one. -/
def readDescVal (src : DescValue) (srcType : BufType) (buflen : ℤ) : Option DescValue :=
  match BufType.ofCode buflen, srcType with
  | some .pointer, _ => some src
  | some .nts, _ | none, _ | some _, .pointer | some _, .nts => none
  | some t, _ => some (.number (t.written src.toInt))

namespace Desc

/-- The field of a call that is allowed to read it, or an error. -/
def source (d : Desc) (recnum : ℤ) (fld : DescField) : Except DescError DescValue :=
  match (getfield fld).loc with
  | .header => .ok (if fld = .count then .number d.rcount else d.header fld)
  | .record =>
    if recnum < 1 then .error .invalidIndex
    else
      match d.records2[(recnum - 1).toNat]? with
      | none => .error .invalidIndex
      | some r => .ok (r.fields fld)

/-- `MySQLGetDescField`: the return value and what is written to the buffer. -/
def getField (d : Desc) (recnum : ℤ) (fldid : Option DescField) (buflen : ℤ) :
    Except DescFault (DescReply × Option DescValue) :=
  if d.isIrd ∧ d.stmt = none then .error .nullStmt
  else if d.isIrd ∧ d.stmt.any (fun stmt => !stmt.prepared) then .ok (.error .HY007, none)
  else
    match fldid with
    | none => .error .nullField
    | some fld =>
      if d.permits P_RI P_RA (getfield fld) = false then .ok (.error .HY091, none)
      else
        match d.source recnum fld with
        | .error e => .ok (.error e, none)
        | .ok src =>
          if typeMatches (getfield fld) buflen = false then .ok (.error .HY015, none)
          else .ok (.success, readDescVal src (getfield fld).dataType buflen)

/-- `stmt_SQLSetDescField` for one field after the other, up to an error. -/
def setFields (asserts : Bool) (d : Desc) (recnum : ℤ) :
    List (DescField × BitVec 64 × BufType) → Except DescFault (DescReply × Desc)
  | [] => .ok (.success, d)
  | (fld, val, t) :: rest =>
    match d.setField asserts recnum (some fld) val [] t.code with
    | .error fault => .error fault
    | .ok (.error e, d) => .ok (.error e, d)
    | .ok (.success, d) => d.setFields asserts recnum rest

end Desc

/-- The parameter descriptors of a statement, and `DFLT_BIGINT_BIND_STR`. -/
structure ParamDescs where
  apd : Desc
  ipd : Desc
  dfltBigintBindStr : Bool

/-- The arguments of `my_SQLBindParameter`. -/
structure BindCall where
  parameterNumber : BitVec 16
  inputOutputType : ℤ
  valueType : ℤ
  parameterType : ℤ
  columnSize : BitVec 64
  decimalDigits : ℤ
  parameterValuePtr : BitVec 64
  bufferLength : BitVec 64
  strLenOrIndPtr : BitVec 64

/-- `default_c_type`. -/
def defaultCType (sqlDataType : ℤ) : ℤ :=
  if sqlDataType = -5 then -25
  else if sqlDataType ∈ [-7, -6, 5, 4, 8] then sqlDataType
  else if sqlDataType ∈ [6, 7] then 7
  else if sqlDataType ∈ [-2, -3, -4] then -2
  else if sqlDataType ∈ [9, 91] then 9
  else if sqlDataType ∈ [10, 92] then 10
  else if sqlDataType ∈ [11, 93] then 11
  else 1

namespace BindCall

/-- The C type that is bound. Access treats `BIGINT` as a string on linked tables. -/
def boundType (call : BindCall) (dfltBigintBindStr : Bool) : ℤ :=
  if call.valueType = 99 then
    if call.parameterType = -5 ∧ dfltBigintBindStr then 1 else defaultCType call.parameterType
  else call.valueType

/-- The fields that are set in the application descriptor. -/
def apdFields (call : BindCall) (dfltBigintBindStr : Bool) :
    List (DescField × BitVec 64 × BufType) :=
  [(.conciseType, .ofInt 64 (call.boundType dfltBigintBindStr), .smallint),
    (.octetLength, call.bufferLength, .integer),
    (.dataPtr, call.parameterValuePtr, .pointer),
    (.octetLengthPtr, call.strLenOrIndPtr, .pointer),
    (.indicatorPtr, call.strLenOrIndPtr, .pointer)]

/-- The fields that are set from `ColumnSize` and `DecimalDigits`. -/
def sizeFields (call : BindCall) : List (DescField × BitVec 64 × BufType) :=
  if call.parameterType ∈ [92, 93, 106, 110, 112, 113] then
    [(.precision, .ofInt 64 call.decimalDigits, .smallint)]
  else if call.parameterType ∈ [1, 12, -1, -2, -3, -4] then [(.length, call.columnSize, .ulen)]
  else if call.parameterType ∈ [2, 3] then
    [(.scale, .ofInt 64 call.decimalDigits, .smallint), (.precision, call.columnSize, .ulen)]
  else if call.parameterType ∈ [6, 7, 8] then [(.precision, call.columnSize, .ulen)]
  else []

/-- The fields that are set in the implementation descriptor. -/
def ipdFields (call : BindCall) : List (DescField × BitVec 64 × BufType) :=
  [(.conciseType, .ofInt 64 call.parameterType, .smallint),
    (.parameterType, .ofInt 64 call.inputOutputType, .smallint)] ++ call.sizeFields

/-- The parameter number as the record number of `stmt_SQLSetDescField`. -/
def recnum (call : BindCall) : ℤ := call.parameterNumber.toInt

end BindCall

/-- `reset_to_defaults` for a record. -/
def Desc.resetRec (d : Desc) (ref : RecRef) : Desc :=
  d.modifyRec (DescRec.resetToDefaults d.refType d.descType) ref

/-- `my_SQLBindParameter`. -/
def mySQLBindParameter (asserts : Bool) (stmt : ParamDescs) (call : BindCall) :
    Except DescFault (DescReply × ParamDescs) :=
  match stmt.apd.getRec asserts (call.parameterNumber.toNat - 1) true with
  | .error fault => .error fault
  | .ok (aprec, apd) =>
    match stmt.ipd.getRec asserts (call.parameterNumber.toNat - 1) true with
    | .error fault => .error fault
    | .ok (iprec, ipd) =>
      if call.parameterNumber.toNat < 1 then .ok (.error .HY093, { stmt with apd := apd, ipd := ipd })
      else
        match aprec, iprec with
        | some aprec, some iprec =>
          let ipd := ipd.resetRec iprec
          match (apd.resetRec aprec).setFields asserts call.recnum
              (call.apdFields stmt.dfltBigintBindStr) with
          | .error fault => .error fault
          | .ok (.error e, apd) => .ok (.error e, { stmt with apd := apd, ipd := ipd })
          | .ok (.success, apd) =>
            match ipd.setFields asserts call.recnum call.ipdFields with
            | .error fault => .error fault
            | .ok (.error e, ipd) => .ok (.error e, { stmt with apd := apd, ipd := ipd })
            | .ok (.success, ipd) =>
              .ok (.success, { stmt with
                apd := apd.modifyRec (fun r => { r with realParamDone := true }) aprec
                ipd := ipd })
        | _, _ => .error .nullRecord

end MatrixOdbc.Driver
