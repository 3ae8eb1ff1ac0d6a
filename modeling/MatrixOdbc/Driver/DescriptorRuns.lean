import MatrixOdbc.Driver.DescriptorErrors
import MatrixOdbc.Foundations.Refinement

/-!
# Sequences of descriptor calls

Successful calls of `DESC::set_field`, one after the other: whether the three fields that
encode the type of a record agree, and whether `MySQLGetDescField` returns what has been set.
-/

namespace MatrixOdbc.Driver

/-- The arguments of `DESC::set_field`. -/
structure SetCall where
  recnum : ℤ
  fld : DescField
  val : BitVec 64
  text : List UInt8
  buflen : ℤ

/-- The buffer length that a call stands for. -/
def SetCall.length (call : SetCall) : ℤ := givenLength (getfield call.fld) call.buflen

/-- The type of the field of a call. -/
def SetCall.dataType (call : SetCall) : BufType := (getfield call.fld).dataType

namespace Desc

/-- A successful call of `set_field`. -/
def setStep (asserts : Bool) (d : Desc) (call : SetCall) : Option (Desc × Unit) :=
  match d.setField asserts call.recnum (some call.fld) call.val call.text call.buflen with
  | .ok (.success, d') => some (d', ())
  | _ => none

variable {asserts : Bool} {d d' d₁ : Desc} {recnum : ℤ} {call : SetCall} {u : Unit}
  {ref : Option RecRef} {r r' : DescRec} {n : ℕ} {P : DescRec → Prop}

/-- A lookup that makes records makes a bookmark record or those up to a number. -/
theorem getRec_expands (h : d.getRec asserts recnum true = .ok (ref, d₁)) :
    d₁ = d ∨ d₁ = d.withBookmark ∨ 0 ≤ recnum ∧ d₁ = d.expandTo (recnum.toNat + 1) := by
  by_cases hneg : recnum < 0
  · rw [getRec_neg hneg] at h
    cases hstmt : d.stmt with
    | none =>
      rw [hstmt] at h
      cases asserts with
      | true => exact absurd h (by simp)
      | false => exact absurd h (by simp)
    | some stmt =>
      rw [hstmt] at h
      dsimp only at h
      split_ifs at h
      · exact .inr (.inl (Prod.mk.inj (Except.ok.inj h)).2.symm)
      · exact .inl (Prod.mk.inj (Except.ok.inj h)).2.symm
  · obtain ⟨m, rfl⟩ : ∃ m : ℕ, recnum = m := ⟨recnum.toNat, by omega⟩
    rw [getRec_expand] at h
    exact .inr (.inr ⟨not_lt.mp hneg, (Prod.mk.inj (Except.ok.inj h)).2.symm⟩)

/-- What a successful call has done to the descriptor. -/
inductive HasSet (asserts : Bool) (d : Desc) (call : SetCall) : Desc → Prop
  | header (value : DescValue) (d₁ : Desc) (hloc : (getfield call.fld).loc = .header)
      (hmatch : typeMatches (getfield call.fld) call.length = true)
      (hcount : call.fld = .count → ∃ ref, d.getRec asserts (countIndex call.val) true = .ok (ref, d₁))
      (hother : call.fld ≠ .count → d₁ = d)
      (hvalue : applyDescVal (d₁.header call.fld) call.dataType call.val call.length = some value) :
      HasSet asserts d call { d₁ with header := Function.update d₁.header call.fld value }
  | record (r : DescRec) (hloc : (getfield call.fld).loc = .record)
      (hmatch : typeMatches (getfield call.fld) call.length = true) (hpos : 1 ≤ call.recnum)
      (hset : (d.target call.recnum).setField d call.fld call.val call.text call.length = some r) :
      HasSet asserts d call
        ((d.expandTo call.recnum.toNat).modifyRec (fun _ => r) (.record (call.recnum.toNat - 1)))
  | bookmark (r : DescRec) (hloc : (getfield call.fld).loc = .record)
      (hmatch : typeMatches (getfield call.fld) call.length = true) (hzero : call.recnum = 0)
      (hset : (d.target 0).setField d call.fld call.val call.text call.length = some r) :
      HasSet asserts d call (d.withBookmark.modifyRec (fun _ => r)
        (.bookmark (d.withBookmark.bookmark2.length - 1)))

theorem setField_congr (h : SameKind d d') {fld : DescField} {val : BitVec 64}
    {text : List UInt8} {buflen : ℤ} :
    r.setField d' fld val text buflen = r.setField d fld val text buflen := by
  obtain ⟨refType, descType, header, bookmark2, records2, stmt⟩ := d
  obtain ⟨refType', descType', header', bookmark2', records2', stmt'⟩ := d'
  obtain ⟨rfl, rfl⟩ : refType' = refType ∧ descType' = descType := ⟨h.refType, h.descType⟩
  rfl

theorem not_setError_success {e : DescError} : d.setError e ≠ .ok (.success, d') := by
  unfold setError
  split_ifs <;> simp

theorem typeMatches_of_refusedLate {fld : DescField} {val : BitVec 64} {buflen : ℤ}
    (h : refusedLate fld val buflen = none) :
    typeMatches (getfield fld) (givenLength (getfield fld) buflen) = true := by
  unfold refusedLate at h
  split_ifs at h with hmatch
  exact (Bool.not_eq_false _).mp hmatch

theorem setHeader_success (hloc : (getfield call.fld).loc = .header)
    (h : d.setHeader asserts call.fld call.val call.buflen = .ok (.success, d')) :
    HasSet asserts d call d' := by
  unfold setHeader at h
  dsimp only at h
  split_ifs at h with hmatch hcount
  · exact absurd h not_setError_success
  · cases hget : d.getRec asserts ((call.val - 1).setWidth 32).toInt true with
    | error fault =>
      rw [hget] at h
      exact absurd h (by simp)
    | ok result =>
      obtain ⟨ref, d₁⟩ := result
      rw [hget] at h
      dsimp only at h
      split at h
      · exact absurd h (by simp)
      · rename_i value hvalue
        obtain rfl := (Prod.mk.inj (Except.ok.inj h)).2
        exact .header value d₁ hloc ((Bool.not_eq_false _).mp hmatch) (fun _ => ⟨ref, hget⟩)
          (fun hne => absurd hcount hne) hvalue
  · dsimp only at h
    split at h
    · exact absurd h (by simp)
    · rename_i value hvalue
      obtain rfl := (Prod.mk.inj (Except.ok.inj h)).2
      exact .header value d hloc ((Bool.not_eq_false _).mp hmatch)
        (fun heq => absurd heq hcount) (fun _ => rfl) hvalue

theorem setRecord_success (hloc : (getfield call.fld).loc = .record)
    (h : d.setRecord asserts call.recnum call.fld call.val call.text call.buflen =
      .ok (.success, d')) : HasSet asserts d call d' := by
  by_cases hlt : call.recnum < 1
  · cases hstmt : d.stmt with
    | none =>
      rw [setRecord, if_pos ⟨hlt, hstmt⟩] at h
      exact absurd h (by simp)
    | some stmt =>
      rw [setRecord_of_lt hlt hstmt] at h
      split_ifs at h with hoff hasserts hzero
      · exact absurd h (by simp)
      · split at h
        · exact absurd h (by simp)
        · rename_i hlate
          split at h
          · exact absurd h (by simp)
          · rename_i r hset
            obtain rfl := (Prod.mk.inj (Except.ok.inj h)).2
            rw [setField_congr sameKind_withBookmark] at hset
            exact .bookmark r hloc (typeMatches_of_refusedLate hlate) hzero hset
      · split at h
        · exact absurd h (by simp)
        · exact absurd h (by simp)
  · rw [setRecord_of_pos (not_lt.mp hlt)] at h
    split at h
    · exact absurd h not_setError_success
    · rename_i hlate
      split at h
      · exact absurd h (by simp)
      · rename_i r hset
        obtain rfl := (Prod.mk.inj (Except.ok.inj h)).2
        rw [setField_congr sameKind_expandTo] at hset
        exact .record r hloc (typeMatches_of_refusedLate hlate) (not_lt.mp hlt) hset

theorem setStep_cases (h : d.setStep asserts call = some (d', u)) :
    d.refusedEarly (some call.fld) = none ∧ HasSet asserts d call d' := by
  unfold setStep at h
  split at h
  · rename_i d₁ hset
    obtain ⟨rfl, -⟩ := Prod.mk.inj (Option.some.inj h)
    cases hearly : d.refusedEarly (some call.fld) with
    | some e =>
      rw [setField_of_refusedEarly hearly] at hset
      exact absurd hset not_setError_success
    | none =>
      refine ⟨rfl, ?_⟩
      rw [setField_of_accepted hearly] at hset
      cases hloc : (getfield call.fld).loc with
      | header => exact setHeader_success hloc (by simpa only [hloc] using hset)
      | record => exact setRecord_success hloc (by simpa only [hloc] using hset)
  · exact absurd h (by simp)

end Desc

/-- A value is copied: the buffer length is not one of data. -/
def SetCall.Copies (call : SetCall) : Prop := BufType.ofCode call.length ≠ none

instance : DecidablePred SetCall.Copies := fun _ => inferInstanceAs (Decidable (_ ≠ _))

/-- The number that a call stores. -/
def SetCall.stored (call : SetCall) : ℤ := call.dataType.stored call.val

/-- A copied value is the number that is stored. -/
theorem applyDescVal_of_copies {dest value : DescValue} {call : SetCall}
    (hmatch : typeMatches (getfield call.fld) call.length = true) (hname : call.dataType ≠ .nts)
    (h : applyDescVal dest call.dataType call.val call.length = some value) :
    value = if BufType.ofCode call.length = none then dest else .number call.stored := by
  unfold SetCall.stored
  unfold typeMatches at hmatch
  change (decide (call.dataType = .pointer) == decide (call.length = BufType.pointer.code)) = true
    at hmatch
  generalize call.dataType = t at *
  generalize call.length = buflen at *
  unfold applyDescVal at h
  by_cases hpointer : t = .pointer
  · subst hpointer
    obtain rfl : buflen = BufType.pointer.code := by simpa using hmatch
    exact (Option.some.inj h).symm
  · cases hcode : BufType.ofCode buflen with
    | none =>
      rw [hcode] at h
      rw [if_pos rfl]
      exact (Option.some.inj h).symm
    | some code =>
      rw [hcode] at h
      rw [if_neg (by simp)]
      cases t with
      | pointer => exact absurd rfl hpointer
      | nts => exact absurd rfl hname
      | smallint | usmallint | integer | uinteger =>
        cases code <;> simp_all
      | ulen | len =>
        cases code <;> simp_all

namespace DescRec

variable {d : Desc} {r r' : DescRec} {call : SetCall} {fld g : DescField} {n : ℤ}

theorem put_fields : (r.put fld n).fields g = if g = fld then .number n else r.fields g :=
  Function.update_apply _ _ _ _

/-- The field of a call behind the copy. -/
def copied (call : SetCall) (r : DescRec) : DescValue :=
  if BufType.ofCode call.length = none then r.fields call.fld else .number call.stored

/-- The record of a call behind the copy. -/
def withValue (call : SetCall) (r : DescRec) : DescRec :=
  { r with
    fields := Function.update (if isBindingPtr call.fld then r.fields else
      Function.update r.fields .dataPtr (.number 0)) call.fld (copied call r) }

theorem withValue_fields : (withValue call r).fields g =
    if g = call.fld then copied call r else
      if g = .dataPtr ∧ isBindingPtr call.fld = false then .number 0 else r.fields g := by
  simp only [withValue, Function.update_apply]
  cases isBindingPtr call.fld with
  | true => simp
  | false => simp [Function.update_apply]

/-- A record field that is no name is copied, and the fields that depend on it are brought in
line. -/
theorem setField_fields (hkind : (d.isArd || d.isApd || d.isIpd) = true)
    (hloc : (getfield call.fld).loc = .record)
    (hmatch : typeMatches (getfield call.fld) call.length = true) (hname : call.fld ≠ .name)
    (h : r.setField d call.fld call.val call.text call.length = some r') :
    r'.fields =
      (typeDefaults d.isArd call.fld (deriveTypes call.fld (withValue call r))).fields := by
  have hnts : call.dataType ≠ .nts := by
    unfold SetCall.dataType
    generalize call.fld = fld at hloc hname
    cases fld <;> first | exact absurd rfl hname | decide
  unfold setField at h
  simp only [if_neg hname, Option.map_eq_some_iff] at h
  obtain ⟨value, hvalue, rfl⟩ := h
  have hbefore : r.beforeSet call.fld call.text = { r with
      fields := if isBindingPtr call.fld then r.fields else
        Function.update r.fields .dataPtr (.number 0) } := by
    simp only [beforeSet, if_neg hname]
    split_ifs <;> rfl
  have hold : (r.beforeSet call.fld call.text).fields call.fld = r.fields call.fld := by
    rw [hbefore]
    dsimp only
    split_ifs with hptr
    · rfl
    · rw [Function.update_of_ne]
      rintro heq
      simp [isBindingPtr, heq] at hptr
  have hcopied : value = copied call r := by
    rw [applyDescVal_of_copies hmatch hnts hvalue, hold]
    rfl
  have hsame : ∀ r : DescRec, (if d.isApd = true ∧ call.val ≠ 0 ∧ isBindingPtr call.fld = true then
      { r with realParamDone := true } else r).fields = r.fields := by
    intro r
    split_ifs <;> rfl
  unfold afterSet
  simp only [hkind, if_true, hsame, hcopied, hbefore]
  rfl

/-- The type, the concise type and the datetime or interval code of a record agree. -/
structure TypesConsistent (r : DescRec) : Prop where
  type : (r.fields .type).toInt = getTypeFromConciseType (r.fields .conciseType).toInt
  code : (r.fields .datetimeIntervalCode).toInt =
    getDticodeFromConciseType (r.fields .conciseType).toInt

theorem typesConsistent_iff {t w c : ℤ} (htype : (r.fields .type).toInt = t)
    (hconcise : (r.fields .conciseType).toInt = w)
    (hcode : (r.fields .datetimeIntervalCode).toInt = c) :
    TypesConsistent r ↔ t = getTypeFromConciseType w ∧ c = getDticodeFromConciseType w := by
  subst htype hconcise hcode
  exact ⟨fun h => ⟨h.type, h.code⟩, fun h => ⟨h.1, h.2⟩⟩

/-- The defaults of a numeric type are a precision and a scale. -/
theorem typeDefaults_fields {isArd : Bool} (hprecision : g ≠ .precision) (hscale : g ≠ .scale) :
    (typeDefaults isArd fld r).fields g = r.fields g := by
  unfold typeDefaults
  split_ifs
  · rw [put_fields, put_fields, if_neg hscale, if_neg hprecision]
  · rfl

/-- The value of a call that keeps the type fields of its record consistent. -/
structure KeepsTypes (call : SetCall) (r : DescRec) : Prop where
  type : call.fld = .type → getTypeFromConciseType (copied call r).toInt = (copied call r).toInt ∧
    getDticodeFromConciseType (copied call r).toInt = 0
  code : call.fld = .datetimeIntervalCode →
    (r.fields .type).toInt = sqlDatetime ∧ ((copied call r).toInt = 1 ∨ (copied call r).toInt = 3) ∨
    (r.fields .type).toInt = sqlInterval ∧ 1 ≤ (copied call r).toInt ∧ (copied call r).toInt ≤ 13 ∨
    (r.fields .type).toInt = 0 ∧ (copied call r).toInt = 0

/-- The concise type that is derived from a type and a code goes with both. -/
theorem conciseType_consistent_iff {t c : ℤ} :
    (t = getTypeFromConciseType (if t = sqlDatetime then getConciseTypeFromDatetimeCode c else
        getConciseTypeFromIntervalCode c) ∧
      c = getDticodeFromConciseType (if t = sqlDatetime then getConciseTypeFromDatetimeCode c else
        getConciseTypeFromIntervalCode c)) ↔
    t = sqlDatetime ∧ (c = 1 ∨ c = 3) ∨ t = sqlInterval ∧ 1 ≤ c ∧ c ≤ 13 ∨ t = 0 ∧ c = 0 := by
  unfold sqlDatetime sqlInterval
  by_cases ht : t = 9
  · subst ht
    simp only [if_true, getConciseTypeFromDatetimeCode]
    by_cases h1 : c = 1
    · subst h1
      decide
    · by_cases h2 : c = 2
      · subst h2
        decide
      · by_cases h3 : c = 3
        · subst h3
          decide
        · simp [h1, h2, h3, getTypeFromConciseType]
  · simp only [if_neg ht, getConciseTypeFromIntervalCode, getTypeFromConciseType,
      getDticodeFromConciseType, sqlDatetime, sqlInterval]
    split_ifs <;> omega

/-- A name changes nothing but the name, the parameter data and the buffer. -/
theorem setField_name_fields {val : BitVec 64} {text : List UInt8} {buflen : ℤ}
    (h : r.setField d .name val text buflen = some r') (hname : g ≠ .name) (hptr : g ≠ .dataPtr) :
    r'.fields g = r.fields g := by
  unfold setField at h
  simp only [if_true, Option.map_some, Option.some.injEq] at h
  subst h
  have hbefore : (r.beforeSet .name text).fields g = r.fields g := by
    simp only [beforeSet, if_true, isBindingPtr]
    exact (put_fields (r := { r with paramData := _ })).trans (if_neg hptr)
  unfold afterSet
  simp only [isBindingPtr, deriveTypes, typeDefaults]
  simp [Function.update_of_ne hname, hbefore]

/-- A call for another field leaves the type fields as they are. -/
theorem setField_typeFields (hkind : (d.isArd || d.isApd || d.isIpd) = true)
    (hloc : (getfield call.fld).loc = .record)
    (hmatch : typeMatches (getfield call.fld) call.length = true)
    (h : r.setField d call.fld call.val call.text call.length = some r')
    (hother : call.fld ∉ [DescField.type, .conciseType, .datetimeIntervalCode])
    (hg : g ∈ [DescField.type, .conciseType, .datetimeIntervalCode]) :
    r'.fields g = r.fields g := by
  have hptr : g ≠ .dataPtr := by
    rintro rfl
    exact absurd hg (by decide)
  by_cases hname : call.fld = .name
  · rw [hname] at h
    refine setField_name_fields h ?_ hptr
    rintro rfl
    exact absurd hg (by decide)
  · have hne : g ≠ call.fld := by
      rintro rfl
      exact hother hg
    have hderive : deriveTypes call.fld (withValue call r) = withValue call r := by
      unfold deriveTypes
      split
      · rename_i heq
        exact absurd (heq ▸ List.mem_cons_self) hother
      · rename_i heq
        exact absurd (heq ▸ List.mem_cons_of_mem _ List.mem_cons_self) hother
      · rename_i heq
        exact absurd (heq ▸ List.mem_cons_of_mem _ (List.mem_cons_of_mem _ List.mem_cons_self))
          hother
      · rfl
    rw [setField_fields hkind hloc hmatch hname h, typeDefaults_fields, hderive, withValue_fields,
      if_neg hne, if_neg fun hboth => hptr hboth.1]
    · rintro rfl
      exact absurd hg (by decide)
    · rintro rfl
      exact absurd hg (by decide)

/-- When a call keeps the type fields of its record consistent. -/
theorem typesConsistent_setField_iff (hkind : (d.isArd || d.isApd || d.isIpd) = true)
    (hloc : (getfield call.fld).loc = .record)
    (hmatch : typeMatches (getfield call.fld) call.length = true)
    (h : r.setField d call.fld call.val call.text call.length = some r')
    (hr : TypesConsistent r) : TypesConsistent r' ↔ KeepsTypes call r := by
  have hfields : call.fld ≠ .name → ∀ g ∈ [DescField.type, .conciseType, .datetimeIntervalCode],
      r'.fields g = (deriveTypes call.fld (withValue call r)).fields g := by
    intro hname g hg
    rw [setField_fields hkind hloc hmatch hname h, typeDefaults_fields]
    · rintro rfl
      exact absurd hg (by decide)
    · rintro rfl
      exact absurd hg (by decide)
  have hset : (withValue call r).fields call.fld = copied call r := by
    rw [withValue_fields, if_pos rfl]
  by_cases htype : call.fld = .type
  · have hall := hfields (by simp [htype])
    simp only [htype, deriveTypes] at hall hset
    have h1 := hall .type (by simp)
    have h2 := hall .conciseType (by simp)
    have h3 := hall .datetimeIntervalCode (by simp)
    simp only [put_fields, hset, reduceCtorEq, if_false, if_true] at h1 h2 h3
    rw [typesConsistent_iff (congrArg _ h1) (congrArg _ h2) (congrArg _ h3)]
    constructor
    · intro hboth
      refine ⟨fun _ => ⟨hboth.1.symm, hboth.2.symm⟩, fun heq => ?_⟩
      exact absurd (htype.symm.trans heq) (by decide)
    · intro hkeeps
      exact ⟨(hkeeps.type htype).1.symm, (hkeeps.type htype).2.symm⟩
  by_cases hconcise : call.fld = .conciseType
  · have hall := hfields (by simp [hconcise])
    simp only [hconcise, deriveTypes] at hall hset
    have h1 := hall .type (by simp)
    have h2 := hall .conciseType (by simp)
    have h3 := hall .datetimeIntervalCode (by simp)
    simp only [put_fields, hset, reduceCtorEq, if_false, if_true] at h1 h2 h3
    rw [typesConsistent_iff (congrArg _ h1) (congrArg _ h2) (congrArg _ h3)]
    refine ⟨fun _ => ⟨fun heq => absurd heq htype, fun heq => ?_⟩, fun _ => ⟨rfl, rfl⟩⟩
    exact absurd (hconcise.symm.trans heq) (by decide)
  by_cases hcode : call.fld = .datetimeIntervalCode
  · have hall := hfields (by simp [hcode])
    have hold : (withValue call r).fields .type = r.fields .type := by
      rw [withValue_fields, hcode, if_neg (by decide), if_neg (by decide)]
    simp only [hcode, deriveTypes] at hall hset
    have h1 := hall .type (by simp)
    have h2 := hall .conciseType (by simp)
    have h3 := hall .datetimeIntervalCode (by simp)
    simp only [put_fields, hset, hold, reduceCtorEq, if_false, if_true] at h1 h2 h3
    rw [typesConsistent_iff (congrArg _ h1) (congrArg _ h2) (congrArg _ h3)]
    refine conciseType_consistent_iff.trans ⟨fun hthree => ?_, fun hkeeps => hkeeps.code hcode⟩
    exact ⟨fun heq => absurd heq htype, fun _ => hthree⟩
  · have hsame : ∀ g ∈ [DescField.type, .conciseType, .datetimeIntervalCode],
        (r'.fields g).toInt = (r.fields g).toInt := by
      intro g hg
      refine congrArg _ (setField_typeFields hkind hloc hmatch h ?_ hg)
      simp [htype, hconcise, hcode]
    rw [typesConsistent_iff (hsame _ (by simp)) (hsame _ (by simp)) (hsame _ (by simp))]
    exact ⟨fun _ => ⟨fun heq => absurd heq htype, fun heq => absurd heq hcode⟩,
      fun _ => ⟨hr.type, hr.code⟩⟩

end DescRec

namespace Desc

variable {asserts : Bool} {d d' : Desc} {call : SetCall} {calls : List SetCall} {u : Unit}
  {us : List Unit} {r : DescRec} {n : ℕ} {ref : RecRef} {P : DescRec → Prop}

/-- Every record of a descriptor has a property. -/
def EveryRec (P : DescRec → Prop) (d : Desc) : Prop :=
  (∀ r ∈ d.bookmark2, P r) ∧ ∀ r ∈ d.records2, P r

theorem EveryRec.target (h : EveryRec P d) (hnew : P d.newRec) {recnum : ℤ} :
    P (d.target recnum) := by
  unfold Desc.target
  split_ifs
  · cases hlast : d.bookmark2.getLast? with
    | none => exact hnew
    | some r => exact h.1 r (List.mem_of_getLast? hlast)
  · cases hget : d.records2[(recnum - 1).toNat]? with
    | none => exact hnew
    | some r => exact h.2 r (List.mem_of_getElem? hget)

theorem EveryRec.expandTo (h : EveryRec P d) (hnew : P d.newRec) : EveryRec P (d.expandTo n) := by
  refine ⟨h.1, fun r hr => ?_⟩
  rcases List.mem_append.mp hr with hr | hr
  · exact h.2 r hr
  · exact (List.eq_of_mem_replicate hr) ▸ hnew

theorem EveryRec.withBookmark (h : EveryRec P d) (hnew : P d.newRec) :
    EveryRec P d.withBookmark := by
  refine ⟨fun r hr => ?_, h.2⟩
  unfold Desc.withBookmark at hr
  dsimp only at hr
  split_ifs at hr
  · exact (List.mem_singleton.mp hr) ▸ hnew
  · exact h.1 r hr

theorem EveryRec.modifyRec (h : EveryRec P d) (hr : P r) :
    EveryRec P (d.modifyRec (fun _ => r) ref) := by
  have hmem : ∀ l : List DescRec, ∀ i, ∀ x ∈ l.modify i (fun _ => r), x ∈ l ∨ x = r := by
    intro l i x hx
    obtain ⟨j, hj⟩ := List.mem_iff_getElem?.mp hx
    rw [List.getElem?_modify] at hj
    split_ifs at hj
    · obtain ⟨_, -, rfl⟩ := Option.map_eq_some_iff.mp hj
      exact .inr rfl
    · obtain ⟨_, hy, rfl⟩ := Option.map_eq_some_iff.mp hj
      exact .inl (List.mem_of_getElem? hy)
  cases ref with
  | bookmark index =>
    refine ⟨fun x hx => ?_, h.2⟩
    rcases hmem _ _ x hx with hx | rfl
    · exact h.1 x hx
    · exact hr
  | record index =>
    refine ⟨h.1, fun x hx => ?_⟩
    rcases hmem _ _ x hx with hx | rfl
    · exact h.2 x hx
    · exact hr

/-- A property of the record that is set, and of new records, is one of every record. -/
theorem HasSet.everyRec (h : HasSet asserts d call d') (hnew : P d.newRec) (hd : EveryRec P d)
    (hset : ∀ r, (getfield call.fld).loc = .record →
      typeMatches (getfield call.fld) call.length = true →
      (d.target call.recnum).setField d call.fld call.val call.text call.length = some r → P r) :
    EveryRec P d' := by
  cases h with
  | header value d₁ hloc hmatch hcount hother hvalue =>
    have hd₁ : EveryRec P d₁ := by
      by_cases hfld : call.fld = .count
      · obtain ⟨ref, hget⟩ := hcount hfld
        rcases getRec_expands hget with rfl | rfl | ⟨-, rfl⟩
        · exact hd
        · exact hd.withBookmark hnew
        · exact hd.expandTo hnew
      · exact hother hfld ▸ hd
    exact hd₁
  | record r hloc hmatch hpos hr => exact (hd.expandTo hnew).modifyRec (hset r hloc hmatch hr)
  | bookmark r hloc hmatch hzero hr =>
    exact (hd.withBookmark hnew).modifyRec (hset r hloc hmatch (hzero ▸ hr))

theorem HasSet.sameKind (h : HasSet asserts d call d') : SameKind d d' := by
  cases h with
  | header value d₁ hloc hmatch hcount hother hvalue =>
    have hd₁ : SameKind d d₁ := by
      by_cases hfld : call.fld = .count
      · obtain ⟨ref, hget⟩ := hcount hfld
        rcases getRec_expands hget with rfl | rfl | ⟨-, rfl⟩
        · exact ⟨rfl, rfl, rfl⟩
        · exact sameKind_withBookmark
        · exact sameKind_expandTo
      · exact hother hfld ▸ ⟨rfl, rfl, rfl⟩
    exact ⟨hd₁.refType, hd₁.descType, hd₁.stmt⟩
  | record r hloc hmatch hpos hr =>
    obtain ⟨h1, h2, h3⟩ : SameKind (d.expandTo call.recnum.toNat)
      ((d.expandTo call.recnum.toNat).modifyRec (fun _ => r) _) := sameKind_modifyRec
    exact ⟨h1, h2, h3⟩
  | bookmark r hloc hmatch hzero hr =>
    obtain ⟨h1, h2, h3⟩ : SameKind d.withBookmark
      (d.withBookmark.modifyRec (fun _ => r) _) := sameKind_modifyRec
    exact ⟨h1, h2, h3⟩

/-- An application or parameter descriptor: `ARD`, `APD` or `IPD`. -/
def DerivesTypes (d : Desc) : Prop := (d.isArd || d.isApd || d.isIpd) = true

theorem DerivesTypes.congr (h : DerivesTypes d) (hkind : SameKind d d') : DerivesTypes d' := by
  unfold DerivesTypes isArd isApd isIpd at *
  rw [hkind.refType, hkind.descType]
  exact h

theorem newRec_typesConsistent : d.newRec.TypesConsistent := by
  have hnew : ∀ refType descType, (DescRec.new refType descType).TypesConsistent := by
    intro refType descType
    cases refType <;> cases descType <;> exact ⟨by decide, by decide⟩
  exact hnew _ _

/-- A call whose value keeps the type fields of its record consistent. -/
def KeepsTypes (d : Desc) (call : SetCall) : Prop :=
  (getfield call.fld).loc = .record → DescRec.KeepsTypes call (d.target call.recnum)

theorem setStep_typesConsistent (hd : EveryRec DescRec.TypesConsistent d) (hkind : DerivesTypes d)
    (hkeeps : d.KeepsTypes call) (h : d.setStep asserts call = some (d', u)) :
    EveryRec DescRec.TypesConsistent d' ∧ DerivesTypes d' := by
  obtain ⟨-, hset⟩ := setStep_cases h
  refine ⟨hset.everyRec newRec_typesConsistent hd fun r hloc hmatch hr => ?_,
    hkind.congr hset.sameKind⟩
  have htarget : (d.target call.recnum).TypesConsistent := hd.target newRec_typesConsistent
  exact (DescRec.typesConsistent_setField_iff hkind hloc hmatch hr htarget).mpr (hkeeps hloc)

/-- The type fields of every record agree after every sequence of successful calls whose
values keep them consistent. -/
theorem setFields_typesConsistent (hkind : DerivesTypes d)
    (hd : EveryRec DescRec.TypesConsistent d)
    (hmeets : Refinement.Meets (setStep asserts) KeepsTypes d calls)
    (hrun : Refinement.run (setStep asserts) d calls = some (d', us)) :
    EveryRec DescRec.TypesConsistent d' := by
  have hinv := Refinement.run_invariant
    (I := fun d => EveryRec DescRec.TypesConsistent d ∧ DerivesTypes d)
    (fun d d' call u hI hkeeps hstep => setStep_typesConsistent hI.1 hI.2 hkeeps hstep)
    ⟨hd, hkind⟩ hmeets hrun
  exact hinv.1

/-- The type of a record of a row descriptor is set to that of dates and times, and then its
code to that of dates. -/
theorem setFields_typesConsistent_date :
    ∃ d', Refinement.run (setStep true) (new (some ⟨false, false⟩) 1 .app .row)
        [⟨1, .type, 9, [], -8⟩, ⟨1, .datetimeIntervalCode, 1, [], -8⟩] = some (d', [(), ()]) ∧
      EveryRec DescRec.TypesConsistent d' := by
  obtain ⟨d', hrun⟩ : ∃ d', Refinement.run (setStep true)
      (new (some ⟨false, false⟩) 1 .app .row)
      [⟨1, .type, 9, [], -8⟩, ⟨1, .datetimeIntervalCode, 1, [], -8⟩] = some (d', [(), ()]) :=
    ⟨_, rfl⟩
  refine ⟨d', hrun, setFields_typesConsistent ?_ ?_ ?_ hrun⟩
  · rfl
  · exact ⟨nofun, nofun⟩
  · refine ⟨fun _ => ⟨fun _ => by decide, nofun⟩, fun d₁ u h => ?_⟩
    obtain ⟨rfl, -⟩ := Prod.mk.inj (Option.some.inj h)
    exact ⟨fun _ => ⟨nofun, fun _ => by decide⟩, fun _ _ _ => trivial⟩

/-- With the code of times instead, the record is left with the concise type of dates. -/
theorem setFields_time_not_typesConsistent :
    ∃ d', Refinement.run (setStep true) (new (some ⟨false, false⟩) 1 .app .row)
        [⟨1, .type, 9, [], -8⟩, ⟨1, .datetimeIntervalCode, 2, [], -8⟩] = some (d', [(), ()]) ∧
      ¬ EveryRec DescRec.TypesConsistent d' := by
  refine ⟨_, rfl, fun h => ?_⟩
  exact absurd (h.2 _ List.mem_cons_self).code (by decide)

end Desc

end MatrixOdbc.Driver
