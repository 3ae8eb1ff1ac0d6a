import MatrixOdbc.Driver.DescriptorRuns

/-!
# Reading descriptor fields back

What `MySQLGetDescField` returns for a field, behind any sequence of successful calls of
`DESC::set_field`: the value of the last call on it, as long as no later call is one that
changes the field along with its own.
-/

namespace MatrixOdbc.Driver

/-- The fields of its record that a call changes along with its own: the type fields go
together, a field that is no buffer unbinds the value, and a numeric type has a precision
and a scale. -/
inductive SetCall.Changes (isArd : Bool) (call : SetCall) : DescField → Prop
  | own : call.Changes isArd call.fld
  | unbound (h : isBindingPtr call.fld = false) : call.Changes isArd .dataPtr
  | ofType (g : DescField) (h : call.fld = .type)
      (hg : g ∈ [DescField.conciseType, .datetimeIntervalCode]) : call.Changes isArd g
  | ofConciseType (g : DescField) (h : call.fld = .conciseType)
      (hg : g ∈ [DescField.type, .datetimeIntervalCode]) : call.Changes isArd g
  | ofCode (h : call.fld = .datetimeIntervalCode) : call.Changes isArd .conciseType
  | ofNumeric (g : DescField) (h : call.fld ∈ [DescField.type, .conciseType]) (hard : isArd = true)
      (hnumeric : call.stored = sqlCNumeric) (hg : g ∈ [DescField.precision, .scale]) :
      call.Changes isArd g

/-- A later call changes what a call has set. The record count grows with the records. -/
inductive SetCall.Touches (isArd : Bool) (later call : SetCall) : Prop
  | header (hloc : (getfield call.fld).loc = .header) (hfld : later.fld = call.fld)
  | count (hfld : call.fld = .count) (hloc : (getfield later.fld).loc = .record)
      (hbeyond : call.stored < later.recnum)
  | record (hloc : (getfield call.fld).loc = .record) (hlater : (getfield later.fld).loc = .record)
      (hrecnum : later.recnum = call.recnum) (hchanges : later.Changes isArd call.fld)

namespace DescRec

variable {d : Desc} {r r' : DescRec} {call : SetCall} {g : DescField}

theorem copied_of_copies (h : call.Copies) : copied call r = .number call.stored := if_neg h

theorem getTypeFromConciseType_numeric {w : ℤ} (h : getTypeFromConciseType w = sqlCNumeric) :
    w = sqlCNumeric := by
  unfold getTypeFromConciseType sqlDatetime sqlInterval sqlCNumeric at *
  split_ifs at h <;> omega

/-- The type of a record once the type fields have been brought in line. -/
theorem deriveTypes_numeric (hcopies : call.Copies) (hfld : call.fld ∈ [DescField.type, .conciseType])
    (h : ((deriveTypes call.fld (withValue call r)).fields .type).toInt = sqlCNumeric) :
    call.stored = sqlCNumeric := by
  have hset : (withValue call r).fields call.fld = .number call.stored := by
    rw [withValue_fields, if_pos rfl, copied_of_copies hcopies]
  simp only [List.mem_cons, List.not_mem_nil, or_false] at hfld
  rcases hfld with hfld | hfld
  · simp only [hfld, deriveTypes] at h hset
    simpa [put_fields, hset, DescValue.toInt] using h
  · simp only [hfld, deriveTypes] at h hset
    apply getTypeFromConciseType_numeric
    simpa [put_fields, hset, DescValue.toInt] using h

/-- A call leaves the fields that it does not change. -/
theorem setField_frame (hkind : d.DerivesTypes) (hloc : (getfield call.fld).loc = .record)
    (hmatch : typeMatches (getfield call.fld) call.length = true) (hname : call.fld ≠ .name)
    (hcopies : call.Copies)
    (h : r.setField d call.fld call.val call.text call.length = some r')
    (hg : ¬ call.Changes d.isArd g) : r'.fields g = r.fields g := by
  have hown : g ≠ call.fld := by
    rintro rfl
    exact hg .own
  have hptr : ¬ (g = .dataPtr ∧ isBindingPtr call.fld = false) := by
    rintro ⟨rfl, hnot⟩
    exact hg (.unbound hnot)
  have hvalue : (withValue call r).fields g = r.fields g := by
    rw [withValue_fields, if_neg hown, if_neg hptr]
  have hderive : (deriveTypes call.fld (withValue call r)).fields g = r.fields g := by
    unfold deriveTypes
    split
    · rename_i heq
      have hnot : g ∉ [DescField.conciseType, .datetimeIntervalCode] :=
        fun hmem => hg (.ofType g heq hmem)
      simp only [List.mem_cons, List.not_mem_nil, or_false, not_or] at hnot
      rw [put_fields, put_fields, if_neg hnot.2, if_neg hnot.1, hvalue]
    · rename_i heq
      have hnot : g ∉ [DescField.type, .datetimeIntervalCode] :=
        fun hmem => hg (.ofConciseType g heq hmem)
      simp only [List.mem_cons, List.not_mem_nil, or_false, not_or] at hnot
      rw [put_fields, put_fields, if_neg hnot.2, if_neg hnot.1, hvalue]
    · rename_i heq
      have hnot : g ≠ .conciseType := by
        rintro rfl
        exact hg (.ofCode heq)
      rw [put_fields, if_neg hnot, hvalue]
    · exact hvalue
  rw [setField_fields hkind hloc hmatch hname h]
  by_cases hnumeric : g ∈ [DescField.precision, .scale]
  · unfold typeDefaults
    split_ifs with hdefaults
    · have hfld : call.fld ∈ [DescField.type, .conciseType] := by simpa using hdefaults.1
      have hstored := deriveTypes_numeric hcopies hfld hdefaults.2.2
      exact absurd (.ofNumeric g hfld hdefaults.2.1 hstored hnumeric) hg
    · exact hderive
  · simp only [List.mem_cons, List.not_mem_nil, or_false, not_or] at hnumeric
    rw [typeDefaults_fields hnumeric.1 hnumeric.2, hderive]

/-- A call sets its own field. -/
theorem setField_own (hkind : d.DerivesTypes) (hloc : (getfield call.fld).loc = .record)
    (hmatch : typeMatches (getfield call.fld) call.length = true) (hname : call.fld ≠ .name)
    (hcopies : call.Copies)
    (h : r.setField d call.fld call.val call.text call.length = some r') :
    r'.fields call.fld = .number call.stored := by
  have hset : (withValue call r).fields call.fld = .number call.stored := by
    rw [withValue_fields, if_pos rfl, copied_of_copies hcopies]
  have hderive : (deriveTypes call.fld (withValue call r)).fields call.fld =
      .number call.stored := by
    unfold deriveTypes
    split
    · rename_i heq
      rw [put_fields, put_fields, if_neg (by simp [heq]), if_neg (by simp [heq]), hset]
    · rename_i heq
      rw [put_fields, put_fields, if_neg (by simp [heq]), if_neg (by simp [heq]), hset]
    · rename_i heq
      rw [put_fields, if_neg (by simp [heq]), hset]
    · exact hset
  rw [setField_fields hkind hloc hmatch hname h]
  unfold typeDefaults
  split_ifs with hdefaults
  · have hne : call.fld ≠ .precision ∧ call.fld ≠ .scale := by
      rcases hdefaults.1 with heq | heq <;> simp [heq]
    rw [put_fields, put_fields, if_neg hne.2, if_neg hne.1, hderive]
  · exact hderive

end DescRec

namespace Desc

variable {asserts : Bool} {d d' d₁ : Desc} {call later : SetCall} {calls : List SetCall}
  {u : Unit} {us : List Unit}

/-- The condition under which a value can be read back: it is copied at all, to a field that
is no name; a record field is that of a record from 1 on, and not on an `APD`; and a record
count is not below the number of records, nor too large for an `int`. -/
structure Storable (d : Desc) (call : SetCall) : Prop where
  copies : call.Copies
  name : call.fld ≠ .name
  record : (getfield call.fld).loc = .record → 1 ≤ call.recnum ∧ d.isApd = false
  count : call.fld = .count → d.rcount ≤ call.val.toNat ∧ call.val.toNat ≤ 2147483648

/-- A descriptor holds what a call has set. -/
def Holds (call : SetCall) (d : Desc) : Prop :=
  match (getfield call.fld).loc with
  | .header =>
    if call.fld = .count then (d.rcount : ℤ) = call.stored
    else d.header call.fld = .number call.stored
  | .record => 1 ≤ call.recnum ∧
    ∃ r, d.records2[(call.recnum - 1).toNat]? = some r ∧ r.fields call.fld = .number call.stored

/-- Making records keeps the header and the records there are. -/
theorem getRec_keeps {recnum : ℤ} {ref : Option RecRef}
    (h : d.getRec asserts recnum true = .ok (ref, d₁)) :
    d₁.header = d.header ∧
      ∀ (i : ℕ) r, d.records2[i]? = some r → d₁.records2[i]? = some r := by
  rcases getRec_expands h with rfl | rfl | ⟨-, rfl⟩
  · exact ⟨rfl, fun _ _ h => h⟩
  · exact ⟨rfl, fun _ _ h => h⟩
  · refine ⟨rfl, fun i r hr => ?_⟩
    have hlt : i < d.rcount := (List.getElem?_eq_some_iff.mp hr).1
    rw [getElem?_expandTo, if_pos hlt, hr]

/-- A record count is reached by making records. -/
theorem getRec_count {ref : Option RecRef} (hle : d.rcount ≤ call.val.toNat)
    (hsmall : call.val.toNat ≤ 2147483648)
    (h : d.getRec asserts (countIndex call.val) true = .ok (ref, d₁)) :
    d₁.rcount = call.val.toNat := by
  have hindex : countIndex call.val = (call.val.toNat : ℤ) - 1 := by
    unfold countIndex
    rw [BitVec.toInt_eq_toNat_cond, BitVec.toNat_setWidth, BitVec.toNat_sub]
    have hone : (1 : BitVec 64).toNat = 1 := rfl
    rw [hone]
    split_ifs <;> omega
  rcases Nat.eq_zero_or_pos call.val.toNat with hzero | hpos
  · have hneg : ¬ 0 ≤ countIndex call.val := by omega
    rcases getRec_expands h with rfl | rfl | ⟨hnonneg, -⟩
    · omega
    · show d.rcount = call.val.toNat
      omega
    · exact absurd hnonneg hneg
  · obtain ⟨n, hn⟩ : ∃ n, call.val.toNat = n + 1 := ⟨call.val.toNat - 1, by omega⟩
    have hcast : countIndex call.val = n := by omega
    rw [hcast, getRec_expand] at h
    obtain ⟨-, rfl⟩ := Prod.mk.inj (Except.ok.inj h)
    rw [rcount_expandTo]
    omega

/-- The number that a record count stores. -/
theorem stored_count (hfld : call.fld = .count) (hsmall : call.val.toNat ≤ 2147483648) :
    call.stored = call.val.toNat := by
  have htype : call.dataType = .len := by
    rw [SetCall.dataType, hfld]
    rfl
  rw [SetCall.stored, htype, BufType.stored, BitVec.toInt_eq_toNat_cond]
  split_ifs <;> omega

theorem dataType_ne_nts (hname : call.fld ≠ .name) : call.dataType ≠ .nts := by
  unfold SetCall.dataType
  generalize call.fld = fld at hname
  cases fld <;> first | exact absurd rfl hname | decide

/-- A call that stores its value leaves it in the descriptor. -/
theorem HasSet.holds (h : HasSet asserts d call d') (hkind : d.DerivesTypes)
    (hstorable : d.Storable call) : Holds call d' := by
  unfold Holds
  cases h with
  | header value d₁ hloc hmatch hcount hother hvalue =>
    rw [hloc]
    dsimp only
    split_ifs with hfld
    · obtain ⟨hle, hsmall⟩ := hstorable.count hfld
      obtain ⟨ref, hget⟩ := hcount hfld
      have hrcount : d₁.rcount = call.val.toNat := getRec_count hle hsmall hget
      rw [stored_count hfld hsmall, ← hrcount]
      rfl
    · rw [Function.update_self]
      rw [applyDescVal_of_copies hmatch (dataType_ne_nts hstorable.name) hvalue]
      exact if_neg hstorable.copies
  | record r hloc hmatch hpos hset =>
    rw [hloc]
    obtain ⟨n, hn⟩ : ∃ n : ℕ, call.recnum = n + 1 := ⟨(call.recnum - 1).toNat, by omega⟩
    have hcast : (call.recnum - 1).toNat = n := by omega
    have hnat : call.recnum.toNat = n + 1 := by omega
    refine ⟨hpos, r, ?_, DescRec.setField_own hkind hloc hmatch hstorable.name hstorable.copies hset⟩
    have hget := recAt_expandTo (d := d) n
    rw [hcast, hnat, Nat.add_sub_cancel]
    simp only [modifyRec, List.getElem?_modify, if_true]
    rw [show (d.expandTo (n + 1)).records2[n]? = some (d.target (n + 1)) from hget]
    rfl
  | bookmark r hloc hmatch hzero hset =>
    have hpos := (hstorable.record hloc).1
    omega

/-- A later call that stores its own value, and does not touch what a call has set. -/
theorem HasSet.keeps (h : HasSet asserts d later d') (hkind : d.DerivesTypes)
    (hstorable : d.Storable later) (hholds : Holds call d)
    (hnot : ¬ later.Touches d.isArd call) : Holds call d' := by
  unfold Holds at *
  cases h with
  | header value d₁ hloc hmatch hcount hother hvalue =>
    have hmade : d₁.header = d.header ∧
        ∀ (i : ℕ) r, d.records2[i]? = some r → d₁.records2[i]? = some r := by
      by_cases hfld : later.fld = .count
      · obtain ⟨ref, hget⟩ := hcount hfld
        exact getRec_keeps hget
      · rw [hother hfld]
        exact ⟨rfl, fun _ _ h => h⟩
    cases hcall : (getfield call.fld).loc with
    | header =>
      rw [hcall] at hholds
      have hne : later.fld ≠ call.fld := fun heq => hnot (.header hcall heq)
      dsimp only at hholds ⊢
      split_ifs at hholds ⊢ with hfld
      · rw [hother (hfld ▸ hne)]
        exact hholds
      · rw [Function.update_of_ne hne.symm, hmade.1]
        exact hholds
    | record =>
      rw [hcall] at hholds
      obtain ⟨hpos, r, hr, hvalue⟩ := hholds
      exact ⟨hpos, r, hmade.2 _ _ hr, hvalue⟩
  | record r hloc hmatch hpos hset =>
    obtain ⟨n, hn⟩ : ∃ n : ℕ, later.recnum = n + 1 := ⟨(later.recnum - 1).toNat, by omega⟩
    have hnat : later.recnum.toNat = n + 1 := by omega
    rw [hnat, Nat.add_sub_cancel]
    cases hcall : (getfield call.fld).loc with
    | header =>
      rw [hcall] at hholds
      dsimp only at hholds ⊢
      split_ifs at hholds ⊢ with hfld
      · have hle : later.recnum ≤ call.stored := by
          by_contra hbeyond
          exact hnot (.count hfld hloc (not_le.mp hbeyond))
        have hcount := rcount_expandTo (d := d) (n := n + 1)
        have hsame : ((d.expandTo (n + 1)).modifyRec (fun _ => r) (.record n)).rcount =
            (d.expandTo (n + 1)).rcount := List.length_modify _ _ _
        rw [hsame, hcount]
        omega
      · exact hholds
    | record =>
      rw [hcall] at hholds
      obtain ⟨hcallpos, r₀, hr₀, hvalue⟩ := hholds
      refine ⟨hcallpos, ?_⟩
      have hexpanded : (d.expandTo (n + 1)).records2[(call.recnum - 1).toNat]? = some r₀ := by
        have hlt : (call.recnum - 1).toNat < d.rcount := (List.getElem?_eq_some_iff.mp hr₀).1
        rw [getElem?_expandTo, if_pos hlt, hr₀]
      simp only [modifyRec, List.getElem?_modify, hexpanded, Option.map_eq_map, Option.map_some]
      by_cases hsame : n = (call.recnum - 1).toNat
      · have hrecnum : later.recnum = call.recnum := by omega
        have htarget : d.target later.recnum = r₀ := by
          rw [target, if_neg (not_lt.mpr hpos), hrecnum, hr₀, Option.getD_some]
        rw [htarget] at hset
        refine ⟨r, by rw [if_pos hsame], ?_⟩
        rw [DescRec.setField_frame hkind hloc hmatch hstorable.name hstorable.copies hset, hvalue]
        exact fun hchanges => hnot (.record hcall hloc hrecnum hchanges)
      · exact ⟨r₀, by rw [if_neg hsame], hvalue⟩
  | bookmark r hloc hmatch hzero hset =>
    have hpos := (hstorable.record hloc).1
    omega

/-- A field that may be written may be read: in the header, in row descriptors of the
application and in the implementation descriptor of the parameters. -/
theorem readable_of_writable (fld : DescField) :
    ((getfield fld).perms &&& P_WA ≠ 0 → (getfield fld).perms &&& P_RA ≠ 0) ∧
      ((getfield fld).loc = .header → (getfield fld).perms &&& P_WI ≠ 0 →
        (getfield fld).perms &&& P_RI ≠ 0) ∧
      ((getfield fld).loc = .record → (getfield fld).perms &&& P_PAR P_WI ≠ 0 →
        (getfield fld).perms &&& P_PAR P_RI ≠ 0) := by
  cases fld <;> decide

theorem permits_read (hkind : d.DerivesTypes) {fld : DescField}
    (hearly : d.refusedEarly (some fld) = none)
    (hrecord : (getfield fld).loc = .record → d.isApd = false) :
    d.permits P_RI P_RA (getfield fld) = true := by
  have hwrite : d.permits P_WI P_WA (getfield fld) = true := by
    unfold refusedEarly at hearly
    split_ifs at hearly
    dsimp only at hearly
    split_ifs at hearly with hnot
    exact (Bool.not_eq_false _).mp hnot
  obtain ⟨hany, hheader, hparam⟩ := readable_of_writable fld
  obtain ⟨refType, descType, header, bookmark2, records2, stmt⟩ := d
  unfold DerivesTypes isArd isApd isIpd at hkind
  unfold isApd at hrecord
  unfold permits recPerms at hwrite ⊢
  simp only [decide_eq_true_eq] at hwrite ⊢
  cases hloc : (getfield fld).loc with
  | header =>
    rw [hloc] at hwrite
    cases refType with
    | app => exact hany hwrite
    | imp => exact hheader hloc hwrite
  | record =>
    have hnot := hrecord hloc
    rw [hloc] at hwrite
    cases descType with
    | unknown => exact absurd hkind (by simp)
    | row =>
      cases refType with
      | app => exact hany hwrite
      | imp => exact absurd hkind (by simp)
    | param =>
      cases refType with
      | app => exact absurd hnot (by simp)
      | imp => exact hparam hloc hwrite

/-- A stored number is written as it is to a buffer of its own type. -/
theorem readDescVal_stored (t : BufType) (val : BitVec 64) (hname : t ≠ .nts) :
    readDescVal (.number (t.stored val)) t t.code = some (.number (t.stored val)) := by
  have hwritten : t.written (t.stored val) = t.stored val := by
    cases t <;> simp [BufType.written, BufType.stored] <;> omega
  cases t with
  | nts => exact absurd rfl hname
  | pointer => rfl
  | uinteger | integer | usmallint | smallint | ulen | len =>
    exact congrArg (fun n => some (DescValue.number n)) hwritten

theorem typeMatches_own (fld : DescField) :
    typeMatches (getfield fld) (getfield fld).dataType.code = true := by
  cases fld <;> decide

/-- What a descriptor holds is what is read of it. -/
theorem Holds.getField (h : Holds call d) (hkind : d.DerivesTypes) (hname : call.fld ≠ .name)
    (hread : d.permits P_RI P_RA (getfield call.fld) = true) :
    d.getField call.recnum (some call.fld) call.dataType.code =
      .ok (.success, some (.number call.stored)) := by
  have hird : d.isIrd = false := by
    unfold DerivesTypes isArd isApd isIpd at hkind
    unfold isIrd
    cases hdesc : d.descType <;> cases href : d.refType <;> simp [hdesc, href] at hkind ⊢
  have hsource : d.source call.recnum call.fld = .ok (.number call.stored) := by
    unfold Holds at h
    unfold source
    cases hloc : (getfield call.fld).loc with
    | header =>
      rw [hloc] at h
      dsimp only at h ⊢
      split_ifs at h ⊢ with hfld
      · rw [h]
      · rw [h]
    | record =>
      rw [hloc] at h
      obtain ⟨hpos, r, hr, hvalue⟩ := h
      dsimp only
      rw [if_neg (not_lt.mpr hpos), hr]
      dsimp only
      rw [hvalue]
  unfold Desc.getField
  simp only [hird, Bool.false_eq_true, false_and, if_false, hread, Bool.true_eq_false, hsource]
  rw [SetCall.dataType, typeMatches_own]
  simp only [Bool.true_eq_false, if_false]
  have hvalue := readDescVal_stored call.dataType call.val (dataType_ne_nts hname)
  exact congrArg (fun value => Except.ok (DescReply.success, value)) hvalue

theorem SameKind.isArd (h : SameKind d d') : d'.isArd = d.isArd := by
  simp only [Desc.isArd, h.refType, h.descType]

theorem SameKind.isApd (h : SameKind d d') : d'.isApd = d.isApd := by
  simp only [Desc.isApd, h.refType, h.descType]

/-- What is read of a descriptor behind any sequence of successful calls that store their
values: the value of a call on the field, unless a later one touches it. A record count is
the number of records. -/
theorem setFields_getField {before after : List SetCall} (hkind : d.DerivesTypes)
    (hmeets : Refinement.Meets (setStep asserts) Storable d (before ++ call :: after))
    (hrun : Refinement.run (setStep asserts) d (before ++ call :: after) = some (d', us))
    (hlast : ∀ later ∈ after, ¬ later.Touches d.isArd call) :
    d'.getField call.recnum (some call.fld) call.dataType.code =
        .ok (.success, some (.number call.stored)) ∧
      (call.fld = .count → (d'.rcount : ℤ) = call.stored) := by
  obtain ⟨d₁, us₁, us₂, hbefore, hrest⟩ := Refinement.run_append_eq_some hrun
  have hsame : ∀ s s' call u, SameKind d s → s.Storable call → setStep asserts s call = some (s', u) →
      SameKind d s' :=
    fun s s' call u hI _ hstep => hI.trans (setStep_cases hstep).2.sameKind
  have hkind₁ : SameKind d d₁ :=
    Refinement.run_invariant hsame ⟨rfl, rfl, rfl⟩ hmeets.left hbefore
  have hmeets₁ := hmeets.right hbefore
  obtain ⟨d₂, u, us₃, hstep, hafter, -⟩ := Refinement.run_cons_eq_some hrest
  obtain ⟨hearly, hset⟩ := setStep_cases hstep
  have hkind₂ : SameKind d d₂ := hkind₁.trans hset.sameKind
  have hholds : Holds call d₂ := hset.holds (hkind.congr hkind₁) hmeets₁.1
  have hkeeps : ∀ s s' later u, SameKind d s ∧ Holds call s →
      s.Storable later ∧ ¬ later.Touches d.isArd call → setStep asserts s later = some (s', u) →
        SameKind d s' ∧ Holds call s' := by
    rintro s s' later u ⟨hI, hheld⟩ ⟨hstorable, hnot⟩ hlater
    obtain ⟨-, hset'⟩ := setStep_cases hlater
    rw [← hI.isArd] at hnot
    exact ⟨hI.trans hset'.sameKind, hset'.keeps (hkind.congr hI) hstorable hheld hnot⟩
  obtain ⟨hkind', hheld⟩ := Refinement.run_invariant hkeeps ⟨hkind₂, hholds⟩
    ((hmeets₁.2 d₂ u hstep).and_forall hlast) hafter
  have hread : d'.permits P_RI P_RA (getfield call.fld) = true := by
    refine permits_read (hkind.congr hkind') ?_ fun hloc => ?_
    · rw [refusedEarly_congr hkind', ← refusedEarly_congr hkind₁, hearly]
    · rw [hkind'.isApd, ← hkind₁.isApd, (hmeets₁.1.record hloc).2]
  refine ⟨hheld.getField (hkind.congr hkind') hmeets₁.1.name hread, fun hfld => ?_⟩
  have hcount := hheld
  unfold Holds at hcount
  rw [hfld] at hcount
  exact hcount

/-- Three records of a row descriptor are asked for, and the type of the second is set. -/
theorem setFields_getField_count :
    ∃ d', Refinement.run (setStep true) (new (some ⟨false, false⟩) 1 .app .row)
        [⟨0, .count, 3, [], -10⟩, ⟨2, .type, 4, [], -8⟩] = some (d', [(), ()]) ∧
      d'.getField 0 (some .count) (-10) = .ok (.success, some (.number 3)) := by
  obtain ⟨d', hrun⟩ : ∃ d', Refinement.run (setStep true) (new (some ⟨false, false⟩) 1 .app .row)
      ([] ++ ⟨0, .count, 3, [], -10⟩ :: [⟨2, .type, 4, [], -8⟩]) = some (d', [(), ()]) := ⟨_, rfl⟩
  refine ⟨d', hrun, (setFields_getField ?_ ?_ hrun ?_).1⟩
  · rfl
  · refine ⟨⟨by decide, by decide, nofun, fun _ => by decide⟩, fun d₁ u h => ?_⟩
    obtain ⟨rfl, -⟩ := Prod.mk.inj (Option.some.inj h)
    exact ⟨⟨by decide, by decide, fun _ => by decide, nofun⟩, fun _ _ _ => trivial⟩
  · intro later hlater htouches
    obtain rfl := List.mem_singleton.mp hlater
    cases htouches with
    | header hloc hfld => exact absurd hfld (by decide)
    | count hfld hloc hbeyond => exact absurd hbeyond (by decide)
    | record hloc hlater hrecnum hchanges => exact absurd hloc (by decide)

/-- One record is asked for where there are three; a value is set in the parameter descriptor
of the application; and a parameter is named. -/
theorem setFields_smallerCount_not_getField :
    (∃ d', Refinement.run (setStep true) (new (some ⟨false, false⟩) 1 .app .row)
        [⟨0, .count, 3, [], -10⟩, ⟨0, .count, 1, [], -10⟩] = some (d', [(), ()]) ∧
      d'.getField 0 (some .count) (-10) ≠ .ok (.success, some (.number 1))) ∧
    (∃ d', Refinement.run (setStep true) (new (some ⟨false, false⟩) 1 .app .param)
        [⟨1, .octetLength, 20, [], -10⟩] = some (d', [()]) ∧
      d'.getField 1 (some .octetLength) (-10) = .ok (.error .HY091, none)) ∧
    ∃ d', Refinement.run (setStep true) (new (some ⟨false, false⟩) 1 .imp .param)
        [⟨1, .name, 4096, [65], -3⟩, ⟨1, .name, 8192, [66], -3⟩] = some (d', [(), ()]) ∧
      d'.getField 1 (some .name) (-3) = .ok (.success, none) ∧
      d'.records2.map DescRec.paramData = [[65, 0, 66, 0]] :=
  ⟨⟨_, rfl, by decide⟩, ⟨_, rfl, rfl⟩, _, rfl, rfl, rfl⟩

end Desc

end MatrixOdbc.Driver
