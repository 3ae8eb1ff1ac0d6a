import MatrixOdbc.Driver.DescriptorErrors

/-!
# Descriptor calls that fail

When a call of `DESC::set_field` or `my_SQLBindParameter` that returns an error leaves the
descriptors as they were. Records are made before most of the checks run, and a parameter
is reset before its number is checked.
-/

namespace MatrixOdbc.Driver

/-- A call that returns an error leaves the state as it was. -/
def Atomic {α : Type} (s : α) (result : Except DescFault (DescReply × α)) : Prop :=
  ∀ e s', result = .ok (.error e, s') → s' = s

section Atomic

variable {α : Type} {s s' : α} {e : DescError} {fault : DescFault}

theorem atomic_fault : Atomic s (.error fault) := nofun

theorem atomic_success : Atomic s (.ok (.success, s')) := nofun

theorem atomic_error : Atomic s (.ok (.error e, s')) ↔ s' = s := by
  constructor
  · exact fun h => h e s' rfl
  · intro h e' s'' hok
    injection hok with hpair
    injection hpair with _ hstate
    exact hstate ▸ h

end Atomic

namespace Desc

variable {asserts : Bool} {d d' : Desc} {recnum buflen : ℤ} {fldid : Option DescField}
  {fld : DescField} {val : BitVec 64} {text : List UInt8} {n : ℕ} {e : DescError}

theorem expandTo_eq_self : d.expandTo n = d ↔ n ≤ d.rcount := by
  constructor
  · intro h
    have hcount := rcount_expandTo (d := d) (n := n)
    rw [h] at hcount
    omega
  · exact expandTo_of_le

theorem withBookmark_eq_self : d.withBookmark = d ↔ d.bookmark2 ≠ [] := by
  constructor
  · intro h hnil
    have hbookmark := congrArg bookmark2 h
    simp [withBookmark, hnil] at hbookmark
  · intro hne
    rw [withBookmark, if_neg hne]

theorem atomic_setError : Atomic d (d.setError e) := by
  unfold setError
  split_ifs
  · exact atomic_error.mpr rfl
  · exact atomic_fault

theorem atomic_setError_iff : Atomic d (d'.setError e) ↔ (d'.stmt ≠ none → d' = d) := by
  unfold setError
  cases hstmt : d'.stmt with
  | none => simp [atomic_fault]
  | some stmt => simp [atomic_error]

/-- The bookmark record is there, where bookmarks are on. -/
def BookmarkThere (d : Desc) : Prop := d.bookmarksOn → d.bookmark2 ≠ []

/-- A value or a buffer length is refused only for a record that is there. -/
def RefusedInPlace (d : Desc) (asserts : Bool) (recnum : ℤ) (fldid : Option DescField)
    (val : BitVec 64) (buflen : ℤ) : Prop :=
  ∀ fld, fldid = some fld → d.refusedEarly fldid = none → (getfield fld).loc = .record →
    refusedLate fld val buflen ≠ none → d.stmt ≠ none →
      recnum ≤ d.rcount ∧ (recnum = 0 → asserts = false → d.BookmarkThere)

theorem setHeader_atomic : Atomic d (d.setHeader asserts fld val buflen) := by
  unfold setHeader
  dsimp only
  split_ifs with hmatch hcount
  · exact atomic_setError
  · cases d.getRec asserts ((val - 1).setWidth 32).toInt true with
    | error fault => exact atomic_fault
    | ok result =>
      dsimp only
      split
      · exact atomic_fault
      · exact atomic_success
  · dsimp only
    split
    · exact atomic_fault
    · exact atomic_success

theorem setRecord_atomic_iff : Atomic d (d.setRecord asserts recnum fld val text buflen) ↔
    (refusedLate fld val buflen ≠ none → d.stmt ≠ none →
      recnum ≤ d.rcount ∧ (recnum = 0 → asserts = false → d.BookmarkThere)) := by
  by_cases hlt : recnum < 1
  · have hle : recnum ≤ d.rcount := by omega
    cases hstmt : d.stmt with
    | none =>
      rw [setRecord, if_pos ⟨hlt, hstmt⟩]
      simp [atomic_fault]
    | some stmt =>
      have hon : d.bookmarksOn ↔ stmt.bookmarks = true := by simp [bookmarksOn, hstmt]
      rw [setRecord_of_lt hlt hstmt, BookmarkThere, hon]
      cases stmt.bookmarks with
      | false => simp [atomic_error, hle]
      | true =>
        cases asserts with
        | true => simp [atomic_fault, hle]
        | false =>
          cases refusedLate fld val buflen with
          | some e =>
            by_cases hzero : recnum = 0
            · simp [atomic_error, hzero, withBookmark_eq_self]
            · simp [atomic_error, hzero, hle]
          | none =>
            by_cases hzero : recnum = 0
            · subst hzero
              cases (d.target 0).setField d.withBookmark fld val text
                  (givenLength (getfield fld) buflen) <;>
                simp [atomic_fault, atomic_success]
            · simp [hzero, atomic_fault]
  · have hzero : recnum ≠ 0 := by omega
    rw [setRecord_of_pos (not_lt.mp hlt)]
    cases refusedLate fld val buflen with
    | some e =>
      have hstmt : (d.expandTo recnum.toNat).stmt = d.stmt := rfl
      have hle : recnum.toNat ≤ d.rcount ↔ recnum ≤ d.rcount := by omega
      simp only [atomic_setError_iff, hstmt, expandTo_eq_self, hle]
      simp [hzero]
    | none =>
      cases (d.target recnum).setField (d.expandTo recnum.toNat) fld val text
          (givenLength (getfield fld) buflen) <;>
        simp [atomic_fault, atomic_success]

theorem setField_atomic_iff : Atomic d (d.setField asserts recnum fldid val text buflen) ↔
    d.RefusedInPlace asserts recnum fldid val buflen := by
  unfold RefusedInPlace
  cases hearly : d.refusedEarly fldid with
  | some e =>
    rw [setField_of_refusedEarly hearly]
    simp [atomic_setError]
  | none =>
    obtain ⟨fld, rfl⟩ := exists_of_refusedEarly hearly
    rw [setField_of_accepted hearly]
    cases hloc : (getfield fld).loc with
    | header => simp [setHeader_atomic, hloc]
    | record =>
      rw [setRecord_atomic_iff]
      constructor
      · intro h other hother _ _
        obtain rfl := Option.some.inj hother
        exact h
      · exact fun h => h fld rfl rfl hloc

/-- A field, a value and a type with which `set_field` finds nothing to refuse. -/
structure Accepts (d : Desc) (f : DescField × BitVec 64 × BufType) : Prop where
  early : d.refusedEarly (some f.1) = none
  loc : (getfield f.1).loc = .record
  late : refusedLate f.1 f.2.1 f.2.2.code = none

theorem Accepts.congr {f : DescField × BitVec 64 × BufType} (h : SameKind d d')
    (haccepts : d.Accepts f) : d'.Accepts f := by
  refine ⟨?_, haccepts.loc, haccepts.late⟩
  rw [refusedEarly_congr h]
  exact haccepts.early

/-- An accepted field of a record from 1 on is set, on a descriptor of the same kind. -/
theorem setField_of_accepts {f : DescField × BitVec 64 × BufType} (asserts : Bool)
    (text : List UInt8) (hpos : 1 ≤ recnum) (h : d.Accepts f) :
    d.setField asserts recnum (some f.1) f.2.1 text f.2.2.code = .error .overrun ∨
      ∃ d', d.setField asserts recnum (some f.1) f.2.1 text f.2.2.code = .ok (.success, d') ∧
        SameKind d d' := by
  rw [setField_of_accepted h.early]
  simp only [h.loc, setRecord_of_pos hpos, h.late]
  cases (d.target recnum).setField (d.expandTo recnum.toNat) f.1 f.2.1 text
      (givenLength (getfield f.1) f.2.2.code) with
  | none => exact .inl rfl
  | some r => exact .inr ⟨_, rfl, sameKind_expandTo.trans sameKind_modifyRec⟩

/-- Accepted fields of a record from 1 on do not end in an error. -/
theorem setFields_ne_error {fields : List (DescField × BitVec 64 × BufType)}
    (hpos : 1 ≤ recnum) (h : ∀ f ∈ fields, d.Accepts f) :
    d.setFields asserts recnum fields ≠ .ok (.error e, d') := by
  induction fields generalizing d with
  | nil => simp [setFields]
  | cons f rest ih =>
    obtain ⟨fld, val, t⟩ := f
    rcases setField_of_accepts asserts [] hpos (h _ List.mem_cons_self) with
      hfault | ⟨d₁, hok, hkind⟩
    · simp only [setFields]
      rw [hfault]
      nofun
    · simp only [setFields]
      rw [hok]
      exact ih fun f hf => (h f (List.mem_cons_of_mem _ hf)).congr hkind

/-- A record field that may be written in parameter descriptors is accepted there. -/
theorem refusedEarly_param (hdesc : d.descType = .param) (fld : DescField)
    (hloc : (getfield fld).loc = .record)
    (hperms : (getfield fld).perms &&& P_PAR (if d.refType = .app then P_WA else P_WI) ≠ 0) :
    d.refusedEarly (some fld) = none := by
  have hird : d.isIrd = false := by simp [isIrd, hdesc]
  simp [refusedEarly, hird, permits, recPerms, hdesc, hloc, hperms]

theorem apdFields_accepts (h : d.isApd = true) (call : BindCall) (dflt : Bool) :
    ∀ f ∈ call.apdFields dflt, d.Accepts f := by
  obtain ⟨hdesc, href⟩ : d.descType = .param ∧ d.refType = .app := by simpa [isApd] using h
  have hearly : ∀ fld ∈ [DescField.conciseType, .octetLength, .dataPtr, .octetLengthPtr,
      .indicatorPtr], d.refusedEarly (some fld) = none := by
    intro fld hfld
    apply refusedEarly_param hdesc fld
    · revert fld
      decide
    · rw [if_pos href]
      revert fld
      decide
  intro f hf
  simp only [BindCall.apdFields, List.mem_cons, List.not_mem_nil, or_false] at hf
  rcases hf with rfl | rfl | rfl | rfl | rfl
  all_goals exact ⟨hearly _ (by simp), rfl, rfl⟩

theorem ipdFields_accepts (h : d.isIpd = true) (call : BindCall) :
    ∀ f ∈ call.ipdFields, d.Accepts f := by
  obtain ⟨hdesc, href⟩ : d.descType = .param ∧ d.refType = .imp := by simpa [isIpd] using h
  have hearly : ∀ fld ∈ [DescField.conciseType, .parameterType, .precision, .length, .scale],
      d.refusedEarly (some fld) = none := by
    intro fld hfld
    apply refusedEarly_param hdesc fld
    · revert fld
      decide
    · rw [if_neg (by simp [href])]
      revert fld
      decide
  have hsize : ∀ f ∈ call.sizeFields, d.Accepts f := by
    intro f hf
    unfold BindCall.sizeFields at hf
    split_ifs at hf <;> simp only [List.mem_cons, List.not_mem_nil, or_false] at hf
    · subst hf
      exact ⟨hearly _ (by simp), rfl, rfl⟩
    · subst hf
      exact ⟨hearly _ (by simp), rfl, rfl⟩
    · rcases hf with rfl | rfl
      · exact ⟨hearly _ (by simp), rfl, rfl⟩
      · exact ⟨hearly _ (by simp), rfl, rfl⟩
    · subst hf
      exact ⟨hearly _ (by simp), rfl, rfl⟩
  intro f hf
  simp only [BindCall.ipdFields, List.cons_append, List.nil_append, List.mem_cons] at hf
  rcases hf with rfl | rfl | hf
  · exact ⟨hearly _ (by simp), rfl, rfl⟩
  · exact ⟨hearly _ (by simp), rfl, rfl⟩
  · exact hsize f hf

/-- The bookmark record is looked up, without assertions and with a statement. -/
theorem getRec_bookmark (d : Desc) (asserts : Bool) :
    (∃ fault, d.getRec asserts (-1) true = .error fault) ∧ (asserts = true ∨ d.stmt = none) ∨
      (asserts = false ∧ d.stmt ≠ none) ∧
        ∃ ref d', d.getRec asserts (-1) true = .ok (ref, d') ∧ (d' = d ↔ d.BookmarkThere) := by
  rw [getRec_neg (by decide)]
  cases asserts with
  | true => exact .inl ⟨⟨_, rfl⟩, .inl rfl⟩
  | false =>
    cases hstmt : d.stmt with
    | none => exact .inl ⟨⟨_, rfl⟩, .inr rfl⟩
    | some stmt =>
      refine .inr ⟨⟨rfl, by simp⟩, ?_⟩
      have hon : d.bookmarksOn ↔ stmt.bookmarks = true := by simp [bookmarksOn, hstmt]
      unfold BookmarkThere
      rw [hon]
      cases hbookmarks : stmt.bookmarks with
      | true =>
        refine ⟨some (.bookmark (d.withBookmark.bookmark2.length - 1)), d.withBookmark, ?_, ?_⟩
        · simp [hbookmarks]
        · simp [withBookmark_eq_self]
      | false => exact ⟨none, d, by simp [hbookmarks], by simp⟩

/-- A record is there, and it is as its reset leaves it. -/
def AsReset (d : Desc) (n : ℕ) : Prop :=
  ∃ r, d.records2[n]? = some r ∧ r.resetToDefaults d.refType d.descType = r

theorem resetRec_eq_self : (d.expandTo (n + 1)).resetRec (.record n) = d ↔ d.AsReset n := by
  constructor
  · intro h
    have hrecords := congrArg records2 h
    have hlength := congrArg List.length hrecords
    have hcount := rcount_expandTo (d := d) (n := n + 1)
    simp only [resetRec, modifyRec, List.length_modify] at hlength
    have hle : n + 1 ≤ d.rcount := by
      unfold rcount at hcount ⊢
      omega
    rw [expandTo_of_le hle] at hrecords
    obtain ⟨r, hr⟩ : ∃ r, d.records2[n]? = some r := ⟨_, List.getElem?_eq_getElem hle⟩
    refine ⟨r, hr, ?_⟩
    have hget := congrArg (fun l => l[n]?) hrecords
    simpa [resetRec, modifyRec, hr] using hget
  · rintro ⟨r, hr, hreset⟩
    have hle : n + 1 ≤ d.rcount := (List.getElem?_eq_some_iff.mp hr).1
    have hrecords : d.records2.modify n (DescRec.resetToDefaults d.refType d.descType) =
        d.records2 := by
      apply List.ext_getElem?
      intro i
      rw [List.getElem?_modify]
      by_cases hi : n = i
      · subst hi
        simp [hr, hreset]
      · simp [hi]
    rw [expandTo_of_le hle]
    simp only [resetRec, modifyRec, hrecords]

/-- Accepted fields of a record below 0: there is no such record. -/
theorem setFields_neg {f : DescField × BitVec 64 × BufType} (asserts : Bool)
    {rest : List (DescField × BitVec 64 × BufType)} (hneg : recnum < 0) (h : d.Accepts f) :
    (∃ fault, d.setFields asserts recnum (f :: rest) = .error fault) ∧
        (d.stmt = none ∨ d.bookmarksOn) ∨
      (d.stmt ≠ none ∧ ¬ d.bookmarksOn) ∧
        d.setFields asserts recnum (f :: rest) = .ok (.error .invalidIndex, d) := by
  obtain ⟨fld, val, t⟩ := f
  have hlt : recnum < 1 := by omega
  have hzero : recnum ≠ 0 := by omega
  simp only [setFields]
  rw [setField_of_accepted h.early]
  simp only [h.loc]
  cases hstmt : d.stmt with
  | none =>
    have hnull : d.setRecord asserts recnum fld val [] t.code = .error .nullStmt := by
      rw [setRecord, if_pos ⟨hlt, hstmt⟩]
    rw [hnull]
    exact .inl ⟨⟨_, rfl⟩, .inl rfl⟩
  | some stmt =>
    have hon : d.bookmarksOn ↔ stmt.bookmarks = true := by simp [bookmarksOn, hstmt]
    rw [setRecord_of_lt hlt hstmt, h.late, hon]
    cases stmt.bookmarks with
    | false => exact .inr ⟨⟨by simp, by simp⟩, by simp⟩
    | true =>
      refine .inl ⟨?_, .inr rfl⟩
      cases asserts with
      | true => exact ⟨.assertion, by simp⟩
      | false => exact ⟨.nullRecord, by simp [hzero]⟩

end Desc

/-- The parameter number of a call that fails is that of bookmark records that are there, or
of parameters that are there and as their reset leaves them. -/
structure BindsInPlace (asserts : Bool) (stmt : ParamDescs) (call : BindCall) : Prop where
  zero : call.parameterNumber = 0 → asserts = false → stmt.apd.stmt ≠ none →
    stmt.ipd.stmt ≠ none → stmt.apd.BookmarkThere ∧ stmt.ipd.BookmarkThere
  large : call.recnum < 0 → stmt.apd.stmt ≠ none → ¬ stmt.apd.bookmarksOn →
    stmt.apd.AsReset (call.parameterNumber.toNat - 1) ∧
      stmt.ipd.AsReset (call.parameterNumber.toNat - 1)

/-- A call for a parameter of a positive record number does not end in an error. -/
theorem mySQLBindParameter_ne_error {asserts : Bool} {stmt stmt' : ParamDescs} {call : BindCall}
    {e : DescError} (happ : stmt.apd.isApd = true) (himp : stmt.ipd.isIpd = true)
    (hpos : 1 ≤ call.recnum) (hnum : call.parameterNumber.toNat ≠ 0) :
    mySQLBindParameter asserts stmt call ≠ .ok (.error e, stmt') := by
  obtain ⟨n, hn⟩ : ∃ n, call.parameterNumber.toNat = n + 1 := Nat.exists_eq_succ_of_ne_zero hnum
  have hcast : ((n + 1 : ℕ) : ℤ) - 1 = n := by omega
  have hapd : ((stmt.apd.expandTo (n + 1)).resetRec (.record n)).isApd = true := happ
  have hipd : ((stmt.ipd.expandTo (n + 1)).resetRec (.record n)).isIpd = true := himp
  unfold mySQLBindParameter
  rw [hn, hcast, Desc.getRec_expand, Desc.getRec_expand]
  simp only [Nat.not_lt.mpr (Nat.le_add_left 1 n), if_false]
  intro h
  split at h
  · exact absurd h (by simp)
  · rename_i happly
    exact Desc.setFields_ne_error hpos (Desc.apdFields_accepts hapd _ _) happly
  · split at h
    · exact absurd h (by simp)
    · rename_i happly
      exact Desc.setFields_ne_error hpos (Desc.ipdFields_accepts hipd _) happly
    · exact absurd h (by simp)

theorem paramDescs_eq_iff {stmt : ParamDescs} {apd ipd : Desc} :
    ({ stmt with apd := apd, ipd := ipd } : ParamDescs) = stmt ↔
      apd = stmt.apd ∧ ipd = stmt.ipd := by
  obtain ⟨apd', ipd', dflt⟩ := stmt
  simp

/-- Parameter 0 is refused, behind the lookup of the bookmark records. -/
theorem mySQLBindParameter_atomic_of_zero {asserts : Bool} {stmt : ParamDescs} {call : BindCall}
    (hzero : call.parameterNumber = 0) :
    Atomic stmt (mySQLBindParameter asserts stmt call) ↔
      (asserts = false → stmt.apd.stmt ≠ none → stmt.ipd.stmt ≠ none →
        stmt.apd.BookmarkThere ∧ stmt.ipd.BookmarkThere) := by
  have hnum : ((call.parameterNumber.toNat : ℕ) : ℤ) - 1 = -1 := by simp [hzero]
  have hlt : call.parameterNumber.toNat < 1 := by simp [hzero]
  unfold mySQLBindParameter
  rw [hnum]
  rcases stmt.apd.getRec_bookmark asserts with
    ⟨⟨fault, hfault⟩, hnot⟩ | ⟨⟨hasserts, happly⟩, ref, apd, hget, happ⟩
  · rw [hfault]
    refine ⟨fun _ hasserts hstmt => ?_, fun _ => atomic_fault⟩
    rcases hnot with hnot | hnot
    · exact absurd (hasserts.symm.trans hnot) (by decide)
    · exact absurd hnot hstmt
  · rw [hget]
    dsimp only
    rcases stmt.ipd.getRec_bookmark asserts with
      ⟨⟨fault, hfault⟩, hnot⟩ | ⟨⟨-, hipply⟩, ref', ipd, hget', himp⟩
    · rw [hfault]
      refine ⟨fun _ hasserts _ hstmt => ?_, fun _ => atomic_fault⟩
      rcases hnot with hnot | hnot
      · exact absurd (hasserts.symm.trans hnot) (by decide)
      · exact absurd hnot hstmt
    · rw [hget']
      simp only [if_pos hlt, atomic_error, paramDescs_eq_iff, happ, himp]
      exact ⟨fun h _ _ _ => h, fun h => h hasserts happly hipply⟩

/-- A parameter number that is no record number is refused, behind the reset. -/
theorem mySQLBindParameter_atomic_of_large {asserts : Bool} {stmt : ParamDescs} {call : BindCall}
    (happ : stmt.apd.isApd = true) (hneg : call.recnum < 0)
    (hnum : call.parameterNumber.toNat ≠ 0) :
    Atomic stmt (mySQLBindParameter asserts stmt call) ↔
      (stmt.apd.stmt ≠ none → ¬ stmt.apd.bookmarksOn →
        stmt.apd.AsReset (call.parameterNumber.toNat - 1) ∧
          stmt.ipd.AsReset (call.parameterNumber.toNat - 1)) := by
  obtain ⟨n, hn⟩ : ∃ n, call.parameterNumber.toNat = n + 1 := Nat.exists_eq_succ_of_ne_zero hnum
  have hcast : ((n + 1 : ℕ) : ℤ) - 1 = n := by omega
  have hapd : ((stmt.apd.expandTo (n + 1)).resetRec (.record n)).isApd = true := happ
  have haccepts := Desc.apdFields_accepts hapd call stmt.dfltBigintBindStr
  unfold mySQLBindParameter
  rw [hn, hcast, Desc.getRec_expand, Desc.getRec_expand]
  simp only [Nat.not_lt.mpr (Nat.le_add_left 1 n), if_false, Nat.add_sub_cancel]
  rcases Desc.setFields_neg asserts hneg (haccepts _ List.mem_cons_self) with
    ⟨⟨fault, hfault⟩, hnot⟩ | ⟨⟨hstmt, hoff⟩, herror⟩
  · unfold BindCall.apdFields
    rw [hfault]
    refine ⟨fun _ hstmt hoff => ?_, fun _ => atomic_fault⟩
    rcases hnot with hnot | hnot
    · exact absurd hnot hstmt
    · exact absurd hnot hoff
  · unfold BindCall.apdFields
    rw [herror]
    simp only [atomic_error, paramDescs_eq_iff, Desc.resetRec_eq_self]
    exact ⟨fun h _ _ => h, fun h => h hstmt hoff⟩

/-- When a failing `my_SQLBindParameter` leaves both descriptors as they were. -/
theorem mySQLBindParameter_atomic_iff {asserts : Bool} {stmt : ParamDescs} {call : BindCall}
    (happ : stmt.apd.isApd = true) (himp : stmt.ipd.isIpd = true) :
    Atomic stmt (mySQLBindParameter asserts stmt call) ↔ BindsInPlace asserts stmt call := by
  by_cases hzero : call.parameterNumber = 0
  · have hrec : ¬ call.recnum < 0 := by simp [BindCall.recnum, hzero]
    rw [mySQLBindParameter_atomic_of_zero hzero]
    exact ⟨fun h => ⟨fun _ => h, fun hneg => absurd hneg hrec⟩, fun h => h.zero hzero⟩
  · have hnum : call.parameterNumber.toNat ≠ 0 := by
      intro hnat
      exact hzero (BitVec.eq_of_toNat_eq hnat)
    by_cases hneg : call.recnum < 0
    · rw [mySQLBindParameter_atomic_of_large happ hneg hnum]
      exact ⟨fun h => ⟨fun h0 => absurd h0 hzero, fun _ => h⟩, fun h => h.large hneg⟩
    · have hpos : 1 ≤ call.recnum := by
        unfold BindCall.recnum at hneg ⊢
        rw [BitVec.toInt_eq_toNat_cond] at hneg ⊢
        split_ifs at hneg ⊢ <;> omega
      refine ⟨fun _ => ⟨fun h0 => absurd h0 hzero, fun h => absurd h hneg⟩, fun _ => ?_⟩
      exact fun e s' h => absurd h (mySQLBindParameter_ne_error happ himp hpos hnum)

/-- When `DESC::set_field` and `my_SQLBindParameter` leave the descriptors as they were if
they fail. -/
theorem descriptorCalls_atomic_iff (asserts : Bool) :
    (∀ d : Desc, ∀ recnum fldid val text buflen,
      Atomic d (d.setField asserts recnum fldid val text buflen) ↔
        d.RefusedInPlace asserts recnum fldid val buflen) ∧
    ∀ stmt : ParamDescs, stmt.apd.isApd = true → stmt.ipd.isIpd = true → ∀ call,
      Atomic stmt (mySQLBindParameter asserts stmt call) ↔ BindsInPlace asserts stmt call :=
  ⟨fun _ _ _ _ _ _ => Desc.setField_atomic_iff,
    fun _ happ himp _ => mySQLBindParameter_atomic_iff happ himp⟩

/-- Bookmarks are on, and both descriptors have their record. -/
def bookmarkRecords : ParamDescs :=
  ⟨{ Desc.new (some ⟨true, false⟩) 1 .app .param with bookmark2 := [.new .app .param] },
    { Desc.new (some ⟨true, false⟩) 1 .imp .param with bookmark2 := [.new .imp .param] }, false⟩

/-- Parameter 0 is refused, and nothing has changed. -/
theorem descriptorCalls_atomic_bookmarkRecords :
    (∃ e s', mySQLBindParameter false bookmarkRecords ⟨0, 1, 1, 12, 10, 0, 4096, 10, 8192⟩ =
      .ok (.error e, s')) ∧
    Atomic bookmarkRecords
      (mySQLBindParameter false bookmarkRecords ⟨0, 1, 1, 12, 10, 0, 4096, 10, 8192⟩) := by
  refine ⟨⟨_, _, rfl⟩, ((descriptorCalls_atomic_iff false).2 _ rfl rfl _).mpr ⟨?_, fun h => ?_⟩⟩
  · exact fun _ _ _ _ => ⟨fun _ => List.cons_ne_nil _ _, fun _ => List.cons_ne_nil _ _⟩
  · exact absurd h (by decide)

/-- The type of a record that is not there is set with the length of a pointer, and parameter
0 is bound with bookmarks on: both fail and leave a new record. -/
theorem descriptorCalls_newRecord_not_atomic :
    ¬ Atomic (Desc.new (some ⟨false, false⟩) 1 .app .row)
        ((Desc.new (some ⟨false, false⟩) 1 .app .row).setField false 1 (some .type) 4 [] (-4)) ∧
      ¬ Atomic
        ⟨.new (some ⟨true, false⟩) 1 .app .param, .new (some ⟨true, false⟩) 1 .imp .param, false⟩
        (mySQLBindParameter false
          ⟨.new (some ⟨true, false⟩) 1 .app .param, .new (some ⟨true, false⟩) 1 .imp .param, false⟩
          ⟨0, 1, 1, 12, 10, 0, 4096, 10, 8192⟩) := by
  constructor
  · intro h
    have hcount := congrArg Desc.rcount (h .HY015 _ rfl)
    exact absurd hcount (by decide)
  · intro h
    have hcount := congrArg (fun s => s.apd.bookmark2.length) (h .HY093 _ rfl)
    exact absurd hcount (by decide)

end MatrixOdbc.Driver
