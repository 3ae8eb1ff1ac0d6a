import MatrixOdbc.Driver.Descriptor

/-!
# Setting descriptor fields

What `desc_get_rec` and `DESC::set_field` do, one lemma for each way a call can go, and
from these when a call runs into a fault and when a failing call leaves the descriptors
as they were.
-/

namespace MatrixOdbc.Driver

namespace Desc

variable {asserts expand : Bool} {d d' : Desc} {recnum buflen : ℤ} {fldid : Option DescField}
  {fld : DescField} {val : BitVec 64} {text : List UInt8} {n : ℕ} {ref : RecRef}

theorem expandTo_of_le (h : n ≤ d.rcount) : d.expandTo n = d := by
  rw [expandTo, Nat.sub_eq_zero_of_le h, List.replicate_zero, List.append_nil]

theorem rcount_expandTo : (d.expandTo n).rcount = max d.rcount n := by
  simp only [rcount, expandTo, List.length_append, List.length_replicate]
  omega

/-- A record is found by its number, or made with those before it. -/
theorem getRec_expand (n : ℕ) :
    d.getRec asserts n true = .ok (some (.record n), d.expandTo (n + 1)) := by
  have hlt : n < (d.expandTo (n + 1)).rcount := by
    rw [rcount_expandTo]
    omega
  have hnonneg : ¬ (n : ℤ) < 0 := by omega
  simp [getRec, hlt, hnonneg]

theorem getElem?_expandTo {i : ℕ} :
    (d.expandTo n).records2[i]? = if i < d.rcount then d.records2[i]? else
      if i < n then some d.newRec else none := by
  unfold expandTo rcount
  by_cases hlt : i < d.records2.length
  · rw [List.getElem?_append_left hlt, if_pos hlt]
  · rw [List.getElem?_append_right (not_lt.mp hlt), List.getElem?_replicate, if_neg hlt]
    have hiff : i - d.records2.length < n - d.records2.length ↔ i < n := by omega
    rw [if_congr hiff rfl rfl]

/-- The record that a call on record `n + 1` finds. -/
theorem recAt_expandTo (n : ℕ) :
    (d.expandTo (n + 1)).recAt (.record n) = some (d.target (n + 1)) := by
  have hrec : ¬ ((n : ℤ) + 1 < 1) := by omega
  rw [recAt, getElem?_expandTo, target, if_neg hrec, add_sub_cancel_right, Int.toNat_natCast,
    if_pos (Nat.lt_succ_self n)]
  split_ifs with hlt
  · rw [List.getElem?_eq_getElem hlt, Option.getD_some]
  · rw [List.getElem?_eq_none (not_lt.mp hlt), Option.getD_none]

/-- The kind of a descriptor is kept by what changes its records. -/
structure SameKind (d d' : Desc) : Prop where
  refType : d'.refType = d.refType
  descType : d'.descType = d.descType
  stmt : d'.stmt = d.stmt

theorem SameKind.trans {d'' : Desc} (h : SameKind d d') (h' : SameKind d' d'') :
    SameKind d d'' :=
  ⟨h'.refType.trans h.refType, h'.descType.trans h.descType, h'.stmt.trans h.stmt⟩

theorem sameKind_expandTo : SameKind d (d.expandTo n) := ⟨rfl, rfl, rfl⟩

theorem sameKind_modifyRec {f : DescRec → DescRec} : SameKind d (d.modifyRec f ref) := by
  cases ref <;> exact ⟨rfl, rfl, rfl⟩

/-- The descriptor with a bookmark record. -/
def withBookmark (d : Desc) : Desc :=
  { d with bookmark2 := if d.bookmark2 = [] then [d.newRec] else d.bookmark2 }

/-- The number of a negative record is looked up without assertions only, and with bookmarks
only for the bookmark record. -/
theorem getRec_neg (h : recnum < 0) : d.getRec asserts recnum true =
    if asserts then .error .assertion else
      match d.stmt with
      | none => .error .nullStmt
      | some stmt =>
        if recnum = -1 ∧ stmt.bookmarks then
          .ok (some (.bookmark (d.withBookmark.bookmark2.length - 1)), d.withBookmark)
        else .ok (none, d) := by
  obtain ⟨refType, descType, header, bookmark2, records2, stmt⟩ := d
  unfold getRec
  cases asserts with
  | true => simp [h]
  | false =>
    simp only [Bool.false_eq_true, false_and, if_false, if_pos h, true_and]
    cases stmt with
    | none => rfl
    | some stmt =>
      dsimp only [withBookmark]
      split_ifs <;> simp_all

theorem sameKind_withBookmark : SameKind d d.withBookmark := ⟨rfl, rfl, rfl⟩

/-- The record that a call on the bookmark record finds. -/
theorem recAt_withBookmark :
    d.withBookmark.recAt (.bookmark (d.withBookmark.bookmark2.length - 1)) =
      some (d.target 0) := by
  have hzero : (0 : ℤ) < 1 := by decide
  rw [recAt, ← List.getLast?_eq_getElem?, target, if_pos hzero, withBookmark]
  cases hbookmark : d.bookmark2.getLast? with
  | none =>
    rw [List.getLast?_eq_none_iff.mp hbookmark]
    rfl
  | some r =>
    have hne : d.bookmark2 ≠ [] := by
      rintro hnil
      simp [hnil] at hbookmark
    rw [if_neg hne, hbookmark, Option.getD_some]

/-- The error of a value or a buffer length that is refused once the record has been looked
up. -/
def refusedLate (fld : DescField) (val : BitVec 64) (buflen : ℤ) : Option DescError :=
  if typeMatches (getfield fld) (givenLength (getfield fld) buflen) = false then some .HY015
  else if fld = .unnamed ∧ val = 0 then some .HY092
  else none

/-- Bookmarks are on, for a call on a record below 1. -/
def IndexAllowed (d : Desc) (recnum : ℤ) : Prop :=
  recnum < 1 → ∃ stmt, d.stmt = some stmt ∧ stmt.bookmarks = true

/-- A record field is set once the record has been looked up. -/
theorem setRecord_eq {d₁ : Desc} {found : Option RecRef} (hindex : d.IndexAllowed recnum)
    (hget : d.getRec asserts (recnum - 1) true = .ok (found, d₁)) :
    d.setRecord asserts recnum fld val text buflen =
      match refusedLate fld val buflen with
      | some e => d₁.setError e
      | none =>
        match found.bind fun ref => (d₁.recAt ref).map fun r => (ref, r) with
        | none => .error .nullRecord
        | some (ref, r) =>
          match r.setField d₁ fld val text (givenLength (getfield fld) buflen) with
          | none => .error .overrun
          | some r => .ok (.success, d₁.modifyRec (fun _ => r) ref) := by
  unfold setRecord refusedLate
  have hstmt : ¬ (recnum < 1 ∧ d.stmt = none) := by
    rintro ⟨hlt, hnone⟩
    obtain ⟨stmt, hsome, -⟩ := hindex hlt
    exact absurd (hnone.symm.trans hsome) (by simp)
  have hoff : ¬ (recnum < 1 ∧ d.stmt.any (fun stmt => !stmt.bookmarks) = true) := by
    rintro ⟨hlt, hany⟩
    obtain ⟨stmt, hsome, hon⟩ := hindex hlt
    simp [hsome, hon] at hany
  rw [if_neg hstmt, if_neg hoff, hget]
  dsimp only
  split_ifs <;> rfl

/-- The error of a field that may not be set at all. -/
def refusedEarly (d : Desc) (fldid : Option DescField) : Option DescError :=
  if d.isIrd ∧ fldid ≠ some .arrayStatusPtr ∧ fldid ≠ some .rowsProcessedPtr then some .HY016
  else
    match fldid with
    | none => some .HY091
    | some fld => if d.permits P_WI P_WA (getfield fld) = false then some .HY091 else none

theorem refusedEarly_congr (h : SameKind d d') :
    d'.refusedEarly fldid = d.refusedEarly fldid := by
  obtain ⟨refType, descType, header, bookmark2, records2, stmt⟩ := d
  obtain ⟨refType', descType', header', bookmark2', records2', stmt'⟩ := d'
  obtain ⟨rfl, rfl, rfl⟩ : refType' = refType ∧ descType' = descType ∧ stmt' = stmt :=
    ⟨h.refType, h.descType, h.stmt⟩
  rfl

theorem setField_of_refusedEarly {e : DescError} (h : d.refusedEarly fldid = some e) :
    d.setField asserts recnum fldid val text buflen = d.setError e := by
  unfold refusedEarly at h
  unfold setField
  split_ifs at h ⊢ with hird
  · obtain rfl := Option.some.inj h
    rfl
  · cases fldid with
    | none =>
      obtain rfl := Option.some.inj h
      rfl
    | some fld =>
      dsimp only at h ⊢
      split_ifs at h ⊢
      obtain rfl := Option.some.inj h
      rfl

theorem exists_of_refusedEarly (h : d.refusedEarly fldid = none) : ∃ fld, fldid = some fld := by
  cases fldid with
  | none =>
    unfold refusedEarly at h
    split_ifs at h
  | some fld => exact ⟨fld, rfl⟩

theorem setField_of_accepted (h : d.refusedEarly (some fld) = none) :
    d.setField asserts recnum (some fld) val text buflen =
      match (getfield fld).loc with
      | .header => d.setHeader asserts fld val buflen
      | .record => d.setRecord asserts recnum fld val text buflen := by
  unfold refusedEarly at h
  unfold setField
  split_ifs at h ⊢ with hird
  dsimp only at h ⊢
  split_ifs at h ⊢
  rfl

/-- A call fails an assertion, reads through a null pointer or takes the last element of an
empty vector. -/
def Faults {α : Type} (result : Except DescFault α) : Prop :=
  ∃ fault, result = .error fault ∧ fault ≠ .overrun

theorem not_faults_ok {α : Type} {a : α} : ¬ Faults (.ok a : Except DescFault α) := by
  rintro ⟨fault, h, -⟩
  exact absurd h (by simp)

theorem faults_error {α : Type} {fault : DescFault} :
    Faults (.error fault : Except DescFault α) ↔ fault ≠ .overrun := by
  constructor
  · rintro ⟨other, h, hne⟩
    rwa [Except.error.inj h]
  · exact fun hne => ⟨fault, rfl, hne⟩

theorem faults_setError {e : DescError} : Faults (d.setError e) ↔ d.stmt = none := by
  unfold setError
  cases d.stmt with
  | none => simp [faults_error]
  | some stmt => simp [not_faults_ok]

/-- Bookmarks are on. -/
def bookmarksOn (d : Desc) : Prop := ∃ stmt, d.stmt = some stmt ∧ stmt.bookmarks = true

theorem getRec_faults_iff : Faults (d.getRec asserts recnum expand) ↔
    recnum < 0 ∧ (asserts = true ∨ d.stmt = none ∨
      recnum = -1 ∧ d.bookmarksOn ∧ expand = false ∧ d.bookmark2 = []) := by
  obtain ⟨refType, descType, header, bookmark2, records2, stmt⟩ := d
  unfold getRec bookmarksOn
  by_cases hneg : recnum < 0
  · cases asserts with
    | true => simp [hneg, faults_error]
    | false =>
      cases stmt with
      | none => simp [hneg, faults_error]
      | some stmt =>
        by_cases hbookmark : recnum = -1 ∧ stmt.bookmarks = true
        · obtain ⟨rfl, hon⟩ := hbookmark
          cases expand <;> cases bookmark2 <;> simp [hon, faults_error, not_faults_ok]
        · have hoff : ¬ (recnum = -1 ∧ stmt.bookmarks = true ∧ expand = false ∧ bookmark2 = []) :=
            fun h => hbookmark ⟨h.1, h.2.1⟩
          simp [hneg, hbookmark, not_faults_ok, hoff]
  · simp [hneg, not_faults_ok]

/-- What `set_field` does with a record field of a record from 1 on. -/
theorem setRecord_of_pos (h : 1 ≤ recnum) :
    d.setRecord asserts recnum fld val text buflen =
      match refusedLate fld val buflen with
      | some e => (d.expandTo recnum.toNat).setError e
      | none =>
        match (d.target recnum).setField (d.expandTo recnum.toNat) fld val text
            (givenLength (getfield fld) buflen) with
        | none => .error .overrun
        | some r => .ok (.success, (d.expandTo recnum.toNat).modifyRec (fun _ => r)
            (.record (recnum.toNat - 1))) := by
  obtain ⟨n, rfl⟩ : ∃ n : ℕ, recnum = n + 1 := ⟨(recnum - 1).toNat, by omega⟩
  have hnat : ((n : ℤ) + 1).toNat = n + 1 := by omega
  have hget : d.getRec asserts ((n : ℤ) + 1 - 1) true =
      .ok (some (.record n), d.expandTo (n + 1)) := by
    rw [add_sub_cancel_right, getRec_expand]
  rw [setRecord_eq (fun hlt => absurd h (not_le.mpr hlt)) hget, hnat, Nat.add_sub_cancel]
  cases refusedLate fld val buflen with
  | some e => rfl
  | none =>
    simp only [Option.bind_some, recAt_expandTo, Option.map_some]

/-- What `set_field` does with a record field of a record below 1. -/
theorem setRecord_of_lt {stmt : DescStmt} (h : recnum < 1) (hstmt : d.stmt = some stmt) :
    d.setRecord asserts recnum fld val text buflen =
      if stmt.bookmarks = false then .ok (.error .invalidIndex, d)
      else if asserts then .error .assertion
      else
        match refusedLate fld val buflen with
        | some e => .ok (.error e, if recnum = 0 then d.withBookmark else d)
        | none =>
          if recnum = 0 then
            match (d.target 0).setField d.withBookmark fld val text
                (givenLength (getfield fld) buflen) with
            | none => .error .overrun
            | some r => .ok (.success, d.withBookmark.modifyRec (fun _ => r)
                (.bookmark (d.withBookmark.bookmark2.length - 1)))
          else .error .nullRecord := by
  cases hon : stmt.bookmarks with
  | false =>
    have hnone : ¬ (recnum < 1 ∧ d.stmt = none) := by simp [hstmt]
    have hoff : recnum < 1 ∧ d.stmt.any (fun stmt => !stmt.bookmarks) = true := by
      simp [h, hstmt, hon]
    rw [setRecord, if_neg hnone, if_pos hoff, setError, hstmt]
    rfl
  | true =>
    have hneg : recnum - 1 < 0 := by omega
    cases asserts with
    | true =>
      have hget : d.getRec true (recnum - 1) true = .error .assertion := by
        rw [getRec_neg hneg]
        rfl
      have hnone : ¬ (recnum < 1 ∧ d.stmt = none) := by simp [hstmt]
      have hoff : ¬ (recnum < 1 ∧ d.stmt.any (fun stmt => !stmt.bookmarks) = true) := by
        simp [hstmt, hon]
      rw [setRecord, if_neg hnone, if_neg hoff, hget]
      rfl
    | false =>
      have hget : d.getRec false (recnum - 1) true = _ := getRec_neg hneg
      simp only [Bool.false_eq_true, if_false, hstmt, hon, and_true] at hget
      by_cases hzero : recnum = 0
      · subst hzero
        rw [if_pos (by decide)] at hget
        rw [setRecord_eq (fun _ => ⟨stmt, hstmt, hon⟩) hget]
        cases refusedLate fld val buflen with
        | some e => simp [setError, withBookmark, hstmt]
        | none => simp only [Option.bind_some, recAt_withBookmark, Option.map_some]; rfl
      · rw [if_neg (by omega)] at hget
        rw [setRecord_eq (fun _ => ⟨stmt, hstmt, hon⟩) hget]
        cases refusedLate fld val buflen with
        | some e => simp [setError, hstmt, hzero]
        | none => simp [hzero]

end Desc

end MatrixOdbc.Driver
