import MatrixOdbc.Driver.DescriptorSet

/-!
# Failing descriptor calls

When the calls of a descriptor end properly, with an ODBC error for what cannot be done,
and when a call that fails leaves the descriptors as they were.
-/

namespace MatrixOdbc.Driver

namespace Desc

variable {asserts expand : Bool} {d d' : Desc} {recnum buflen : ℤ} {fldid : Option DescField}
  {fld : DescField} {val : BitVec 64} {text : List UInt8} {n : ℕ} {ref : RecRef} {e : DescError}

/-- The record number that a new record count asks for. -/
def countIndex (val : BitVec 64) : ℤ := ((val - 1).setWidth 32).toInt

theorem setHeader_faults_iff : Faults (d.setHeader asserts fld val buflen) ↔
    if typeMatches (getfield fld) (givenLength (getfield fld) buflen) = false then d.stmt = none
    else fld = .count ∧ countIndex val < 0 ∧ (asserts = true ∨ d.stmt = none) := by
  unfold setHeader
  dsimp only
  split_ifs with hmatch hcount
  · exact faults_setError
  · subst hcount
    have hget : Faults (d.getRec asserts (countIndex val) true) ↔ _ := getRec_faults_iff
    simp only [Bool.true_eq_false, false_and, and_false, or_false] at hget
    rw [eq_self, true_and, ← hget, countIndex]
    cases hresult : d.getRec asserts ((val - 1).setWidth 32).toInt true with
    | error fault => exact faults_error.trans faults_error.symm
    | ok result =>
      dsimp only
      cases applyDescVal (result.2.header .count) (getfield .count).dataType val
          (givenLength (getfield .count) buflen) with
      | none => simp [faults_error, not_faults_ok]
      | some value => simp [not_faults_ok]
  · dsimp only
    cases applyDescVal (d.header fld) (getfield fld).dataType val
        (givenLength (getfield fld) buflen) with
    | none => simp [faults_error, hcount]
    | some value => simp [not_faults_ok, hcount]

theorem setRecord_faults_iff : Faults (d.setRecord asserts recnum fld val text buflen) ↔
    d.stmt = none ∧ (recnum < 1 ∨ refusedLate fld val buflen ≠ none) ∨
      recnum < 1 ∧ d.bookmarksOn ∧
        (asserts = true ∨ recnum ≠ 0 ∧ refusedLate fld val buflen = none) := by
  by_cases hlt : recnum < 1
  · cases hstmt : d.stmt with
    | none =>
      rw [setRecord, if_pos ⟨hlt, hstmt⟩]
      simp [faults_error, hlt]
    | some stmt =>
      have hon : d.bookmarksOn ↔ stmt.bookmarks = true := by simp [bookmarksOn, hstmt]
      rw [setRecord_of_lt hlt hstmt, hon]
      cases stmt.bookmarks with
      | false => simp [not_faults_ok]
      | true =>
        cases asserts with
        | true => simp [faults_error, hlt]
        | false =>
          cases refusedLate fld val buflen with
          | some e => simp [not_faults_ok]
          | none =>
            by_cases hzero : recnum = 0
            · subst hzero
              cases (d.target 0).setField d.withBookmark fld val text
                  (givenLength (getfield fld) buflen) <;>
                simp [faults_error, not_faults_ok]
            · simp [hzero, hlt, faults_error]
  · rw [setRecord_of_pos (not_lt.mp hlt)]
    cases refusedLate fld val buflen with
    | some e =>
      have herror := faults_setError (d := d.expandTo recnum.toNat) (e := e)
      simp only [herror, hlt]
      simp [expandTo]
    | none =>
      cases (d.target recnum).setField (d.expandTo recnum.toNat) fld val text
          (givenLength (getfield fld) buflen) <;>
        simp [faults_error, not_faults_ok, hlt]

/-- What cannot be done: the error that a call of `set_field` has to end in. -/
def refuses (d : Desc) (recnum : ℤ) (fldid : Option DescField) (val : BitVec 64) (buflen : ℤ) :
    Option DescError :=
  match d.refusedEarly fldid, fldid with
  | some e, _ => some e
  | none, none => none
  | none, some fld =>
    match (getfield fld).loc with
    | .header =>
      if typeMatches (getfield fld) (givenLength (getfield fld) buflen) = false then some .HY015
      else none
    | .record =>
      if recnum < 1 ∧ d.stmt.any (fun stmt => !stmt.bookmarks) then some .invalidIndex
      else refusedLate fld val buflen

/-- A call of `set_field` does without what may not be there: the statement, to report an
error; a record below 1 that is no bookmark record; and a negative record number, with which
no count of records is reached. -/
structure SetSafely (asserts : Bool) (d : Desc) (recnum : ℤ) (fldid : Option DescField)
    (val : BitVec 64) (buflen : ℤ) : Prop where
  refused : d.refuses recnum fldid val buflen ≠ none → d.stmt ≠ none
  index : ∀ fld, fldid = some fld → d.refusedEarly fldid = none → (getfield fld).loc = .record →
    recnum < 1 → d.stmt ≠ none ∧ (d.bookmarksOn →
      asserts = false ∧ (recnum = 0 ∨ refusedLate fld val buflen ≠ none))
  count : fldid = some .count → d.refuses recnum fldid val buflen = none → countIndex val < 0 →
    asserts = false ∧ d.stmt ≠ none

/-- A call ends without a fault, and in the error for what cannot be done. -/
def EndsProperly {α : Type} (refused : Option DescError)
    (result : Except DescFault (DescReply × α)) : Prop :=
  ¬ Faults result ∧ ∀ e, refused = some e → ∃ a, result = .ok (.error e, a)

theorem endsProperly_setError : EndsProperly (some e) (d.setError e) ↔ d.stmt ≠ none := by
  unfold EndsProperly
  rw [faults_setError]
  constructor
  · exact fun h => h.1
  · intro h
    refine ⟨h, fun other hother => ⟨d, ?_⟩⟩
    obtain rfl := Option.some.inj hother
    rw [setError, if_pos (Option.isSome_iff_ne_none.mpr h)]

theorem endsProperly_none {α : Type} {result : Except DescFault (DescReply × α)} :
    EndsProperly none result ↔ ¬ Faults result := by
  unfold EndsProperly
  exact and_iff_left nofun

/-- The ways of a field that may be set. -/
theorem setHeader_endsProperly_iff (hearly : d.refusedEarly (some fld) = none)
    (hloc : (getfield fld).loc = .header) :
    EndsProperly (d.refuses recnum (some fld) val buflen) (d.setHeader asserts fld val buflen) ↔
      SetSafely asserts d recnum (some fld) val buflen := by
  have hindex : ∀ other, some fld = some other → d.refusedEarly (some fld) = none →
      (getfield other).loc ≠ .record := by
    intro other hother _
    obtain rfl := Option.some.inj hother
    rw [hloc]
    decide
  have hrefuses : d.refuses recnum (some fld) val buflen =
      if typeMatches (getfield fld) (givenLength (getfield fld) buflen) = false then some .HY015
      else none := by
    simp only [refuses, hearly, hloc]
  have hfaults : Faults (d.setHeader asserts fld val buflen) ↔ _ := setHeader_faults_iff
  by_cases hmatch : typeMatches (getfield fld) (givenLength (getfield fld) buflen) = false
  · rw [if_pos hmatch] at hrefuses hfaults
    have hresult : d.setHeader asserts fld val buflen = d.setError .HY015 := by
      simp only [setHeader, hmatch, if_true]
    rw [hrefuses, hresult, endsProperly_setError]
    constructor
    · intro h
      refine ⟨fun _ => h, fun other hother hnone hrecord => ?_, fun _ hnone => ?_⟩
      · exact absurd hrecord (hindex other hother hnone)
      · exact absurd (hrefuses.symm.trans hnone) (by simp)
    · exact fun h => h.refused (by simp [hrefuses])
  · rw [if_neg hmatch] at hrefuses hfaults
    rw [hrefuses, endsProperly_none, hfaults]
    constructor
    · intro h
      refine ⟨fun hne => absurd hrefuses hne, fun other hother hnone hrecord => ?_, ?_⟩
      · exact absurd hrecord (hindex other hother hnone)
      · intro hcount _ hneg
        have hor := fun hor => h ⟨Option.some.inj hcount, hneg, hor⟩
        exact ⟨by simpa using fun hasserts => hor (.inl hasserts), fun hnone => hor (.inr hnone)⟩
    · rintro h ⟨rfl, hneg, hor⟩
      obtain ⟨hasserts, hstmt⟩ := h.count rfl hrefuses hneg
      rcases hor with hor | hor
      · exact absurd (hor.symm.trans hasserts) (by decide)
      · exact hstmt hor

theorem setRecord_endsProperly_iff (hearly : d.refusedEarly (some fld) = none)
    (hloc : (getfield fld).loc = .record) :
    EndsProperly (d.refuses recnum (some fld) val buflen)
        (d.setRecord asserts recnum fld val text buflen) ↔
      SetSafely asserts d recnum (some fld) val buflen := by
  have hcount : some fld ≠ some .count := by
    intro heq
    obtain rfl := Option.some.inj heq
    exact absurd hloc (by decide)
  have hrefuses : d.refuses recnum (some fld) val buflen =
      if recnum < 1 ∧ d.stmt.any (fun stmt => !stmt.bookmarks) = true then some .invalidIndex
      else refusedLate fld val buflen := by
    simp only [refuses, hearly, hloc]
  have hsafely : SetSafely asserts d recnum (some fld) val buflen ↔
      (d.refuses recnum (some fld) val buflen ≠ none → d.stmt ≠ none) ∧
        (recnum < 1 → d.stmt ≠ none ∧ (d.bookmarksOn →
          asserts = false ∧ (recnum = 0 ∨ refusedLate fld val buflen ≠ none))) := by
    constructor
    · exact fun h => ⟨h.refused, h.index fld rfl hearly hloc⟩
    · rintro ⟨hrefused, hindex⟩
      refine ⟨hrefused, fun other hother _ _ => ?_, fun heq => absurd heq hcount⟩
      obtain rfl := Option.some.inj hother
      exact hindex
  have hfaults : Faults (d.setRecord asserts recnum fld val text buflen) ↔ _ :=
    setRecord_faults_iff
  rw [hsafely, hrefuses]
  unfold EndsProperly
  rw [hfaults]
  constructor
  · rintro ⟨hnot, -⟩
    refine ⟨fun hne hnone => hnot (.inl ⟨hnone, ?_⟩), fun hlt => ⟨fun hnone => ?_, fun hon => ?_⟩⟩
    · by_contra hneither
      rw [not_or, not_not] at hneither
      rw [if_neg (fun h => hneither.1 h.1)] at hne
      exact hne hneither.2
    · exact hnot (.inl ⟨hnone, .inl hlt⟩)
    · refine ⟨?_, ?_⟩
      · by_contra hasserts
        exact hnot (.inr ⟨hlt, hon, .inl (by simpa using hasserts)⟩)
      · by_contra hneither
        rw [not_or, not_not] at hneither
        exact hnot (.inr ⟨hlt, hon, .inr hneither⟩)
  · rintro ⟨hrefused, hindex⟩
    refine ⟨?_, fun e he => ?_⟩
    · rintro (⟨hnone, hor⟩ | ⟨hlt, hon, hor⟩)
      · rcases hor with hlt | hlate
        · exact (hindex hlt).1 hnone
        · refine hrefused ?_ hnone
          split_ifs
          · simp
          · exact hlate
      · obtain ⟨hasserts, hzero⟩ := (hindex hlt).2 hon
        rcases hor with hor | ⟨hne, hlate⟩
        · exact absurd (hor.symm.trans hasserts) (by decide)
        · exact hzero.elim hne fun hsome => hsome hlate
    · have hstmt := hrefused (by simp [he])
      by_cases hlt : recnum < 1
      · obtain ⟨stmt, hsome⟩ := Option.ne_none_iff_exists'.mp hstmt
        rw [setRecord_of_lt hlt hsome]
        rw [hsome] at he
        cases hbookmarks : stmt.bookmarks with
        | false =>
          rw [if_pos ⟨hlt, by simp [hbookmarks]⟩] at he
          obtain rfl := Option.some.inj he
          exact ⟨d, rfl⟩
        | true =>
          rw [if_neg (by simp [hbookmarks])] at he
          obtain ⟨hasserts, -⟩ := (hindex hlt).2 ⟨stmt, hsome, hbookmarks⟩
          simp [hasserts, he]
      · rw [if_neg fun h => hlt h.1] at he
        rw [setRecord_of_pos (not_lt.mp hlt), he]
        refine ⟨d.expandTo recnum.toNat, ?_⟩
        exact if_pos (Option.isSome_iff_ne_none.mpr hstmt)

/-- What cannot be done: the error that a call of `MySQLGetDescField` has to end in. -/
def refusesRead (d : Desc) (recnum : ℤ) (fldid : Option DescField) (buflen : ℤ) :
    Option DescError :=
  if d.isIrd ∧ d.stmt.any (fun stmt => !stmt.prepared) then some .HY007
  else
    match fldid with
    | none => some .HY091
    | some fld =>
      if d.permits P_RI P_RA (getfield fld) = false then some .HY091
      else
        match d.source recnum fld with
        | .error e => some e
        | .ok _ => if typeMatches (getfield fld) buflen = false then some .HY015 else none

/-- A call of `MySQLGetDescField` does without what may not be there: the statement of an
`IRD`, and the entry of a field identifier in the table. -/
structure ReadSafely (d : Desc) (fldid : Option DescField) : Prop where
  statement : d.isIrd = true → d.stmt ≠ none
  known : fldid = none → d.isIrd = true ∧ d.stmt.any (fun stmt => !stmt.prepared) = true

theorem getField_endsProperly_iff :
    EndsProperly (d.refusesRead recnum fldid buflen) (d.getField recnum fldid buflen) ↔
      ReadSafely d fldid := by
  by_cases hstmt : d.isIrd = true ∧ d.stmt = none
  · have hresult : d.getField recnum fldid buflen = .error .nullStmt := by
      unfold getField
      rw [if_pos hstmt]
    rw [hresult]
    constructor
    · exact fun h => absurd (faults_error.mpr (by decide)) h.1
    · exact fun h => absurd hstmt.2 (h.statement hstmt.1)
  have hsome : d.isIrd = true → d.stmt ≠ none := fun hird hnone => hstmt ⟨hird, hnone⟩
  have hsafely : ReadSafely d fldid ↔
      (fldid = none → d.isIrd = true ∧ d.stmt.any (fun stmt => !stmt.prepared) = true) :=
    ⟨fun h => h.known, fun h => ⟨hsome, h⟩⟩
  rw [hsafely]
  unfold refusesRead getField
  rw [if_neg hstmt]
  by_cases hunprepared : d.isIrd = true ∧ d.stmt.any (fun stmt => !stmt.prepared) = true
  · rw [if_pos hunprepared, if_pos hunprepared]
    refine ⟨fun _ _ => hunprepared, fun _ => ⟨not_faults_ok, fun e he => ⟨none, ?_⟩⟩⟩
    obtain rfl := Option.some.inj he
    rfl
  · rw [if_neg hunprepared, if_neg hunprepared]
    cases fldid with
    | none =>
      refine ⟨fun h => absurd (faults_error.mpr (by decide)) h.1, fun h => ?_⟩
      exact absurd (h rfl) hunprepared
    | some fld =>
      refine ⟨fun _ hnone => (by cases hnone), fun _ => ?_⟩
      by_cases hpermits : d.permits P_RI P_RA (getfield fld) = false
      · simp only [if_pos hpermits]
        refine ⟨not_faults_ok, fun e he => ⟨none, ?_⟩⟩
        obtain rfl := Option.some.inj he
        rfl
      · simp only [if_neg hpermits]
        cases d.source recnum fld with
        | error e =>
          refine ⟨not_faults_ok, fun other hother => ⟨none, ?_⟩⟩
          obtain rfl := Option.some.inj hother
          rfl
        | ok src =>
          dsimp only
          split_ifs with hmatch
          · refine ⟨not_faults_ok, fun e he => ⟨none, ?_⟩⟩
            obtain rfl := Option.some.inj he
            rfl
          · exact ⟨not_faults_ok, by simp⟩

/-- When `desc_get_rec`, `MySQLGetDescField` and `DESC::set_field` end properly. -/
theorem descriptorAccess_endsProperly_iff (asserts : Bool) (d : Desc) :
    (∀ recnum expand, ¬ Faults (d.getRec asserts recnum expand) ↔
      (recnum < 0 → asserts = false ∧ d.stmt ≠ none ∧
        (recnum = -1 → d.bookmarksOn → expand = false → d.bookmark2 ≠ []))) ∧
    (∀ recnum fldid buflen,
      EndsProperly (d.refusesRead recnum fldid buflen) (d.getField recnum fldid buflen) ↔
        ReadSafely d fldid) ∧
    ∀ recnum fldid val text buflen,
      EndsProperly (d.refuses recnum fldid val buflen)
          (d.setField asserts recnum fldid val text buflen) ↔
        SetSafely asserts d recnum fldid val buflen := by
  refine ⟨fun recnum expand => ?_, fun recnum fldid buflen => getField_endsProperly_iff,
    fun recnum fldid val text buflen => ?_⟩
  · rw [getRec_faults_iff]
    constructor
    · intro h hneg
      refine ⟨?_, fun hnone => h ⟨hneg, .inr (.inl hnone)⟩, fun hone hon hexpand hnil => ?_⟩
      · by_contra hasserts
        exact h ⟨hneg, .inl (by simpa using hasserts)⟩
      · exact h ⟨hneg, .inr (.inr ⟨hone, hon, hexpand, hnil⟩)⟩
    · rintro h ⟨hneg, hor⟩
      obtain ⟨hasserts, hstmt, hbookmark⟩ := h hneg
      rcases hor with hor | hor | ⟨hone, hon, hexpand, hnil⟩
      · exact absurd (hor.symm.trans hasserts) (by decide)
      · exact hstmt hor
      · exact hbookmark hone hon hexpand hnil
  · cases hearly : d.refusedEarly fldid with
    | some e =>
      have hrefuses : d.refuses recnum fldid val buflen = some e := by
        simp only [refuses, hearly]
      rw [setField_of_refusedEarly hearly, hrefuses, endsProperly_setError]
      constructor
      · intro h
        refine ⟨fun _ => h, fun fld _ hnone => ?_, fun _ hnone => ?_⟩
        · exact absurd (hearly.symm.trans hnone) (by simp)
        · exact absurd (hrefuses.symm.trans hnone) (by simp)
      · exact fun h => h.refused (by simp [hrefuses])
    | none =>
      obtain ⟨fld, rfl⟩ := exists_of_refusedEarly hearly
      rw [setField_of_accepted hearly]
      cases hloc : (getfield fld).loc with
      | header => exact setHeader_endsProperly_iff hearly hloc
      | record => exact setRecord_endsProperly_iff hearly hloc

/-- A row descriptor is asked for a field that does not exist, and for its bookmark record
with assertions; and a descriptor that the application has allocated is given a field of a
record 0. -/
theorem descriptorAccess_unknownField_not_endsProperly :
    ¬ EndsProperly ((new (some ⟨false, false⟩) 1 .app .row).refusesRead 1 none (-6))
        ((new (some ⟨false, false⟩) 1 .app .row).getField 1 none (-6)) ∧
      Faults ((new (some ⟨true, false⟩) 1 .app .row).getRec true (-1) true) ∧
      Faults ((new none 2 .app .unknown).setField false 0 (some .type) 4 [] (-8)) := by
  refine ⟨fun h => h.1 ⟨.nullField, rfl, by decide⟩, ⟨.assertion, rfl, by decide⟩, ?_⟩
  exact ⟨.nullStmt, rfl, by decide⟩

end Desc

end MatrixOdbc.Driver
