import MatrixOdbc.Driver.DataAtExec

/-!
# The data of one execution

What the calls between `SQLExecute` and the last `SQLParamData` make of the chunks that
are put. A record is followed by its value, which is missing as long as the record has
no memory; the records are followed by the list of requests that are still to come.
-/

namespace MatrixOdbc.Driver

open Util

namespace ApdRec

variable {r : ApdRec} {puts : List Put}

/-- What a put makes of the value of a record. -/
def putValue (conciseType : ℤ) (value : Option (List UInt8)) (p : Put) : Option (List UInt8) :=
  if p.isNull then value.map fun _ => [] else TempBuf.accumulate value (p.chunk conciseType)

/-- What a request and its answer make of a record. -/
def fill (puts : List Put) (r : ApdRec) : ApdRec := puts.foldl put r.ask

/-- The fields of a record that belong to the application. -/
structure SameBinding (r r' : ApdRec) : Prop where
  conciseType : r'.conciseType = r.conciseType
  dataPtr : r'.dataPtr = r.dataPtr
  indicator : r'.indicator = r.indicator
  octetLength : r'.octetLength = r.octetLength
  realParamDone : r'.realParamDone = r.realParamDone

theorem SameBinding.refl (r : ApdRec) : SameBinding r r := ⟨rfl, rfl, rfl, rfl, rfl⟩

theorem SameBinding.trans {r r' r'' : ApdRec} (h : SameBinding r r') (h' : SameBinding r' r'') :
    SameBinding r r'' where
  conciseType := h'.conciseType.trans h.conciseType
  dataPtr := h'.dataPtr.trans h.dataPtr
  indicator := h'.indicator.trans h.indicator
  octetLength := h'.octetLength.trans h.octetLength
  realParamDone := h'.realParamDone.trans h.realParamDone

theorem SameBinding.isDataAtExec {r r' : ApdRec} (h : SameBinding r r') :
    r'.isDataAtExec = r.isDataAtExec := by
  rw [ApdRec.isDataAtExec, h.octetLength, ← ApdRec.isDataAtExec]

theorem parReset_sameBinding (r : ApdRec) : SameBinding r r.parReset := ⟨rfl, rfl, rfl, rfl, rfl⟩

theorem ask_sameBinding (r : ApdRec) : SameBinding r r.ask := ⟨rfl, rfl, rfl, rfl, rfl⟩

theorem put_sameBinding (r : ApdRec) (p : Put) : SameBinding r (r.put p) := by
  unfold put
  split
  · exact .refl r
  · split <;> exact ⟨rfl, rfl, rfl, rfl, rfl⟩

theorem foldl_put_sameBinding (r : ApdRec) (puts : List Put) :
    SameBinding r (puts.foldl put r) := by
  induction puts generalizing r with
  | nil => exact .refl r
  | cons p puts ih => exact (r.put_sameBinding p).trans (ih (r.put p))

theorem fill_sameBinding (puts : List Put) (r : ApdRec) : SameBinding r (r.fill puts) :=
  r.ask_sameBinding.trans (foldl_put_sameBinding r.ask puts)

/-- A put changes the value of the record as `putValue` says. -/
theorem value_put (r : ApdRec) (p : Put) :
    (r.put p).tempbuf.value = putValue r.conciseType r.tempbuf.value p := by
  unfold put putValue
  by_cases hrejected : p.rejected
  · have hnull : p.isNull = false := by
      revert hrejected
      cases h : p.rgbValue <;> simp [Put.rejected, Put.isNull, h]
    simp [hrejected, hnull, Put.chunk, TempBuf.accumulate]
  · by_cases hnull : p.isNull <;> simp [hrejected, hnull, parReset, TempBuf.value_addToBuffer]

theorem value_foldl_put (r : ApdRec) (puts : List Put) :
    (puts.foldl put r).tempbuf.value = puts.foldl (putValue r.conciseType) r.tempbuf.value := by
  induction puts generalizing r with
  | nil => rfl
  | cons p puts ih =>
    rw [List.foldl_cons, List.foldl_cons, ih, value_put, (r.put_sameBinding p).conciseType]

/-- The value with which the first chunk of an answer is met. -/
def startValue (r : ApdRec) : Option (List UInt8) := r.tempbuf.buf.map fun _ => []

theorem value_fill (r : ApdRec) (puts : List Put) :
    (r.fill puts).tempbuf.value = puts.foldl (putValue r.conciseType) r.startValue := by
  have hstart : r.ask.tempbuf.value = r.startValue := by
    cases hbuf : r.tempbuf.buf <;>
      simp [ask, parReset, startValue, TempBuf.value, TempBuf.reset, hbuf]
  rw [fill, value_foldl_put, hstart, r.ask_sameBinding.conciseType]

/-- There is a value when there was memory, or when something has been added. -/
theorem isSome_foldl_putValue (conciseType : ℤ) (value : Option (List UInt8)) (puts : List Put) :
    (puts.foldl (putValue conciseType) value).isSome ↔
      value.isSome ∨ ∃ p ∈ puts, p.chunk conciseType ≠ [] := by
  induction puts generalizing value with
  | nil => simp
  | cons p puts ih =>
    have hstep : (putValue conciseType value p).isSome ↔
        value.isSome ∨ p.chunk conciseType ≠ [] := by
      unfold putValue TempBuf.accumulate
      by_cases hnull : p.isNull
      · simp [hnull, Put.chunk]
      · by_cases hchunk : p.chunk conciseType = [] <;> simp [hnull, hchunk]
    rw [List.foldl_cons, ih, hstep]
    simp [or_assoc]

/-- Without `SQL_NULL_DATA` the chunks are strung together. -/
theorem getD_foldl_putValue {conciseType : ℤ} (value : Option (List UInt8))
    (hnull : puts.any Put.isNull = false) :
    (puts.foldl (putValue conciseType) value).getD [] =
      value.getD [] ++ (puts.map fun p => p.chunk conciseType).flatten := by
  induction puts generalizing value with
  | nil => simp
  | cons p puts ih =>
    simp only [List.any_cons, Bool.or_eq_false_iff] at hnull
    have hstep : (putValue conciseType value p).getD [] = value.getD [] ++ p.chunk conciseType := by
      by_cases hchunk : p.chunk conciseType = [] <;>
        simp [putValue, TempBuf.accumulate, hnull.1, hchunk]
    rw [List.foldl_cons, ih _ hnull.2, hstep]
    simp

end ApdRec

/-- The value that an answer stands for: `NULL` when `SQL_NULL_DATA` was put, else the
chunks in their order. -/
def assembled (conciseType : ℤ) (puts : List Put) : ParamValue :=
  if puts.any Put.isNull then .null
  else .data (puts.map fun p => p.chunk conciseType).flatten

/-- The answers for which the record of the parameter gives the value they stand for. -/
def Assembles (sspsUsed : Bool) (r : ApdRec) (puts : List Put) : Prop :=
  if puts.any Put.isNull then
    r.indicator = some sqlNullData ∨
      (sspsUsed ∧ r.tempbuf.buf = none ∧ ∀ p ∈ puts, p.chunk r.conciseType = [])
  else
    r.indicator ≠ some sqlNullData ∧
      (r.tempbuf.buf ≠ none ∨ ∃ p ∈ puts, p.chunk r.conciseType ≠ [])

/-- The value that `insert_param` finds in a record that wants data at execution. -/
theorem ApdRec.insertParamValue_dae {r : ApdRec} (h : r.isDataAtExec) (sspsUsed : Bool) :
    r.insertParamValue sspsUsed =
      if r.indicator = some sqlNullData then .null
      else r.tempbuf.value.elim (putDefaultValue sspsUsed) .data := by
  obtain ⟨n, hn, hdae⟩ := (Option.any_eq_true _ _).1 h
  have hlow : n = -2 ∨ n ≤ -100 := of_decide_eq_true hdae
  have hnts : n ≠ -3 := by omega
  have hignore : n ≠ -6 := by omega
  have hzero : n ≠ 0 := by omega
  unfold insertParamValue
  rw [hn, h]
  cases r.tempbuf.value <;> simp [sqlNts, sqlColumnIgnore, hnts, hignore, hzero]

/-- One parameter gets the value its answer stands for exactly under `Assembles`. -/
theorem ApdRec.fill_insertParamValue_iff {r : ApdRec} (h : r.isDataAtExec) (sspsUsed : Bool)
    (puts : List Put) :
    (r.fill puts).insertParamValue sspsUsed = assembled r.conciseType puts ↔
      Assembles sspsUsed r puts := by
  have hfill := r.fill_sameBinding puts
  have hsome := isSome_foldl_putValue r.conciseType r.startValue puts
  have hstart : r.startValue.isSome ↔ r.tempbuf.buf ≠ none := by
    simp [startValue, Option.isSome_iff_ne_none]
  have hempty : r.startValue.getD [] = [] := by cases hb : r.tempbuf.buf <;> simp [startValue, hb]
  rw [insertParamValue_dae (hfill.isDataAtExec.trans h), hfill.indicator, value_fill, assembled,
    Assembles]
  rw [hstart] at hsome
  by_cases hnull : puts.any Put.isNull
  · rw [if_pos hnull, if_pos hnull]
    by_cases hind : r.indicator = some sqlNullData
    · simp [hind]
    · rw [if_neg hind]
      cases hvalue : puts.foldl (putValue r.conciseType) r.startValue with
      | none =>
        have hno : r.tempbuf.buf = none ∧ ∀ p ∈ puts, p.chunk r.conciseType = [] := by
          simpa [hvalue] using hsome
        cases sspsUsed with
        | false => simp [putDefaultValue, hind]
        | true => simpa [putDefaultValue, hind, hno.1] using hno.2
      | some bytes =>
        have hyes : ¬(r.tempbuf.buf = none ∧ ∀ p ∈ puts, p.chunk r.conciseType = []) := by
          simpa [hvalue, imp_iff_not_or, or_comm] using hsome
        simp [hind, hyes]
  · have hvalue : (puts.foldl (putValue r.conciseType) r.startValue).getD [] = _ :=
      getD_foldl_putValue r.startValue (Bool.eq_false_iff.2 hnull)
    rw [if_neg hnull, if_neg hnull]
    by_cases hind : r.indicator = some sqlNullData
    · simp [hind]
    · rw [if_neg hind, ← hsome]
      rw [hempty, List.nil_append] at hvalue
      rw [← hvalue]
      cases puts.foldl (putValue r.conciseType) r.startValue with
      | none => cases sspsUsed <;> simp [putDefaultValue]
      | some bytes => simp [hind]

namespace DaeStmt

variable {s s' : DaeStmt} {answers : List (List Put)} {puts : List Put} {i : ℕ}

/-- The parameters for which data are still wanted when the search starts at `current`. -/
def requestsFrom (s : DaeStmt) (current : ℕ) : List ℕ :=
  (List.range' current (s.paramCount - current)).filter s.isDataAtExec

/-- The data-at-execution parameters of the statement. -/
def daeParams (s : DaeStmt) : List ℕ := (List.range s.paramCount).filter s.isDataAtExec

/-- The address that the application has bound to a parameter. -/
def token (s : DaeStmt) (i : ℕ) : Option ℕ := (s.apd[i]?).bind ApdRec.dataPtr

/-- The records with the answers put into them. -/
def fillRecords (apd : List ApdRec) (answered : List (ℕ × List Put)) : List ApdRec :=
  answered.foldl (fun apd a => apd.modify a.1 (ApdRec.fill a.2)) apd

/-- Nothing that belongs to the application differs. -/
structure SameBindings (s s' : DaeStmt) : Prop where
  paramCount : s'.paramCount = s.paramCount
  records : ∀ i : ℕ, Option.Rel ApdRec.SameBinding s.apd[i]? s'.apd[i]?

/-- A change of one record that leaves the bindings leaves all of them. -/
theorem sameBindings_modify {f : ApdRec → ApdRec} (hf : ∀ r, ApdRec.SameBinding r (f r))
    (hcount : s'.paramCount = s.paramCount) (hapd : s'.apd = s.apd.modify i f) :
    SameBindings s s' := by
  refine ⟨hcount, fun j => ?_⟩
  rw [hapd, List.getElem?_modify]
  cases hj : s.apd[j]? with
  | none => exact .none
  | some r =>
    by_cases hij : i = j
    · simpa [hij] using Option.Rel.some (hf r)
    · simpa [hij] using Option.Rel.some (ApdRec.SameBinding.refl r)

theorem SameBindings.refl (s : DaeStmt) : SameBindings s s := by
  refine ⟨rfl, fun i => ?_⟩
  cases s.apd[i]? with
  | none => exact .none
  | some r => exact .some (.refl r)

/-- What is read from a record through its binding only is read from both. -/
theorem SameBindings.congr {β : Type*} {f : Option ApdRec → β} (h : SameBindings s s')
    (hf : ∀ r r', ApdRec.SameBinding r r' → f (some r') = f (some r)) (i : ℕ) :
    f s'.apd[i]? = f s.apd[i]? := by
  have hrec := h.records i
  revert hrec
  generalize s.apd[i]? = record, s'.apd[i]? = record'
  rintro (hsame | _)
  · exact hf _ _ hsame
  · rfl

theorem SameBindings.isDataAtExec (h : SameBindings s s') : s'.isDataAtExec = s.isDataAtExec :=
  funext fun i => h.congr (f := Option.any ApdRec.isDataAtExec)
    (fun _ _ hsame => hsame.isDataAtExec) i

theorem SameBindings.token (h : SameBindings s s') : s'.token = s.token :=
  funext fun i => h.congr (f := (Option.bind · ApdRec.dataPtr)) (fun _ _ hsame => hsame.dataPtr) i

theorem SameBindings.requestsFrom (h : SameBindings s s') (current : ℕ) :
    s'.requestsFrom current = s.requestsFrom current := by
  rw [DaeStmt.requestsFrom, DaeStmt.requestsFrom, h.paramCount, h.isDataAtExec]

/-- No record is missing where the next request is searched for: in front of every parameter
without a record there is one that wants data. -/
def NoneMissing (s : DaeStmt) : Prop :=
  ∀ i, s.currentParam ≤ i → i < s.paramCount → s.apd.length ≤ i →
    ∃ j, s.currentParam ≤ j ∧ j < i ∧ s.isDataAtExec j

/-- The search goes over the records as long as there are some. -/
theorem searchDaeParam_range' (s : DaeStmt) (n current : ℕ) :
    ((∀ i, current ≤ i → i < current + n → s.apd.length ≤ i →
        ∃ j, current ≤ j ∧ j < i ∧ s.isDataAtExec j) →
      searchDaeParam s.apd (List.range' current n) =
        some ((List.range' current n).find? s.isDataAtExec)) ∧
    ((∃ i, current ≤ i ∧ i < current + n ∧ s.apd.length ≤ i ∧
        ∀ j, current ≤ j → j < i → ¬ s.isDataAtExec j) →
      searchDaeParam s.apd (List.range' current n) = none) := by
  induction n generalizing current with
  | zero => exact ⟨fun _ => rfl, fun ⟨i, hle, hlt, _⟩ => absurd hlt (by omega)⟩
  | succ n ih =>
    obtain ⟨hsome, hnone⟩ := ih (current + 1)
    rw [List.range'_succ, searchDaeParam, List.find?_cons]
    cases hr : s.apd[current]? with
    | none =>
      have hlength : s.apd.length ≤ current := List.getElem?_eq_none_iff.1 hr
      refine ⟨fun h => ?_, fun _ => rfl⟩
      obtain ⟨j, hle, hlt, -⟩ := h current le_rfl (by omega) hlength
      omega
    | some r =>
      have hlength : current < s.apd.length := (List.getElem?_eq_some_iff.1 hr).1
      have hdae : s.isDataAtExec current = r.isDataAtExec := by rw [isDataAtExec, hr]; rfl
      rw [Option.bind_some, hdae]
      by_cases hr' : r.isDataAtExec
      · rw [if_pos hr', hr']
        refine ⟨fun _ => rfl, ?_⟩
        rintro ⟨i, hle, hlt, hmissing, hno⟩
        exact absurd (hdae.trans hr') (hno current le_rfl (by omega))
      · rw [if_neg hr', Bool.eq_false_iff.2 hr']
        refine ⟨fun h => hsome fun i hle hlt hmissing => ?_, ?_⟩
        · obtain ⟨j, hj, hlt', hdae'⟩ := h i (by omega) (by omega) hmissing
          obtain rfl | hne := eq_or_ne j current
          · exact absurd (hdae.symm.trans hdae') hr'
          · exact ⟨j, by omega, hlt', hdae'⟩
        · rintro ⟨i, hle, hlt, hmissing, hno⟩
          exact hnone ⟨i, by omega, by omega, hmissing, fun j hj => hno j (by omega)⟩

/-- The search finds the first of the requests that are still to come, if no record is missing. -/
theorem findNextDaeParam_eq_head? (h : s.NoneMissing) :
    s.findNextDaeParam = some (s.requestsFrom s.currentParam).head? := by
  rw [findNextDaeParam, requestsFrom, List.head?_filter]
  refine (searchDaeParam_range' s _ _).1 fun i hle hlt hmissing => ?_
  exact h i hle (by omega) hmissing

/-- Where a record is missing the search has no result. -/
theorem findNextDaeParam_of_missing (h : ¬ s.NoneMissing) : s.findNextDaeParam = none := by
  unfold NoneMissing at h
  push Not at h
  obtain ⟨i, hle, hlt, hmissing, hno⟩ := h
  exact (searchDaeParam_range' s _ _).2 ⟨i, hle, by omega, hmissing, hno⟩

/-- With a record for every parameter none is missing. -/
theorem noneMissing_of_le (h : s.paramCount ≤ s.apd.length) : s.NoneMissing :=
  fun _ _ hlt hmissing => absurd hlt (by omega)

/-- The requests from a parameter of the statement on. -/
theorem requestsFrom_succ {current : ℕ} (h : current < s.paramCount) :
    s.requestsFrom current =
      if s.isDataAtExec current then current :: s.requestsFrom (current + 1)
      else s.requestsFrom (current + 1) := by
  obtain ⟨n, hn⟩ := Nat.exists_eq_add_of_lt h
  have hcount : s.paramCount - current = n + 1 := by omega
  have hrest : s.paramCount - (current + 1) = n := by omega
  rw [requestsFrom, hcount, List.range'_succ, List.filter_cons, requestsFrom, hrest]

/-- A parameter that wants no data is no request. -/
theorem requestsFrom_skip {current : ℕ} (h : ¬s.isDataAtExec current) :
    s.requestsFrom current = s.requestsFrom (current + 1) := by
  by_cases hlt : current < s.paramCount
  · rw [requestsFrom_succ hlt, if_neg h]
  · have hnone : s.paramCount - current = 0 := by omega
    have hnone' : s.paramCount - (current + 1) = 0 := by omega
    simp [requestsFrom, hnone, hnone']

/-- Behind the first request stand those from its successor on. -/
theorem requestsFrom_cons {current : ℕ} (h : (s.requestsFrom current).head? = some i) :
    s.requestsFrom current = i :: s.requestsFrom (i + 1) := by
  obtain ⟨n, hn⟩ : ∃ n, n = s.paramCount - current := ⟨_, rfl⟩
  induction n generalizing current with
  | zero => simp [requestsFrom, ← hn] at h
  | succ n ih =>
    by_cases hcurrent : s.isDataAtExec current
    · rw [requestsFrom_succ (by omega), if_pos hcurrent] at h ⊢
      obtain rfl : current = i := by simpa using h
      rfl
    · rw [requestsFrom_skip hcurrent] at h ⊢
      exact ih h (by omega)

/-- When no parameter before `current` wants data, all requests are still to come. -/
theorem requestsFrom_eq_daeParams {current : ℕ} (h : ∀ j < current, ¬s.isDataAtExec j) :
    s.requestsFrom current = s.daeParams := by
  induction current with
  | zero => rw [requestsFrom, daeParams, List.range_eq_range', Nat.sub_zero]
  | succ current ih =>
    rw [← requestsFrom_skip (h current (Nat.lt_succ_self _))]
    exact ih fun j hj => h j (Nat.lt_succ_of_lt hj)

/-- What is put goes to the record that was asked for last. -/
theorem foldlM_putData (hdae : s.daeNormal) (hcurrent : s.currentParam = i + 1) :
    puts.foldlM putData s =
      some { s with apd := s.apd.modify i fun r => puts.foldl ApdRec.put r } := by
  induction puts generalizing s with
  | nil =>
    have hid : s.apd.modify i (fun r => r) = s.apd := List.modify_id i s.apd
    simp [hid]
  | cons p puts ih =>
    have hput : s.putData p = some { s with apd := s.apd.modify i (ApdRec.put · p) } := by
      by_cases hrejected : p.rejected
      · have hid : s.apd.modify i (fun r => r) = s.apd := List.modify_id i s.apd
        simp [putData, ApdRec.put, hrejected, hid]
      · simp [putData, hdae, hcurrent, hrejected]
    rw [List.foldlM_cons, hput, Option.bind_eq_bind, Option.bind_some,
      ih (by simpa using hdae) (by simpa using hcurrent)]
    simp [List.modify_modify_eq, Function.comp_def]

/-- One request with its answer. -/
theorem answerRequests_cons (hdae : s.daeNormal) (hnext : s.findNextDaeParam = some (some i)) :
    answerRequests (puts :: answers) s =
      (answerRequests answers
        { s with apd := s.apd.modify i (ApdRec.fill puts), currentParam := i + 1 }).map
          fun rest => (s.token i :: rest.1, rest.2) := by
  have hparam : s.paramData = some (.needData (s.token i),
      { s with apd := s.apd.modify i ApdRec.ask, currentParam := i + 1 }) := by
    simp [paramData, hdae, hnext, token]
  have hfill : (s.apd.modify i ApdRec.ask).modify i (fun r => puts.foldl ApdRec.put r) =
      s.apd.modify i (ApdRec.fill puts) := by
    rw [List.modify_modify_eq]
    rfl
  rw [answerRequests, hparam, Option.bind_some]
  simp only
  rw [foldlM_putData (i := i) (by exact hdae) rfl, Option.bind_some, hfill]

/-- All requests with their answers: they come in the order of the parameters, and the
statement is executed with the answers in the records. -/
theorem answerRequests_eq (hdae : s.daeNormal) (hrecords : s.paramCount ≤ s.apd.length)
    (hlength : answers.length = (s.requestsFrom s.currentParam).length) :
    ∃ s', answerRequests answers s = some ((s.requestsFrom s.currentParam).map s.token,
      .executed (insertParams { s with
        apd := fillRecords s.apd ((s.requestsFrom s.currentParam).zip answers) }), s') := by
  induction answers generalizing s with
  | nil =>
    have hnone : s.requestsFrom s.currentParam = [] := List.length_eq_zero_iff.1 hlength.symm
    have hnext : s.findNextDaeParam = some none := by
      rw [findNextDaeParam_eq_head? (noneMissing_of_le hrecords), hnone, List.head?_nil]
    exact ⟨_, by simp [answerRequests, paramData, hdae, hnext, hnone, fillRecords, insertParams]; rfl⟩
  | cons puts answers ih =>
    obtain ⟨i, hi⟩ : ∃ i, (s.requestsFrom s.currentParam).head? = some i := by
      cases hrequests : s.requestsFrom s.currentParam with
      | nil => simp [hrequests] at hlength
      | cons i rest => exact ⟨i, rfl⟩
    have hrequests := requestsFrom_cons hi
    obtain ⟨t, ht⟩ : ∃ t : DaeStmt, t = { s with
        apd := s.apd.modify i (ApdRec.fill puts), currentParam := i + 1 } := ⟨_, rfl⟩
    have hsame : SameBindings s t :=
      sameBindings_modify (ApdRec.fill_sameBinding puts) (by rw [ht]) (by rw [ht])
    have hleft : t.requestsFrom t.currentParam = s.requestsFrom (i + 1) := by
      rw [hsame.requestsFrom, ht]
    obtain ⟨s', hstep⟩ := ih (s := t) (by rw [ht]; exact hdae)
      (by rw [ht]; simpa using hrecords) (by
        rw [hleft]
        simpa [hrequests] using hlength)
    rw [hleft, hsame.token] at hstep
    have hnext : s.findNextDaeParam = some (some i) :=
      (findNextDaeParam_eq_head? (noneMissing_of_le hrecords)).trans (congrArg some hi)
    refine ⟨s', ?_⟩
    rw [answerRequests_cons hdae hnext, ← ht, hrequests, hstep, Option.map_some, List.map_cons, ht]
    rfl

/-- Where a parameter has no record the requests end at a null pointer. -/
theorem answerRequests_of_missing (hdae : s.daeNormal) (hmissing : s.apd.length < s.paramCount)
    (hcurrent : s.currentParam ≤ s.apd.length)
    (hlength : answers.length = (s.requestsFrom s.currentParam).length) :
    answerRequests answers s = none := by
  induction answers generalizing s with
  | nil =>
    have hnone : ¬ s.NoneMissing := by
      intro h
      obtain ⟨j, hle, hlt, hj⟩ := h s.apd.length hcurrent hmissing le_rfl
      have hmem : j ∈ s.requestsFrom s.currentParam :=
        List.mem_filter.2 ⟨List.mem_range'_1.2 ⟨hle, by omega⟩, hj⟩
      rw [List.length_eq_zero_iff.1 hlength.symm] at hmem
      cases hmem
    rw [answerRequests, paramData, if_pos hdae, findNextDaeParam_of_missing hnone]
    rfl
  | cons puts answers ih =>
    by_cases hnone : s.NoneMissing
    · obtain ⟨i, hi⟩ : ∃ i, (s.requestsFrom s.currentParam).head? = some i := by
        cases hrequests : s.requestsFrom s.currentParam with
        | nil => simp [hrequests] at hlength
        | cons i rest => exact ⟨i, rfl⟩
      have hrequests := requestsFrom_cons hi
      have hlt : i < s.apd.length := by
        have hidae : s.isDataAtExec i := (List.mem_filter.1 (List.mem_of_mem_head? hi)).2
        by_contra hge
        simp [isDataAtExec, List.getElem?_eq_none (Nat.le_of_not_lt hge)] at hidae
      obtain ⟨t, ht⟩ : ∃ t : DaeStmt, t = { s with
          apd := s.apd.modify i (ApdRec.fill puts), currentParam := i + 1 } := ⟨_, rfl⟩
      have hsame : SameBindings s t :=
        sameBindings_modify (ApdRec.fill_sameBinding puts) (by rw [ht]) (by rw [ht])
      have hrest : answerRequests answers t = none := by
        refine ih (by rw [ht]; exact hdae) (by rw [ht]; simpa using hmissing)
          (by rw [ht]; simpa using Nat.succ_le_of_lt hlt) ?_
        rw [hsame.requestsFrom, ht]
        simpa [hrequests] using hlength
      rw [answerRequests_cons hdae ((findNextDaeParam_eq_head? hnone).trans (congrArg some hi)),
        ← ht, hrest]
      rfl
    · rw [answerRequests, paramData, if_pos hdae, findNextDaeParam_of_missing hnone]
      rfl

/-- The parameters of the statement have records that have been bound. -/
def Bound (s : DaeStmt) : Prop := ∀ i < s.paramCount, (s.apd[i]?).any ApdRec.realParamDone

/-- What a complete exchange owes the application: every parameter that wants data is
asked for once, in order, then the statement is executed, and it is executed with the
values that the answers stand for. -/
structure Owed (s : DaeStmt) (answers : List (List Put))
    (exchange : List (Option ℕ) × DaeReply × DaeStmt) : Prop where
  asked : exchange.1 = s.daeParams.map s.token
  done : ∃ values, exchange.2.1 = .executed values
  values : ∀ values, exchange.2.1 = .executed (some values) →
    ∀ answer ∈ s.daeParams.zip answers, ∀ r, s.apd[answer.1]? = some r →
      values[answer.1]? = some (assembled r.conciseType answer.2)

/-- The exchange comes to its end and gives the application what it is owed. -/
def Delivered (s : DaeStmt) (answers : List (List Put)) : Prop :=
  ∃ exchange, answerRequests answers s.execute.2 = some exchange ∧ s.Owed answers exchange

/-- Records that are not answered stay. -/
theorem fillRecords_of_notMem {answered : List (ℕ × List Put)} {apd : List ApdRec}
    (h : i ∉ answered.map Prod.fst) : (fillRecords apd answered)[i]? = apd[i]? := by
  induction answered generalizing apd with
  | nil => rfl
  | cons a answered ih =>
    simp only [List.map_cons, List.mem_cons, not_or] at h
    rw [fillRecords, List.foldl_cons, ← fillRecords, ih h.2,
      List.getElem?_modify_ne _ _ (Ne.symm h.1)]

/-- A record that is answered once is filled once. -/
theorem fillRecords_of_mem {answered : List (ℕ × List Put)} {apd : List ApdRec}
    (hnodup : (answered.map Prod.fst).Nodup) (h : (i, puts) ∈ answered) :
    (fillRecords apd answered)[i]? = (apd[i]?).map (ApdRec.fill puts) := by
  induction answered generalizing apd with
  | nil => simp at h
  | cons a answered ih =>
    rw [List.map_cons, List.nodup_cons] at hnodup
    rw [fillRecords, List.foldl_cons, ← fillRecords]
    obtain rfl | hmem := List.mem_cons.1 h
    · rw [fillRecords_of_notMem hnodup.1, List.getElem?_modify_eq]
      rfl
    · have hne : a.1 ≠ i := by
        rintro rfl
        exact hnodup.1 (List.mem_map.2 ⟨_, hmem, rfl⟩)
      rw [ih hnodup.2 hmem, List.getElem?_modify_ne _ _ hne]

/-- The answers change no binding. -/
theorem sameBindings_fillRecords {answered : List (ℕ × List Put)}
    (hnodup : (answered.map Prod.fst).Nodup) (s : DaeStmt) :
    SameBindings s { s with apd := fillRecords s.apd answered } := by
  refine ⟨rfl, fun i => ?_⟩
  have hrecord : Option.Rel ApdRec.SameBinding s.apd[i]? (fillRecords s.apd answered)[i]? := by
    by_cases hmem : i ∈ answered.map Prod.fst
    · obtain ⟨⟨j, puts⟩, hanswer, rfl⟩ := List.mem_map.1 hmem
      rw [fillRecords_of_mem hnodup hanswer]
      cases s.apd[j]? with
      | none => exact .none
      | some r => exact .some (ApdRec.fill_sameBinding puts r)
    · rw [fillRecords_of_notMem hmem]
      exact (SameBindings.refl s).records i
  exact hrecord

/-- The check of `insert_params` for all parameters. -/
theorem bound_iff : s.Bound ↔ (s.apd.take s.paramCount).length = s.paramCount ∧
    (s.apd.take s.paramCount).all ApdRec.realParamDone := by
  constructor
  · intro h
    have hlength : s.paramCount ≤ s.apd.length := by
      by_contra hlt
      have hlast := h s.apd.length (by omega)
      simp at hlast
    refine ⟨by rw [List.length_take]; omega, List.all_eq_true.2 fun r hr => ?_⟩
    obtain ⟨i, hi⟩ := List.mem_iff_getElem?.1 hr
    by_cases hlt : i < s.paramCount
    · rw [List.getElem?_take_of_lt hlt] at hi
      simpa [hi] using h i hlt
    · rw [List.getElem?_take_eq_none (Nat.le_of_not_lt hlt)] at hi
      contradiction
  · rintro ⟨hlength, hall⟩ i hi
    have hlt : i < s.apd.length := by
      rw [List.length_take] at hlength
      omega
    have hmem : s.apd[i] ∈ s.apd.take s.paramCount :=
      List.mem_iff_getElem?.2 ⟨i, by rw [List.getElem?_take_of_lt hi, List.getElem?_eq_getElem hlt]⟩
    simpa [hlt] using List.all_eq_true.1 hall _ hmem

/-- `insert_params` succeeds exactly when all parameters are bound. -/
theorem insertParams_eq_some_iff {values : List ParamValue} :
    s.insertParams = some values ↔
      s.Bound ∧ (s.apd.take s.paramCount).map (ApdRec.insertParamValue · s.sspsUsed) = values := by
  rw [insertParams, DaeStmt.bound_iff]
  simp

/-- The bindings decide whether all parameters are bound. -/
theorem SameBindings.bound (h : SameBindings s s') : s'.Bound ↔ s.Bound := by
  have hany (i : ℕ) : (s'.apd[i]?).any ApdRec.realParamDone = (s.apd[i]?).any _ :=
    h.congr (f := Option.any ApdRec.realParamDone) (fun _ _ hsame => hsame.realParamDone) i
  simp only [Bound, hany, h.paramCount]

/-- The statement as `SQLExecute` leaves it when it stops for data: the search will meet
every parameter that wants some. -/
theorem execute_needData (h : s.execute.1 = .needData none) :
    s.execute.2.daeNormal ∧ s.execute.2.apd = s.apd.map ApdRec.parReset ∧
      s.execute.2.sspsUsed = s.sspsUsed ∧ s.execute.2.paramCount = s.paramCount ∧
      s.execute.2.currentParam < s.apd.length ∧
      ∀ j < s.execute.2.currentParam, ¬s.isDataAtExec j := by
  unfold execute at h ⊢
  by_cases hcount : s.resetParams.paramCount = 0
  · simp [hcount] at h
  simp only [hcount, if_false] at h ⊢
  cases hfind : s.resetParams.apd.findIdx? ApdRec.isDataAtExec with
  | none => simp [hfind] at h
  | some d =>
    obtain ⟨hlt, -, hbefore⟩ := List.findIdx?_eq_some_iff_getElem.1 hfind
    refine ⟨rfl, rfl, rfl, rfl, by simpa [resetParams] using hlt, fun j hj => ?_⟩
    have hj' := hbefore j hj
    have hlength : j < s.apd.length := by
      simp only [resetParams, List.length_map] at hlt
      exact hj.trans hlt
    simpa [resetParams, isDataAtExec, hlength, ApdRec.isDataAtExec, ApdRec.parReset] using hj'

/-- An execution that stops for data changes no binding. -/
theorem sameBindings_execute (h : s.execute.1 = .needData none) : SameBindings s s.execute.2 := by
  obtain ⟨-, hapd, -, hcount, -⟩ := execute_needData h
  refine ⟨hcount, fun i => ?_⟩
  rw [hapd, List.getElem?_map]
  cases s.apd[i]? with
  | none => exact .none
  | some r => exact .some r.parReset_sameBinding

/-- The exchange as a whole: the requests are the parameters that want data, in order, and
the statement is executed with the answers in the records. -/
theorem answerRequests_execute (hneed : s.execute.1 = .needData none)
    (hrecords : s.paramCount ≤ s.apd.length)
    (hlength : answers.length = s.daeParams.length) :
    ∃ s', answerRequests answers s.execute.2 = some (s.daeParams.map s.token,
      .executed (insertParams { s.execute.2 with
        apd := fillRecords s.execute.2.apd (s.daeParams.zip answers) }), s') := by
  obtain ⟨hdae, hapd, -, hcount, -, hbefore⟩ := execute_needData hneed
  have hsame := sameBindings_execute hneed
  have hrequests : s.execute.2.requestsFrom s.execute.2.currentParam = s.daeParams := by
    rw [hsame.requestsFrom, requestsFrom_eq_daeParams hbefore]
  have hrun := @answerRequests_eq s.execute.2 answers hdae
    (by rw [hcount, hapd, List.length_map]; exact hrecords) (by rw [hrequests]; exact hlength)
  rwa [hrequests, hsame.token] at hrun

/-- With a parameter that has no record the exchange ends at a null pointer. -/
theorem not_delivered_of_missing (hneed : s.execute.1 = .needData none)
    (hmissing : s.apd.length < s.paramCount) (hlength : answers.length = s.daeParams.length) :
    ¬ s.Delivered answers := by
  obtain ⟨hdae, hapd, -, hcount, hcurrent, hbefore⟩ := execute_needData hneed
  have hrequests : s.execute.2.requestsFrom s.execute.2.currentParam = s.daeParams := by
    rw [(sameBindings_execute hneed).requestsFrom, requestsFrom_eq_daeParams hbefore]
  have hnone : answerRequests answers s.execute.2 = none := answerRequests_of_missing hdae
    (by rw [hcount, hapd, List.length_map]; exact hmissing)
    (by rw [hapd, List.length_map]; exact hcurrent.le) (by rw [hrequests]; exact hlength)
  rintro ⟨exchange, hexchange, -⟩
  rw [hnone] at hexchange
  cases hexchange

/-- Every parameter has a record, and every answer meets its record in a state that suits it, or
nothing is sent. -/
def Suited (s : DaeStmt) (answers : List (List Put)) : Prop :=
  s.paramCount ≤ s.apd.length ∧
    (s.Bound → ∀ answer ∈ s.daeParams.zip answers, ∀ r, s.apd[answer.1]? = some r →
      Assembles s.sspsUsed r answer.2)

/-- One execution delivers what was put exactly when every parameter has a record, and one of
them is not bound, so that nothing is sent, or every answer meets its record in a state that suits
it. -/
theorem execute_delivers_iff (s : DaeStmt) (answers : List (List Put))
    (hneed : s.execute.1 = .needData none) (hlength : answers.length = s.daeParams.length) :
    s.Delivered answers ↔ s.Suited answers := by
  obtain hrecords | hmissing := Nat.lt_or_ge s.apd.length s.paramCount |>.symm
  swap
  · exact iff_of_false (not_delivered_of_missing hneed hmissing hlength)
      fun h => absurd h.1 (by omega)
  obtain ⟨s', hexchange⟩ := answerRequests_execute hneed hrecords hlength
  obtain ⟨-, hapd, hssps, hcount, -, -⟩ := execute_needData hneed
  have hfirst : (s.daeParams.zip answers).map Prod.fst = s.daeParams :=
    List.map_fst_zip hlength.ge
  have hnodup : ((s.daeParams.zip answers).map Prod.fst).Nodup := by
    rw [hfirst]
    exact List.nodup_range.filter _
  obtain ⟨t, ht⟩ : ∃ t : DaeStmt, t = { s.execute.2 with
      apd := fillRecords s.execute.2.apd (s.daeParams.zip answers) } := ⟨_, rfl⟩
  rw [← ht] at hexchange
  have hbound : t.Bound ↔ s.Bound := by
    rw [ht, (sameBindings_fillRecords hnodup s.execute.2).bound, (sameBindings_execute hneed).bound]
  have hvalue : ∀ answer ∈ s.daeParams.zip answers, ∀ r, s.apd[answer.1]? = some r →
      ((t.apd.take t.paramCount).map (ApdRec.insertParamValue · t.sspsUsed))[answer.1]? =
        some ((r.parReset.fill answer.2).insertParamValue s.sspsUsed) := by
    rintro ⟨i, puts⟩ hmem r hr
    have hi : i ∈ s.daeParams := hfirst ▸ List.mem_map_of_mem hmem
    have hlt : i < t.paramCount := by
      rw [ht]
      exact hcount ▸ List.mem_range.1 (List.mem_filter.1 hi).1
    have hrecord : t.apd[i]? = some (r.parReset.fill puts) := by
      rw [ht, fillRecords_of_mem hnodup hmem, hapd, List.getElem?_map, hr]
      rfl
    rw [List.getElem?_map, List.getElem?_take_of_lt hlt, hrecord, ht, ← hssps]
    rfl
  have hdae : ∀ answer ∈ s.daeParams.zip answers, ∀ r, s.apd[answer.1]? = some r →
      r.isDataAtExec := by
    rintro ⟨i, puts⟩ hmem r hr
    have hi : i ∈ s.daeParams := hfirst ▸ List.mem_map_of_mem hmem
    simpa [isDataAtExec, hr] using (List.mem_filter.1 hi).2
  rw [Delivered, hexchange]
  simp only [Option.some_inj, exists_eq_left']
  constructor
  · refine fun howed => ⟨hrecords, fun hb answer hmem r hr => ?_⟩
    have hsent : t.insertParams = some _ := insertParams_eq_some_iff.2 ⟨hbound.2 hb, rfl⟩
    have hgot := howed.values _ (congrArg DaeReply.executed hsent) answer hmem r hr
    rw [hvalue answer hmem r hr] at hgot
    have hdae' : r.parReset.isDataAtExec := hdae answer hmem r hr
    exact (ApdRec.fill_insertParamValue_iff hdae' s.sspsUsed answer.2).1 (Option.some.inj hgot)
  · intro h
    refine ⟨rfl, ⟨_, rfl⟩, fun values hvalues answer hmem r hr => ?_⟩
    obtain ⟨hb, rfl⟩ := insertParams_eq_some_iff.1 (DaeReply.executed.inj hvalues)
    have hdae' : r.parReset.isDataAtExec := hdae answer hmem r hr
    have hassembles : Assembles s.sspsUsed r.parReset answer.2 := h.2 (hbound.1 hb) answer hmem r hr
    rw [hvalue answer hmem r hr]
    exact congrArg some ((ApdRec.fill_insertParamValue_iff hdae' s.sspsUsed answer.2).2 hassembles)

/-- An execution that stops for data and gets an answer for every parameter. -/
def Complete (s : DaeStmt) (answers : List (List Put)) : Prop :=
  s.execute.1 = .needData none ∧ answers.length = s.daeParams.length

/-- What a call needs to have a result: data are put while they are wanted, and no record is
missing where the next parameter is searched for. -/
def Call.Safe (s : DaeStmt) : Call → Prop
  | .paramData => s.daeNormal → s.NoneMissing
  | .putData p => p.rejected = false → s.daeNormal
  | _ => True

/-- Each of some calls has what it needs by then. -/
def CallsSafe : List Call → DaeStmt → Prop
  | [], _ => True
  | c :: calls, s => c.Safe s ∧ ∀ s', step s c = some s' → CallsSafe calls s'

/-- The calls come to their end. -/
def CallsEnd (calls : List Call) (s : DaeStmt) : Prop := (calls.foldlM step s).isSome

/-- A call has a result exactly if it has what it needs. -/
theorem isSome_step_iff (s : DaeStmt) (c : Call) : (step s c).isSome ↔ c.Safe s := by
  cases c with
  | paramData =>
    rw [step, Option.isSome_map, paramData, Call.Safe]
    by_cases hdae : s.daeNormal
    · rw [if_pos hdae, Option.isSome_map]
      by_cases hnone : s.NoneMissing
      · rw [findNextDaeParam_eq_head? hnone]
        exact iff_of_true rfl fun _ => hnone
      · rw [findNextDaeParam_of_missing hnone]
        exact iff_of_false Bool.false_ne_true fun h => hnone (h hdae)
    · rw [if_neg hdae]
      exact iff_of_true rfl fun h => absurd h hdae
  | putData p =>
    rw [step, putData, Call.Safe]
    by_cases hrejected : p.rejected
    · simp [hrejected]
    · by_cases hdae : s.daeNormal
      · rw [if_neg hrejected, if_pos hdae]
        refine iff_of_true ?_ fun _ => hdae
        split_ifs <;> rfl
      · simp [hrejected, hdae]
  | _ => exact iff_of_true rfl trivial

/-- Calls come to their end exactly if each has what it needs. -/
theorem callsEnd_iff (calls : List Call) (s : DaeStmt) : CallsEnd calls s ↔ CallsSafe calls s := by
  induction calls generalizing s with
  | nil => exact iff_of_true rfl trivial
  | cons c calls ih =>
    rw [CallsEnd, List.foldlM_cons, CallsSafe, ← isSome_step_iff]
    cases hstep : step s c with
    | none => simp
    | some s' => simpa [CallsEnd] using ih s'

/-- A run of executions, each completed and with any calls before it, comes to the end of these
calls and delivers every value exactly when each of the calls has what it needs, and the answers of
every execution suit the records as they are by then. -/
theorem executions_deliver_iff (s : DaeStmt) (episodes : List Episode)
    (hcomplete : AtEveryExecution (fun _ _ => True) Complete episodes s) :
    AtEveryExecution CallsEnd Delivered episodes s ↔
      AtEveryExecution CallsSafe Suited episodes s := by
  induction episodes generalizing s with
  | nil => exact Iff.rfl
  | cons e episodes ih =>
    refine and_congr (callsEnd_iff e.calls s) (forall₂_congr fun s' hs' => ?_)
    obtain ⟨⟨hneed, hlength⟩, hrest⟩ := hcomplete.2 s' hs'
    exact and_congr (execute_delivers_iff _ _ hneed hlength)
      (forall₂_congr fun exchange hexchange => ih _ (hrest exchange hexchange))

/-- A statement with one parameter that has just been prepared. -/
def onePlaceholder : DaeStmt := ⟨[newRecord], 1, 0, false, false⟩

/-- Two executions: the first puts two bytes, the second `SQL_NULL_DATA`. -/
def bytesThenNull : List Episode :=
  [⟨[.bindParameter 0 1 (some 7) (some sqlDataAtExec)], [[⟨some [97, 98], 2⟩]]⟩,
    ⟨[], [[⟨none, sqlNullData⟩]]⟩]

/-- The first of the two executions delivers what was put. -/
theorem executions_deliver_iff_bytes :
    AtEveryExecution CallsEnd Delivered (bytesThenNull.take 1) onePlaceholder := by
  have hcomplete : AtEveryExecution (fun _ _ => True) Complete (bytesThenNull.take 1)
      onePlaceholder := by
    refine ⟨trivial, fun s' hs' => ?_⟩
    cases hs'
    exact ⟨⟨by decide, by decide⟩, fun _ _ => trivial⟩
  apply (executions_deliver_iff onePlaceholder (bytesThenNull.take 1) hcomplete).2
  refine ⟨⟨trivial, fun _ _ => trivial⟩, fun s' hs' => ?_⟩
  cases hs'
  refine ⟨⟨by decide, fun _ answer hanswer r hr => ?_⟩, fun _ _ => trivial⟩
  obtain rfl : answer = (0, [⟨some [97, 98], 2⟩]) := List.mem_singleton.1 hanswer
  cases hr
  exact ⟨by decide, .inr ⟨⟨some [97, 98], 2⟩, List.mem_singleton_self _, by decide⟩⟩

/-- The second execution gets the empty text in place of `NULL`. -/
theorem executions_bytesThenNull_not_delivered :
    AtEveryExecution (fun _ _ => True) Complete bytesThenNull onePlaceholder ∧
      ¬AtEveryExecution CallsEnd Delivered bytesThenNull onePlaceholder := by
  constructor
  · refine ⟨trivial, fun s hs => ?_⟩
    cases hs
    refine ⟨⟨by decide, by decide⟩, fun exchange hexchange => ?_⟩
    cases hexchange
    refine ⟨trivial, fun s hs => ?_⟩
    cases hs
    exact ⟨⟨by decide, by decide⟩, fun _ _ => trivial⟩
  · rintro ⟨-, hfirst⟩
    obtain ⟨-, hsecond⟩ := (hfirst _ rfl).2 _ rfl
    obtain ⟨⟨exchange, hexchange, howed⟩, -⟩ := hsecond _ rfl
    cases hexchange
    have hvalues := howed.values [.data []] (by decide) (0, [⟨none, sqlNullData⟩])
      (List.mem_singleton_self _) _ rfl
    exact absurd hvalues (by decide)

end DaeStmt

end MatrixOdbc.Driver
