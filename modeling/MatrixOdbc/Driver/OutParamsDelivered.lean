import MatrixOdbc.Driver.BitColumn

/-!
# Output parameters are delivered

When `ssps_get_out_params` hands the columns of its row to the output parameters in order,
each converted once, and sets the lengths and indicators. A `BIT` column is converted once
for each input parameter in front of its own, and a length is only ever copied from an
indicator.
-/

namespace MatrixOdbc.Driver

open OutColumn

/-- The pointer that an event stores a length at. -/
def OutParamEvent.stored : OutParamEvent → Option ℕ
  | .getData _ _ _ _ pcbValue _ _ _ => pcbValue
  | .copyLength _ octetLengthPtr => some octetLengthPtr
  | .streamLength octetLengthPtr _ => some octetLengthPtr

/-- An output parameter gets a column: a buffer gets its value, and the length and the
indicator are stored where they are bound; a stream gets its length. -/
def OutParam.Delivers (param : OutParam) (bindOffset counter : ℕ) (column : OutColumn)
    (events : List OutParamEvent) : Prop :=
  match ptrOffsetAdjust param.dataPtr bindOffset with
  | none => events = []
  | some target =>
    if param.isStream then
      ∀ octet, ptrOffsetAdjust param.octetLengthPtr bindOffset = some octet →
        events = [.streamLength octet column.length]
    else
      .getData counter param.conciseType target param.octetLength
          (ptrOffsetAdjust param.indicatorPtr bindOffset) column.isNull column.value
          column.length ∈ events ∧
        ∀ pointer, ptrOffsetAdjust param.octetLengthPtr bindOffset = some pointer ∨
            ptrOffsetAdjust param.indicatorPtr bindOffset = some pointer →
          ∃ event ∈ events, event.stored = some pointer

/-- The column of a parameter: the number of output parameters in front of it. -/
def columnOf (params : List OutParam) (i : ℕ) : ℕ := (params.take i).countP OutParam.isOut

/-- The column of each output parameter, converted once, is delivered to it, nothing is
done for the input parameters, and no write is outside a column's buffer. -/
def RowToParams (bindOffset : ℕ) (described params : List OutParam) (columns : List OutColumn) :
    Prop :=
  ∃ result, sspsGetOutParams bindOffset described params columns = some result ∧
    ∀ i param, described[i]? = some param →
      (param.isOut = true → ∀ column, columns[columnOf described i]? = some column →
        param.Delivers bindOffset (columnOf described i) column.convert
          (result.events.getD i [])) ∧
      (param.isOut = false → result.events.getD i [] = [])

/-- The input parameters since the last output parameter. -/
def countInputs (inputs : ℕ) (params : List OutParam) : ℕ :=
  params.foldl (fun inputs param => if param.isOut then 0 else inputs + 1) inputs

/-- The number of input parameters directly in front of a parameter. -/
def inputsBefore (params : List OutParam) (i : ℕ) : ℕ := countInputs 0 (params.take i)

/-- The columns from the counter on, the first of them looked at several times. -/
def lookedAt (looks : ℕ) : List OutColumn → List OutColumn
  | [] => []
  | column :: columns => convert^[looks] column :: columns

theorem lookedAt_zero (columns : List OutColumn) : lookedAt 0 columns = columns := by
  cases columns <;> rfl

theorem columnOf_succ (param : OutParam) (params : List OutParam) (i : ℕ) :
    columnOf (param :: params) (i + 1) = columnOf params i + if param.isOut then 1 else 0 := by
  rw [columnOf, List.take_succ_cons, List.countP_cons, columnOf]

/-- The loop hands each output parameter its column, converted once more than there are
input parameters in front of it. -/
theorem outParamsLoop_eq (bindOffset : ℕ) (params : List OutParam) (front columns : List OutColumn)
    (looks : ℕ) (hcolumns : ∀ column ∈ columns, column.Fits) :
    ∃ result, outParamsLoop bindOffset params (front ++ lookedAt looks columns) front.length =
        some result ∧
      ∀ i param, params[i]? = some param →
        (param.isOut = true → ∀ column, columns[columnOf params i]? = some column →
          result.1.getD i [] = param.events bindOffset (front.length + columnOf params i)
            (convert^[countInputs looks (params.take i) + 1] column)) ∧
        (param.isOut = false → result.1.getD i [] = []) := by
  induction params generalizing front columns looks with
  | nil => exact ⟨([], front ++ lookedAt looks columns), rfl, by simp⟩
  | cons param params ih =>
    cases columns with
    | nil =>
      refine ⟨([], front), ?_, ?_⟩
      · simp [outParamsLoop, lookedAt]
      · simp
    | cons column columns =>
      have hfits : column.Fits := hcolumns column List.mem_cons_self
      have hlooked := (hfits.iterate_fields looks).1
      have hrest : ∀ column ∈ columns, column.Fits := fun c hc =>
        hcolumns c (List.mem_cons_of_mem _ hc)
      have hprepared : (convert^[looks] column).prepared = some (convert^[looks + 1] column) := by
        rw [hlooked.prepared, Function.iterate_succ_apply']
      have hhead : (front ++ lookedAt looks (column :: columns))[front.length]? =
          some (convert^[looks] column) := by
        simp [lookedAt]
      have hset : (front ++ lookedAt looks (column :: columns)).set front.length
          (convert^[looks + 1] column) = front ++ convert^[looks + 1] column :: columns := by
        simp [lookedAt]
      rw [outParamsLoop, hhead]
      simp only [hprepared, hset]
      cases hout : param.isOut with
      | true =>
        obtain ⟨result, hresult, hevents⟩ :=
          ih (front ++ [convert^[looks + 1] column]) columns 0 hrest
        rw [lookedAt_zero, List.append_assoc, List.singleton_append, List.length_append,
          List.length_singleton] at hresult
        rw [hresult]
        refine ⟨_, rfl, ?_⟩
        intro i param' hi
        cases i with
        | zero =>
          obtain rfl : param = param' := by simpa using hi
          refine ⟨?_, ?_⟩
          · intro _ column' hcolumn'
            obtain rfl : column = column' := by simpa [columnOf] using hcolumn'
            rfl
          · intro hin
            rw [hin] at hout
            exact nomatch hout
        | succ i =>
          obtain ⟨hdelivered, hnothing⟩ := hevents i param' (by simpa using hi)
          refine ⟨?_, ?_⟩
          · intro hout' column' hcolumn'
            rw [columnOf_succ, hout, if_pos rfl, List.getElem?_cons_succ] at hcolumn'
            have hevent := hdelivered hout' column' hcolumn'
            rw [List.length_append, List.length_singleton, Nat.add_assoc, Nat.add_comm 1] at hevent
            rw [columnOf_succ, hout, if_pos rfl, List.take_succ_cons, countInputs, List.foldl_cons,
              hout, if_pos rfl]
            exact hevent
          · exact hnothing
      | false =>
        obtain ⟨result, hresult, hevents⟩ := ih front (column :: columns) (looks + 1) hcolumns
        rw [lookedAt] at hresult
        rw [hresult]
        refine ⟨_, rfl, ?_⟩
        intro i param' hi
        cases i with
        | zero =>
          obtain rfl : param = param' := by simpa using hi
          refine ⟨?_, fun _ => rfl⟩
          intro hout'
          rw [hout] at hout'
          exact nomatch hout'
        | succ i =>
          obtain ⟨hdelivered, hnothing⟩ := hevents i param' (by simpa using hi)
          refine ⟨?_, ?_⟩
          · intro hout' column' hcolumn'
            rw [columnOf_succ, hout] at hcolumn' ⊢
            rw [List.take_succ_cons, countInputs, List.foldl_cons, hout]
            exact hdelivered hout' column' hcolumn'
          · exact hnothing

/-- Some parameters take columns as soon as one of them does. -/
theorem gotOutParameters_eq (params : List OutParam) :
    ((gotOutParameters params).1 || (gotOutParameters params).2) = params.any OutParam.isOut := by
  unfold gotOutParameters
  induction params with
  | nil => rfl
  | cons param params ih =>
    simp only [List.any_cons] at ih ⊢
    rw [← ih]
    unfold OutParam.isOut OutParam.isStream
    cases param.parameterType <;> simp

/-- What is done for a parameter is right exactly when the value is that of one conversion,
and a length that is bound comes with an indicator. -/
theorem events_delivers_iff (param : OutParam) (bindOffset counter again : ℕ) {column : OutColumn}
    (h : column.FromServer) :
    param.Delivers bindOffset counter column.convert
        (param.events bindOffset counter (convert^[again + 1] column)) ↔
      (param.dataPtr ≠ none → param.isStream = false →
        (again = 0 ∨ column.bit = false ∨ column.number = 0) ∧
          (param.octetLengthPtr ≠ none → param.indicatorPtr ≠ none)) := by
  obtain ⟨-, hnull, hlength⟩ := h.1.iterate_fields again
  rw [← h.iterate_value again]
  generalize convert^[again + 1] column = last at hnull hlength ⊢
  generalize column.convert = once at hnull hlength ⊢
  have hvalue : once.value = last.value ↔ last.value = once.value := eq_comm
  unfold OutParam.Delivers OutParam.events
  cases hdata : param.dataPtr with
  | none => simp [ptrOffsetAdjust]
  | some data =>
    cases hstream : param.isStream with
    | true =>
      cases hoctet : param.octetLengthPtr with
      | none => simp [ptrOffsetAdjust]
      | some octet => simp [ptrOffsetAdjust, hlength]
    | false =>
      cases hoctet : param.octetLengthPtr with
      | none =>
        cases hindicator : param.indicatorPtr with
        | none => simp [ptrOffsetAdjust, hlength, hnull, hvalue]
        | some indicator =>
          simp [ptrOffsetAdjust, hlength, hnull, hvalue, OutParamEvent.stored]
      | some octet =>
        cases hindicator : param.indicatorPtr with
        | none => simp [ptrOffsetAdjust, hlength, hnull, OutParamEvent.stored]
        | some indicator =>
          by_cases hsame : octet = indicator
          · simp [ptrOffsetAdjust, hlength, hnull, hvalue, OutParamEvent.stored, hsame]
          · simp [ptrOffsetAdjust, hlength, hnull, hvalue, OutParamEvent.stored, hsame]
            exact fun _ pointer hpointer => hpointer.symm

/-- What `ssps_get_out_params` does for the parameters of the `CALL`. -/
theorem sspsGetOutParams_eq (bindOffset : ℕ) (described more : List OutParam)
    (columns : List OutColumn) (hcolumns : ∀ column ∈ columns, column.Fits) :
    ∃ result, sspsGetOutParams bindOffset described (described ++ more) columns = some result ∧
      ∀ i param, described[i]? = some param →
        (param.isOut = true → ∀ column, columns[columnOf described i]? = some column →
          result.events.getD i [] = param.events bindOffset (columnOf described i)
            (convert^[inputsBefore described i + 1] column)) ∧
        (param.isOut = false → result.events.getD i [] = []) := by
  unfold sspsGetOutParams
  simp only [gotOutParameters_eq]
  cases hany : described.any OutParam.isOut with
  | false =>
    refine ⟨_, rfl, ?_⟩
    intro i param hi
    refine ⟨?_, fun _ => rfl⟩
    intro hout
    have hin := List.any_eq_false.mp hany param (List.mem_of_getElem? hi)
    exact absurd hout hin
  | true =>
    obtain ⟨loop, hloop, hevents⟩ :=
      outParamsLoop_eq bindOffset (described ++ more) [] columns 0 hcolumns
    rw [lookedAt_zero, List.nil_append, List.length_nil] at hloop
    rw [if_pos rfl, hloop]
    refine ⟨_, rfl, ?_⟩
    intro i param hi
    have hinside : i < described.length := (List.getElem?_eq_some_iff.mp hi).1
    have htake : (described ++ more).take i = described.take i := List.take_append_of_le_length hinside.le
    have hi' : (described ++ more)[i]? = some param := by
      rw [List.getElem?_append_left hinside]
      exact hi
    have hparam := hevents i param hi'
    rw [columnOf, htake, List.length_nil, Nat.zero_add] at hparam
    exact hparam

/-- The row is delivered exactly when no `BIT` column of a bound output parameter, other
than a zero, has an input parameter directly in front of its own, and every length that is
bound for a bound output parameter comes with an indicator. -/
theorem rowToParams_iff (bindOffset : ℕ) (described more : List OutParam) (columns : List OutColumn)
    (hserver : ∀ column ∈ columns, column.FromServer) :
    RowToParams bindOffset described (described ++ more) columns ↔
      ∀ i param column, described[i]? = some param → param.isOut = true →
        param.isStream = false → param.dataPtr ≠ none →
        columns[columnOf described i]? = some column →
        (inputsBefore described i = 0 ∨ column.bit = false ∨ column.number = 0) ∧
          (param.octetLengthPtr ≠ none → param.indicatorPtr ≠ none) := by
  obtain ⟨result, hresult, hevents⟩ := sspsGetOutParams_eq bindOffset described more columns
    fun column hc => (hserver column hc).1
  constructor
  · rintro ⟨result', hresult', hdelivered⟩ i param column hi hout hstream hdata hcolumn
    rw [hresult] at hresult'
    obtain rfl := Option.some.inj hresult'
    have hparam := (hdelivered i param hi).1 hout column hcolumn
    rw [(hevents i param hi).1 hout column hcolumn] at hparam
    have hiff := events_delivers_iff param bindOffset (columnOf described i)
      (inputsBefore described i) (hserver column (List.mem_of_getElem? hcolumn))
    exact hiff.mp hparam hdata hstream
  · intro hright
    refine ⟨result, hresult, ?_⟩
    intro i param hi
    refine ⟨?_, (hevents i param hi).2⟩
    intro hout column hcolumn
    rw [(hevents i param hi).1 hout column hcolumn]
    have hiff := events_delivers_iff param bindOffset (columnOf described i)
      (inputsBefore described i) (hserver column (List.mem_of_getElem? hcolumn))
    exact hiff.mpr fun hdata hstream => hright i param column hi hout hstream hdata hcolumn

/-- A `BIT` column with the text `7` behind an input parameter. -/
def bitSeven : OutColumn := ⟨true, 8, false, 0x37 :: List.replicate 29 0, 1⟩

/-- An output parameter whose length and indicator are bound together. -/
def boundOutput : OutParam := ⟨.output, some 100, some 200, some 200, -2, 8⟩

/-- An input parameter. -/
def boundInput : OutParam := ⟨.input, some 300, none, none, 1, 8⟩

theorem bitSeven_fromServer : bitSeven.FromServer :=
  ⟨fun _ => by decide, fun _ => by decide⟩

/-- An output parameter in front of an input parameter gets its value. -/
theorem delivered_output_first :
    RowToParams 0 [boundOutput, boundInput] ([boundOutput, boundInput] ++ []) [bitSeven] := by
  apply (rowToParams_iff 0 [boundOutput, boundInput] [] [bitSeven]
    (by simpa using bitSeven_fromServer)).mpr
  intro i param column hi hout _ _ _
  match i with
  | 0 =>
    obtain rfl : boundOutput = param := by simpa using hi
    exact ⟨Or.inl rfl, nofun⟩
  | 1 =>
    obtain rfl : boundInput = param := by simpa using hi
    exact nomatch hout
  | _ + 2 => exact nomatch hi

/-- Behind an input parameter it gets what the byte `7` reads as. -/
theorem bit_behind_input_not_delivered :
    ¬ ∀ (bindOffset : ℕ) (described more : List OutParam) (columns : List OutColumn),
      (∀ column ∈ columns, column.FromServer) →
        RowToParams bindOffset described (described ++ more) columns := by
  intro hall
  obtain ⟨result, hresult, hparams⟩ := hall 0 [boundInput, boundOutput] [] [bitSeven]
    (by simpa using bitSeven_fromServer)
  have hrun : (sspsGetOutParams 0 [boundInput, boundOutput] ([boundInput, boundOutput] ++ [])
      [bitSeven]).map OutParamsResult.events =
        some [[], [.getData 0 (-2) 100 8 (some 200) false [0] 1]] := by
    decide
  rw [hresult] at hrun
  have hevents : result.events = [[], [.getData 0 (-2) 100 8 (some 200) false [0] 1]] :=
    Option.some.inj hrun
  have hdelivers := (hparams 1 boundOutput rfl).1 rfl bitSeven rfl
  rw [hevents] at hdelivers
  have hvalue := hdelivers.1
  revert hvalue
  decide

end MatrixOdbc.Driver
