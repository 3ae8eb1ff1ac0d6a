import MatrixOdbc.Util.Installer

/-!
# Reading back a printed connection string

`to_kvpair` encloses a value in brackets when `value_needs_escaped` says so and
prints it as it is otherwise. `from_kvpair` gives a bracketed value back and
removes the outer blanks of a plain one. Blanks alone do not make a value need
brackets, so a value with outer blanks and no special character is not kept.
-/

namespace MatrixOdbc.Util

/-- The text has no blank at either end. -/
def NoOuterBlank (value : SQLWSTRING) : Prop :=
  value.head? ≠ some (wide ' ') ∧ value.getLast? ≠ some (wide ' ')

/-- Remove the blanks at both ends. -/
def trim (value : SQLWSTRING) : SQLWSTRING := (skipSpaces value).rdropWhile (· = wide ' ')

/-- The text that is stored for a printed value. -/
def readBack (value : SQLWSTRING) : SQLWSTRING :=
  if valueNeedsEscaped value then value else trim value

theorem charAt_append (pre rest : List SQLWCHAR) (i : ℕ) :
    charAt (pre ++ rest) (pre.length + i) = charAt rest i := by
  rw [← charAt_drop, List.drop_left]

theorem charAt_append_length (pre rest : List SQLWCHAR) :
    charAt (pre ++ rest) pre.length = charAt rest 0 := charAt_append pre rest 0

theorem exists_rdropWhile_append (value : SQLWSTRING) :
    ∃ trail, value = value.rdropWhile (· = wide ' ') ++ trail ∧ ∀ c ∈ trail, c = wide ' ' := by
  induction value using List.reverseRecOn with
  | nil => exact ⟨[], by simp⟩
  | append_singleton value c ih =>
    by_cases hc : c = wide ' '
    · obtain ⟨trail, heq, htrail⟩ := ih
      refine ⟨trail ++ [c], ?_, ?_⟩
      · rw [List.rdropWhile_concat_pos _ _ _ (by simpa using hc), ← List.append_assoc, ← heq]
      · intro c' hc'
        rcases List.mem_append.mp hc' with hmem | hmem
        · exact htrail c' hmem
        · rw [List.mem_singleton.mp hmem, hc]
    · refine ⟨[], ?_, by simp⟩
      rw [List.rdropWhile_concat_neg _ _ _ (by simpa using hc), List.append_nil]

/-- A text is its trimmed form between blanks. -/
theorem exists_eq_trim (value : SQLWSTRING) :
    ∃ lead trail, value = lead ++ trim value ++ trail ∧ (∀ c ∈ lead, c = wide ' ') ∧
      ∀ c ∈ trail, c = wide ' ' := by
  obtain ⟨trail, heq, htrail⟩ := exists_rdropWhile_append (skipSpaces value)
  refine ⟨value.takeWhile (· = wide ' '), trail, ?_, ?_, htrail⟩
  · rw [trim, List.append_assoc, ← heq]
    exact (List.takeWhile_append_dropWhile).symm
  · intro c hc
    simpa using List.mem_takeWhile_imp hc

theorem trim_getLast?_ne (value : SQLWSTRING) : (trim value).getLast? ≠ some (wide ' ') := by
  intro h
  have hne : trim value ≠ [] := by
    intro hnil
    simp [hnil] at h
  have hlast := List.rdropWhile_last_not (fun c => decide (c = wide ' ')) (skipSpaces value) hne
  rw [List.getLast?_eq_some_getLast hne] at h
  exact hlast (by simpa [trim] using h)

theorem trim_head?_ne (value : SQLWSTRING) : (trim value).head? ≠ some (wide ' ') := by
  intro h
  obtain ⟨trail, heq, -⟩ := exists_rdropWhile_append (skipSpaces value)
  have hhead : (skipSpaces value).head? = some (wide ' ') := by
    rw [heq, List.head?_append, ← trim, h]
    rfl
  have := List.head?_dropWhile_not (fun c => decide (c = wide ' ')) value
  rw [← skipSpaces, hhead] at this
  simp at this

/-- A text is its own trimmed form exactly when it has no outer blanks. -/
theorem trim_eq_self_iff (value : SQLWSTRING) : trim value = value ↔ NoOuterBlank value := by
  constructor
  · intro h
    rw [← h]
    exact ⟨trim_head?_ne value, trim_getLast?_ne value⟩
  · rintro ⟨hhead, hlast⟩
    have hskip : skipSpaces value = value := by
      cases value with
      | nil => rfl
      | cons c value =>
        have hc : c ≠ wide ' ' := by simpa using hhead
        simp [skipSpaces, hc]
    rw [trim, hskip]
    cases value using List.reverseRecOn with
    | nil => rfl
    | append_singleton value c =>
      have hc : c ≠ wide ' ' := by simpa using hlast
      exact List.rdropWhile_concat_neg _ _ _ (by simpa using hc)

/-- On text without a NUL the closing bracket is the first undoubled one. -/
theorem findBracketEnd_of_closing {str : List SQLWCHAR} {k : ℕ} (hnul : 0 ∉ str)
    (h : Doubling.closing (wide '}') str = some k) : findBracketEnd str = some k := by
  induction str using findBracketEnd.induct generalizing k with
  | case1 => simp [Doubling.closing] at h
  | case2 => simpa [findBracketEnd, Doubling.closing] using h
  | case3 => simp_all [Doubling.closing]
  | case4 c' wstr => simp at hnul
  | case5 c c' wstr hc₀ hc ih =>
    rw [Doubling.closing_cons_of_ne hc] at h
    obtain ⟨j, hj, rfl⟩ := Option.map_eq_some_iff.mp h
    rw [findBracketEnd, if_neg hc₀, if_pos hc,
      ih (fun hmem => hnul (List.mem_cons_of_mem _ hmem)) hj]
    rfl
  | case6 => simp at hnul
  | case7 c c' wstr hc₀ hc hc'₀ hc' =>
    have hc := not_not.mp hc
    subst hc
    rw [Doubling.closing_self (by simpa using hc')] at h
    rw [findBracketEnd, if_neg hc₀, if_neg (by simp), if_neg hc'₀, if_pos hc', h]
  | case8 c c' wstr hc₀ hc hc'₀ hc' hend =>
    have hc := not_not.mp hc
    have hc' := not_not.mp hc'
    subst hc hc'
    rw [Doubling.closing_pair] at h
    have hnil : wstr = [] := by
      cases wstr with
      | nil => rfl
      | cons c wstr => simp_all
    simp [hnil, Doubling.closing] at h
  | case9 c c' wstr hc₀ hc hc'₀ hc' hend ih =>
    have hc := not_not.mp hc
    have hc' := not_not.mp hc'
    subst hc hc'
    rw [Doubling.closing_pair] at h
    obtain ⟨j, hj, rfl⟩ := Option.map_eq_some_iff.mp h
    have hrest : 0 ∉ wstr := fun hmem => hnul (by simp [hmem])
    rw [findBracketEnd, if_neg hc₀, if_neg (by simp), if_neg hc'₀, if_neg (by simp),
      if_neg hend, ih hrest hj]
    rfl

/-- In front of `=` stands exactly the keyword. -/
theorem keyword_append {name body : SQLWSTRING} (hname : KeywordOk name) :
    keyword (name ++ wide '=' :: body) name.length = name := by
  rw [keyword, List.take_left, List.rdropWhile_eq_self_iff]
  intro hne
  have hmem : wide ' ' ∉ name := hname.notMem (by decide)
  have hlast : name.getLast hne ≠ wide ' ' := fun h => hmem (h ▸ List.getLast_mem hne)
  simpa using hlast

theorem valueStart_append (name body : SQLWSTRING) :
    valueStart (name ++ wide '=' :: body) name.length =
      name.length + 1 + (body.takeWhile (· = wide ' ')).length := by
  have hdrop : (name ++ wide '=' :: body).drop (name.length + 1) = body := by
    rw [← List.drop_drop, List.drop_left]
    rfl
  rw [valueStart, hdrop]

/-- One iteration at an entry, with the places where the entry is split. -/
theorem fromKvpairBody_entry {name body : SQLWSTRING} (hname : KeywordOk name) (ds : DataSource)
    (inBounds : Bool) {start stop stop' : ℕ} {ds' : DataSource} {fits : Bool}
    (hstart : start = valueStart (name ++ wide '=' :: body) name.length)
    (hstop : stop = trimValueEnd (name ++ wide '=' :: body) start
      (valueStop (name ++ wide '=' :: body) (wide ';') start))
    (hstore : storeValue ds name (name ++ wide '=' :: body) start stop = (ds', stop', fits)) :
    fromKvpairBody (wide ';') ⟨ds, name ++ wide '=' :: body, inBounds⟩ =
      .next ⟨ds', skipDelims (wide ';') ((name ++ wide '=' :: body).drop stop'),
        inBounds && fits⟩ := by
  have hnul : 0 ∉ name := hname.notMem (by decide)
  have hequal : wide '=' ∉ name := hname.notMem (by decide)
  have hblank : wide ' ' ∉ name := hname.notMem (by decide)
  have hfind : sqlwcharchr (name ++ wide '=' :: body) (wide '=') = some name.length :=
    sqlwcharchr_append _ (by decide) hnul hequal
  have hskip : skipSpaces (name ++ wide '=' :: body) = name ++ wide '=' :: body := by
    obtain ⟨c, tail, rfl⟩ := List.exists_cons_of_ne_nil hname.ne_nil
    have hc : c ≠ wide ' ' := fun h => hblank (by simp [h])
    simp [skipSpaces, hc]
  have hfirst : charAt (name ++ wide '=' :: body) 0 ≠ 0 := by
    obtain ⟨c, tail, rfl⟩ := List.exists_cons_of_ne_nil hname.ne_nil
    exact fun h => hnul (by simpa using Or.inl h.symm)
  have hlen : ¬ 1000 ≤ name.length := Nat.not_le.mpr hname.length_lt
  simp only [fromKvpairBody, hskip, hfind, Option.getD_some, Option.isNone_some, keyword_append hname,
    ← hstart, ← hstop, hstore, if_neg hfirst, if_neg hlen, Bool.false_eq_true, if_false]

/-- A bracketed value is split off at its brackets. -/
theorem bracketed_split {name value rest : SQLWSTRING} (hname : KeywordOk name)
    (hvalue : 0 ∉ value) (hrest : 0 ∉ rest) :
    let body := wide '{' :: (Doubling.double (wide '}') value ++ wide '}' :: wide ';' :: rest)
    let str := name ++ wide '=' :: body
    let stop := name.length + 2 + (Doubling.double (wide '}') value).length
    valueStart str name.length = name.length + 1 ∧
      valueStop str (wide ';') (name.length + 1) = stop ∧
      trimValueEnd str (name.length + 1) stop = stop ∧
      charAt str (name.length + 1) = wide '{' ∧ charAt str stop = wide '}' := by
  intro body str stop
  have hbody : str = (name ++ [wide '=', wide '{']) ++
      (Doubling.double (wide '}') value ++ wide '}' :: wide ';' :: rest) := by
    simp [str, body]
  have hstart : valueStart str name.length = name.length + 1 := by
    rw [valueStart_append]
    simp [body, wide]
  have hbrace : charAt str (name.length + 1) = wide '{' := by
    have := charAt_append name (wide '=' :: body) 1
    simpa [str, body] using this
  have hclose : charAt str stop = wide '}' := by
    have hlen : ((name ++ [wide '=', wide '{']) ++ Doubling.double (wide '}') value).length =
        stop := by
      simp only [List.length_append, List.length_cons, List.length_nil, stop]
    rw [hbody, ← List.append_assoc, ← hlen]
    exact charAt_append_length _ _
  have hnul : 0 ∉ str := by
    have hdouble := Doubling.notMem_double hvalue (show (0 : SQLWCHAR) ≠ wide '}' by decide)
    have hmarks : (0 : SQLWCHAR) ≠ wide '=' ∧ (0 : SQLWCHAR) ≠ wide '{' ∧
      (0 : SQLWCHAR) ≠ wide '}' ∧ (0 : SQLWCHAR) ≠ wide ';' := by decide
    simp [str, body, hname.notMem (c := 0) (by decide), hdouble, hrest, hmarks]
  have hclosing : Doubling.closing (wide '}') str = some stop := by
    have hpre : wide '}' ∉ name ++ [wide '=', wide '{'] := by
      simp [hname.notMem (c := wide '}') (by decide), show wide '}' ≠ wide '=' by decide,
        show wide '}' ≠ wide '{' by decide]
    rw [hbody, Doubling.closing_append hpre, Doubling.closing_double (by simp [wide])]
    simp [stop, Nat.add_comm]
  refine ⟨hstart, ?_, ?_, hbrace, hclose⟩
  · rw [valueStop, if_pos hbrace, findBracketEnd_of_closing hnul hclosing, Option.getD_some]
  · obtain ⟨k, hk⟩ : ∃ k, stop = k + 1 := Nat.exists_eq_add_of_le' (by simp only [stop]; omega)
    rw [hk, trimValueEnd, if_neg]
    rw [← hk, hclose]
    simp

/-- Trailing blanks in front of anything but a bracket are removed. -/
theorem trimValueEnd_blanks {str : List SQLWCHAR} {start stop n : ℕ} (hstart : start ≤ stop)
    (hblank : ∀ i < n, charAt str (stop + i) = wide ' ') (hend : charAt str (stop + n) ≠ wide '}') :
    trimValueEnd str start (stop + n) = trimValueEnd str start stop := by
  induction n with
  | zero => rfl
  | succ n ih =>
    have hlast : charAt str (stop + n) = wide ' ' := hblank n (Nat.lt_succ_self n)
    rw [← Nat.add_assoc] at hend ⊢
    rw [trimValueEnd, if_pos ⟨by omega, hlast, hend⟩]
    refine ih (fun i hi => hblank i (by omega)) ?_
    rw [hlast]
    decide

theorem trimValueEnd_eq_self {str : List SQLWCHAR} {start stop : ℕ}
    (h : stop = start ∨ charAt str (stop - 1) ≠ wide ' ') : trimValueEnd str start stop = stop := by
  cases stop with
  | zero => rfl
  | succ stop =>
    rw [trimValueEnd, if_neg]
    rintro ⟨hlt, hblank, -⟩
    rcases h with rfl | h
    · exact absurd hlt (lt_irrefl _)
    · exact h hblank

theorem takeWhile_blank_append (value rest : SQLWSTRING) :
    (value ++ wide ';' :: rest).takeWhile (· = wide ' ') = value.takeWhile (· = wide ' ') := by
  induction value with
  | nil => simp [wide]
  | cons c value ih =>
    by_cases hc : c = wide ' '
    · simp [hc, ih]
    · simp [hc]

/-- A value without brackets is split off without its outer blanks. -/
theorem plain_split {name value rest : SQLWSTRING} (hname : KeywordOk name)
    (hvalue : ∀ c ∈ value, c ≠ 0 ∧ c ≠ wide ';' ∧ c ≠ wide '{') :
    let str := name ++ wide '=' :: (value ++ wide ';' :: rest)
    ∃ start stop trail, start = valueStart str name.length ∧
      stop = trimValueEnd str start (valueStop str (wide ';') start) ∧
      charAt str start ≠ wide '{' ∧ slice str start stop = trim value ∧
      str.drop start = skipSpaces value ++ wide ';' :: rest ∧
      str.drop stop = trail ++ wide ';' :: rest ∧ ∀ c ∈ trail, c = wide ' ' := by
  intro str
  obtain ⟨trail, heq, htrail⟩ := exists_rdropWhile_append (skipSpaces value)
  rw [← trim] at heq
  have hlead : value.takeWhile (· = wide ' ') ++ skipSpaces value = value :=
    List.takeWhile_append_dropWhile
  generalize hleadDef : value.takeWhile (· = wide ' ') = lead at hlead
  have hstr : str = (name ++ wide '=' :: lead) ++ (trim value ++ (trail ++ wide ';' :: rest)) := by
    rw [← List.append_assoc (trim value), ← heq]
    simp only [str, List.append_assoc, List.cons_append]
    rw [← List.append_assoc lead, hlead]
  generalize hstartDef : (name ++ wide '=' :: lead).length = start
  have hstart : start = valueStart str name.length := by
    rw [valueStart_append, takeWhile_blank_append, hleadDef, ← hstartDef]
    simp only [List.length_append, List.length_cons]
    omega
  have hdropStart : str.drop start = trim value ++ (trail ++ wide ';' :: rest) := by
    rw [hstr, ← hstartDef, List.drop_left]
  have hdropStop : str.drop (start + (trim value).length) = trail ++ wide ';' :: rest := by
    rw [← List.drop_drop, hdropStart, List.drop_left]
  have hbrace : charAt str start ≠ wide '{' := by
    have hchar : charAt str start = charAt (skipSpaces value ++ wide ';' :: rest) 0 := by
      rw [heq, List.append_assoc, ← hdropStart, charAt_drop, Nat.add_zero]
    rw [hchar]
    cases hskip : skipSpaces value with
    | nil => simp [wide]
    | cons c tail =>
      have hmem : c ∈ value := by
        rw [← hlead, hskip]
        simp
      simpa using (hvalue c hmem).2.2
  have hfind : sqlwcharchr str (wide ';') = some (start + (trim value).length + trail.length) := by
    have hnul : 0 ∉ name ++ wide '=' :: value := by
      have hmark : (0 : SQLWCHAR) ≠ wide '=' := by decide
      simpa [hname.notMem (c := 0) (by decide), hmark] using fun h => (hvalue 0 h).1 rfl
    have hdelim : wide ';' ∉ name ++ wide '=' :: value := by
      have hmark : wide ';' ≠ wide '=' := by decide
      simpa [hname.notMem (c := wide ';') (by decide), hmark] using
        fun h => (hvalue (wide ';') h).2.1 rfl
    have hlen : (name ++ wide '=' :: value).length =
        start + (trim value).length + trail.length := by
      have hvalueLen : value.length = lead.length + ((trim value).length + trail.length) := by
        conv_lhs => rw [← hlead, heq]
        simp only [List.length_append]
      rw [← hstartDef]
      simp only [List.length_append, List.length_cons]
      omega
    have := sqlwcharchr_append rest (by decide) hnul hdelim
    rwa [hlen, List.append_assoc, List.cons_append] at this
  refine ⟨start, start + (trim value).length, trail, hstart, ?_, hbrace, ?_, ?_, hdropStop, htrail⟩
  · rw [valueStop, if_neg hbrace, hfind, Option.getD_some, trimValueEnd_blanks (by omega)]
    · refine (trimValueEnd_eq_self ?_).symm
      rcases List.eq_nil_or_concat (trim value) with hnil | ⟨init, c, hconcat⟩
      · exact Or.inl (by simp [hnil])
      · right
        rw [List.concat_eq_append] at hconcat
        have hc : c ≠ wide ' ' := by
          have := trim_getLast?_ne value
          simpa [hconcat] using this
        have hindex : start + (trim value).length - 1 = start + init.length := by
          simp only [hconcat, List.length_append, List.length_singleton]
          omega
        rw [hindex, ← charAt_drop, hdropStart, hconcat, List.append_assoc, charAt_append_length]
        simpa using hc
    · intro i hi
      rw [← charAt_drop, hdropStop]
      have hget : charAt (trail ++ wide ';' :: rest) i = trail[i] := by
        rw [charAt, List.getD_eq_getElem?_getD, List.getElem?_append_left hi,
          List.getElem?_eq_getElem hi, Option.getD_some]
      rw [hget]
      exact htrail _ (List.getElem_mem hi)
    · rw [← charAt_drop, hdropStop, charAt_append_length]
      simp [wide]
  · rw [slice, hdropStart, Nat.add_sub_cancel_left, List.take_left]
  · rw [hdropStart, ← List.append_assoc, ← heq]

/-- Every value fits the buffer of `set_remove_brackets` and has no NUL inside. -/
def ValuesFit (ds : DataSource) : Prop :=
  ∀ o, (ds.strOpt o).mWstr.length ≤ 1023 ∧ 0 ∉ (ds.strOpt o).mWstr

/-- Store the value of one option of `ds` as it is read back. -/
@[grind =] def readEntry (ds d : DataSource) : OptionRef → DataSource
  | .str o => d.setStr o (.set (readBack (ds.strOpt o).mWstr) false)
  | .int o => d.setInt o (.assign (ds.intOpt o).mVal)
  | .bool o => d.setBool o (.assign (ds.boolOpt o).mVal)

/-- A value that is printed without brackets has none of the units that need them. -/
theorem notMem_of_valueNeedsEscaped {value : SQLWSTRING} {c : SQLWCHAR}
    (hvalue : valueNeedsEscaped value = false) (hnul : 0 ∉ value)
    (hc : valueNeedsEscaped [c] = true) : c ∉ value := by
  induction value with
  | nil => simp
  | cons c' value ih =>
    obtain ⟨hc', hnul⟩ := not_or.mp (List.mem_cons.not.mp hnul)
    rw [valueNeedsEscaped, if_neg (Ne.symm hc')] at hvalue
    have hne : c ≠ c' := by
      rintro rfl
      simp only [valueNeedsEscaped] at hc
      split_ifs at hc hvalue
    have hrest : valueNeedsEscaped value = false := by
      split_ifs at hvalue <;> exact hvalue
    exact List.not_mem_cons_of_ne_of_not_mem hne (ih hrest hnul)

theorem setRemoveBrackets_of_notMem {value : SQLWSTRING} (hnul : 0 ∉ value)
    (hlen : value.length ≤ 1023) (hbracket : wide '}' ∉ value) :
    setRemoveBrackets value = (.set value false, true) := by
  have htake : value.takeWhile (· ≠ 0) = value := by
    rw [List.takeWhile_eq_self_iff]
    intro c hc
    simpa using fun h : c = 0 => hnul (h ▸ hc)
  simp only [setRemoveBrackets, Doubling.undouble_eq_self hbracket, htake]
  simp [Nat.lt_succ_of_le hlen]

theorem setRemoveBrackets_double {value : SQLWSTRING} (hnul : 0 ∉ value)
    (hlen : value.length ≤ 1023) :
    setRemoveBrackets (Doubling.double (wide '}') value) = (.set value false, true) := by
  have htake : value.takeWhile (· ≠ 0) = value := by
    rw [List.takeWhile_eq_self_iff]
    intro c hc
    simpa using fun h : c = 0 => hnul (h ▸ hc)
  simp only [setRemoveBrackets, Doubling.undouble_double, htake]
  simp [Nat.lt_succ_of_le hlen]

theorem trim_sublist (value : SQLWSTRING) : (trim value).Sublist value := by
  obtain ⟨lead, trail, heq, -, -⟩ := exists_eq_trim value
  conv_rhs => rw [heq, List.append_assoc]
  exact (List.sublist_append_left _ _).trans (List.sublist_append_right _ _)

theorem skipDelims_blanks {trail : List SQLWCHAR} (rest : List SQLWCHAR)
    (htrail : ∀ c ∈ trail, c = wide ' ') :
    skipDelims (wide ';') (trail ++ wide ';' :: rest) = skipDelims (wide ';') rest := by
  induction trail with
  | nil => simp [skipDelims, wide]
  | cons c trail ih =>
    have hc : c = wide ' ' := htrail c (by simp)
    rw [List.cons_append, skipDelims, if_pos (Or.inr (Or.inr hc))]
    exact ih fun c' hc' => htrail c' (by simp [hc'])

/-- A string value in brackets is read back as it is. -/
theorem fromKvpairBody_bracketed {name value rest : SQLWSTRING} {o : StrOption}
    (hentry : (name, .str o) ∈ mOptMap) (hnul : 0 ∉ value) (hlen : value.length ≤ 1023)
    (hrest : 0 ∉ rest) (d : DataSource) (inBounds : Bool) :
    fromKvpairBody (wide ';') ⟨d, name ++ wide '=' :: wide '{' ::
        (Doubling.double (wide '}') value ++ wide '}' :: wide ';' :: rest), inBounds⟩ =
      .next ⟨d.setStr o (.set value false), skipDelims (wide ';') rest, inBounds⟩ := by
  have hname := optionEntries_keywordOk _ (mem_mOptMap.mp hentry)
  obtain ⟨hstart, hstop, htrim, hopen, hclose⟩ := bracketed_split hname hnul hrest
  have hslice : slice (name ++ wide '=' :: wide '{' ::
        (Doubling.double (wide '}') value ++ wide '}' :: wide ';' :: rest))
      (name.length + 1 + 1) (name.length + 2 + (Doubling.double (wide '}') value).length) =
      Doubling.double (wide '}') value := by
    rw [slice, ← List.drop_drop, ← List.drop_drop, List.drop_left]
    simp
  have hdrop : (name ++ wide '=' :: wide '{' ::
        (Doubling.double (wide '}') value ++ wide '}' :: wide ';' :: rest)).drop
      (name.length + 2 + (Doubling.double (wide '}') value).length + 1) = wide ';' :: rest := by
    rw [← List.drop_drop, ← List.drop_drop, ← List.drop_drop, List.drop_left]
    simp
  have hstore : storeValue d name (name ++ wide '=' :: wide '{' ::
        (Doubling.double (wide '}') value ++ wide '}' :: wide ';' :: rest))
      (name.length + 1) (name.length + 2 + (Doubling.double (wide '}') value).length) =
      (d.setStr o (.set value false),
        name.length + 2 + (Doubling.double (wide '}') value).length + 1, true) := by
    rw [storeValue, if_neg hname.ne_option, getOpt_keyword hentry]
    simp only [hopen, hclose, and_self, if_true, hslice, setRemoveBrackets_double hnul hlen]
  rw [fromKvpairBody_entry hname d inBounds hstart.symm (by rw [hstop, htrim]) hstore, hdrop,
    Bool.and_true]
  have hblanks : skipDelims (wide ';') ([] ++ wide ';' :: rest) = skipDelims (wide ';') rest :=
    skipDelims_blanks rest (by simp)
  rw [← hblanks]
  rfl

/-- A string value without brackets is read back without its outer blanks. -/
theorem fromKvpairBody_plain {name value : SQLWSTRING} (rest : SQLWSTRING) {o : StrOption}
    (hentry : (name, .str o) ∈ mOptMap) (hnul : 0 ∉ value) (hlen : value.length ≤ 1023)
    (hplain : valueNeedsEscaped value = false) (d : DataSource) (inBounds : Bool) :
    fromKvpairBody (wide ';') ⟨d, name ++ wide '=' :: (value ++ wide ';' :: rest), inBounds⟩ =
      .next ⟨d.setStr o (.set (trim value) false), skipDelims (wide ';') rest, inBounds⟩ := by
  have hname := optionEntries_keywordOk _ (mem_mOptMap.mp hentry)
  have hunits : ∀ c ∈ value, c ≠ 0 ∧ c ≠ wide ';' ∧ c ≠ wide '{' := by
    have hsemi := notMem_of_valueNeedsEscaped hplain hnul (c := wide ';') (by decide)
    have hbrace := notMem_of_valueNeedsEscaped hplain hnul (c := wide '{') (by decide)
    exact fun c hc => ⟨fun h => hnul (h ▸ hc), fun h => hsemi (h ▸ hc), fun h => hbrace (h ▸ hc)⟩
  have hbracket := notMem_of_valueNeedsEscaped hplain hnul (c := wide '}') (by decide)
  obtain ⟨start, stop, trail, hstart, hstop, hopen, hslice, -, hdrop, htrail⟩ :=
    plain_split hname hunits
  have hsub := (trim_sublist value).subset
  have hset := setRemoveBrackets_of_notMem (fun h => hnul (hsub h))
    ((trim_sublist value).length_le.trans hlen) (fun h => hbracket (hsub h))
  rw [fromKvpairBody_entry hname d inBounds hstart hstop
   ]
  · rw [hdrop, skipDelims_blanks _ htrail, Bool.and_true]
  · rw [storeValue, if_neg hname.ne_option, getOpt_keyword hentry]
    simp only [hopen, false_and, if_false, hslice, hset]

theorem int32_ofULong_toULong (v : Int32) : ULongCast.ofULong (ULongCast.toULong v) = v := by
  have hnonneg : 0 ≤ v.toInt % ulongSize := Int.emod_nonneg _ (by decide)
  have hcast : ((v.toInt % ulongSize).toNat : ℤ) = v.toInt % ulongSize := Int.toNat_of_nonneg hnonneg
  rw [← Int32.toInt_inj]
  change (Int32.ofNat (v.toInt % ulongSize).toNat).toInt = v.toInt
  have hdvd : (Int32.size : ℤ) ∣ ulongSize := by decide
  rw [Int32.toInt_ofNat', hcast, ← Int.emod_bmod, Int.emod_emod_of_dvd _ hdvd, Int.emod_bmod]
  have hle := v.le_toInt
  have hlt := v.toInt_lt
  exact Int.bmod_eq_of_le (by simpa using hle) (by simpa using hlt)

theorem int32_toULong_lt (v : Int32) : ULongCast.toULong v < ulongSize := by
  have hlt : v.toInt % ulongSize < ulongSize := Int.emod_lt_of_pos _ (by decide)
  have hnonneg : 0 ≤ v.toInt % ulongSize := Int.emod_nonneg _ (by decide)
  change (v.toInt % ulongSize).toNat < ulongSize
  omega

theorem bool_ofULong_toULong (v : Bool) : ULongCast.ofULong (ULongCast.toULong v) = v := by
  cases v <;> rfl

theorem bool_toULong_lt (v : Bool) : ULongCast.toULong v < ulongSize := by
  cases v <;> decide

theorem mem_sqlwcharfromul {v : ℕ} {c : SQLWCHAR} (h : c ∈ sqlwcharfromul v) :
    wide '0' ≤ c ∧ c ≤ wide '9' := by
  obtain ⟨d, hd, rfl⟩ := List.mem_map.mp h
  have hlt : d < 10 := Nat.digits_lt_base (by decide) (List.mem_reverse.mp hd)
  have := wideDigit_isDigit hlt
  rwa [not_or, UInt16.not_lt, UInt16.not_lt] at this

/-- Where a printed number is read from, the number is found. -/
theorem plain_split_number {name : SQLWSTRING} (rest : SQLWSTRING) {v : ℕ} (hname : KeywordOk name)
    (hv : v < ulongSize) :
    let str := name ++ wide '=' :: (sqlwcharfromul v ++ wide ';' :: rest)
    ∃ start stop trail, start = valueStart str name.length ∧
      stop = trimValueEnd str start (valueStop str (wide ';') start) ∧
      sqlwchartoul (str.drop start) = v ∧
      str.drop stop = trail ++ wide ';' :: rest ∧ ∀ c ∈ trail, c = wide ' ' := by
  have hunits : ∀ c ∈ sqlwcharfromul v, c ≠ 0 ∧ c ≠ wide ';' ∧ c ≠ wide '{' := by
    intro c hc
    obtain ⟨hlow, hhigh⟩ := mem_sqlwcharfromul hc
    refine ⟨?_, ?_, ?_⟩
    · rintro rfl
      exact absurd hlow (by decide)
    · rintro rfl
      exact absurd hhigh (by decide)
    · rintro rfl
      exact absurd hhigh (by decide)
  obtain ⟨start, stop, trail, hstart, hstop, -, -, hfrom, hdrop, htrail⟩ :=
    plain_split hname hunits
  refine ⟨start, stop, trail, hstart, hstop, ?_, hdrop, htrail⟩
  have hskip : skipSpaces (sqlwcharfromul v) = sqlwcharfromul v := by
    rw [skipSpaces, List.dropWhile_eq_self_iff]
    intro hpos
    have hlow := (mem_sqlwcharfromul (List.getElem_mem hpos)).1
    simp only [decide_eq_true_eq]
    intro heq
    rw [heq] at hlow
    exact absurd hlow (by decide)
  rw [hfrom, hskip]
  exact sqlwchartoul_sqlwcharfromul hv (Or.inr (by simp [wide]))

theorem fromKvpairBody_int {name rest : SQLWSTRING} {o : IntOption}
    (hentry : (name, .int o) ∈ mOptMap) (v : Int32) (d : DataSource) (inBounds : Bool) :
    fromKvpairBody (wide ';') ⟨d, name ++ wide '=' ::
        (sqlwcharfromul (ULongCast.toULong v) ++ wide ';' :: rest), inBounds⟩ =
      .next ⟨d.setInt o (.assign v), skipDelims (wide ';') rest, inBounds⟩ := by
  have hname := optionEntries_keywordOk _ (mem_mOptMap.mp hentry)
  obtain ⟨start, stop, trail, hstart, hstop, hread, hdrop, htrail⟩ :=
    plain_split_number rest hname (int32_toULong_lt v)
  rw [fromKvpairBody_entry hname d inBounds hstart hstop
   ]
  · rw [hdrop, skipDelims_blanks _ htrail, Bool.and_true]
  · rw [storeValue, if_neg hname.ne_option, getOpt_keyword hentry]
    simp only [OptionVal.assignText, hread, int32_ofULong_toULong]

theorem fromKvpairBody_bool {name rest : SQLWSTRING} {o : BoolOption}
    (hentry : (name, .bool o) ∈ mOptMap) (v : Bool) (d : DataSource) (inBounds : Bool) :
    fromKvpairBody (wide ';') ⟨d, name ++ wide '=' ::
        (sqlwcharfromul (ULongCast.toULong v) ++ wide ';' :: rest), inBounds⟩ =
      .next ⟨d.setBool o (.assign v), skipDelims (wide ';') rest, inBounds⟩ := by
  have hname := optionEntries_keywordOk _ (mem_mOptMap.mp hentry)
  obtain ⟨start, stop, trail, hstart, hstop, hread, hdrop, htrail⟩ :=
    plain_split_number rest hname (bool_toULong_lt v)
  rw [fromKvpairBody_entry hname d inBounds hstart hstop
   ]
  · rw [hdrop, skipDelims_blanks _ htrail, Bool.and_true]
  · rw [storeValue, if_neg hname.ne_option, getOpt_keyword hentry]
    simp only [OptionVal.assignText, hread, bool_ofULong_toULong]

/-- The text between `=` and the delimiter that `to_kvpair` prints for a value. -/
@[grind =] def valueText (ds : DataSource) : OptionRef → SQLWSTRING
  | .str o =>
    let value := (ds.strOpt o).mWstr
    if valueNeedsEscaped value then wide '{' :: (Doubling.double (wide '}') value ++ [wide '}'])
    else value
  | .int o => sqlwcharfromul (ULongCast.toULong (ds.intOpt o).mVal)
  | .bool o => sqlwcharfromul (ULongCast.toULong (ds.boolOpt o).mVal)

theorem escapeBrackets_sqlwcharfromul (v : ℕ) :
    escapeBrackets (sqlwcharfromul v) false = sqlwcharfromul v := by
  rw [escapeBrackets_false, Doubling.double_eq_self]
  intro h
  exact absurd (mem_sqlwcharfromul h).2 (by decide)

/-- The parts of a printed entry. -/
theorem kvpairText_eq {ds : DataSource} (hds : ValuesFit ds) {entry : SQLWSTRING × OptionRef}
    {text : SQLWSTRING} (h : kvpairText ds (wide ';') entry = some text) :
    text = entry.1 ++ wide '=' :: (valueText ds entry.2 ++ [wide ';']) := by
  obtain ⟨value, hvalue, htext⟩ := Option.bind_eq_some_iff.mp h
  rw [← Option.some.inj htext]
  obtain ⟨name, ref⟩ := entry
  cases ref with
  | str o =>
    have heq : value = (ds.strOpt o).mWstr := by
      simp only [DataSource.text, OptionStr.text] at hvalue
      split_ifs at hvalue
      exact (Option.some.inj hvalue).symm
    subst heq
    by_cases hesc : valueNeedsEscaped (ds.strOpt o).mWstr
    · simp [valueText, hesc, escapeBrackets_false]
    · have hbracket := notMem_of_valueNeedsEscaped (by simpa using hesc) (hds o).2
        (c := wide '}') (by decide)
      simp [valueText, hesc, escapeBrackets_false, Doubling.double_eq_self hbracket]
  | int o =>
    simp only [DataSource.text, OptionVal.text] at hvalue
    split_ifs at hvalue
    rw [← Option.some.inj hvalue]
    simp [valueText, escapeBrackets_sqlwcharfromul]
  | bool o =>
    simp only [DataSource.text, OptionVal.text] at hvalue
    split_ifs at hvalue
    rw [← Option.some.inj hvalue]
    simp [valueText, escapeBrackets_sqlwcharfromul]

theorem zero_notMem_valueText {ds : DataSource} (hds : ValuesFit ds) (ref : OptionRef) :
    0 ∉ valueText ds ref := by
  have hdigits (v : ℕ) : 0 ∉ sqlwcharfromul v := fun h =>
    absurd (mem_sqlwcharfromul h).1 (by decide)
  cases ref with
  | str o =>
    have hdouble := Doubling.notMem_double (hds o).2 (show (0 : SQLWCHAR) ≠ wide '}' by decide)
    have hmarks : (0 : SQLWCHAR) ≠ wide '{' ∧ (0 : SQLWCHAR) ≠ wide '}' := by decide
    rw [valueText]
    split_ifs
    · simp [hdouble, hmarks]
    · exact (hds o).2
  | int o => exact hdigits _
  | bool o => exact hdigits _

/-- A printed entry begins with a unit of its keyword and has no NUL inside. -/
theorem kvpairText_units {ds : DataSource} (hds : ValuesFit ds)
    {entry : SQLWSTRING × OptionRef} (hentry : entry ∈ mOptMap) {text : SQLWSTRING}
    (h : kvpairText ds (wide ';') entry = some text) :
    0 ∉ text ∧ ∃ c tail, text = c :: tail ∧ isKeywordUnit c = true := by
  have hname := optionEntries_keywordOk _ (mem_mOptMap.mp hentry)
  rw [kvpairText_eq hds h]
  constructor
  · have hmarks : (0 : SQLWCHAR) ≠ wide '=' ∧ (0 : SQLWCHAR) ≠ wide ';' := by decide
    simp [hname.notMem (c := 0) (by decide), zero_notMem_valueText hds, hmarks]
  · obtain ⟨c, tail, hcons⟩ := List.exists_cons_of_ne_nil hname.ne_nil
    rw [hcons]
    exact ⟨c, _, rfl, hname.units c (by simp [hcons])⟩

/-- One iteration reads one printed entry. -/
theorem fromKvpairBody_kvpairText {ds : DataSource} (hds : ValuesFit ds)
    {entry : SQLWSTRING × OptionRef} (hentry : entry ∈ mOptMap) {text rest : SQLWSTRING}
    (h : kvpairText ds (wide ';') entry = some text) (hrest : 0 ∉ rest) (d : DataSource)
    (inBounds : Bool) :
    fromKvpairBody (wide ';') ⟨d, text ++ rest, inBounds⟩ =
      .next ⟨readEntry ds d entry.2, skipDelims (wide ';') rest, inBounds⟩ := by
  have htext : text ++ rest =
      entry.1 ++ wide '=' :: (valueText ds entry.2 ++ wide ';' :: rest) := by
    rw [kvpairText_eq hds h]
    simp
  obtain ⟨name, ref⟩ := entry
  rw [htext]
  cases ref with
  | str o =>
    obtain ⟨hlen, hnul⟩ := hds o
    by_cases hesc : valueNeedsEscaped (ds.strOpt o).mWstr
    · have := fromKvpairBody_bracketed hentry hnul hlen hrest d inBounds
      simpa [valueText, hesc, readEntry, readBack] using this
    · have := fromKvpairBody_plain rest hentry hnul hlen (by simpa using hesc) d inBounds
      simpa [valueText, hesc, readEntry, readBack] using this
  | int o => exact fromKvpairBody_int hentry _ d inBounds
  | bool o => exact fromKvpairBody_bool hentry _ d inBounds

theorem mapM_cons_eq_some {α β : Type} {f : α → Option β} {a : α} {as : List α} {bs : List β} :
    (a :: as).mapM f = some bs ↔ ∃ b bs', f a = some b ∧ as.mapM f = some bs' ∧ bs = b :: bs' := by
  simp only [List.mapM_cons, Option.bind_eq_bind, Option.bind_eq_some_iff, Option.pure_def,
    Option.some_inj]
  constructor
  · rintro ⟨b, hb, bs', hbs', rfl⟩
    exact ⟨b, bs', hb, hbs', rfl⟩
  · rintro ⟨b, bs', hb, hbs', rfl⟩
    exact ⟨b, hb, bs', hbs', rfl⟩

theorem exists_mapM {α β : Type} {f : α → Option β} {as : List α}
    (h : ∀ a ∈ as, ∃ b, f a = some b) : ∃ bs, as.mapM f = some bs := by
  induction as with
  | nil => exact ⟨[], rfl⟩
  | cons a as ih =>
    obtain ⟨b, hb⟩ := h a (by simp)
    obtain ⟨bs, hbs⟩ := ih fun a' ha' => h a' (by simp [ha'])
    exact ⟨b :: bs, mapM_cons_eq_some.mpr ⟨b, bs, hb, hbs, rfl⟩⟩

/-- The text of several entries has no NUL inside and begins with a keyword. -/
theorem flatten_units {ds : DataSource} (hds : ValuesFit ds)
    {entries : List (SQLWSTRING × OptionRef)} (hentries : ∀ entry ∈ entries, entry ∈ mOptMap)
    {texts : List SQLWSTRING} (h : entries.mapM (kvpairText ds (wide ';')) = some texts) :
    0 ∉ texts.flatten ∧ skipDelims (wide ';') texts.flatten = texts.flatten := by
  induction entries generalizing texts with
  | nil =>
    have hnil : texts = [] := by simpa using h.symm
    simp [hnil, skipDelims]
  | cons entry entries ih =>
    obtain ⟨text, texts, htext, htexts, rfl⟩ := mapM_cons_eq_some.mp h
    obtain ⟨hnul, c, tail, rfl, hc⟩ := kvpairText_units hds (hentries entry (by simp)) htext
    obtain ⟨hrest, -⟩ := ih (fun entry hentry => hentries entry (by simp [hentry])) htexts
    refine ⟨?_, ?_⟩
    · rw [List.flatten_cons, List.mem_append]
      exact not_or.mpr ⟨hnul, hrest⟩
    rw [List.flatten_cons, List.cons_append, skipDelims, if_neg]
    rintro (⟨-, rfl⟩ | ⟨hdelim, -⟩ | rfl)
    · exact absurd hc (by decide)
    · exact absurd hdelim (by decide)
    · exact absurd hc (by decide)

/-- The loop reads all printed entries, one in an iteration. -/
theorem returns_entries {ds : DataSource} (hds : ValuesFit ds)
    {entries : List (SQLWSTRING × OptionRef)} (hentries : ∀ entry ∈ entries, entry ∈ mOptMap)
    {texts : List SQLWSTRING} (h : entries.mapM (kvpairText ds (wide ';')) = some texts)
    (d : DataSource) (inBounds : Bool) :
    WhileLoop.Returns (fromKvpairBody (wide ';')) ⟨d, texts.flatten, inBounds⟩
      (0, ⟨entries.foldl (fun d entry => readEntry ds d entry.2) d, [], inBounds⟩) := by
  induction entries generalizing texts d with
  | nil =>
    have hnil : texts = [] := by simpa using h.symm
    subst hnil
    exact WhileLoop.returns_of_done rfl
  | cons entry entries ih =>
    obtain ⟨text, texts, htext, htexts, rfl⟩ := mapM_cons_eq_some.mp h
    have hrest : ∀ entry ∈ entries, entry ∈ mOptMap := fun entry hentry =>
      hentries entry (by simp [hentry])
    obtain ⟨hnul, hskip⟩ := flatten_units hds hrest htexts
    have hstep := fromKvpairBody_kvpairText hds (hentries entry (by simp)) htext hnul d inBounds
    rw [hskip] at hstep
    rw [List.flatten_cons, WhileLoop.returns_next_iff hstep, List.foldl_cons]
    exact ih hrest htexts _

/-- The option of `d` is what is read back for the option of `ds`. -/
@[grind =] def IsRead (ds d : DataSource) : OptionRef → Prop
  | .str o => d.strOpt o = .set (readBack (ds.strOpt o).mWstr) false
  | .int o => d.intOpt o = .assign (ds.intOpt o).mVal
  | .bool o => d.boolOpt o = .assign (ds.boolOpt o).mVal

theorem isRead_readEntry (ds d : DataSource) (ref : OptionRef) :
    IsRead ds (readEntry ds d ref) ref := by
  cases ref <;> simp [IsRead, readEntry, DataSource.setStr, DataSource.setInt, DataSource.setBool]

/-- Reading an option again, or another one, keeps what was read. -/
theorem IsRead.readEntry {ds d : DataSource} {ref : OptionRef} (h : IsRead ds d ref)
    (ref' : OptionRef) : IsRead ds (readEntry ds d ref') ref := by
  by_cases heq : ref' = ref
  · exact heq ▸ isRead_readEntry ds d ref'
  · cases ref <;> cases ref' <;>
      simp_all [IsRead, Util.readEntry, DataSource.setStr, DataSource.setInt, DataSource.setBool,
        eq_comm]

theorem isRead_foldl (ds d : DataSource) {entries : List (SQLWSTRING × OptionRef)}
    {entry : SQLWSTRING × OptionRef} (hentry : entry ∈ entries) :
    IsRead ds (entries.foldl (fun d entry => readEntry ds d entry.2) d) entry.2 := by
  induction entries using List.reverseRecOn with
  | nil => simp at hentry
  | append_singleton entries last ih =>
    rw [List.foldl_append]
    rcases List.mem_append.mp hentry with hmem | hmem
    · exact (ih hmem).readEntry _
    · rw [List.mem_singleton.mp hmem]
      exact isRead_readEntry _ _ _

/-- What `from_kvpair` reads from the text that `to_kvpair` prints. -/
theorem fromKvpair_toKvpair {ds : DataSource} (hds : ValuesFit ds) {text : SQLWSTRING}
    (h : toKvpair ds (wide ';') = some text) :
    FromKvpair .reset text (wide ';')
      (0, ⟨(mOptMap.filter (printed ds)).foldl (fun d entry => readEntry ds d entry.2) .reset,
        [], true⟩) := by
  obtain ⟨texts, htexts, heq⟩ := Option.bind_eq_some_iff.mp h
  rw [← Option.some.inj heq]
  exact returns_entries hds (fun entry hentry => (List.mem_filter.mp hentry).1) htexts _ _

/-- An option has the same value in both data sources. -/
def SameValue (ds ds' : DataSource) : OptionRef → Prop
  | .str o => (ds'.strOpt o).text = (ds.strOpt o).text
  | .int o => (ds'.intOpt o).mVal = (ds.intOpt o).mVal
  | .bool o => (ds'.boolOpt o).mVal = (ds.boolOpt o).mVal

/-- Printing succeeds, reading the text into a fresh data source succeeds
without leaving the buffer, and every printed option has its value back. -/
def RoundTrips (ds : DataSource) : Prop :=
  ∃ text s, toKvpair ds (wide ';') = some text ∧ FromKvpair .reset text (wide ';') (0, s) ∧
    s.inBounds = true ∧ ∀ entry ∈ mOptMap, printed ds entry → SameValue ds s.ds entry.2

/-- The text of a string option is printed so that it is read back. -/
def PrintedSafely (o : OptionStr) : Prop :=
  o.mIsNull = false ∧ (valueNeedsEscaped o.mWstr = true ∨ NoOuterBlank o.mWstr)

theorem readBack_eq_self_iff (value : SQLWSTRING) :
    readBack value = value ↔ valueNeedsEscaped value = true ∨ NoOuterBlank value := by
  by_cases hesc : valueNeedsEscaped value
  · simp [readBack, hesc]
  · simp [readBack, hesc, trim_eq_self_iff]

theorem exists_kvpairText {ds : DataSource} {entry : SQLWSTRING × OptionRef}
    (hprinted : printed ds entry)
    (hnull : ∀ o, entry.2 = .str o → (ds.strOpt o).mIsNull = false) :
    ∃ text, kvpairText ds (wide ';') entry = some text := by
  have hset : ds.isSet entry.2 = true := by
    unfold printed at hprinted
    simp at hprinted
    exact hprinted.1.1
  obtain ⟨name, ref⟩ := entry
  have hvalue : ∃ value, ds.text ref = some value := by
    cases ref with
    | str o => exact ⟨(ds.strOpt o).mWstr, by simp [DataSource.text, OptionStr.text, hnull o rfl]⟩
    | int o => exact ⟨_, if_pos hset⟩
    | bool o => exact ⟨_, if_pos hset⟩
  obtain ⟨value, hvalue⟩ := hvalue
  exact ⟨_, Option.bind_eq_some_iff.mpr ⟨value, hvalue, rfl⟩⟩

/-- When the round trip succeeds, every printed string was printed safely. -/
theorem RoundTrips.printedSafely {ds : DataSource} (hds : ValuesFit ds) (h : RoundTrips ds)
    {name : SQLWSTRING} {o : StrOption} (hentry : (name, .str o) ∈ mOptMap)
    (hprinted : printed ds (name, .str o)) : PrintedSafely (ds.strOpt o) := by
  obtain ⟨text, s, htext, hread, -, hsame⟩ := h
  have hfinal := WhileLoop.Returns.unique hread (fromKvpair_toKvpair hds htext)
  have hmem : (name, OptionRef.str o) ∈ mOptMap.filter (printed ds) :=
    List.mem_filter.mpr ⟨hentry, hprinted⟩
  have hvalue : s.ds.strOpt o = .set (readBack (ds.strOpt o).mWstr) false := by
    rw [congrArg (fun r => r.2.ds) hfinal]
    exact isRead_foldl ds .reset hmem
  have hback : (s.ds.strOpt o).text = (ds.strOpt o).text := hsame _ hentry hprinted
  rw [hvalue] at hback
  simp only [OptionStr.text, OptionStr.set, Bool.false_eq_true, if_false] at hback
  split_ifs at hback with hnull
  exact ⟨by simpa using hnull, (readBack_eq_self_iff _).mp (Option.some.inj hback)⟩

/-- Printing a data source and reading the text back keeps every printed option
exactly when every printed string needs brackets or has no outer blanks. -/
theorem kvpair_roundTrips_iff (ds : DataSource) (hds : ValuesFit ds) :
    RoundTrips ds ↔ ∀ name o, (name, OptionRef.str o) ∈ mOptMap →
      printed ds (name, .str o) → PrintedSafely (ds.strOpt o) := by
  constructor
  · intro h name o hentry hprinted
    exact h.printedSafely hds hentry hprinted
  · intro hsafe
    have htexts : ∃ texts, (mOptMap.filter (printed ds)).mapM (kvpairText ds (wide ';')) =
        some texts := by
      refine exists_mapM fun entry hentry => ?_
      obtain ⟨hmem, hprinted⟩ := List.mem_filter.mp hentry
      refine exists_kvpairText hprinted fun o ho => ?_
      obtain ⟨name, ref⟩ := entry
      subst ho
      exact (hsafe name o hmem hprinted).1
    obtain ⟨texts, htexts⟩ := htexts
    have htext : toKvpair ds (wide ';') = some texts.flatten := by simp [toKvpair, htexts]
    refine ⟨_, _, htext, fromKvpair_toKvpair hds htext, rfl, ?_⟩
    rintro ⟨name, ref⟩ hentry hprinted
    have hread := isRead_foldl ds .reset (List.mem_filter.mpr ⟨hentry, hprinted⟩)
    cases ref with
    | str o =>
      obtain ⟨hnull, hkept⟩ := hsafe name o hentry hprinted
      rw [← readBack_eq_self_iff] at hkept
      simp only [IsRead] at hread
      simp [SameValue, hread, OptionStr.text, OptionStr.set, hnull, hkept]
    | int o =>
      simp only [IsRead] at hread
      simp [SameValue, hread, OptionVal.assign]
    | bool o =>
      simp only [IsRead] at hread
      simp [SameValue, hread, OptionVal.assign]

/-- A new data source with one password. -/
def withPassword (value : List Char) : DataSource :=
  DataSource.reset.setStr .PWD (.set (W value) false)

theorem withPassword_valuesFit (value : List Char) (hlen : value.length ≤ 1023)
    (hnul : 0 ∉ W value) : ValuesFit (withPassword value) := by
  intro o
  by_cases ho : o = .PWD
  · subst ho
    simpa [withPassword, DataSource.setStr, OptionStr.set, W] using ⟨hlen, by simpa [W] using hnul⟩
  · simp [withPassword, DataSource.setStr, Function.update_of_ne ho, DataSource.reset,
      DataSource.setInt, DataSource.setBool, OptionStr.setDefaultNull]

set_option maxRecDepth 20000 in
/-- A password of brackets, delimiters and blanks is kept. -/
theorem kvpair_roundTrips_iff_brackets :
    ValuesFit (withPassword [' ', '}', ';', '{', '=', '}', '}', ' ']) ∧
      RoundTrips (withPassword [' ', '}', ';', '{', '=', '}', '}', ' ']) := by
  have hfit := withPassword_valuesFit [' ', '}', ';', '{', '=', '}', '}', ' ']
    (by decide) (by decide)
  refine ⟨hfit, (kvpair_roundTrips_iff _ hfit).mpr ?_⟩
  intro name o hentry hprinted
  by_cases ho : o = .PWD
  · subst ho
    exact ⟨rfl, Or.inl (by decide)⟩
  · simp [printed, withPassword, DataSource.isDefault, DataSource.setStr,
      Function.update_of_ne ho, DataSource.reset, DataSource.setInt, DataSource.setBool,
      OptionStr.setDefaultNull] at hprinted

set_option maxRecDepth 20000 in
/-- The password ` x` is read back without its blank. -/
theorem kvpair_leadingBlank_not_roundTrips :
    ValuesFit (withPassword [' ', 'x']) ∧ ¬ RoundTrips (withPassword [' ', 'x']) := by
  have hfit := withPassword_valuesFit [' ', 'x'] (by decide) (by decide)
  refine ⟨hfit, fun h => ?_⟩
  have hentry : (StrOption.PWD.keyword, OptionRef.str .PWD) ∈ mOptMap :=
    mem_mOptMap.mpr (by decide +kernel)
  have hsafe := h.printedSafely hfit hentry (by decide +kernel)
  rcases hsafe.2 with hesc | hblank
  · exact absurd hesc (by decide)
  · exact hblank.1 (by decide)

end MatrixOdbc.Util
