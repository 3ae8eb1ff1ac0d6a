import MatrixOdbc.Util.Installer

/-!
# Progress of `DataSource::from_kvpair`

The next position is searched from the start of the keyword, and the closing
bracket of a value is stepped over only when it is stored into a string option.
An iteration can therefore begin at a bracket that an earlier value left behind.
This file shows that such an iteration changes nothing when its own value is
bracketed, and that every other iteration moves the cursor forward.
-/

namespace MatrixOdbc.Util

/-- The iteration begins at a single `}` and reads a bracketed value. -/
def Stalls (str : List SQLWCHAR) : Prop :=
  charAt str 0 = wide '}' ∧ charAt str 1 ≠ wide '}' ∧
    ∃ split, sqlwcharchr str (wide '=') = some split ∧ split < 1000 ∧
      charAt str (valueStart str split) = wide '{'

/-- The cursor `t` points strictly further into the input than `s`. -/
def StrictlyFurther (s t : List SQLWCHAR) : Prop := t <:+ s ∧ t.length < s.length

theorem skipSpaces_suffix (str : List SQLWCHAR) : skipSpaces str <:+ str :=
  List.dropWhile_suffix _

theorem skipDelims_suffix (delim : SQLWCHAR) (str : List SQLWCHAR) : skipDelims delim str <:+ str := by
  induction str with
  | nil => exact List.suffix_rfl
  | cons c str ih =>
    rw [skipDelims]
    split_ifs
    · exact ih.trans (List.suffix_cons c str)
    · exact List.suffix_rfl

/-- Leading blanks hide no `=`. -/
theorem isNone_sqlwcharchr_skipSpaces (str : List SQLWCHAR) :
    (sqlwcharchr (skipSpaces str) (wide '=')).isNone = (sqlwcharchr str (wide '=')).isNone := by
  induction str with
  | nil => rfl
  | cons c str ih =>
    by_cases hc : c = wide ' '
    · subst hc
      have hskip : skipSpaces (wide ' ' :: str) = skipSpaces str := by simp [skipSpaces]
      rw [hskip, ih, sqlwcharchr, if_neg (by decide), if_neg (by decide), Option.isNone_map]
    · have hskip : skipSpaces (c :: str) = c :: str := by simp [skipSpaces, hc]
      rw [hskip]

/-- What an iteration that goes round again has done. -/
theorem fromKvpairBody_next {delim : SQLWCHAR} {s s' : KvState}
    (h : fromKvpairBody delim s = .next s') :
    charAt s.str 0 ≠ 0 ∧
    ∃ len stop, sqlwcharchr (skipSpaces s.str) (wide '=') = some len ∧ len < 1000 ∧
      trimValueEnd (skipSpaces s.str) (valueStart (skipSpaces s.str) len)
        (valueStop (skipSpaces s.str) delim (valueStart (skipSpaces s.str) len)) ≤ stop ∧
      s'.str = skipDelims delim ((skipSpaces s.str).drop stop) := by
  unfold fromKvpairBody at h
  split_ifs at h with hend hnone
  refine ⟨hend, ?_⟩
  rw [← isNone_sqlwcharchr_skipSpaces, Bool.not_eq_true, Option.isNone_eq_false_iff] at hnone
  obtain ⟨len, hlen'⟩ := Option.isSome_iff_exists.mp hnone
  simp only [hlen', Option.getD_some] at h
  split_ifs at h with hlen
  refine ⟨len, _, hlen', by omega, ?_, (congrArg KvState.str (WhileLoop.Step.next.inj h)).symm⟩
  unfold storeValue
  split
  · exact le_rfl
  · split
    · exact le_rfl
    · split
      · exact Nat.le_succ _
      · exact le_rfl
    · exact le_rfl
    · exact le_rfl

/-- Removing trailing blanks never empties what lies behind the value's start. -/
theorem trimValueEnd_eq_zero {str : List SQLWCHAR} {start stop : ℕ} (hstart : 0 < start)
    (h : trimValueEnd str start stop = 0) : stop = 0 := by
  induction stop with
  | zero => rfl
  | succ stop ih =>
    rw [trimValueEnd] at h
    split_ifs at h with hblank
    have hstop := ih h
    omega

theorem findBracketEnd_eq_zero {str : List SQLWCHAR} (h : findBracketEnd str = some 0) :
    charAt str 0 = wide '}' ∧ charAt str 1 ≠ wide '}' := by
  rcases str with - | ⟨c, - | ⟨c', str⟩⟩
  · simp [findBracketEnd] at h
  · by_cases hc : c = wide '}'
    · exact ⟨hc, by simpa using (by decide : (0 : SQLWCHAR) ≠ wide '}')⟩
    · simp [findBracketEnd, hc] at h
  · rw [findBracketEnd] at h
    split_ifs at h with hnul hc hc' hpair
    · simp at h
    · refine ⟨not_not.mp hc, ?_⟩
      simpa [hc'] using (by decide : (0 : SQLWCHAR) ≠ wide '}')
    · exact ⟨not_not.mp hc, by simpa using hpair⟩
    · simp at h
    · simp at h

theorem findBracketEnd_of_single {str : List SQLWCHAR} (h₀ : charAt str 0 = wide '}')
    (h₁ : charAt str 1 ≠ wide '}') : findBracketEnd str = some 0 := by
  rcases str with - | ⟨c, - | ⟨c', str⟩⟩
  · simp [wide] at h₀
  · simp [findBracketEnd, show c = wide '}' from h₀]
  · have hc : c = wide '}' := h₀
    have hc' : c' ≠ wide '}' := by simpa using h₁
    have hnul : wide '}' ≠ 0 := by decide
    simp [findBracketEnd, hc, hc', hnul]

/-- Stepping over a delimiter moves the cursor. -/
theorem skipDelims_length_lt {delim : SQLWCHAR} {str : List SQLWCHAR} (hdelim : delim ≠ 0)
    (h : charAt str 0 = delim) : (skipDelims delim str).length < str.length := by
  cases str with
  | nil => exact absurd h.symm (by simpa using hdelim)
  | cons c str =>
    have hc : c = delim := h
    rw [skipDelims, if_pos (Or.inl ⟨hdelim, hc⟩)]
    exact Nat.lt_succ_of_le (skipDelims_suffix delim str).length_le

/-- An iteration that does not stall moves the cursor forward. -/
theorem strictlyFurther_of_not_stalls {delim : SQLWCHAR} {s s' : KvState} (hstall : ¬ Stalls s.str)
    (h : fromKvpairBody delim s = .next s') : StrictlyFurther s.str s'.str := by
  obtain ⟨hend, len, stop, hlen, hlt, hstop, hstr⟩ := fromKvpairBody_next h
  have hsuffix := skipSpaces_suffix s.str
  have hskip := skipDelims_suffix delim ((skipSpaces s.str).drop stop)
  refine ⟨hstr ▸ hskip.trans ((List.drop_suffix _ _).trans hsuffix), ?_⟩
  have hle := hskip.length_le
  rw [hstr]
  rw [List.length_drop] at hle
  have hspaces := hsuffix.length_le
  by_cases hsame : skipSpaces s.str = s.str
  · rw [hsame] at hlen hle hstop ⊢
    have hpos : 0 < s.str.length := by
      rcases hs : s.str with - | ⟨c, str⟩
      · simp [hs] at hend
      · simp
    rcases Nat.eq_zero_or_pos stop with rfl | hstoppos
    · -- nothing was read, so the search from the keyword ended where it began
      have hvalue := trimValueEnd_eq_zero (by unfold valueStart; omega) (Nat.le_zero.mp hstop)
      unfold valueStop at hvalue
      have hlenpos := sqlwcharlen_pos hend
      split_ifs at hvalue with hbrace
      · cases hfind : findBracketEnd s.str with
        | none => simp [hfind] at hvalue; omega
        | some k =>
          have hk : k = 0 := by simpa [hfind] using hvalue
          obtain ⟨h₀, h₁⟩ := findBracketEnd_eq_zero (hk ▸ hfind)
          exact absurd ⟨h₀, h₁, len, hlen, hlt, hbrace⟩ hstall
      · cases hfind : sqlwcharchr s.str delim with
        | none => simp [hfind] at hvalue; omega
        | some k =>
          have hk : k = 0 := by simpa [hfind] using hvalue
          obtain ⟨hdelim, hne⟩ := charAt_of_sqlwcharchr (hk ▸ hfind)
          simpa using skipDelims_length_lt hne hdelim
    · omega
  · have hne : (skipSpaces s.str).length ≠ s.str.length := fun heq =>
      hsame (hsuffix.eq_of_length heq)
    omega

/-- The name of an option never begins with a bracket. -/
theorem getOpt_bracket (name : SQLWSTRING) : getOpt (wide '}' :: name) = none := by
  apply getOpt_eq_none
  intro entry hentry heq
  have hmem : wide '}' ∈ entry.1 := by
    have htoupper : toupper (wide '}') = wide '}' := by decide
    simp [heq, htoupper]
  exact (optionEntries_keywordOk entry hentry).notMem (by decide) hmem

theorem storeValue_bracket (ds : DataSource) (name : SQLWSTRING) (str : List SQLWCHAR)
    (start stop : ℕ) : storeValue ds (wide '}' :: name) str start stop = (ds, stop, true) := by
  have hoption : sqlwcharcasecmp W_OPTION (wide '}' :: name) ≠ 0 := by
    have hcap : capitalize (wide 'O') ≠ capitalize (wide '}') := by decide
    have hnul : wide 'O' ≠ 0 ∧ wide '}' ≠ 0 := by decide
    simp [W_OPTION, W, sqlwcharcasecmp, hcap, hnul]
  rw [storeValue, if_neg hoption, getOpt_bracket]

/-- An iteration that stalls leaves the whole state as it was. -/
theorem fromKvpairBody_of_stalls {delim : SQLWCHAR} (hdelim : delim = wide ';' ∨ delim = 0)
    {s : KvState} (h : Stalls s.str) : fromKvpairBody delim s = .next s := by
  obtain ⟨ds, str, inBounds⟩ := s
  obtain ⟨h₀, h₁, split, hsplit, hlt, hbrace⟩ := h
  dsimp only at h₀ h₁ hsplit hlt hbrace
  obtain ⟨tail, rfl⟩ : ∃ tail, str = wide '}' :: tail := by
    cases str with
    | nil => exact absurd h₀ (by decide)
    | cons c tail => exact ⟨tail, by rw [← h₀]; rfl⟩
  have hspaces : skipSpaces (wide '}' :: tail) = wide '}' :: tail := by
    simp [skipSpaces, show wide '}' ≠ wide ' ' by decide]
  have hkeyword : ∃ name, keyword (wide '}' :: tail) split = wide '}' :: name := by
    obtain ⟨k, rfl⟩ : ∃ k, split = k + 1 := by
      cases split with
      | zero =>
        have := (charAt_of_sqlwcharchr hsplit).1
        exact absurd this (by simpa using (by decide : wide '}' ≠ wide '='))
      | succ k => exact ⟨k, rfl⟩
    refine ⟨(tail.take k).rdropWhile (· = wide ' '), ?_⟩
    rw [keyword, List.take_succ_cons, List.rdropWhile, List.rdropWhile, List.reverse_cons]
    rw [List.dropWhile_append]
    split_ifs with hempty
    · simp [List.isEmpty_iff.mp hempty, show wide '}' ≠ wide ' ' by decide]
    · simp
  obtain ⟨name, hname⟩ := hkeyword
  have hstop : trimValueEnd (wide '}' :: tail) (valueStart (wide '}' :: tail) split)
      (valueStop (wide '}' :: tail) delim (valueStart (wide '}' :: tail) split)) = 0 := by
    rw [valueStop, if_pos hbrace, findBracketEnd_of_single h₀ h₁]
    rfl
  have hskip : skipDelims delim (wide '}' :: tail) = wide '}' :: tail := by
    rw [skipDelims, if_neg]
    rcases hdelim with rfl | rfl <;> simp [wide]
  simp only [fromKvpairBody, hspaces, hsplit, Option.getD_some, hname, hstop, storeValue_bracket,
    List.drop_zero, hskip, Bool.and_true]
  rw [if_neg (by simp [wide]), if_neg (by simp), if_neg (by omega)]

/-- In every run every iteration moves the cursor strictly further exactly when
no iteration stalls, and exactly then the loop ends. -/
theorem fromKvpair_advances_iff (ds : DataSource) (str : List SQLWCHAR) (delim : SQLWCHAR)
    (hdelim : delim = wide ';' ∨ delim = 0) :
    ((∀ s s', WhileLoop.Reaches (fromKvpairBody delim) ⟨ds, str, true⟩ s →
        fromKvpairBody delim s = .next s' → StrictlyFurther s.str s'.str) ↔
      ∀ s, WhileLoop.Reaches (fromKvpairBody delim) ⟨ds, str, true⟩ s → ¬ Stalls s.str) ∧
    (WhileLoop.Terminates (fromKvpairBody delim) ⟨ds, str, true⟩ ↔
      ∀ s, WhileLoop.Reaches (fromKvpairBody delim) ⟨ds, str, true⟩ s → ¬ Stalls s.str) := by
  refine ⟨⟨?_, ?_⟩, ⟨?_, ?_⟩⟩
  · intro hall s hreach hstall
    have hfurther := hall s s hreach (fromKvpairBody_of_stalls hdelim hstall)
    exact absurd hfurther.2 (lt_irrefl _)
  · intro hnone s s' hreach hnext
    exact strictlyFurther_of_not_stalls (hnone s hreach) hnext
  · intro hterm s hreach hstall
    refine WhileLoop.not_terminates_of_trap (· = s) ?_ hreach rfl hterm
    rintro _ rfl
    exact ⟨_, fromKvpairBody_of_stalls hdelim hstall, rfl⟩
  · intro hnone
    exact WhileLoop.terminates_of_measure (fun s => s.str.length) fun s s' hreach hnext =>
      (strictlyFurther_of_not_stalls (hnone s hreach) hnext).2

/-- `PORT={6001};SERVER={localhost}`: the bracketed number is not stored into a
string option, so its closing bracket begins the next iteration. -/
def bracketedPort : SQLWSTRING :=
  W ['P', 'O', 'R', 'T', '=', '{', '6', '0', '0', '1', '}', ';',
    'S', 'E', 'R', 'V', 'E', 'R', '=', '{', 'l', 'o', 'c', 'a', 'l', 'h', 'o', 's', 't', '}']

set_option maxRecDepth 20000 in
/-- The second iteration over `bracketedPort` begins at the bracket and stalls. -/
theorem bracketedPort_reaches_stall :
    ∃ s, WhileLoop.Reaches (fromKvpairBody (wide ';')) ⟨.reset, bracketedPort, true⟩ s ∧
      Stalls s.str := by
  have hfirst : ((fromKvpairBody (wide ';') ⟨.reset, bracketedPort, true⟩).next?.map
      KvState.str) = some (bracketedPort.drop 10) := by decide +kernel
  obtain ⟨s, hs, hstr⟩ := Option.map_eq_some_iff.mp hfirst
  refine ⟨s, .single (WhileLoop.Step.next?_eq_some.mp hs), ?_⟩
  rw [hstr]
  exact ⟨by decide, by decide, 8, by decide, by decide, by decide⟩

/-- On `bracketedPort` an iteration does not move the cursor, and the loop
does not end. -/
theorem fromKvpair_bracketedPort_not_advances :
    (¬ ∀ s s', WhileLoop.Reaches (fromKvpairBody (wide ';')) ⟨.reset, bracketedPort, true⟩ s →
      fromKvpairBody (wide ';') s = .next s' → StrictlyFurther s.str s'.str) ∧
    ¬ WhileLoop.Terminates (fromKvpairBody (wide ';')) ⟨.reset, bracketedPort, true⟩ := by
  obtain ⟨s, hreach, hstall⟩ := bracketedPort_reaches_stall
  have hbody := fromKvpairBody_of_stalls (Or.inl rfl) hstall
  constructor
  · intro hall
    exact absurd (hall s s hreach hbody).2 (lt_irrefl _)
  · refine WhileLoop.not_terminates_of_trap (· = s) ?_ hreach rfl
    rintro _ rfl
    exact ⟨_, hbody, rfl⟩

/-- The equivalence for the text `bracketedPort`. -/
theorem fromKvpair_advances_iff_bracketedPort :
    (wide ';' = wide ';' ∨ wide ';' = 0) ∧
    (WhileLoop.Terminates (fromKvpairBody (wide ';')) ⟨.reset, bracketedPort, true⟩ ↔
      ∀ s, WhileLoop.Reaches (fromKvpairBody (wide ';')) ⟨.reset, bracketedPort, true⟩ s →
        ¬ Stalls s.str) :=
  ⟨Or.inl rfl, (fromKvpair_advances_iff .reset bracketedPort (wide ';') (Or.inl rfl)).2⟩

end MatrixOdbc.Util
