import MatrixOdbc.Util.KvRoundTrip
import MatrixOdbc.Util.KvProgress
import MatrixOdbc.Util.UnicodeTranscode

/-!
# The fixed buffers of `DataSource::from_kvpair`

The keyword is copied into `attribute[1000]`, and `optionStr::set_remove_brackets`
copies a value into `out[1024]`. This file follows the indices that the loop uses
on the two buffers and the lengths it passes on. An index of type `size_t` wraps,
and a length is passed as an `SQLINTEGER`. Only the cursor is kept from one
evaluation to the next, because nothing else decides what is accessed. Nothing is
known about the program after an access out of range, so the loop ends there.
-/

namespace MatrixOdbc.Util

open WhileLoop

/-- An index used on one of the buffers, or a length passed to `set_remove_brackets`. -/
inductive BufferUse where
  | attributeAt (index : ℕ)
  | outAt (index : ℕ)
  | valueLength (len : ℤ)

/-- The index lies in the buffer, and the length is not negative. -/
def BufferUse.InRange : BufferUse → Prop
  | .attributeAt index => index < 1000
  | .outAt index => index < 1024
  | .valueLength len => 0 ≤ len

instance (use : BufferUse) : Decidable use.InRange :=
  match use with
  | .attributeAt index => inferInstanceAs (Decidable (index < 1000))
  | .outAt index => inferInstanceAs (Decidable (index < 1024))
  | .valueLength len => inferInstanceAs (Decidable (0 ≤ len))

/-- The indices of the loop that removes trailing blanks of the keyword. For an
empty keyword `--len` is the largest `size_t`. -/
def trimIndices (attrib : List SQLWCHAR) : ℕ → List ℕ
  | 0 => [2 ^ 64 - 1]
  | len + 1 => len :: if charAt attrib len = wide ' ' then trimIndices attrib len else []

/-- The last offset that `sqlwcharcasecmp` reads of its second string. -/
def casecmpOffset : List SQLWCHAR → List SQLWCHAR → ℕ
  | c₁ :: s₁, c₂ :: s₂ =>
    if c₁ = 0 ∨ c₂ = 0 then 0
    else if capitalize c₁ ≠ capitalize c₂ then 0 else casecmpOffset s₁ s₂ + 1
  | _, _ => 0

/-- The indices used on `attribute`: the copy with its terminator, the removal of
trailing blanks, the comparison with `OPTION` and the search in the option map. -/
def attributeIndices (str : List SQLWCHAR) (len : ℕ) : List ℕ :=
  let attrib := keyword str len
  List.range (len + 1) ++ trimIndices (str.take len) len ++
    List.range (casecmpOffset W_OPTION attrib + 1) ++
    if sqlwcharcasecmp W_OPTION attrib = 0 then [] else List.range (attrib.length + 1)

/-- A number as it is passed in an `SQLINTEGER`. -/
def toSqlinteger (n : ℤ) : ℤ := n.bmod (2 ^ 32)

/-- `SQL_NTS`: the text ends at its terminator. -/
def SQL_NTS : ℤ := -3

/-- The indices at which the loop of `set_remove_brackets` writes the units and
their terminator, from `pos` on. -/
def copyIndices (pos : ℕ) : List SQLWCHAR → List ℕ
  | [] => [pos]
  | [_] => [pos, pos + 1]
  | c :: c' :: val =>
    if c = wide '}' ∧ c' = wide '}' then pos :: copyIndices (pos + 1) val
    else pos :: copyIndices (pos + 1) (c' :: val)

/-- The number of bytes that `sqlwchar_as_utf8_ext` writes for `len` units. -/
def utf8Written (str : List SQLWCHAR) (len : ℕ) : ℕ :=
  ((run (encodeBody str len) (len + 1) ⟨0, 0, [], false⟩).map EncodeState.i).getD 0

/-- The units of `out` that `sqlwchar_as_utf8_ext` writes when it is offered the
buffer for its bytes. It allocates a block when `out` is too small for `len` units. -/
def utf8Indices (str : List SQLWCHAR) (len : ℤ) : List ℕ :=
  if len ≤ 0 ∨ 2048 < (len * MAX_BYTES_PER_UTF8_CP) % 2 ^ 32 then []
  else (List.range (utf8Written str len.toNat)).map (· / 2)

/-- The uses of `out` by `set_remove_brackets`. The function `behind` gives the
memory behind the stored string, which is read when brackets were removed. -/
def setRemoveBracketsUses (behind : SQLWSTRING → List SQLWCHAR) (val : List SQLWCHAR) (len : ℤ) :
    List BufferUse :=
  .valueLength len ::
    -- the constructor of the string throws on any other negative length
    if len < 0 ∧ len ≠ SQL_NTS then []
    else
      let valStr := val.take (if len = SQL_NTS then sqlwcharlen val else len.toNat)
      let stored := (Doubling.undouble (wide '}') valStr).takeWhile (· ≠ 0)
      ((if valStr = [] then [] else copyIndices 0 valStr) ++ List.range (stored.length + 1) ++
        utf8Indices (stored ++ 0 :: behind stored) (toSqlinteger valStr.length)).map .outAt

/-- The uses of the buffers for the value between two offsets. -/
def valueUses (behind : SQLWSTRING → List SQLWCHAR) (attrib : SQLWSTRING) (str : List SQLWCHAR)
    (start stop : ℕ) : List BufferUse :=
  if sqlwcharcasecmp W_OPTION attrib = 0 then []
  else
    match getOpt attrib with
    | some (.str _) =>
      if charAt str start = wide '{' ∧ charAt str stop = wide '}' then
        setRemoveBracketsUses behind (str.drop (start + 1)) (toSqlinteger (stop - start - 1))
      else setRemoveBracketsUses behind (str.drop start) (toSqlinteger (stop - start))
    | _ => []

/-- Where the search for the next pair starts: only a bracketed value of a string
option has its closing bracket stepped over. -/
def valueEnd (attrib : SQLWSTRING) (str : List SQLWCHAR) (start stop : ℕ) : ℕ :=
  if sqlwcharcasecmp W_OPTION attrib = 0 then stop
  else
    match getOpt attrib with
    | some (.str _) =>
      if charAt str start = wide '{' ∧ charAt str stop = wide '}' then stop + 1 else stop
    | _ => stop

/-- The uses of the buffers for the pair whose keyword ends at the offset `len`. -/
def pairUses (behind : SQLWSTRING → List SQLWCHAR) (delim : SQLWCHAR) (str : List SQLWCHAR)
    (len : ℕ) : List BufferUse :=
  let start := valueStart str len
  (attributeIndices str len).map .attributeAt ++
    valueUses behind (keyword str len) str start (trimValueEnd str start (valueStop str delim start))

/-- The uses of the buffers in one evaluation of the loop of `from_kvpair`. -/
def kvpairUses (behind : SQLWSTRING → List SQLWCHAR) (delim : SQLWCHAR) (text : List SQLWCHAR) :
    List BufferUse :=
  match sqlwcharchr (skipSpaces text) (wide '=') with
  | some len => if 1000 ≤ len then [] else pairUses behind delim (skipSpaces text) len
  | none => []

/-- One evaluation of the loop of `from_kvpair` on the cursor, with the return
code, or `none` when an access was out of range. -/
def boundedBody (behind : SQLWSTRING → List SQLWCHAR) (delim : SQLWCHAR) (text : List SQLWCHAR) :
    Step (List SQLWCHAR) (Option ℕ) :=
  if charAt text 0 = 0 then .done (some 0)
  else
    let str := skipSpaces text
    match sqlwcharchr str (wide '=') with
    | none => .done (some 1)
    | some len =>
      if 1000 ≤ len then .done (some 1)
      else if ∀ use ∈ kvpairUses behind delim text, use.InRange then
        let start := valueStart str len
        let stop := trimValueEnd str start (valueStop str delim start)
        .next (skipDelims delim (str.drop (valueEnd (keyword str len) str start stop)))
      else .done none

/-- Every use of the buffers in the run of `from_kvpair` on a text is in range. -/
def BuffersInRange (behind : SQLWSTRING → List SQLWCHAR) (delim : SQLWCHAR)
    (text : List SQLWCHAR) : Prop :=
  ∀ t, Reaches (boundedBody behind delim) text t →
    ∀ use ∈ kvpairUses behind delim t, use.InRange

/-- The value that a text gives behind `=` and the blanks after it: what the
closing bracket ends, or what is in front of the delimiter without trailing blanks. -/
def delimitedValue (delim : SQLWCHAR) (rest : List SQLWCHAR) : SQLWSTRING :=
  let text := rest.takeWhile (· ≠ 0)
  if charAt rest 0 ≠ wide '{' then (text.takeWhile (· ≠ delim)).rdropWhile (· = wide ' ')
  else
    match Doubling.closing (wide '}') text with
    | some k => (text.take k).drop 1
    | none => text.rdropWhile (· = wide ' ')

/-- The text begins with a keyword, and the value of a string option has at most
1023 units when pairs of brackets are counted once. The length of the value counts
modulo the size of an `SQLINTEGER`. -/
structure FitsBuffers (delim : SQLWCHAR) (text : List SQLWCHAR) : Prop where
  keyword : charAt (skipSpaces text) 0 ≠ wide '='
  value : ∀ len o, sqlwcharchr (skipSpaces text) (wide '=') = some len → len < 1000 →
    getOpt (Util.keyword (skipSpaces text) len) = some (.str o) →
    let val := delimitedValue delim (skipSpaces ((skipSpaces text).drop (len + 1)))
    (Doubling.undouble (wide '}') (val.take (val.length % 2 ^ 32))).length < 1024

theorem mem_trimIndices {attrib : List SQLWCHAR} {len index : ℕ} (hfirst : charAt attrib 0 ≠ wide ' ')
    (h : index ∈ trimIndices attrib (len + 1)) : index ≤ len := by
  induction len with
  | zero =>
    rw [trimIndices, if_neg hfirst] at h
    exact (List.mem_singleton.mp h).le
  | succ len ih =>
    rw [trimIndices] at h
    rcases List.mem_cons.mp h with rfl | h
    · exact le_rfl
    · split_ifs at h
      · exact (ih h).trans (Nat.le_succ len)
      · exact absurd h List.not_mem_nil

theorem casecmpOffset_le (s₁ s₂ : List SQLWCHAR) : casecmpOffset s₁ s₂ ≤ s₂.length := by
  induction s₁ generalizing s₂ with
  | nil => exact Nat.zero_le _
  | cons c₁ s₁ ih =>
    cases s₂ with
    | nil => exact Nat.zero_le _
    | cons c₂ s₂ =>
      rw [casecmpOffset, List.length_cons]
      have hrest := ih s₂
      split_ifs <;> omega

theorem keyword_length_le (str : List SQLWCHAR) (len : ℕ) : (keyword str len).length ≤ len := by
  have hprefix := (List.rdropWhile_prefix (fun c => decide (c = wide ' ')) (l := str.take len)).length_le
  exact hprefix.trans (List.length_take_le _ _)

/-- A keyword that is not empty stays inside `attribute`. -/
theorem attributeIndices_lt {str : List SQLWCHAR} {len index : ℕ} (hpos : 0 < len) (hlen : len < 1000)
    (hfirst : charAt str 0 ≠ wide ' ') (h : index ∈ attributeIndices str len) : index < 1000 := by
  have hkeyword := keyword_length_le str len
  have hoffset := casecmpOffset_le W_OPTION (keyword str len)
  have htake : charAt (str.take len) 0 ≠ wide ' ' := by
    obtain ⟨k, rfl⟩ := Nat.exists_eq_add_of_le' hpos
    cases str with
    | nil => exact hfirst
    | cons c str => simpa using hfirst
  simp only [attributeIndices, List.mem_append, List.mem_range] at h
  rcases h with ((h | h) | h) | h
  · omega
  · obtain ⟨k, rfl⟩ := Nat.exists_eq_add_of_le' hpos
    have := mem_trimIndices htake h
    omega
  · omega
  · split_ifs at h
    · exact absurd h List.not_mem_nil
    · have := List.mem_range.mp h
      omega

/-- The loop of `set_remove_brackets` uses the indices up to the terminator. -/
theorem mem_copyIndices {val : List SQLWCHAR} {pos index : ℕ} :
    index ∈ copyIndices pos val ↔
      pos ≤ index ∧ index ≤ pos + (Doubling.undouble (wide '}') val).length := by
  induction pos, val using copyIndices.induct with
  | case1 pos =>
    simp only [copyIndices, Doubling.undouble, List.mem_singleton, List.length_nil]
    omega
  | case2 pos c =>
    simp only [copyIndices, Doubling.undouble, List.mem_cons, List.not_mem_nil, or_false,
      List.length_singleton]
    omega
  | case3 pos c c' val hpair ih =>
    rw [copyIndices, if_pos hpair, Doubling.undouble, if_pos hpair, List.mem_cons, ih, List.length_cons]
    omega
  | case4 pos c c' val hpair ih =>
    rw [copyIndices, if_neg hpair, Doubling.undouble, if_neg hpair, List.mem_cons, ih, List.length_cons]
    omega

/-- Every unit of the text gives at most four bytes. -/
theorem utf8Written_le (str : List SQLWCHAR) (len : ℕ) : utf8Written str len ≤ 4 * len := by
  rw [utf8Written]
  cases hrun : run (encodeBody str len) (len + 1) ⟨0, 0, [], false⟩ with
  | none => exact Nat.zero_le _
  | some s =>
    obtain ⟨t, hreach, hdone⟩ := Returns.exists_done ⟨_, hrun⟩
    have hinv : t.i ≤ 4 * t.str ∧ t.i ≤ 4 * len := by
      refine hreach.invariant (fun t => t.i ≤ 4 * t.str ∧ t.i ≤ 4 * len) ?_ ⟨le_rfl, Nat.zero_le _⟩
      intro t t' ht hnext
      unfold encodeBody at hnext
      split_ifs at hnext with hend
      dsimp only at hnext
      split_ifs at hnext with hconsumed
      cases Step.next.inj hnext
      have hbytes := length_utf32toutf8_le (utf16toutf32 (str.drop t.str)).2
      dsimp only
      omega
    have hs : s = t := by
      unfold encodeBody at hdone
      split_ifs at hdone with hend
      · exact (Step.done.inj hdone).symm
      · dsimp only at hdone
        split_ifs at hdone
        exact (Step.done.inj hdone).symm
    rw [hs]
    exact hinv.2

/-- Taking pairs as one bracket removes at most half of the units. -/
theorem length_le_undouble (val : List SQLWCHAR) :
    val.length ≤ 2 * (Doubling.undouble (wide '}') val).length := by
  induction val using Doubling.undouble.induct (wide '}') with
  | case1 => exact Nat.zero_le _
  | case2 c => simp [Doubling.undouble]
  | case3 c c' val hpair ih =>
    rw [Doubling.undouble, if_pos hpair]
    simp only [List.length_cons]
    omega
  | case4 c c' val hpair ih =>
    rw [Doubling.undouble, if_neg hpair]
    simp only [List.length_cons] at ih ⊢
    omega

theorem toSqlinteger_of_small {n : ℕ} (h : n % 2 ^ 32 < 2 ^ 31) :
    toSqlinteger n = (n % 2 ^ 32 : ℕ) := by
  rw [toSqlinteger, Int.bmod_def]
  omega

/-- The bytes that are written into `out` stay inside it. -/
theorem mem_utf8Indices {str : List SQLWCHAR} {len : ℤ} {index : ℕ} (hlen : len < 2 ^ 29)
    (h : index ∈ utf8Indices str len) : index < 1024 := by
  rw [utf8Indices] at h
  split_ifs at h with hfits
  · exact absurd h List.not_mem_nil
  · obtain ⟨k, hk, rfl⟩ := List.mem_map.mp h
    have hwritten := utf8Written_le str len.toNat
    have hk := List.mem_range.mp hk
    simp only [MAX_BYTES_PER_UTF8_CP] at hfits
    omega

/-- A value is copied inside `out` exactly when its part that is passed on fits
with its terminator. -/
theorem setRemoveBracketsUses_inRange_iff (behind : SQLWSTRING → List SQLWCHAR)
    (val tail : List SQLWCHAR) :
    (∀ use ∈ setRemoveBracketsUses behind (val ++ tail) (toSqlinteger val.length), use.InRange) ↔
      (Doubling.undouble (wide '}') (val.take (val.length % 2 ^ 32))).length < 1024 := by
  have hmod := Nat.mod_le val.length (2 ^ 32)
  have htake : (val ++ tail).take (val.length % 2 ^ 32) = val.take (val.length % 2 ^ 32) :=
    List.take_append_of_le_length hmod
  have hnotNts {n : ℕ} : ((n : ℕ) : ℤ) ≠ SQL_NTS := by
    simp only [SQL_NTS]
    omega
  constructor
  · intro h
    have hlen : 0 ≤ toSqlinteger val.length := h (.valueLength _) List.mem_cons_self
    have hsmall : val.length % 2 ^ 32 < 2 ^ 31 := by
      rw [toSqlinteger, Int.bmod_def] at hlen
      omega
    rw [toSqlinteger_of_small hsmall, setRemoveBracketsUses, if_neg (by omega), if_neg hnotNts,
      Int.toNat_natCast, htake] at h
    by_cases hnil : val.take (val.length % 2 ^ 32) = []
    · rw [hnil]
      decide
    · have hlast := h (.outAt (Doubling.undouble (wide '}') (val.take (val.length % 2 ^ 32))).length)
      apply hlast
      dsimp only
      rw [if_neg hnil]
      have hcopy : (Doubling.undouble (wide '}') (val.take (val.length % 2 ^ 32))).length ∈
          copyIndices 0 (val.take (val.length % 2 ^ 32)) :=
        mem_copyIndices.mpr ⟨Nat.zero_le _, (Nat.zero_add _).ge⟩
      simp only [List.map_append, List.mem_cons, List.mem_append]
      exact Or.inr (Or.inl (Or.inl (List.mem_map_of_mem hcopy)))
  · intro h
    have hhalf := length_le_undouble (val.take (val.length % 2 ^ 32))
    rw [List.length_take, Nat.min_eq_left hmod] at hhalf
    have hsmall : val.length % 2 ^ 32 < 2 ^ 31 := by omega
    rw [toSqlinteger_of_small hsmall, setRemoveBracketsUses, if_neg (by omega), if_neg hnotNts,
      Int.toNat_natCast, htake]
    intro use huse
    rcases List.mem_cons.mp huse with rfl | huse
    · exact Int.natCast_nonneg _
    obtain ⟨index, hindex, rfl⟩ := List.mem_map.mp huse
    show index < 1024
    rcases List.mem_append.mp hindex with hindex | hindex
    · rcases List.mem_append.mp hindex with hindex | hindex
      · split_ifs at hindex
        · exact absurd hindex List.not_mem_nil
        · have := (mem_copyIndices.mp hindex).2
          omega
      · have hindex := List.mem_range.mp hindex
        have hstored := (List.takeWhile_prefix (fun c : SQLWCHAR => decide (c ≠ 0))
          (l := Doubling.undouble (wide '}') (val.take (val.length % 2 ^ 32)))).length_le
        omega
    · refine mem_utf8Indices ?_ hindex
      rw [List.length_take, Nat.min_eq_left hmod, toSqlinteger_of_small (by omega)]
      omega

theorem sqlwcharlen_eq (str : List SQLWCHAR) : sqlwcharlen str = (str.takeWhile (· ≠ 0)).length := by
  induction str with
  | nil => rfl
  | cons c str ih =>
    rw [sqlwcharlen]
    by_cases hc : c = 0
    · simp [hc]
    · simp [hc, ih]

/-- A search that falls back to the end of the text stops behind the units that
are neither the terminator nor the unit searched for. -/
theorem sqlwcharchr_getD (str : List SQLWCHAR) (wchr : SQLWCHAR) :
    (sqlwcharchr str wchr).getD (sqlwcharlen str) =
      ((str.takeWhile (· ≠ 0)).takeWhile (· ≠ wchr)).length := by
  induction str with
  | nil => rfl
  | cons c str ih =>
    rw [sqlwcharchr, sqlwcharlen]
    by_cases hc : c = 0
    · simp [hc]
    by_cases hw : c = wchr
    · subst hw
      simp [hc]
    · rw [if_neg hc, if_neg hw, if_neg hc]
      cases hfind : sqlwcharchr str wchr <;> simp_all

theorem charAt_takeWhile {str : List SQLWCHAR} :
    charAt (str.takeWhile (· ≠ 0)) 0 = 0 ↔ charAt str 0 = 0 := by
  cases str with
  | nil => rfl
  | cons c str => by_cases hc : c = 0 <;> simp [hc]

/-- The bracket search does not look behind the terminator. -/
theorem findBracketEnd_takeWhile (str : List SQLWCHAR) :
    findBracketEnd (str.takeWhile (· ≠ 0)) = findBracketEnd str := by
  have hbracket : wide '}' ≠ 0 := by decide
  induction str using findBracketEnd.induct with
  | case1 => rfl
  | case2 => simp [hbracket]
  | case3 c hc =>
    by_cases hnul : c = 0
    · simp [hnul, findBracketEnd, hbracket.symm]
    · simp [hnul]
  | case4 c' wstr => simp [findBracketEnd]
  | case5 c c' wstr hc₀ hc ih =>
    rw [findBracketEnd, if_neg hc₀, if_pos hc, ← ih]
    by_cases hc' : c' = 0
    · simp [hc₀, hc', hc, findBracketEnd]
    · simp only [ne_eq, hc₀, not_false_eq_true, decide_true, List.takeWhile_cons_of_pos, hc']
      rw [findBracketEnd, if_neg hc₀, if_pos hc]
  | case6 c wstr hc₀ hc =>
    have hc := not_not.mp hc
    subst hc
    simp [hbracket, findBracketEnd]
  | case7 c c' wstr hc₀ hc hc'₀ hc' =>
    rw [List.takeWhile_cons_of_pos (by simpa using hc₀), List.takeWhile_cons_of_pos (by simpa using hc'₀)]
    simp only [findBracketEnd, if_neg hc₀, if_neg hc, if_neg hc'₀, if_pos hc']
  | case8 c c' wstr hc₀ hc hc'₀ hc' hend =>
    have hrest : charAt (wstr.takeWhile (· ≠ 0)) 0 = 0 := charAt_takeWhile.mpr hend
    rw [List.takeWhile_cons_of_pos (by simpa using hc₀), List.takeWhile_cons_of_pos (by simpa using hc'₀)]
    simp only [findBracketEnd, if_neg hc₀, if_neg hc, if_neg hc'₀, if_neg hc', if_pos hrest, if_pos hend]
  | case9 c c' wstr hc₀ hc hc'₀ hc' hend ih =>
    have hrest : charAt (wstr.takeWhile (· ≠ 0)) 0 ≠ 0 := charAt_takeWhile.not.mpr hend
    rw [List.takeWhile_cons_of_pos (by simpa using hc₀), List.takeWhile_cons_of_pos (by simpa using hc'₀)]
    simp only [findBracketEnd, if_neg hc₀, if_neg hc, if_neg hc'₀, if_neg hc', if_neg hrest, if_neg hend, ih]

/-- Without a closing bracket the value reaches to the end of the text. -/
theorem findBracketEnd_of_closing_none {str : List SQLWCHAR} (hnul : 0 ∉ str)
    (h : Doubling.closing (wide '}') str = none) : (findBracketEnd str).getD str.length = str.length := by
  induction str using findBracketEnd.induct with
  | case1 => rfl
  | case2 => simp [Doubling.closing] at h
  | case3 c hc => simp [findBracketEnd, hc]
  | case4 c' wstr => simp at hnul
  | case5 c c' wstr hc₀ hc ih =>
    rw [Doubling.closing_cons_of_ne hc, Option.map_eq_none_iff] at h
    have hrest := ih (fun hmem => hnul (List.mem_cons_of_mem _ hmem)) h
    rw [findBracketEnd, if_neg hc₀, if_pos hc]
    cases hfind : findBracketEnd (c' :: wstr) with
    | none => rfl
    | some k =>
      rw [hfind] at hrest
      simpa using hrest
  | case6 c wstr hc₀ hc => simp at hnul
  | case7 c c' wstr hc₀ hc hc'₀ hc' =>
    rw [not_not.mp hc, Doubling.closing_self (by simpa using hc')] at h
    cases h
  | case8 c c' wstr hc₀ hc hc'₀ hc' hend =>
    have hnil : wstr = [] := by
      cases wstr with
      | nil => rfl
      | cons c₂ wstr =>
        refine absurd ?_ hnul
        have hc₂ : c₂ = 0 := hend
        simp [hc₂]
    simp [hnil, findBracketEnd, hc₀, hc, hc'₀, hc']
  | case9 c c' wstr hc₀ hc hc'₀ hc' hend ih =>
    rw [not_not.mp hc, not_not.mp hc', Doubling.closing_pair, Option.map_eq_none_iff] at h
    have hrest := ih (fun hmem => hnul (by simp [hmem])) h
    rw [findBracketEnd, if_neg hc₀, if_neg hc, if_neg hc'₀, if_neg hc', if_neg hend]
    cases hfind : findBracketEnd wstr with
    | none => rfl
    | some k =>
      rw [hfind] at hrest
      simpa using hrest

/-- Behind the units in front of `d` stands `d` or nothing. -/
theorem charAt_dropWhile (str : List SQLWCHAR) (d : SQLWCHAR) :
    str.dropWhile (· ≠ d) = [] ∨ charAt (str.dropWhile (· ≠ d)) 0 = d := by
  induction str with
  | nil => exact Or.inl rfl
  | cons c str ih =>
    by_cases hc : c = d
    · exact Or.inr (by simp [hc])
    · rw [List.dropWhile_cons_of_pos (by simpa using hc)]
      exact ih

/-- Trailing blanks of a word are removed when no bracket follows it. -/
theorem trimValueEnd_word (pre word after : List SQLWCHAR) (hafter : charAt after 0 ≠ wide '}') :
    trimValueEnd (pre ++ (word ++ after)) pre.length (pre.length + word.length) =
      pre.length + (word.rdropWhile (· = wide ' ')).length := by
  obtain ⟨trail, heq, htrail⟩ := exists_rdropWhile_append word
  have hlast : ∀ h : word.rdropWhile (· = wide ' ') ≠ [],
      (word.rdropWhile (· = wide ' ')).getLast h ≠ wide ' ' := by
    intro h
    simpa using List.rdropWhile_last_not (fun c : SQLWCHAR => decide (c = wide ' ')) word h
  generalize word.rdropWhile (· = wide ' ') = kept at heq hlast
  subst heq
  rw [List.length_append, ← Nat.add_assoc, trimValueEnd_blanks (by omega)]
  · apply trimValueEnd_eq_self
    rcases List.eq_nil_or_concat kept with rfl | ⟨init, c, rfl⟩
    · exact Or.inl (Nat.add_zero _)
    · right
      have hindex : pre.length + (init.concat c).length - 1 = pre.length + init.length := by simp
      have hc : c ≠ wide ' ' := by simpa using hlast (by simp)
      rw [hindex, charAt_append, List.concat_eq_append]
      simp only [List.append_assoc, charAt_append_length]
      simpa using hc
  · intro i hi
    have hchar := htrail _ (List.getElem_mem hi)
    rw [Nat.add_assoc, charAt_append, List.append_assoc, charAt_append, charAt,
      List.getD_eq_getElem?_getD, List.getElem?_append_left hi, List.getElem?_eq_getElem hi]
    exact hchar
  · rwa [Nat.add_assoc, charAt_append, List.append_assoc, charAt_append, charAt_append_length]

/-- A value that no bracket opens ends at the delimiter. -/
theorem valueStop_plain {pre rest : List SQLWCHAR} {delim : SQLWCHAR} (hnul : 0 ∉ pre)
    (hpre : delim ∉ pre) (hdelim : delim ≠ wide '}') (hbrace : charAt rest 0 ≠ wide '{') :
    trimValueEnd (pre ++ rest) pre.length (valueStop (pre ++ rest) delim pre.length) =
      pre.length + (delimitedValue delim rest).length := by
  have hstop : valueStop (pre ++ rest) delim pre.length =
      pre.length + ((rest.takeWhile (· ≠ 0)).takeWhile (· ≠ delim)).length := by
    have hne₀ : ∀ c ∈ pre, decide (c ≠ 0) = true := fun c hc =>
      decide_eq_true fun h => hnul (h ▸ hc)
    have hne : ∀ c ∈ pre, decide (c ≠ delim) = true := fun c hc =>
      decide_eq_true fun h => hpre (h ▸ hc)
    rw [valueStop, charAt_append_length, if_neg hbrace, sqlwcharchr_getD,
      List.takeWhile_append_of_pos hne₀, List.takeWhile_append_of_pos hne, List.length_append]
  have hrest : rest = (rest.takeWhile (· ≠ 0)).takeWhile (· ≠ delim) ++
      ((rest.takeWhile (· ≠ 0)).dropWhile (· ≠ delim) ++ rest.dropWhile (· ≠ 0)) := by
    rw [← List.append_assoc, List.takeWhile_append_dropWhile, List.takeWhile_append_dropWhile]
  have hafter : charAt ((rest.takeWhile (· ≠ 0)).dropWhile (· ≠ delim) ++ rest.dropWhile (· ≠ 0)) 0 ≠
      wide '}' := by
    have hbracket : (0 : SQLWCHAR) ≠ wide '}' := by decide
    cases hdrop : (rest.takeWhile (· ≠ 0)).dropWhile (· ≠ delim) with
    | nil =>
      rw [List.nil_append]
      rcases charAt_dropWhile rest 0 with hnil | hzero
      · rwa [hnil, charAt_nil]
      · rwa [hzero]
    | cons c text =>
      rcases charAt_dropWhile (rest.takeWhile (· ≠ 0)) delim with hnil | hchar
      · rw [hdrop] at hnil
        cases hnil
      · rw [hdrop] at hchar
        rw [List.cons_append, charAt_cons_zero]
        exact fun h => hdelim (hchar.symm.trans h)
  have htrim := trimValueEnd_word pre ((rest.takeWhile (· ≠ 0)).takeWhile (· ≠ delim)) _ hafter
  rw [← hrest] at htrim
  rw [hstop, delimitedValue, if_pos hbrace]
  exact htrim

/-- The bracket search from the keyword on finds the bracket that closes the value. -/
theorem findBracketEnd_append {pre rest : List SQLWCHAR} (hnul : 0 ∉ pre) (hpre : wide '}' ∉ pre) :
    (findBracketEnd (pre ++ rest)).getD (sqlwcharlen (pre ++ rest)) = pre.length +
      ((Doubling.closing (wide '}') (rest.takeWhile (· ≠ 0))).getD (rest.takeWhile (· ≠ 0)).length) := by
  have hne₀ : ∀ c ∈ pre, decide (c ≠ 0) = true := fun c hc => decide_eq_true fun h => hnul (h ▸ hc)
  have hnone : 0 ∉ pre ++ rest.takeWhile (· ≠ 0) := by
    intro hmem
    rcases List.mem_append.mp hmem with hmem | hmem
    · exact hnul hmem
    · simpa using List.mem_takeWhile_imp hmem
  have hclosing := @Doubling.closing_append _ _ _ (rest.takeWhile (· ≠ 0)) _ hpre
  rw [← findBracketEnd_takeWhile, sqlwcharlen_eq, List.takeWhile_append_of_pos hne₀]
  cases hfind : Doubling.closing (wide '}') (rest.takeWhile (· ≠ 0)) with
  | none =>
    rw [hfind, Option.map_none] at hclosing
    rw [findBracketEnd_of_closing_none hnone hclosing, List.length_append]
    rfl
  | some k =>
    rw [hfind, Option.map_some] at hclosing
    rw [findBracketEnd_of_closing hnone hclosing, Option.getD_some, Option.getD_some, Nat.add_comm]

/-- Where a value with an opening bracket ends. -/
theorem valueStop_bracketed {pre rest : List SQLWCHAR} (delim : SQLWCHAR) (hnul : 0 ∉ pre)
    (hpre : wide '}' ∉ pre) (hbrace : charAt rest 0 = wide '{') :
    let stop := trimValueEnd (pre ++ rest) pre.length (valueStop (pre ++ rest) delim pre.length)
    if charAt (pre ++ rest) stop = wide '}' then
      stop = pre.length + 1 + (delimitedValue delim rest).length ∧
        delimitedValue delim rest <+: rest.drop 1
    else
      stop = pre.length + (delimitedValue delim rest).length ∧
        delimitedValue delim rest <+: rest := by
  intro stop
  have hrest : rest = rest.takeWhile (· ≠ 0) ++ rest.dropWhile (· ≠ 0) :=
    List.takeWhile_append_dropWhile.symm
  have hsearch : stop = trimValueEnd (pre ++ rest) pre.length _ :=
    congrArg _ ((if_pos ((charAt_append_length pre rest).trans hbrace)).trans
      (findBracketEnd_append hnul hpre))
  cases hfind : Doubling.closing (wide '}') (rest.takeWhile (· ≠ 0)) with
  | none =>
    -- no bracket closes the value, so it reaches to the end without trailing blanks
    have hbracket : (0 : SQLWCHAR) ≠ wide '}' ∧ wide ' ' ≠ wide '}' := by decide
    have hafter : charAt (rest.dropWhile (· ≠ 0)) 0 ≠ wide '}' := by
      rcases charAt_dropWhile rest 0 with hnil | hzero
      · rw [hnil, charAt_nil]
        exact hbracket.1
      · rw [hzero]
        exact hbracket.1
    have hval : delimitedValue delim rest = (rest.takeWhile (· ≠ 0)).rdropWhile (· = wide ' ') := by
      simp only [delimitedValue, hbrace, ne_eq, not_true, if_false, hfind]
    have htrim := trimValueEnd_word pre (rest.takeWhile (· ≠ 0)) _ hafter
    rw [← hrest, ← hval] at htrim
    rw [hfind, Option.getD_none, htrim] at hsearch
    obtain ⟨trail, heq, htrail⟩ := exists_rdropWhile_append (rest.takeWhile (· ≠ 0))
    rw [← hval] at heq
    rw [heq, List.append_assoc] at hrest
    generalize delimitedValue delim rest = val at *
    have hchar : charAt (pre ++ rest) stop ≠ wide '}' := by
      rw [hsearch, charAt_append, hrest, charAt_append_length]
      cases trail with
      | nil => exact hafter
      | cons c trail =>
        rw [List.cons_append, charAt_cons_zero, htrail c List.mem_cons_self]
        exact hbracket.2
    rw [if_neg hchar]
    exact ⟨hsearch, _, hrest.symm⟩
  | some k =>
    obtain ⟨before, after, htext, rfl⟩ := Doubling.exists_eq_of_closing hfind
    rw [htext, List.append_assoc, List.cons_append] at hrest
    obtain ⟨c, before, rfl⟩ : ∃ c tail, before = c :: tail := by
      refine List.exists_cons_of_ne_nil fun hnil => ?_
      rw [hnil] at hrest
      rw [hrest] at hbrace
      exact absurd hbrace (by simp [wide])
    have hval : delimitedValue delim rest = before := by
      rw [htext] at hfind
      simp only [delimitedValue, hbrace, ne_eq, not_true, if_false, htext, hfind]
      rw [List.take_left]
      rfl
    have hchar : charAt (pre ++ rest) (pre.length + (c :: before).length) = wide '}' := by
      rw [charAt_append, hrest, charAt_append_length]
      rfl
    have hstop : stop = pre.length + (c :: before).length := by
      rw [hsearch, hfind, Option.getD_some, List.length_cons, ← Nat.add_assoc, trimValueEnd, if_neg]
      rintro ⟨-, -, hne⟩
      exact hne hchar
    rw [hstop, if_pos hchar, hval]
    refine ⟨by rw [List.length_cons]; omega, ?_⟩
    have hdrop : rest.drop 1 = before ++ wide '}' :: (after ++ rest.dropWhile (· ≠ 0)) :=
      congrArg (List.drop 1) hrest
    rw [hdrop]
    exact List.prefix_append _ _

theorem capitalize_toupper (c : SQLWCHAR) : capitalize (toupper c) = capitalize c := by
  unfold toupper
  split_ifs with hlower
  · have ha : (wide 'a').toNat = 97 := rfl
    have hz : (wide 'z').toNat = 122 := rfl
    have hshift : (wide 'a' - wide 'A').toNat = 32 := rfl
    obtain ⟨hle, hge⟩ := hlower
    rw [UInt16.le_iff_toNat_le] at hle hge
    have hsub : (c - (wide 'a' - wide 'A')).toNat = c.toNat - 32 := by
      rw [UInt16.toNat_sub_of_le _ _ (UInt16.le_iff_toNat_le.mpr (by omega)), hshift]
    rw [capitalize, if_neg (by rw [UInt16.le_iff_toNat_le]; omega), capitalize,
      if_pos (UInt16.le_iff_toNat_le.mpr hle)]
  · rfl

theorem toupper_eq_zero {c : SQLWCHAR} : toupper c = 0 ↔ c = 0 := by
  unfold toupper
  split_ifs with hlower
  · have ha : (wide 'a').toNat = 97 := rfl
    have hshift : (wide 'a' - wide 'A').toNat = 32 := rfl
    have hle := UInt16.le_iff_toNat_le.mp hlower.1
    rw [← UInt16.toNat_inj, ← UInt16.toNat_inj,
      UInt16.toNat_sub_of_le _ _ (UInt16.le_iff_toNat_le.mpr (by omega)), hshift]
    have hzero : (0 : SQLWCHAR).toNat = 0 := rfl
    omega
  · rfl

theorem zero_eq_toupper {c : SQLWCHAR} : 0 = toupper c ↔ 0 = c := by
  rw [eq_comm, toupper_eq_zero, eq_comm]

/-- The comparison does not see the case of the letters. -/
theorem sqlwcharcasecmp_map_toupper (s₁ s₂ : List SQLWCHAR) :
    sqlwcharcasecmp s₁ (s₂.map toupper) = sqlwcharcasecmp s₁ s₂ := by
  induction s₁ generalizing s₂ with
  | nil =>
    cases s₂ with
    | nil => rfl
    | cons c₂ s₂ => simp [sqlwcharcasecmp, zero_eq_toupper]
  | cons c₁ s₁ ih =>
    cases s₂ with
    | nil => rfl
    | cons c₂ s₂ =>
      simp only [List.map_cons, sqlwcharcasecmp, capitalize_toupper, toupper_eq_zero, ih]
      by_cases hc₁ : c₁ = 0
      · simp only [hc₁, zero_eq_toupper]
      · by_cases hc₂ : c₂ = 0
        · simp only [hc₂, toupper_eq_zero.mpr]
        · simp only [hc₁, hc₂, or_self, if_false]

/-- A name with an option is a keyword of the driver in some spelling. -/
theorem exists_entry_of_getOpt {name : SQLWSTRING} {ref : OptionRef} (h : getOpt name = some ref) :
    ∃ entry ∈ optionEntries, entry.1 = name.map toupper := by
  by_contra hnone
  rw [getOpt_eq_none fun entry hentry heq => hnone ⟨entry, hentry, heq⟩] at h
  cases h

theorem notMem_of_getOpt {name : SQLWSTRING} {ref : OptionRef} (h : getOpt name = some ref)
    {c : SQLWCHAR} (hc : isKeywordUnit (toupper c) = false) : c ∉ name := by
  obtain ⟨entry, hentry, heq⟩ := exists_entry_of_getOpt h
  intro hmem
  apply (optionEntries_keywordOk entry hentry).notMem hc
  rw [heq]
  exact List.mem_map_of_mem hmem

theorem ne_option_of_getOpt {name : SQLWSTRING} {ref : OptionRef} (h : getOpt name = some ref) :
    sqlwcharcasecmp W_OPTION name ≠ 0 := by
  obtain ⟨entry, hentry, heq⟩ := exists_entry_of_getOpt h
  rw [← sqlwcharcasecmp_map_toupper, ← heq]
  exact (optionEntries_keywordOk entry hentry).ne_option

/-- In front of the value stand the keyword, `=` and blanks. -/
theorem exists_pair_split {str : List SQLWCHAR} {len : ℕ} {ref : OptionRef}
    (hfind : sqlwcharchr str (wide '=') = some len) (hopt : getOpt (keyword str len) = some ref) :
    ∃ pre, str = pre ++ skipSpaces (str.drop (len + 1)) ∧ pre.length = valueStart str len ∧
      ∀ c, isKeywordUnit (toupper c) = false → c ≠ wide ' ' → c ≠ wide '=' → c ∉ pre := by
  have hchar : charAt str len = wide '=' := (charAt_of_sqlwcharchr hfind).1
  have hlen : len < str.length := by
    by_contra hge
    rw [charAt, List.getD_eq_getElem?_getD, List.getElem?_eq_none (Nat.not_lt.mp hge)] at hchar
    exact absurd hchar (by decide)
  have hequal : str.drop len = wide '=' :: str.drop (len + 1) := by
    rw [List.drop_eq_getElem_cons hlen]
    rw [charAt, List.getD_eq_getElem?_getD, List.getElem?_eq_getElem hlen] at hchar
    rw [← hchar, Option.getD_some]
  refine ⟨str.take len ++ wide '=' :: (str.drop (len + 1)).takeWhile (· = wide ' '), ?_, ?_, ?_⟩
  · rw [List.append_assoc, List.cons_append, skipSpaces, List.takeWhile_append_dropWhile, ← hequal,
      List.take_append_drop]
  · rw [List.length_append, List.length_cons, List.length_take, Nat.min_eq_left hlen.le, valueStart]
    omega
  · intro c hc hblank heq hmem
    obtain ⟨trail, htake, htrail⟩ := exists_rdropWhile_append (str.take len)
    rw [htake] at hmem
    simp only [List.mem_append, List.mem_cons] at hmem
    rcases hmem with (hmem | hmem) | hmem | hmem
    · exact notMem_of_getOpt hopt hc hmem
    · exact hblank (htrail c hmem)
    · exact heq hmem
    · exact hblank (by simpa using List.mem_takeWhile_imp hmem)

/-- What is passed on for a string option is the text of the value with its length. -/
theorem valueUses_eq {behind : SQLWSTRING → List SQLWCHAR} {delim : SQLWCHAR} {attrib : SQLWSTRING}
    {pre rest : List SQLWCHAR} {o : StrOption} (hdelim : delim = wide ';' ∨ delim = 0)
    (hopt : getOpt attrib = some (.str o))
    (hpre : ∀ c, isKeywordUnit (toupper c) = false → c ≠ wide ' ' → c ≠ wide '=' → c ∉ pre) :
    ∃ tail, valueUses behind attrib (pre ++ rest) pre.length
        (trimValueEnd (pre ++ rest) pre.length (valueStop (pre ++ rest) delim pre.length)) =
      setRemoveBracketsUses behind (delimitedValue delim rest ++ tail)
        (toSqlinteger (delimitedValue delim rest).length) := by
  have hnul : 0 ∉ pre := hpre 0 (by decide) (by decide) (by decide)
  have hbracket : wide '}' ∉ pre := hpre _ (by decide) (by decide) (by decide)
  have hdelimPre : delim ∉ pre := by
    rcases hdelim with rfl | rfl
    · exact hpre _ (by decide) (by decide) (by decide)
    · exact hnul
  have hdrop₁ : (pre ++ rest).drop (pre.length + 1) = rest.drop 1 := by
    rw [← List.drop_drop, List.drop_left]
  simp only [valueUses, if_neg (ne_option_of_getOpt hopt), hopt, charAt_append_length, hdrop₁,
    List.drop_left]
  by_cases hbrace : charAt rest 0 = wide '{'
  · have hstop := @valueStop_bracketed pre rest delim hnul hbracket hbrace
    dsimp only at hstop
    generalize trimValueEnd (pre ++ rest) pre.length _ = stop at hstop ⊢
    split_ifs at hstop with hclosed
    · obtain ⟨rfl, tail, htail⟩ := hstop
      refine ⟨tail, ?_⟩
      rw [htail, if_pos ⟨hbrace, hclosed⟩]
      congr 2
      omega
    · obtain ⟨rfl, tail, htail⟩ := hstop
      refine ⟨tail, ?_⟩
      rw [htail, if_neg fun h => hclosed h.2]
      congr 2
      omega
  · have hne : delim ≠ wide '}' := by
      rcases hdelim with rfl | rfl <;> decide
    rw [if_neg fun h => hbrace h.1, valueStop_plain hnul hdelimPre hne hbrace]
    have hprefix : delimitedValue delim rest <+: rest := by
      rw [delimitedValue, if_pos hbrace]
      exact (List.rdropWhile_prefix _ _).trans
        ((List.takeWhile_prefix _).trans (List.takeWhile_prefix _))
    obtain ⟨tail, htail⟩ := hprefix
    refine ⟨tail, ?_⟩
    rw [htail]
    congr 2
    omega

theorem charAt_skipSpaces (text : List SQLWCHAR) : charAt (skipSpaces text) 0 ≠ wide ' ' := by
  induction text with
  | nil => decide
  | cons c text ih =>
    by_cases hc : c = wide ' '
    · have hskip : skipSpaces (c :: text) = skipSpaces text := by simp [skipSpaces, hc]
      rwa [hskip]
    · have hskip : skipSpaces (c :: text) = c :: text := by simp [skipSpaces, hc]
      rwa [hskip]

theorem sqlwcharchr_eq_zero_iff {str : List SQLWCHAR} {wchr : SQLWCHAR} (hwchr : wchr ≠ 0) :
    sqlwcharchr str wchr = some 0 ↔ charAt str 0 = wchr := by
  constructor
  · exact fun h => (charAt_of_sqlwcharchr h).1
  · intro h
    cases str with
    | nil => exact absurd h.symm hwchr
    | cons c str =>
      have hc : c = wchr := h
      rw [sqlwcharchr, if_neg (hc ▸ hwchr), if_pos hc]

/-- One evaluation uses the buffers in range exactly when the text fits. -/
theorem kvpairUses_inRange_iff (behind : SQLWSTRING → List SQLWCHAR) {delim : SQLWCHAR}
    (text : List SQLWCHAR) (hdelim : delim = wide ';' ∨ delim = 0) :
    (∀ use ∈ kvpairUses behind delim text, use.InRange) ↔ FitsBuffers delim text := by
  have hequal : wide '=' ≠ 0 := by decide
  have hkeyword : charAt (skipSpaces text) 0 ≠ wide '=' ↔
      sqlwcharchr (skipSpaces text) (wide '=') ≠ some 0 :=
    (sqlwcharchr_eq_zero_iff hequal).not.symm
  rw [kvpairUses]
  cases hfind : sqlwcharchr (skipSpaces text) (wide '=') with
  | none =>
    refine iff_of_true (by simp) ⟨?_, ?_⟩
    · exact hkeyword.mpr (by simp [hfind])
    · intro len o hlen
      rw [hfind] at hlen
      cases hlen
  | some len =>
    rw [hfind] at hkeyword
    dsimp only
    by_cases hlong : 1000 ≤ len
    · rw [if_pos hlong]
      refine iff_of_true (by simp) ⟨hkeyword.mpr ?_, ?_⟩
      · intro h
        have := Option.some.inj h
        omega
      · intro len' o hlen hlt
        have := Option.some.inj (hfind.symm.trans hlen)
        omega
    rw [if_neg hlong]
    -- the value of a string option is passed on as the text delimits it
    have hvalue : ∀ o, getOpt (keyword (skipSpaces text) len) = some (.str o) →
        ∃ tail, valueUses behind (keyword (skipSpaces text) len) (skipSpaces text)
          (valueStart (skipSpaces text) len) (trimValueEnd (skipSpaces text)
            (valueStart (skipSpaces text) len)
            (valueStop (skipSpaces text) delim (valueStart (skipSpaces text) len))) =
          setRemoveBracketsUses behind
            (delimitedValue delim (skipSpaces ((skipSpaces text).drop (len + 1))) ++ tail)
            (toSqlinteger
              (delimitedValue delim (skipSpaces ((skipSpaces text).drop (len + 1)))).length) := by
      intro o hopt
      obtain ⟨pre, hsplit, hlength, hpre⟩ := exists_pair_split hfind hopt
      obtain ⟨tail, htail⟩ := @valueUses_eq behind delim _ pre
        (skipSpaces ((skipSpaces text).drop (len + 1))) o hdelim hopt hpre
      rw [← hsplit, hlength] at htail
      exact ⟨tail, htail⟩
    constructor
    · intro h
      refine ⟨hkeyword.mpr ?_, ?_⟩
      · intro hzero
        obtain rfl : len = 0 := Option.some.inj hzero
        have hwrapped : BufferUse.attributeAt (2 ^ 64 - 1) ∈ pairUses behind delim (skipSpaces text) 0 := by
          simp [pairUses, attributeIndices, trimIndices]
        exact absurd (h _ hwrapped) (by simp [BufferUse.InRange])
      · intro len' o hlen _ hopt
        obtain rfl : len = len' := Option.some.inj (hfind.symm.trans hlen)
        obtain ⟨tail, htail⟩ := hvalue o hopt
        apply (setRemoveBracketsUses_inRange_iff behind _ tail).mp
        intro use huse
        refine h use (List.mem_append_right _ ?_)
        rwa [htail]
    · intro h use huse
      have hpos : 0 < len := by
        have hne := hkeyword.mp h.keyword
        exact Nat.pos_of_ne_zero fun hzero => hne (congrArg some hzero)
      rcases List.mem_append.mp huse with huse | huse
      · obtain ⟨index, hindex, rfl⟩ := List.mem_map.mp huse
        exact attributeIndices_lt hpos (Nat.not_le.mp hlong) (charAt_skipSpaces text) hindex
      · cases hopt : getOpt (keyword (skipSpaces text) len) with
        | none => simp [valueUses, hopt] at huse
        | some ref =>
          cases ref with
          | str o =>
            obtain ⟨tail, htail⟩ := hvalue o hopt
            rw [htail] at huse
            exact (setRemoveBracketsUses_inRange_iff behind _ tail).mpr
              (h.value len o hfind (Nat.not_le.mp hlong) hopt) use huse
          | int o => simp [valueUses, hopt] at huse
          | bool o => simp [valueUses, hopt] at huse

/-- A run of `from_kvpair` uses its buffers in range, and passes on no negative
length, exactly when the text fits the buffers wherever a pair begins. -/
theorem fromKvpair_buffersInRange_iff (behind : SQLWSTRING → List SQLWCHAR) (delim : SQLWCHAR)
    (text : List SQLWCHAR) (hdelim : delim = wide ';' ∨ delim = 0) :
    BuffersInRange behind delim text ↔
      ∀ t, Reaches (boundedBody behind delim) text t → FitsBuffers delim t := by
  constructor
  · intro h t hreach
    exact (kvpairUses_inRange_iff behind t hdelim).mp (h t hreach)
  · intro h t hreach
    exact (kvpairUses_inRange_iff behind t hdelim).mpr (h t hreach)

/-- `DSN=x`. -/
def onePair : List SQLWCHAR := W ['D', 'S', 'N', '=', 'x']

/-- The buffers hold the pair. -/
theorem fromKvpair_buffersInRange_iff_onePair :
    BuffersInRange (fun _ => []) (wide ';') onePair := by
  refine (fromKvpair_buffersInRange_iff _ _ _ (Or.inl rfl)).mpr fun t hreach => ?_
  have hfind : sqlwcharchr (skipSpaces onePair) (wide '=') = some 3 := by decide
  have hnext : ∀ t', boundedBody (fun _ => []) (wide ';') onePair = .next t' → t' = [] := by
    intro t' h
    have hfirst : ¬ charAt onePair 0 = 0 := by decide
    simp only [boundedBody, if_neg hfirst, hfind] at h
    split_ifs at h
    exact (Step.next.inj h).symm.trans (by decide)
  have ht : t = onePair ∨ t = [] := by
    refine hreach.invariant (fun t => t = onePair ∨ t = []) ?_ (Or.inl rfl)
    rintro t t' (rfl | rfl) h
    · exact Or.inr (hnext t' h)
    · cases h
  obtain rfl | rfl := ht
  · refine ⟨by decide, fun len o hlen _ _ => ?_⟩
    obtain rfl := Option.some.inj (hfind.symm.trans hlen)
    decide
  · exact ⟨by decide, fun len o hlen => by cases hlen⟩

/-- The keyword of `=x` is empty, and the removal of its trailing blanks begins at
the largest `size_t`. -/
theorem fromKvpair_emptyKeyword_not_inRange :
    ¬ BuffersInRange (fun _ => []) (wide ';') (W ['=', 'x']) := by
  intro h
  have hwrapped : BufferUse.attributeAt (2 ^ 64 - 1) ∈
      kvpairUses (fun _ => []) (wide ';') (W ['=', 'x']) := by
    have hskip : skipSpaces (W ['=', 'x']) = W ['=', 'x'] := by decide
    have hfind : sqlwcharchr (W ['=', 'x']) (wide '=') = some 0 := by decide
    simp [kvpairUses, hskip, hfind, pairUses, attributeIndices, trimIndices]
  exact absurd (h _ .refl _ hwrapped) (by simp [BufferUse.InRange])

end MatrixOdbc.Util
