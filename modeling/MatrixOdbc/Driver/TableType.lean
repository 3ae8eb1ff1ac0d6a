import Mathlib.Data.List.TakeWhile
import MatrixOdbc.Driver.CatalogCondition
import MatrixOdbc.Driver.Parse
import MatrixOdbc.Driver.ProcTokens

/-!
# The filter for table types

`check_table_type` of `driver/catalog_no_i_s.cc`. The argument is cut at its commas, and what
begins with the type, plain or in quotes, is taken for it: behind the closing quote nothing can
follow, but behind a plain name there can.
-/

namespace MatrixOdbc.Driver

/-- `myodbc_casecmp` of two pieces of memory. -/
def myodbcCasecmp : List UInt8 → List UInt8 → ℕ → Option ℕ
  | _, _, 0 => some 0
  | c :: s, d :: t, len + 1 =>
    if toupper c = toupper d then myodbcCasecmp s t len else some (len + 1)
  | _, _, _ + 1 => none

/-- What `snprintf` leaves in a buffer for the quoted type. -/
def reqTypeQuoted (quote : UInt8) (reqType : List UInt8) : List UInt8 :=
  (quote :: (reqType ++ [quote])).take (NAME_LEN + 1) ++ [0]

/-- The three comparisons, from the place `table_type` points to on. -/
def isType (tableType reqType : List UInt8) (len : ℕ) : Option Bool :=
  (myodbcCasecmp tableType (reqType ++ [0]) len).bind fun r =>
    if r = 0 then some true
    else (myodbcCasecmp tableType (reqTypeQuoted 0x27 reqType) (len + 2)).bind fun r =>
      if r = 0 then some true
      else (myodbcCasecmp tableType (reqTypeQuoted 0x60 reqType) (len + 2)).map fun r => r = 0

/-- The loop over the commas, and the item behind the last one. -/
def checkItems (reqType : List UInt8) (len : ℕ) (tableType : List UInt8) : Option Bool :=
  if _h : 0x2c ∈ tableType then
    (isType (tableType.dropWhile isspaceByte ++ [0]) reqType len).bind fun found =>
      if found then some true
      else checkItems reqType len ((tableType.dropWhile (· ≠ 0x2c)).drop 1)
  else isType (tableType.dropWhile isspaceByte ++ [0]) reqType len
termination_by tableType.length
decreasing_by
  have hpos := List.length_pos_of_mem _h
  have hle := (List.dropWhile_sublist (l := tableType) (· ≠ 0x2c)).length_le
  rw [List.length_drop]
  omega

/-- `check_table_type`. -/
def checkTableType (tableType : Option (List UInt8)) (reqType : List UInt8) (len : ℕ) :
    Option Bool :=
  match tableType with
  | none => some false
  | some tableType => if tableType = [] then some false else checkItems reqType len tableType

/-- The texts differ in case only. -/
def SameType (s t : List UInt8) : Prop := s.map toupper = t.map toupper

/-- The second text is the beginning of the first one, up to the case. -/
def StartsWith (s t : List UInt8) : Prop := t.map toupper <+: s.map toupper

instance (s t : List UInt8) : Decidable (StartsWith s t) :=
  inferInstanceAs (Decidable (t.map toupper <+: s.map toupper))

/-- The name of a type, which fits the buffers of the function. -/
structure RequestedType where
  chars : List UInt8
  ne_nil : chars ≠ []
  plain : ∀ c ∈ chars, c ∉ [0, 0x27, 0x2c, 0x60]
  head_ne : ∀ c ∈ chars.head?, isspaceByte c = false
  last_ne : ∀ c ∈ chars.getLast?, isspaceByte c = false
  length_lt : chars.length < NAME_LEN

/-- What an item consists of, without the blanks around it. -/
inductive ItemText where
  | plain (chars : List UInt8)
  | quoted (quote : UInt8) (chars : List UInt8)

namespace ItemText

/-- The text without quotes. -/
def unquoted : ItemText → List UInt8
  | plain chars => chars
  | quoted _ chars => chars

/-- The text with quotes. -/
def written : ItemText → List UInt8
  | plain chars => chars
  | quoted quote chars => quote :: (chars ++ [quote])

/-- A plain text has no comma, no blanks at its ends and no quote in front; a quoted one may
have anything but its quote. -/
def Valid : ItemText → Prop
  | plain chars => 0x2c ∉ chars ∧ (∀ c ∈ chars.head?, isspaceByte c = false ∧ c ∉ [0x27, 0x60]) ∧
      ∀ c ∈ chars.getLast?, isspaceByte c = false
  | quoted quote chars => quote ∈ [0x27, 0x60] ∧ quote ∉ chars

end ItemText

/-- An item of the argument, with blanks around it. -/
structure TypeItem where
  before : List UInt8
  item : ItemText
  after : List UInt8
  blank : ∀ c ∈ before ++ after, isspaceByte c = true
  nonzero : 0 ∉ item.written
  valid : item.Valid

/-- The text of an item. -/
def TypeItem.text (i : TypeItem) : List UInt8 := i.before ++ i.item.written ++ i.after

/-- The text of the argument. -/
def itemsText (items : List TypeItem) : List UInt8 := joinWith 0x2c (items.map TypeItem.text)

/-- The item is the type. -/
def TypeItem.Names (i : TypeItem) (req : RequestedType) : Prop :=
  SameType i.item.unquoted req.chars

/-- Behind blanks the text begins with the type, plain or in quotes. -/
def Begins (req : RequestedType) (s : List UInt8) : Prop :=
  StartsWith (s.dropWhile isspaceByte) req.chars ∨
    ∃ q ∈ [0x27, 0x60], StartsWith (s.dropWhile isspaceByte) (q :: (req.chars ++ [q]))

/-- The item is not the type, but begins with it, or there is a comma in its quotes and the type
behind it. -/
def TypeItem.Misleads (i : TypeItem) (req : RequestedType) : Prop :=
  match i.item with
  | .plain chars => StartsWith chars req.chars ∧ ¬ SameType chars req.chars
  | .quoted _ _ => ∃ s ∈ (i.text.splitOn 0x2c).tail, Begins req s

/-- The function says whether the type is among the items. -/
def Filtered (items : List TypeItem) (req : RequestedType) : Prop :=
  ∃ found, checkTableType (some (itemsText items)) req.chars req.chars.length = some found ∧
    (found = true ↔ ∃ i ∈ items, i.Names req)

variable {s t xs ys chars : List UInt8} {c q : UInt8} {req : RequestedType}

/-- The byte is no letter. -/
def Caseless (c : UInt8) : Prop := ¬ (0x41 ≤ c ∧ c ≤ 0x5a) ∧ ¬ (0x61 ≤ c ∧ c ≤ 0x7a)

/-- What is no letter is its own upper case, and that of nothing else. -/
theorem toupper_eq_iff (hc : Caseless c) {d : UInt8} : toupper d = c ↔ d = c := by
  constructor
  · intro h
    rw [toupper] at h
    split_ifs at h with hlower
    · have hge : 0x61 ≤ d.toNat := hlower.1
      have hle : d.toNat ≤ 0x7a := hlower.2
      have hsub : c.toNat = d.toNat - 0x20 := by
        rw [← h, UInt8.toNat_sub_of_le _ _ (UInt8.le_iff_toNat_le.mpr (by change 0x20 ≤ _; omega))]
        rfl
      refine absurd ⟨?_, ?_⟩ hc.1
      · exact UInt8.le_iff_toNat_le.mpr (by change 0x41 ≤ _; omega)
      · exact UInt8.le_iff_toNat_le.mpr (by change _ ≤ 0x5a; omega)
    · exact h
  · rintro rfl
    exact if_neg hc.2

/-- Blanks are no letters. -/
theorem caseless_of_blank (h : isspaceByte c = true) : Caseless c := by
  rw [isspaceByte, Bool.or_eq_true, decide_eq_true_eq, Bool.and_eq_true, decide_eq_true_eq,
    decide_eq_true_eq] at h
  obtain rfl | ⟨-, hle⟩ := h
  · exact ⟨by decide, by decide⟩
  · have hle' : c.toNat ≤ 0x0d := hle
    refine ⟨fun hupper => ?_, fun hlower => ?_⟩
    · have hge : 0x41 ≤ c.toNat := hupper.1
      omega
    · have hge : 0x61 ≤ c.toNat := hlower.1
      omega

/-- What is no letter is in a text if it is in its upper case. -/
theorem mem_map_toupper (hc : Caseless c) : c ∈ s.map toupper ↔ c ∈ s := by
  constructor
  · intro h
    obtain ⟨d, hd, heq⟩ := List.mem_map.mp h
    rwa [(toupper_eq_iff hc).mp heq] at hd
  · intro h
    exact List.mem_map.mpr ⟨c, h, (toupper_eq_iff hc).mpr rfl⟩

/-- The comparison with the whole of a text, whatever is behind it. -/
theorem myodbcCasecmp_eq (ht : 0 ∉ t) : ∃ r, myodbcCasecmp (s ++ [0]) (t ++ xs) t.length = some r ∧
    (r = 0 ↔ StartsWith s t) := by
  induction t generalizing s with
  | nil => exact ⟨0, by simp [myodbcCasecmp], iff_of_true rfl (List.nil_prefix ..)⟩
  | cons d t ih =>
    rw [List.mem_cons, not_or] at ht
    cases s with
    | nil =>
      have hne : toupper 0 ≠ toupper d := by
        intro h
        exact ht.1 ((toupper_eq_iff ⟨by decide, by decide⟩).mp h.symm).symm
      refine ⟨t.length + 1, ?_, iff_of_false (Nat.succ_ne_zero _) fun h => ?_⟩
      · rw [List.nil_append, List.cons_append, List.length_cons, myodbcCasecmp, if_neg hne]
      · exact absurd h (by simp [StartsWith])
    | cons c s =>
      by_cases heq : toupper c = toupper d
      · obtain ⟨r, hr, hzero⟩ := ih (s := s) ht.2
        refine ⟨r, ?_, ?_⟩
        · rw [List.cons_append, List.cons_append, List.length_cons, myodbcCasecmp, if_pos heq, hr]
        · rw [hzero, StartsWith, StartsWith, List.map_cons, List.map_cons, heq,
            List.cons_prefix_cons, and_iff_right rfl]
      · refine ⟨t.length + 1, ?_, iff_of_false (Nat.succ_ne_zero _) fun h => ?_⟩
        · rw [List.cons_append, List.cons_append, List.length_cons, myodbcCasecmp, if_neg heq]
        · rw [StartsWith, List.map_cons, List.map_cons, List.cons_prefix_cons] at h
          exact heq h.1.symm

/-- The buffers hold the quoted type. -/
theorem RequestedType.reqTypeQuoted_eq (req : RequestedType) (q : UInt8) :
    reqTypeQuoted q req.chars = (q :: (req.chars ++ [q])) ++ [0] := by
  have hlength : (q :: (req.chars ++ [q])).length ≤ NAME_LEN + 1 := by
    have hlt := req.length_lt
    rw [List.length_cons, List.length_append, List.length_singleton]
    omega
  rw [reqTypeQuoted, List.take_of_length_le hlength]

/-- The three comparisons together. -/
theorem isType_eq (req : RequestedType) (s : List UInt8) : ∃ found,
    isType (s.dropWhile isspaceByte ++ [0]) req.chars req.chars.length = some found ∧
      (found = true ↔ Begins req s) := by
  have hzero : ∀ q ∈ [0x27, 0x60], 0 ∉ q :: (req.chars ++ [q]) := by
    intro q hq hmem
    rw [List.mem_cons, List.mem_append, List.mem_singleton] at hmem
    obtain rfl | hmem | rfl := hmem
    · exact absurd hq (by decide)
    · exact req.plain 0 hmem (by decide)
    · exact absurd hq (by decide)
  have hlength : ∀ q : UInt8, (q :: (req.chars ++ [q])).length = req.chars.length + 2 := by
    intro q
    rw [List.length_cons, List.length_append, List.length_singleton]
  obtain ⟨r, hr, hplain⟩ := @myodbcCasecmp_eq (s.dropWhile isspaceByte) _ [0]
    fun hmem => req.plain 0 hmem (by decide)
  obtain ⟨r₁, hr₁, hsingle⟩ := @myodbcCasecmp_eq (s.dropWhile isspaceByte) _ [0]
    (hzero 0x27 (by decide))
  obtain ⟨r₂, hr₂, hback⟩ := @myodbcCasecmp_eq (s.dropWhile isspaceByte) _ [0]
    (hzero 0x60 (by decide))
  rw [hlength] at hr₁ hr₂
  rw [isType, hr, Option.bind_some, req.reqTypeQuoted_eq, req.reqTypeQuoted_eq, hr₁, hr₂]
  by_cases h : r = 0
  · exact ⟨true, if_pos h, iff_of_true rfl (Or.inl (hplain.mp h))⟩
  by_cases h₁ : r₁ = 0
  · refine ⟨true, ?_, iff_of_true rfl (Or.inr ⟨0x27, by decide, hsingle.mp h₁⟩)⟩
    rw [if_neg h, Option.bind_some, if_pos h₁]
  · refine ⟨decide (r₂ = 0), ?_, ?_⟩
    · rw [if_neg h, Option.bind_some, if_neg h₁, Option.map_some]
    · rw [decide_eq_true_eq, hback, Begins, ← hplain]
      constructor
      · exact fun h₂ => Or.inr ⟨0x60, by decide, h₂⟩
      · rintro (h₀ | ⟨q, hq, hbegins⟩)
        · exact absurd h₀ h
        · rw [List.mem_cons, List.mem_singleton] at hq
          obtain rfl | rfl := hq
          · exact absurd (hsingle.mpr hbegins) h₁
          · exact hbegins

/-- What has no comma begins a text if it begins what is in front of a comma. -/
theorem startsWith_append_comma (ht : 0x2c ∉ t) : StartsWith (xs ++ 0x2c :: ys) t ↔ StartsWith xs t := by
  rw [StartsWith, StartsWith, List.map_append, List.map_cons]
  constructor
  · intro h
    by_cases hle : (t.map toupper).length ≤ (xs.map toupper).length
    · exact List.prefix_of_prefix_length_le h (List.prefix_append _ _) hle
    · obtain ⟨behind, hbehind⟩ := h
      have hcomma : (t.map toupper)[(xs.map toupper).length]? = some (toupper 0x2c) := by
        rw [← @List.getElem?_append_left _ _ behind _ (by omega), hbehind,
          List.getElem?_append_right le_rfl, Nat.sub_self]
        rfl
      have hmem := List.mem_of_getElem? hcomma
      exact absurd ((mem_map_toupper ⟨by decide, by decide⟩).mp hmem) ht
  · exact fun h => h.trans (List.prefix_append _ _)

/-- A piece is looked at up to its comma. -/
theorem begins_append_comma (req : RequestedType) (xs ys : List UInt8) :
    Begins req (xs ++ 0x2c :: ys) ↔ Begins req xs := by
  have hcomma : 0x2c ∉ req.chars := fun hmem => req.plain _ hmem (by decide)
  have hquoted : ∀ q ∈ [0x27, 0x60], 0x2c ∉ q :: (req.chars ++ [q]) := by
    intro q hq hmem
    rw [List.mem_cons, List.mem_append, List.mem_singleton] at hmem
    obtain rfl | hmem | rfl := hmem
    · exact absurd hq (by decide)
    · exact hcomma hmem
    · exact absurd hq (by decide)
  have hdrop : (xs ++ 0x2c :: ys).dropWhile isspaceByte = xs.dropWhile isspaceByte ++ 0x2c :: ys := by
    rw [List.dropWhile_append]
    by_cases hnil : xs.dropWhile isspaceByte = []
    · rw [hnil]
      rfl
    · rw [List.isEmpty_eq_false_iff.mpr hnil, if_neg Bool.false_ne_true]
  rw [Begins, Begins, hdrop, startsWith_append_comma hcomma]
  refine or_congr Iff.rfl ⟨?_, ?_⟩
  · rintro ⟨q, hq, h⟩
    exact ⟨q, hq, (startsWith_append_comma (hquoted q hq)).mp h⟩
  · rintro ⟨q, hq, h⟩
    exact ⟨q, hq, (startsWith_append_comma (hquoted q hq)).mpr h⟩

/-- The loop looks at every piece. -/
theorem checkItems_eq (req : RequestedType) (s : List UInt8) : ∃ found,
    checkItems req.chars req.chars.length s = some found ∧
      (found = true ↔ ∃ piece ∈ s.splitOn 0x2c, Begins req piece) := by
  induction hn : s.length using Nat.strong_induction_on generalizing s with
  | _ n ih =>
    subst hn
    obtain ⟨here, hhere, hbegins⟩ := isType_eq req s
    by_cases hcomma : 0x2c ∈ s
    · obtain ⟨xs, ys, rfl, hxs⟩ := List.eq_append_cons_of_mem hcomma
      have hdrop : ((xs ++ 0x2c :: ys).dropWhile (· ≠ 0x2c)).drop 1 = ys := by
        have hall : ∀ c ∈ xs, decide (c ≠ 0x2c) = true := by
          intro c hc
          rw [decide_eq_true_eq]
          rintro rfl
          exact hxs hc
        rw [List.dropWhile_append_of_pos hall]
        rfl
      obtain ⟨found, hfound, hpieces⟩ := ih ys.length (by simp only [List.length_append, List.length_cons]; omega)
        ys rfl
      rw [begins_append_comma] at hbegins
      rw [checkItems, dif_pos hcomma, hhere, Option.bind_some, hdrop, hfound,
        List.splitOn_append_cons_self_of_not_mem hxs]
      cases here with
      | true => exact ⟨true, rfl, iff_of_true rfl ⟨xs, List.mem_cons_self, hbegins.mp rfl⟩⟩
      | false =>
        refine ⟨found, rfl, hpieces.trans ?_⟩
        rw [List.exists_mem_cons_iff, ← hbegins, or_iff_right Bool.false_ne_true]
    · refine ⟨here, by rw [checkItems, dif_neg hcomma, hhere], ?_⟩
      rw [List.splitOn_eq_singleton hcomma, hbegins]
      simp

/-- So the function says whether a piece begins with the type. -/
theorem checkTableType_eq (req : RequestedType) (s : List UInt8) : ∃ found,
    checkTableType (some s) req.chars req.chars.length = some found ∧
      (found = true ↔ ∃ piece ∈ s.splitOn 0x2c, Begins req piece) := by
  rw [checkTableType]
  by_cases hnil : s = []
  · subst hnil
    refine ⟨false, if_pos rfl, iff_of_false Bool.false_ne_true ?_⟩
    rintro ⟨piece, hpiece, hbegins⟩
    obtain rfl : piece = [] := by simpa using hpiece
    have hne := req.ne_nil
    simp [Begins, StartsWith, hne] at hbegins
  · rw [if_neg hnil]
    exact checkItems_eq req s

/-- The pieces of several texts. -/
theorem splitOn_joinWith (ps : List (List UInt8)) (hne : ps ≠ []) :
    (joinWith 0x2c ps).splitOn 0x2c = ps.flatMap fun p => p.splitOn 0x2c := by
  cases ps with
  | nil => exact absurd rfl hne
  | cons p ps =>
    clear hne
    induction ps generalizing p with
    | nil => simp [joinWith]
    | cons p' ps ih =>
      rw [joinWith_cons, List.splitOn_append_cons_self, ih, List.flatMap_cons (x := p)]

/-- The first bytes are compared, then the others. -/
theorem startsWith_cons {d : UInt8} :
    StartsWith (c :: s) (d :: t) ↔ toupper d = toupper c ∧ StartsWith s t := by
  rw [StartsWith, List.map_cons, List.map_cons, List.cons_prefix_cons, StartsWith]

/-- Blanks behind a text do not matter for what does not end with one. -/
theorem startsWith_append_blank (hlast : ∀ c ∈ t.getLast?, isspaceByte c = false)
    (hblank : ∀ c ∈ ys, isspaceByte c = true) : StartsWith (xs ++ ys) t ↔ StartsWith xs t := by
  rw [StartsWith, StartsWith, List.map_append]
  refine ⟨fun h => ?_, fun h => h.trans (List.prefix_append _ _)⟩
  by_cases hle : (t.map toupper).length ≤ (xs.map toupper).length
  · exact List.prefix_of_prefix_length_le h (List.prefix_append _ _) hle
  · obtain rfl | ⟨t, c, rfl⟩ := List.eq_nil_or_concat t
    · exact absurd (Nat.zero_le _) hle
    -- the last byte of the text would be one of the blanks
    obtain ⟨w, hw⟩ := h
    rw [List.concat_eq_append] at hle hw hlast
    rw [List.length_map, List.length_map, List.length_append, List.length_singleton] at hle
    have hbyte : (ys.map toupper)[t.length - xs.length]? = some (toupper c) := by
      have hlength : (xs.map toupper).length = xs.length := List.length_map _
      rw [← hlength, ← List.getElem?_append_right (by rw [hlength]; omega), ← hw, List.map_append,
        List.append_assoc, List.getElem?_append_right (by rw [List.length_map]), List.length_map,
        Nat.sub_self]
      rfl
    obtain ⟨d, hd, heq⟩ := List.mem_map.mp (List.mem_of_getElem? hbyte)
    have hcaseless := caseless_of_blank (hblank d hd)
    rw [(toupper_eq_iff hcaseless).mpr rfl] at heq
    obtain rfl := (toupper_eq_iff hcaseless).mp heq.symm
    have hnot := hlast c (by simp)
    rw [hblank c hd] at hnot
    exact absurd hnot.symm Bool.false_ne_true

/-- The quotes are no letters. -/
theorem caseless_of_quote (hq : q ∈ [0x27, 0x60]) : Caseless q := by
  rw [List.mem_cons, List.mem_singleton] at hq
  obtain rfl | rfl := hq <;> exact ⟨by decide, by decide⟩

/-- A quote is no blank. -/
theorem isspaceByte_quote (hq : q ∈ [0x27, 0x60]) : isspaceByte q = false := by
  rw [List.mem_cons, List.mem_singleton] at hq
  obtain rfl | rfl := hq <;> rfl

/-- No quote is in a type. -/
theorem RequestedType.quote_not_mem (req : RequestedType) (hq : q ∈ [0x27, 0x60]) :
    q ∉ req.chars := by
  intro hmem
  apply req.plain q hmem
  rw [List.mem_cons, List.mem_singleton] at hq
  obtain rfl | rfl := hq <;> decide

/-- A quote is not the beginning of a type. -/
theorem not_startsWith_quote (hq : q ∈ [0x27, 0x60]) : ¬ StartsWith (q :: s) req.chars := by
  intro h
  cases hchars : req.chars with
  | nil => exact req.ne_nil hchars
  | cons c chars =>
    have hcaseless := caseless_of_quote hq
    rw [hchars, startsWith_cons, (toupper_eq_iff hcaseless).mpr rfl, toupper_eq_iff hcaseless] at h
    obtain ⟨rfl, -⟩ := h
    exact req.quote_not_mem hq (hchars ▸ List.mem_cons_self)

/-- Behind a quote, a quoted type is found if it ends with this quote. -/
theorem begins_quote_iff (hq : q ∈ [0x27, 0x60]) :
    Begins req (q :: s) ↔ StartsWith s (req.chars ++ [q]) := by
  have hdrop : (q :: s).dropWhile isspaceByte = q :: s := by
    rw [List.dropWhile_cons, isspaceByte_quote hq, if_neg Bool.false_ne_true]
  rw [Begins, hdrop, or_iff_right (not_startsWith_quote hq)]
  constructor
  · rintro ⟨q', hq', h⟩
    rw [startsWith_cons, (toupper_eq_iff (caseless_of_quote hq')).mpr rfl, eq_comm,
      toupper_eq_iff (caseless_of_quote hq')] at h
    obtain ⟨rfl, h⟩ := h
    exact h
  · exact fun h => ⟨q, hq, startsWith_cons.mpr ⟨rfl, h⟩⟩

/-- Blanks in front of a piece are skipped. -/
theorem begins_append_blank (hblank : ∀ c ∈ xs, isspaceByte c = true) :
    Begins req (xs ++ s) ↔ Begins req s := by
  rw [Begins, Begins, List.dropWhile_append_of_pos hblank]

/-- A plain item is found if it begins with the type. -/
theorem begins_plain_iff (hvalid : ItemText.Valid (.plain chars))
    (hblank : ∀ c ∈ ys, isspaceByte c = true) :
    Begins req (chars ++ ys) ↔ StartsWith chars req.chars := by
  obtain ⟨-, hhead, -⟩ := hvalid
  cases chars with
  | nil =>
    have hdrop : ys.dropWhile isspaceByte = [] := List.dropWhile_eq_nil_iff.mpr hblank
    rw [List.nil_append, Begins, hdrop]
    simp [StartsWith]
  | cons c chars =>
    obtain ⟨hspace, hquote⟩ := hhead c rfl
    have hdrop : (c :: chars ++ ys).dropWhile isspaceByte = c :: chars ++ ys := by
      rw [List.cons_append, List.dropWhile_cons, hspace, if_neg Bool.false_ne_true]
    rw [Begins, hdrop, startsWith_append_blank req.last_ne hblank, or_iff_left]
    rintro ⟨q, hq, h⟩
    rw [List.cons_append, startsWith_cons, (toupper_eq_iff (caseless_of_quote hq)).mpr rfl, eq_comm,
      toupper_eq_iff (caseless_of_quote hq)] at h
    exact hquote (h.1 ▸ hq)

/-- A quoted item without a comma is found if it is the type. -/
theorem begins_quoted_iff (hvalid : ItemText.Valid (.quoted q chars))
    (hblank : ∀ c ∈ ys, isspaceByte c = true) :
    Begins req (q :: (chars ++ q :: ys)) ↔ SameType chars req.chars := by
  obtain ⟨hq, hchars⟩ := hvalid
  have hcaseless := caseless_of_quote hq
  have hupper := (toupper_eq_iff hcaseless).mpr rfl
  have hnot : q ∉ chars.map toupper := fun h => hchars ((mem_map_toupper hcaseless).mp h)
  have hbehind : q ∉ ys.map toupper := by
    intro h
    have hspace := hblank q ((mem_map_toupper hcaseless).mp h)
    rw [isspaceByte_quote hq] at hspace
    exact Bool.false_ne_true hspace
  rw [begins_quote_iff hq, StartsWith, SameType]
  simp only [List.map_append, List.map_cons, List.map_nil, hupper]
  constructor
  · rintro ⟨w, hw⟩
    rw [List.append_assoc, List.singleton_append] at hw
    exact ((List.append_cons_inj_of_notMem hnot hbehind).mp hw.symm).1
  · intro h
    rw [h]
    exact ⟨ys.map toupper, by simp⟩

/-- Nor is a quoted text found in front of a comma in it. -/
theorem not_begins_open (hq : q ∈ [0x27, 0x60]) (hs : q ∉ s) : ¬ Begins req (q :: s) := by
  have hcaseless := caseless_of_quote hq
  rw [begins_quote_iff hq, StartsWith]
  intro h
  have hmem : q ∈ (req.chars ++ [q]).map toupper :=
    (mem_map_toupper hcaseless).mpr (List.mem_append_right _ List.mem_cons_self)
  exact hs ((mem_map_toupper hcaseless).mp (h.subset hmem))

/-- A comma is no blank. -/
theorem comma_not_mem_of_blank (hblank : ∀ c ∈ xs, isspaceByte c = true) : 0x2c ∉ xs := by
  intro hmem
  exact absurd (hblank _ hmem) (by decide)

/-- A piece of an item is found if the item is the type or misleads. -/
theorem TypeItem.begins_iff (i : TypeItem) (req : RequestedType) :
    (∃ piece ∈ i.text.splitOn 0x2c, Begins req piece) ↔ i.Names req ∨ i.Misleads req := by
  obtain ⟨before, item, after, hblank, hzero, hvalid⟩ := i
  have hbefore : ∀ c ∈ before, isspaceByte c = true :=
    fun c hc => hblank c (List.mem_append_left _ hc)
  have hafter : ∀ c ∈ after, isspaceByte c = true :=
    fun c hc => hblank c (List.mem_append_right _ hc)
  cases item with
  | plain chars =>
    have hcomma : 0x2c ∉ before ++ chars ++ after := by
      rw [List.mem_append, List.mem_append, not_or, not_or]
      exact ⟨⟨comma_not_mem_of_blank hbefore, hvalid.1⟩, comma_not_mem_of_blank hafter⟩
    rw [text, ItemText.written, List.splitOn_eq_singleton hcomma]
    simp only [List.mem_singleton, exists_eq_left]
    rw [List.append_assoc, begins_append_blank hbefore, begins_plain_iff hvalid hafter, Names,
      Misleads, ItemText.unquoted]
    dsimp only
    by_cases hsame : SameType chars req.chars
    · refine iff_of_true ?_ (Or.inl hsame)
      have hprefixed : req.chars.map toupper <+: chars.map toupper :=
        ⟨[], by rw [List.append_nil]; exact hsame.symm⟩
      exact hprefixed
    · rw [or_iff_right hsame, and_iff_left hsame]
  | quoted q chars =>
    obtain ⟨hq, hchars⟩ := id hvalid
    have htext : text ⟨before, .quoted q chars, after, hblank, hzero, hvalid⟩ =
        before ++ q :: (chars ++ q :: after) := by
      rw [text, ItemText.written]
      simp
    rw [Names, Misleads, htext, ItemText.unquoted]
    dsimp only
    by_cases hcomma : 0x2c ∈ chars
    · obtain ⟨u, v, rfl, hu⟩ := List.eq_append_cons_of_mem hcomma
      have hnames : ¬ SameType (u ++ 0x2c :: v) req.chars := by
        intro hsame
        have hmem : 0x2c ∈ req.chars.map toupper := by
          rw [← hsame]
          exact (mem_map_toupper ⟨by decide, by decide⟩).mpr hcomma
        exact req.plain _ ((mem_map_toupper ⟨by decide, by decide⟩).mp hmem) (by decide)
      have hfirst : 0x2c ∉ before ++ q :: u := by
        rw [List.mem_append, List.mem_cons, not_or, not_or]
        refine ⟨comma_not_mem_of_blank hbefore, ?_, hu⟩
        rintro rfl
        exact absurd hq (by decide)
      have hsplit : before ++ q :: (u ++ 0x2c :: v ++ q :: after) =
          (before ++ q :: u) ++ 0x2c :: (v ++ q :: after) := by
        simp
      rw [hsplit, List.splitOn_append_cons_self_of_not_mem hfirst, List.tail_cons,
        List.exists_mem_cons_iff, or_iff_right hnames, or_iff_right]
      rw [begins_append_blank hbefore]
      exact not_begins_open hq fun hmem => hchars (List.mem_append_left _ hmem)
    · have hnone : 0x2c ∉ before ++ q :: (chars ++ q :: after) := by
        rw [List.mem_append, List.mem_cons, List.mem_append, List.mem_cons]
        rintro (hmem | rfl | hmem | rfl | hmem)
        · exact comma_not_mem_of_blank hbefore hmem
        · exact absurd hq (by decide)
        · exact hcomma hmem
        · exact absurd hq (by decide)
        · exact comma_not_mem_of_blank hafter hmem
      rw [List.splitOn_eq_singleton hnone, List.tail_cons]
      simp only [List.mem_singleton, exists_eq_left, List.not_mem_nil, false_and, exists_false,
        or_false]
      rw [begins_append_blank hbefore, begins_quoted_iff hvalid hafter]

/-- The function finds the type if an item is the type or misleads. -/
theorem checkTableType_itemsText (items : List TypeItem) (req : RequestedType) : ∃ found,
    checkTableType (some (itemsText items)) req.chars req.chars.length = some found ∧
      (found = true ↔ ∃ i ∈ items, i.Names req ∨ i.Misleads req) := by
  obtain ⟨found, hfound, hpieces⟩ := checkTableType_eq req (itemsText items)
  refine ⟨found, hfound, hpieces.trans ?_⟩
  by_cases hnil : items = []
  · subst hnil
    have hne := req.ne_nil
    simp [itemsText, joinWith, Begins, StartsWith, hne]
  · rw [itemsText, splitOn_joinWith _ (fun h => hnil (List.map_eq_nil_iff.mp h)), List.flatMap_map]
    constructor
    · rintro ⟨piece, hpiece, hbegins⟩
      obtain ⟨i, hi, hmem⟩ := List.mem_flatMap.mp hpiece
      exact ⟨i, hi, (i.begins_iff req).mp ⟨piece, hmem, hbegins⟩⟩
    · rintro ⟨i, hi, h⟩
      obtain ⟨piece, hpiece, hbegins⟩ := (i.begins_iff req).mpr h
      exact ⟨piece, List.mem_flatMap.mpr ⟨i, hi, hpiece⟩, hbegins⟩

/-- The filter is right exactly if an item is the type, or none begins with it and goes on. -/
theorem filtered_iff (items : List TypeItem) (req : RequestedType) :
    Filtered items req ↔ (∃ i ∈ items, i.Names req) ∨ ∀ i ∈ items, ¬ i.Misleads req := by
  obtain ⟨found, hfound, hiff⟩ := checkTableType_itemsText items req
  constructor
  · rintro ⟨found', hfound', hiff'⟩
    obtain rfl := Option.some_inj.mp (hfound.symm.trans hfound')
    by_contra hnot
    rw [not_or] at hnot
    obtain ⟨hnames, hmisleads⟩ := hnot
    simp only [not_forall, not_not] at hmisleads
    obtain ⟨i, hi, hmislead⟩ := hmisleads
    exact hnames (hiff'.mp (hiff.mpr ⟨i, hi, Or.inr hmislead⟩))
  · intro h
    refine ⟨found, hfound, hiff.trans ?_⟩
    constructor
    · rintro ⟨i, hi, hnames | hmisleads⟩
      · exact ⟨i, hi, hnames⟩
      · exact h.resolve_right fun hnone => hnone i hi hmisleads
    · rintro ⟨i, hi, hnames⟩
      exact ⟨i, hi, Or.inl hnames⟩

/-- `TABLEX` is taken for `TABLE`. -/
theorem filter_tablex : ∃ (i : TypeItem) (req : RequestedType),
    i.text = sqlText "TABLEX" ∧ req.chars = sqlText "TABLE" ∧ ¬ Filtered [i] req := by
  have htablex : sqlText "TABLEX" = [0x54, 0x41, 0x42, 0x4c, 0x45, 0x58] := by decide
  have htable : sqlText "TABLE" = [0x54, 0x41, 0x42, 0x4c, 0x45] := by decide
  have hplain : ItemText.Valid (.plain (sqlText "TABLEX")) := by
    rw [htablex]
    refine ⟨by decide, ?_, ?_⟩ <;> simp [isspaceByte]
  have hreq : ∃ req : RequestedType, req.chars = sqlText "TABLE" := by
    rw [htable]
    exact ⟨⟨_, by simp, by simp, by simp [isspaceByte], by simp [isspaceByte], by decide⟩, rfl⟩
  obtain ⟨req, hchars⟩ := hreq
  refine ⟨⟨[], .plain (sqlText "TABLEX"), [], by simp, by decide, hplain⟩, req, rfl, hchars, ?_⟩
  rintro ⟨found, hfound, hiff⟩
  have htrue : checkTableType (some (sqlText "TABLEX")) (sqlText "TABLE") 5 = some true := by
    rw [checkTableType, if_neg (by decide), checkItems, dif_neg (by decide)]
    decide
  have hnames : ¬ SameType (sqlText "TABLEX") (sqlText "TABLE") := by
    rw [SameType]
    decide
  rw [hchars] at hfound
  obtain rfl := Option.some_inj.mp (htrue.symm.trans hfound)
  obtain ⟨i, hi, hname⟩ := hiff.mp rfl
  obtain rfl := List.mem_singleton.mp hi
  rw [TypeItem.Names, hchars] at hname
  exact hnames hname

end MatrixOdbc.Driver
