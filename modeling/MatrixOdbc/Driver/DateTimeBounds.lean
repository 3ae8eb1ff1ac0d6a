import MatrixOdbc.Driver.DateTime
import Mathlib.Data.List.TakeWhile

/-!
# What the date and time parsers read

Two of the parsers test a byte for a digit before they test for the end of the text, one looks
for the decimal point as far as the terminator, and one has no length at all. Each has a simple
condition on the text for never leaving it; then it uses only what it has parsed.
-/

namespace MatrixOdbc.Driver.DateTime

variable {text str memory point : List UInt8} {c : UInt8} {zeroToMin : Bool}

/-- The text has a digit. -/
def HasDigit (text : List UInt8) : Prop := ∃ c ∈ text, isdigit c = true

instance (text : List UInt8) : Decidable (HasDigit text) :=
  inferInstanceAs (Decidable (∃ c ∈ text, isdigit c = true))

/-- `str_to_date` stays in the text and uses parsed fields only; without a digit the date is
the null date. -/
def DateKept (text : List UInt8) (zeroToMin : Bool) : Prop :=
  ∃ date, strToDate text zeroToMin = some date ∧ (¬ HasDigit text → date = none)

/-- `str_to_time_as_long` stays in the text and uses parsed fields only; without a digit the time
is 0. -/
def TimeKept (text : List UInt8) : Prop :=
  ∃ time, strToTimeAsLong text = some time ∧ (¬ HasDigit text → time = 0)

/-- `str_to_time_st` stays in the memory; without a digit the time is 0. -/
def TimeStKept (memory : List UInt8) : Prop :=
  ∃ time, strToTimeSt memory = some time ∧ (¬ HasDigit memory → time = ⟨0, 0, 0⟩)

/-- The text behind the first decimal point before the terminator. -/
def behindPoint (point : List UInt8) : List UInt8 → List UInt8
  | [] => []
  | c :: str =>
    if point <+: c :: str then (c :: str).drop point.length
    else if c = 0 then []
    else behindPoint point str

/-- The first nine digits of the fraction, with zeros behind them. -/
def fractionDigits (point text : List UInt8) : List UInt8 :=
  let digits := ((behindPoint point text).takeWhile isdigit).take 9
  digits ++ List.replicate (9 - digits.length) 0x30

/-- The decimal point of the locale: it is not empty and has no terminator in it. -/
structure DecimalPoint where
  bytes : List UInt8
  ne_nil : bytes ≠ []
  zero_notMem : 0 ∉ bytes

/-- The decimal point that `get_fractional_part` looks for. -/
def DecimalPoint.used (point : DecimalPoint) (dontUseSetLocale : Bool) : List UInt8 :=
  if dontUseSetLocale then [0x2e] else point.bytes

/-- `get_fractional_part` stays in the text, and the fraction is that of the text. -/
def FractionKept (point : DecimalPoint) (text : List UInt8) (dontUseSetLocale : Bool) : Prop :=
  ∃ decptr fraction,
    getFractionalPart point.bytes text text.length dontUseSetLocale = some (decptr, fraction) ∧
      fraction = digitsValue (fractionDigits (point.used dontUseSetLocale) text) ∧
        fraction < 10 ^ 9

/-- The first loop finds a digit if there is one. -/
theorem skipToDigit_eq_none_iff : skipToDigit text = none ↔ ¬ HasDigit text := by
  induction text with
  | nil => simp [skipToDigit, HasDigit]
  | cons c text ih =>
    rw [skipToDigit]
    split_ifs with hc
    · simp [HasDigit, hc]
    · simpa [HasDigit, hc] using ih

theorem exists_skipToDigit (h : HasDigit text) :
    ∃ c rest, skipToDigit text = some (c :: rest) ∧ isdigit c = true := by
  obtain ⟨str, hstr⟩ := Option.ne_none_iff_exists'.mp fun hnone => skipToDigit_eq_none_iff.mp hnone h
  obtain ⟨-, c, rest, rfl, hc⟩ := skipToDigit_eq_some hstr
  exact ⟨c, rest, hstr, hc⟩

/-- One field is enough for a date. -/
theorem dateOfFields_ne_none (year : ℕ) (rest : List ℕ) (zeroToMin : Bool) :
    dateOfFields (year :: rest) zeroToMin ≠ none := by
  have hlist : ∀ date : List ℕ, 3 ≤ date.length → ∃ y m d others, date = y :: m :: d :: others := by
    rintro (- | ⟨y, - | ⟨m, - | ⟨d, others⟩⟩⟩) h
    · simp at h
    · simp at h
    · simp at h
    · exact ⟨y, m, d, others, rfl⟩
  obtain ⟨y, m, d, others, hfilled⟩ := hlist
    (year :: rest ++ List.replicate (3 - (year :: rest).length) 1) (by simp; omega)
  unfold dateOfFields
  simp only [hfilled]
  by_cases hpart : (year :: rest).length ≤ 1 ∨ 1 < (year :: rest).length ∧ (year :: rest)[1]? = some 0 ∨
      2 < (year :: rest).length ∧ (year :: rest)[2]? = some 0
  · rw [if_pos hpart]
    cases zeroToMin <;> simp
  · rw [if_neg hpart]
    simp

/-- `str_to_date` stays in a text that has a digit. -/
theorem dateKept_iff : DateKept text zeroToMin ↔ HasDigit text := by
  constructor
  · rintro ⟨date, hdate, -⟩
    by_contra hdigit
    rw [strToDate, skipToDigit_eq_none_iff.mpr hdigit] at hdate
    cases hdate
  · intro hdigit
    obtain ⟨c, rest, hskip, -⟩ := exists_skipToDigit hdigit
    have hdate : strToDate text zeroToMin ≠ none := by
      rw [strToDate, hskip, Option.bind_eq_bind, Option.bind_some]
      exact dateOfFields_ne_none _ _ _
    obtain ⟨date, hdate⟩ := Option.ne_none_iff_exists'.mp hdate
    exact ⟨date, hdate, fun h => absurd hdigit h⟩

/-- The loop over the separators ends at a digit or at the end. -/
theorem hasDigit_skipSeparators (h : skipSeparators str ≠ []) : HasDigit (skipSeparators str) := by
  have hhead : (!isdigit ((skipSeparators str).head h)) = false := List.head_dropWhile_not _ h
  exact ⟨_, List.head_mem h, by simpa using hhead⟩

/-- The rest behind the fields begins with a digit, if there is one. -/
theorem hasDigit_timeFields {fields : ℕ} (h : (timeFields (fields + 1) str).2 ≠ []) :
    HasDigit (timeFields (fields + 1) str).2 := by
  induction fields generalizing str with
  | zero =>
    cases str with
    | nil => exact absurd rfl h
    | cons c str => exact hasDigit_skipSeparators h
  | succ fields ih =>
    cases str with
    | nil => exact absurd rfl h
    | cons c str => exact ih h

/-- One field is enough for a time. -/
theorem timeOfFields_ne_none (first : ℕ) (rest : List ℕ) : timeOfFields (first :: rest) ≠ none := by
  change (if _ then some _ else some _) ≠ none
  split_ifs
  · exact Option.some_ne_none _
  · exact Option.some_ne_none _

/-- The time of a text with a digit has a value. -/
theorem strToTimeAsLong_ne_none (h : HasDigit text) : strToTimeAsLong text ≠ none := by
  induction hlength : text.length using Nat.strong_induction_on generalizing text with
  | h length ih =>
    obtain ⟨c, rest, hskip, -⟩ := exists_skipToDigit h
    rw [strToTimeAsLong_eq hskip]
    split_ifs with hrest
    · exact timeOfFields_ne_none _ _
    · have hlt : (timeFields 3 (c :: rest)).2.length < text.length := length_timeFields_lt hskip
      exact ih _ (by omega) (hasDigit_timeFields hrest) rfl

/-- `str_to_time_as_long` stays in a text that is empty or has a digit. -/
theorem timeKept_iff : TimeKept text ↔ text = [] ∨ HasDigit text := by
  constructor
  · rintro ⟨time, htime, -⟩
    by_contra! hnot
    rw [strToTimeAsLong_eq_none hnot.1 (skipToDigit_eq_none_iff.mpr hnot.2)] at htime
    cases htime
  · rintro (rfl | hdigit)
    · exact ⟨0, by rw [strToTimeAsLong, if_pos rfl], fun _ => rfl⟩
    · obtain ⟨time, htime⟩ := Option.ne_none_iff_exists'.mp (strToTimeAsLong_ne_none hdigit)
      exact ⟨time, htime, fun h => absurd hdigit h⟩

/-- How many bytes are no digits. -/
def separatorCount (str : List UInt8) : ℕ := str.countP (!isdigit ·)

/-- The loop ends at the terminator, at the third byte that is no digit, or with its buffer. -/
theorem timeTokens_ne_none_iff (room : ℕ) {num : ℕ} (hnum : num ≤ 2) (str : List UInt8) :
    timeTokens room num str ≠ none ↔
      0 ∈ str ∨ 2 < num + separatorCount str ∨ room < str.length := by
  induction str generalizing room num with
  | nil =>
    simp [timeTokens, separatorCount]
    omega
  | cons c str ih =>
    rw [timeTokens, separatorCount, List.countP_cons, List.length_cons, List.mem_cons]
    by_cases hstop : c = 0 ∨ room = 0
    · rw [if_pos hstop]
      apply iff_of_true (Option.some_ne_none _)
      rcases hstop with rfl | rfl
      · exact Or.inl (Or.inl rfl)
      · exact Or.inr (Or.inr (Nat.succ_pos _))
    · rw [if_neg hstop]
      obtain ⟨hc, hroom⟩ := not_or.mp hstop
      have hzero : ¬ (0 : UInt8) = c := fun h => hc h.symm
      by_cases hdigit : isdigit c = true
      · rw [if_pos hdigit, ne_eq, Option.map_eq_none_iff, ← ne_eq, ih (room - 1) hnum]
        simp only [hzero, false_or, hdigit, Bool.not_true, Bool.false_eq_true, if_false,
          separatorCount]
        apply or_congr Iff.rfl
        omega
      · have hcount : (!isdigit c) = true := by simpa using hdigit
        rw [if_neg hdigit, if_pos hcount]
        by_cases hnext : num < 2
        · rw [if_pos hnext, ne_eq, Option.map_eq_none_iff, ← ne_eq, ih (room - 1) (by omega)]
          simp only [hzero, false_or, separatorCount]
          apply or_congr Iff.rfl
          omega
        · rw [if_neg hnext]
          refine iff_of_true (Option.some_ne_none _) (Or.inr (Or.inl ?_))
          omega

/-- A token is made of digits of the text. -/
theorem timeTokens_digits {room num : ℕ} {tokens : List (List UInt8)}
    (h : timeTokens room num str = some tokens) :
    ∀ token ∈ tokens, ∀ c ∈ token, c ∈ str ∧ isdigit c = true := by
  induction str generalizing room num tokens with
  | nil => cases h
  | cons c str ih =>
    have hbehind : ∀ {tokens' : List (List UInt8)},
        (∀ token ∈ tokens', ∀ c ∈ token, c ∈ str ∧ isdigit c = true) →
          ∀ token ∈ tokens', ∀ c' ∈ token, c' ∈ c :: str ∧ isdigit c' = true :=
      fun h token htoken c' hc' =>
        ⟨List.mem_cons_of_mem _ (h token htoken c' hc').1, (h token htoken c' hc').2⟩
    rw [timeTokens] at h
    split_ifs at h with hstop hdigit hnum
    · obtain rfl := Option.some.inj h
      simp
    · obtain ⟨tokens', htokens, rfl⟩ := Option.map_eq_some_iff.mp h
      have htail := hbehind (ih htokens)
      cases tokens' with
      | nil => simp [consDigit, hdigit]
      | cons token tokens' =>
        intro token' htoken c' hc'
        rcases List.mem_cons.mp htoken with rfl | htoken
        · rcases List.mem_cons.mp hc' with rfl | hc'
          · exact ⟨List.mem_cons_self, hdigit⟩
          · exact htail token List.mem_cons_self c' hc'
        · exact htail token' (List.mem_cons_of_mem _ htoken) c' hc'
    · obtain ⟨tokens', htokens, rfl⟩ := Option.map_eq_some_iff.mp h
      intro token htoken c' hc'
      rcases List.mem_cons.mp htoken with rfl | htoken
      · cases hc'
      · exact hbehind (ih htokens) token htoken c' hc'
    · obtain rfl := Option.some.inj h
      simp

/-- Without a digit all tokens are empty. -/
theorem getD_timeTokens {room num : ℕ} {tokens : List (List UInt8)} (hdigit : ¬ HasDigit str)
    (h : timeTokens room num str = some tokens) (i : ℕ) : tokens.getD i [] = [] := by
  rw [List.getD_eq_getElem?_getD]
  cases htoken : tokens[i]? with
  | none => rfl
  | some token =>
    rw [Option.getD_some, List.eq_nil_iff_forall_not_mem]
    intro c hc
    exact hdigit ⟨c, timeTokens_digits h token (List.mem_of_getElem? htoken) c hc⟩

/-- `str_to_time_st` stays in a memory that has a terminator, three separators or more bytes than
its buffer. -/
theorem timeStKept_iff :
    TimeStKept memory ↔ 0 ∈ memory ∨ 3 ≤ separatorCount memory ∨ 24 ≤ memory.length := by
  have hloop := timeTokens_ne_none_iff 23 (Nat.zero_le 2) memory
  rw [Nat.zero_add] at hloop
  refine Iff.trans ⟨?_, ?_⟩ hloop
  · rintro ⟨time, htime, -⟩ hnone
    rw [strToTimeSt, hnone] at htime
    cases htime
  · intro hne
    obtain ⟨tokens, htokens⟩ := Option.ne_none_iff_exists'.mp hne
    refine ⟨_, by rw [strToTimeSt, htokens, Option.map_some], fun hdigit => ?_⟩
    simp only [getD_timeTokens hdigit htokens]
    decide

/-- A byte that is no digit is not stepped over. -/
theorem fillFraction_separator (hc : isdigit c = false) (buff : List UInt8) :
    fillFraction buff (c :: str) = buff := by
  induction buff with
  | nil => rfl
  | cons b buff ih => rw [fillFraction, if_neg (by rw [hc]; exact Bool.false_ne_true), ih]

/-- The copied digits, and zeros behind them. -/
theorem take_fillFraction (n : ℕ) (buff str : List UInt8) :
    (fillFraction (List.replicate n 0x30 ++ buff) str).take n =
      (str.takeWhile isdigit).take n ++
        List.replicate (n - ((str.takeWhile isdigit).take n).length) 0x30 := by
  have hzeros (n : ℕ) : (List.replicate n (0x30 : UInt8) ++ buff).take n = List.replicate n 0x30 := by
    simp
  induction n generalizing str with
  | zero => simp
  | succ n ih =>
    cases str with
    | nil => simp [fillFraction]
    | cons c str =>
      by_cases hc : isdigit c = true
      · rw [List.replicate_succ, List.cons_append, fillFraction, if_pos hc, List.take_succ_cons, ih,
          List.takeWhile_cons_of_pos hc, List.take_succ_cons, List.length_cons]
        simp
      · rw [fillFraction_separator (by simpa using hc), List.takeWhile_cons_of_neg hc, hzeros]
        simp

/-- What was found is what the text has behind its decimal point. -/
def Found (point str : List UInt8) : Option ℕ → Prop
  | some decptr => decptr + point.length ≤ str.length ∧
      behindPoint point str = str.drop (decptr + point.length)
  | none => behindPoint point str = []

theorem Found.cons {decptr : Option ℕ} (h : Found point str decptr) (hc : c ≠ 0)
    (hpoint : ¬ point <+: c :: str) : Found point (c :: str) (decptr.map (· + 1)) := by
  have hbehind : behindPoint point (c :: str) = behindPoint point str := by
    rw [behindPoint, if_neg hpoint, if_neg hc]
  cases decptr with
  | none => exact hbehind.trans h
  | some decptr =>
    refine ⟨?_, ?_⟩
    · have := h.1
      simp only [List.length_cons]
      omega
    · rw [hbehind, h.2, Nat.add_right_comm, List.drop_succ_cons]

/-- `strchr` looks for the dot in front of the terminator. -/
theorem found_strchr {decptr : Option ℕ} (h : strchr 0x2e str = some decptr) :
    Found [0x2e] str decptr := by
  induction str generalizing decptr with
  | nil => cases h
  | cons b str ih =>
    rw [strchr] at h
    split_ifs at h with hb hzero
    · obtain rfl := Option.some.inj h
      subst hb
      exact ⟨by simp, by simp [behindPoint]⟩
    · obtain rfl := Option.some.inj h
      have hpoint : ¬ [0x2e] <+: b :: str := by simpa using Ne.symm hb
      show behindPoint _ _ = _
      rw [behindPoint, if_neg hpoint, if_pos hzero]
    · obtain ⟨decptr', hfound, rfl⟩ := Option.map_eq_some_iff.mp h
      exact (ih hfound).cons hzero (by simpa using Ne.symm hb)

/-- `strchr` needs a dot or the terminator. -/
theorem strchr_ne_none_iff : strchr 0x2e str ≠ none ↔ 0 ∈ str ∨ [0x2e] <:+: str := by
  rw [List.singleton_infix_iff]
  induction str with
  | nil => simp [strchr]
  | cons b str ih =>
    rw [strchr, List.mem_cons, List.mem_cons]
    split_ifs with hb hzero
    · exact iff_of_true (Option.some_ne_none _) (Or.inr (Or.inl hb.symm))
    · exact iff_of_true (Option.some_ne_none _) (Or.inl (Or.inl hzero.symm))
    · rw [ne_eq, Option.map_eq_none_iff, ← ne_eq, ih]
      simp [Ne.symm hb, Ne.symm hzero]

/-- `is_prefix` reads to the end of a memory that is a part of the prefix. -/
theorem isPrefix_eq_none {s t : List UInt8} (h : isPrefix s t = none) :
    s <+: t ∧ s.length < t.length := by
  induction s generalizing t with
  | nil =>
    cases t with
    | nil => cases h
    | cons c t => exact ⟨List.nil_prefix, Nat.succ_pos _⟩
  | cons b s ih =>
    cases t with
    | nil => cases h
    | cons c t =>
      rw [isPrefix] at h
      split_ifs at h with hb
      subst hb
      obtain ⟨hfront, hlength⟩ := ih h
      exact ⟨(List.prefix_cons_inj b).mpr hfront, Nat.succ_lt_succ hlength⟩

/-- `is_prefix` tells whether there is the prefix. -/
theorem isPrefix_eq_some {s t : List UInt8} {b : Bool} (h : isPrefix s t = some b) :
    b = true ↔ t <+: s := by
  induction s generalizing t with
  | nil =>
    cases t with
    | nil =>
      obtain rfl := Option.some.inj h
      simp
    | cons c t => cases h
  | cons c s ih =>
    cases t with
    | nil =>
      obtain rfl := Option.some.inj h
      simp
    | cons c' t =>
      rw [isPrefix] at h
      split_ifs at h with hc
      · subst hc
        rw [ih h, List.prefix_cons_inj]
      · obtain rfl := Option.some.inj h
        simp [Ne.symm hc]

/-- The test for the decimal point at a byte. -/
def matchPoint (point : List UInt8) (c : UInt8) (str : List UInt8) : Option Bool :=
  if point.head? = some c then isPrefix (c :: str) point else some false

theorem findDecimalPoint_cons (left : ℕ) (hc : c ≠ 0) :
    findDecimalPoint point (left + 1) (c :: str) =
      if matchPoint point c str = none then none
      else if matchPoint point c str = some true then some (some 0)
      else (findDecimalPoint point left str).map (Option.map (· + 1)) := by
  rw [findDecimalPoint, if_neg hc]
  rfl

namespace DecimalPoint

variable (locale : DecimalPoint)

/-- A text that begins with the decimal point begins with its first byte. -/
theorem head?_of_prefix (h : locale.bytes <+: c :: str) : locale.bytes.head? = some c := by
  obtain ⟨b, bytes, hbytes⟩ := List.exists_cons_of_ne_nil locale.ne_nil
  rw [hbytes] at h ⊢
  rw [List.head?_cons, (List.cons_prefix_cons.mp h).1]

/-- The test fails to stay in a text that ends in a part of the decimal point. -/
theorem matchPoint_eq_none (h : matchPoint locale.bytes c str = none) :
    c :: str <+: locale.bytes ∧ (c :: str).length < locale.bytes.length := by
  unfold matchPoint at h
  split_ifs at h with hhead
  exact isPrefix_eq_none h

theorem matchPoint_eq_some {b : Bool} (h : matchPoint locale.bytes c str = some b) :
    b = true ↔ locale.bytes <+: c :: str := by
  unfold matchPoint at h
  split_ifs at h with hhead
  · exact isPrefix_eq_some h
  · obtain rfl := Option.some.inj h
    exact iff_of_false Bool.false_ne_true fun hfront => hhead (locale.head?_of_prefix hfront)

/-- The loop needs the decimal point or the terminator in the text. -/
theorem findDecimalPoint_ne_none_iff (str : List UInt8) :
    findDecimalPoint locale.bytes str.length str ≠ none ↔ 0 ∈ str ∨ locale.bytes <:+: str := by
  induction str with
  | nil => simp [findDecimalPoint, locale.ne_nil]
  | cons c str ih =>
    by_cases hc : c = 0
    · subst hc
      simp [findDecimalPoint]
    have hzero : ¬ (0 : UInt8) = c := fun h => hc h.symm
    rw [List.length_cons, findDecimalPoint_cons _ hc, List.mem_cons, List.infix_cons_iff]
    cases hmatch : matchPoint locale.bytes c str with
    | none =>
      obtain ⟨hfront, hlength⟩ := locale.matchPoint_eq_none hmatch
      rw [if_pos rfl]
      refine iff_of_false (fun h => h rfl) ?_
      rintro (hmem | hinfix)
      · exact locale.zero_notMem (hfront.subset (List.mem_cons.mpr hmem))
      · exact absurd (List.infix_cons_iff.mpr hinfix).length_le (by omega)
    | some b =>
      have hb := locale.matchPoint_eq_some hmatch
      rw [if_neg (Option.some_ne_none _)]
      cases b with
      | true =>
        rw [if_pos rfl]
        exact iff_of_true (Option.some_ne_none _) (Or.inr (Or.inl (hb.mp rfl)))
      | false =>
        have hfront : ¬ locale.bytes <+: c :: str := fun h => Bool.false_ne_true (hb.mpr h)
        rw [if_neg (by simp), ne_eq, Option.map_eq_none_iff, ← ne_eq, ih]
        simp [hzero, hfront]

/-- The loop finds the decimal point of the text. -/
theorem found_findDecimalPoint {decptr : Option ℕ}
    (h : findDecimalPoint locale.bytes str.length str = some decptr) :
    Found locale.bytes str decptr := by
  induction str generalizing decptr with
  | nil => cases h
  | cons c str ih =>
    by_cases hc : c = 0
    · subst hc
      obtain rfl : none = decptr := by simpa [findDecimalPoint] using h
      have hfront : ¬ locale.bytes <+: 0 :: str := fun hfront =>
        locale.zero_notMem (List.mem_of_mem_head? (locale.head?_of_prefix hfront))
      show behindPoint _ _ = _
      rw [behindPoint, if_neg hfront, if_pos rfl]
    rw [List.length_cons, findDecimalPoint_cons _ hc] at h
    split_ifs at h with hnone htrue
    · obtain rfl := Option.some.inj h
      have hfront := (locale.matchPoint_eq_some htrue).mp rfl
      exact ⟨by simpa using hfront.length_le, by rw [behindPoint, if_pos hfront, Nat.zero_add]⟩
    · obtain ⟨b, hb⟩ := Option.ne_none_iff_exists'.mp hnone
      obtain ⟨decptr', hfound, rfl⟩ := Option.map_eq_some_iff.mp h
      refine (ih hfound).cons hc fun hfront => htrue ?_
      rw [hb, (locale.matchPoint_eq_some hb).mpr hfront]

theorem searchDecimalPoint_ne_none_iff (text : List UInt8) (dontUseSetLocale : Bool) :
    searchDecimalPoint locale.bytes text text.length dontUseSetLocale ≠ none ↔
      0 ∈ text ∨ locale.used dontUseSetLocale <:+: text := by
  cases dontUseSetLocale with
  | true => exact strchr_ne_none_iff
  | false => exact locale.findDecimalPoint_ne_none_iff text

theorem found_searchDecimalPoint {dontUseSetLocale : Bool} {decptr : Option ℕ}
    (h : searchDecimalPoint locale.bytes text text.length dontUseSetLocale = some decptr) :
    Found (locale.used dontUseSetLocale) text decptr := by
  cases dontUseSetLocale with
  | true => exact found_strchr h
  | false => exact locale.found_findDecimalPoint h

/-- The fraction behind the decimal point that was found is that of the text. -/
theorem fractionAt_snd {decptr : Option ℕ} (h : Found point text decptr) :
    (fractionAt text text.length point.length decptr).2 =
      digitsValue (fractionDigits point text) := by
  cases decptr with
  | none =>
    have hbehind : behindPoint point text = [] := h
    rw [fractionDigits, hbehind]
    rfl
  | some decptr =>
    obtain ⟨hle, hbehind⟩ := h
    rw [fractionAt, fractionDigits, hbehind]
    split_ifs with hlast
    · dsimp only
      rw [take_fillFraction, List.take_length]
    · rw [List.drop_eq_nil_of_le (by omega)]
      rfl

theorem length_used (dontUseSetLocale : Bool) :
    (if dontUseSetLocale = true then 1 else locale.bytes.length) =
      (locale.used dontUseSetLocale).length := by
  cases dontUseSetLocale <;> rfl

/-- The fraction is less than a second. -/
theorem fraction_lt (point text : List UInt8) :
    digitsValue (fractionDigits point text) < 10 ^ 9 := by
  have hdigits : ∀ c ∈ fractionDigits point text, Decimal.IsDigit c := by
    intro c hc
    rcases List.mem_append.mp hc with hc | hc
    · have hdigit := List.mem_takeWhile_imp (List.mem_of_mem_take hc)
      simpa [isdigit, Decimal.IsDigit, UInt8.le_iff_toNat_le] using hdigit
    · rw [List.eq_of_mem_replicate hc]
      exact ⟨le_refl _, by decide⟩
  have hlength : (fractionDigits point text).length = 9 := by
    simp only [fractionDigits, List.length_append, List.length_replicate, List.length_take]
    omega
  calc digitsValue (fractionDigits point text) < 10 ^ (fractionDigits point text).length :=
        Decimal.value_lt hdigits
    _ = 10 ^ 9 := by rw [hlength]

/-- `get_fractional_part` stays in a text that has a terminator or the decimal point. -/
theorem fractionKept_iff (text : List UInt8) (dontUseSetLocale : Bool) :
    FractionKept locale text dontUseSetLocale ↔
      0 ∈ text ∨ locale.used dontUseSetLocale <:+: text := by
  refine Iff.trans ⟨?_, fun hne => ?_⟩ (locale.searchDecimalPoint_ne_none_iff text dontUseSetLocale)
  · rintro ⟨decptr, fraction, hpart, -⟩ hnone
    rw [getFractionalPart_natCast, hnone] at hpart
    cases hpart
  · obtain ⟨decptr, hdecptr⟩ := Option.ne_none_iff_exists'.mp hne
    have hvalue := fractionAt_snd (locale.found_searchDecimalPoint hdecptr)
    rw [← locale.length_used] at hvalue
    refine ⟨_, _, by rw [getFractionalPart_natCast, hdecptr, Option.map_some], hvalue, ?_⟩
    rw [hvalue]
    exact fraction_lt _ _

end DecimalPoint

/-- The parsers stay in a text, use only what they have parsed and return the fraction of the
text on exactly these conditions. -/
theorem parsers_kept_iff (locale : DecimalPoint) (text : List UInt8)
    (zeroToMin dontUseSetLocale : Bool) :
    (DateKept text zeroToMin ↔ HasDigit text) ∧
      (TimeKept text ↔ text = [] ∨ HasDigit text) ∧
        (TimeStKept text ↔ 0 ∈ text ∨ 3 ≤ separatorCount text ∨ 24 ≤ text.length) ∧
          (FractionKept locale text dontUseSetLocale ↔
            0 ∈ text ∨ locale.used dontUseSetLocale <:+: text) :=
  ⟨dateKept_iff, timeKept_iff, timeStKept_iff, locale.fractionKept_iff text dontUseSetLocale⟩

/-- A dash has no digit in front of the end, no terminator and no decimal point. -/
theorem parsers_dash_not_kept :
    ¬ DateKept [0x2d] true ∧ ¬ TimeKept [0x2d] ∧ ¬ TimeStKept [0x2d] ∧
      ¬ FractionKept ⟨[0x2e], by decide, by decide⟩ [0x2d] true := by
  refine ⟨?_, ?_, ?_, ?_⟩
  · rintro ⟨date, hdate, -⟩
    cases hdate
  · rintro ⟨time, htime, -⟩
    rw [strToTimeAsLong_eq_none (by decide) rfl] at htime
    cases htime
  · rintro ⟨time, htime, -⟩
    cases htime
  · rintro ⟨decptr, fraction, hpart, -⟩
    cases hpart

end MatrixOdbc.Driver.DateTime
