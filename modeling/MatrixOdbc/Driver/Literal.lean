import MatrixOdbc.Driver.InsertParam
import Mathlib.Data.List.TakeWhile

/-!
# Literals as the server reads them

The literals that `insert_param` writes for a text, and when they are read as the value
the text was taken from. An escaped text that is not read as itself is read as something
that departs from it, so a value cut off at a NUL is not put right by accident.
-/

namespace MatrixOdbc.Driver

open MysqlStrings QuotedText

/-- The parts of a number that a server reads one byte after another. -/
inductive NumberState where
  | start | sign | int | dot | frac | exp | expSign | expDigits
  deriving DecidableEq

/-- The state behind a byte, if a number can go on with it. -/
def NumberState.next (state : NumberState) (c : UInt8) : Option NumberState :=
  if isdigit c then
    match state with
    | .start | .sign | .int => some .int
    | .dot | .frac => some .frac
    | .exp | .expSign | .expDigits => some .expDigits
  else
    match state with
    | .start => if c = 0x2d then some .sign else none
    | .int => if c = 0x2e then some .dot else if c = 0x65 then some .exp else none
    | .frac => if c = 0x65 then some .exp else none
    | .exp => if c = 0x2d ∨ c = 0x2b then some .expSign else none
    | .sign | .dot | .expSign | .expDigits => none

/-- The rest of a number. -/
def isNumberFrom : NumberState → List UInt8 → Bool
  | state, [] => state == .int || state == .frac || state == .expDigits
  | state, c :: s => (state.next c).any fun state => isNumberFrom state s

/-- The text is a numeric literal, with a sign in front of it or not. -/
def isNumber (s : List UInt8) : Bool := isNumberFrom .start s

/-- The bytes of numbers. -/
def isNumberByte (c : UInt8) : Bool :=
  isdigit c || c == 0x2d || c == 0x2b || c == 0x2e || c == 0x65

theorem isNumberByte_of_next {state state' : NumberState} {c : UInt8}
    (h : state.next c = some state') : isNumberByte c = true := by
  by_contra hnot
  simp only [isNumberByte, Bool.or_eq_true, beq_iff_eq, not_or, Bool.not_eq_true] at hnot
  obtain ⟨⟨⟨⟨hdigit, hminus⟩, hplus⟩, hdot⟩, hexp⟩ := hnot
  cases state <;> simp [NumberState.next, hdigit, hminus, hplus, hdot, hexp] at h

theorem isNumberByte_of_isNumberFrom {state : NumberState} {s : List UInt8}
    (h : isNumberFrom state s = true) : ∀ c ∈ s, isNumberByte c = true := by
  induction s generalizing state with
  | nil => simp
  | cons c s ih =>
    obtain ⟨state', hnext, hrest⟩ := (Option.any_eq_true _ _).mp h
    intro c' hc'
    rcases List.mem_cons.mp hc' with rfl | hmem
    · exact isNumberByte_of_next hnext
    · exact ih hrest c' hmem

/-- All bytes of a number are number bytes. -/
theorem isNumberByte_of_isNumber {s : List UInt8} (h : isNumber s = true) :
    ∀ c ∈ s, isNumberByte c = true := isNumberByte_of_isNumberFrom h

/-- A byte that identifiers and numbers go on with. -/
def isIdentByte (c : UInt8) : Bool :=
  isdigit c || inRange 0x41 0x5a c || inRange 0x61 0x7a c || c == 0x5f || c == 0x24 || 0x80 ≤ c

/-- A literal at the front of a text, its value, and the text behind it. -/
inductive ReadsLiteral (cs : Charset) (m : EscapeMode) :
    List UInt8 → List UInt8 → List UInt8 → Prop where
  | quoted {text value rest : List UInt8} : QuotedText.Reads (mysqlDialect cs m) text value rest →
      ReadsLiteral cs m (0x27 :: text) value rest
  | binary {text value rest : List UInt8} : QuotedText.Reads (mysqlDialect cs m) text value rest →
      ReadsLiteral cs m (binaryIntroducer ++ 0x27 :: text) value rest
  | hex {value rest : List UInt8} : value ≠ [] → (rest.head?.all fun c => !isIdentByte c) = true →
      ReadsLiteral cs m (binaryIntroducer ++ hexPrefix ++ hexText value ++ rest) value rest
  | number {text : List UInt8} : isNumber (text.takeWhile (· ≠ 0x20)) = true →
      ReadsLiteral cs m text (text.takeWhile (· ≠ 0x20)) (text.dropWhile (· ≠ 0x20))

variable {cs : Charset} {m : EscapeMode} {c : UInt8} {s t value after rest : List UInt8}

/-- A value that is neither a part of a text nor the text with a NUL behind it. -/
def Departs (value s : List UInt8) : Prop := ¬ value <+: s ∧ ¬ s ++ [0] <+: value

theorem Departs.append (h : Departs value s) (t : List UInt8) : Departs (t ++ value) (t ++ s) := by
  rw [Departs, List.prefix_append_right_inj, List.append_assoc, List.prefix_append_right_inj]
  exact h

theorem departs_of_head_ne {a b : UInt8} (h : a ≠ b) : Departs (a :: value) (b :: s) := by
  constructor
  · exact fun hprefix => h (List.cons_prefix_cons.mp hprefix).1
  · exact fun hprefix => h (List.cons_prefix_cons.mp hprefix).1.symm

/-- A character that is not in the text, and the rest of the value. -/
theorem departs_of_multi {k : ℕ} (hk : mbLen cs (c :: quotedText cs m s after) = k) (hne : k ≠ 0)
    (hmb : mbLen cs (c :: s) = 0) :
    Departs ((c :: quotedText cs m s after).take k ++ value) (c :: s) := by
  have hlen : ((c :: quotedText cs m s after).take k).length = k := by
    rw [List.length_take, Nat.min_eq_left (hk ▸ mbLen_le cs _)]
  have hdiffer : (c :: s).take k ≠ (c :: quotedText cs m s after).take k := by
    intro htake
    have := mbLen_eq_of_take (c :: s) (by rw [hk]; exact hne) (by rw [hk]; exact htake)
    omega
  constructor
  · rintro ⟨tail, htail⟩
    apply hdiffer
    rw [← htail, List.append_assoc, List.take_left' hlen]
  · rintro ⟨tail, htail⟩
    by_cases hfit : k ≤ (c :: s).length
    · apply hdiffer
      have htake := congrArg (List.take k) htail
      rwa [List.append_assoc, List.take_append_of_le_length hfit, List.take_left' hlen] at htake
    · -- the NUL would be in the character, and the quoting byte in front of it
      have htake := congrArg (List.take ((c :: s).length + 1)) htail
      rw [List.take_left' (by simp), List.take_append_of_le_length (by omega), List.take_take,
        Nat.min_eq_left (by omega), List.length_cons, List.take_succ_cons, List.cons_append] at htake
      have htext : (quotedText cs m s after).take (s.length + 1) = s ++ [0] :=
        (List.cons.inj htake).2.symm
      obtain ⟨x, hx, hquoting⟩ : ∃ x ∈ s ++ [0], isQuotingByte x = true := by
        by_contra hnone
        simp only [not_exists, not_and, Bool.not_eq_true] at hnone
        have hsame := take_quotedText (s.length + 1) (fun x hx => hnone x (htext ▸ hx))
        rw [htext, List.take_of_length_le (by omega)] at hsame
        simpa using congrArg List.length hsame
      have hmem : x ∈ s := by
        rcases List.mem_append.mp hx with hmem | hmem
        · exact hmem
        · rw [List.mem_singleton.mp hmem] at hquoting
          exact absurd hquoting (by decide)
      have htwo : mbLen cs (c :: quotedText cs m s after) = 2 := by
        refine mbLen_quoting (c := x) ?_ hquoting
        have hprefix : c :: (s ++ [0]) <+: (c :: quotedText cs m s after).take k := by
          rw [← htext, ← List.take_succ_cons]
          exact List.take_prefix_take_left (by rw [List.length_cons] at hfit; omega)
        exact hk ▸ hprefix.subset (List.mem_cons_of_mem _ hx)
      rw [List.length_cons] at hfit
      have : s.length = 0 := by omega
      rw [List.length_eq_zero_iff.mp this] at hmem
      exact absurd hmem List.not_mem_nil

/-- A text that is not clean is read as something that departs from it. -/
theorem departs_of_not_clean (hid : m.escapeId = false) (hwild : m.escWildcard = false)
    (hnot : ¬ Clean cs m s) (h : QuotedText.Reads (mysqlDialect cs m) (quotedText cs m s after) value rest) :
    Departs value s := by
  induction s using escapeText.induct cs generalizing value with
  | case1 => exact absurd clean_nil hnot
  | case2 c s ih =>
    rw [clean_iff] at hnot
    rw [quotedText_cons] at h
    by_cases hmb : mbLen cs (c :: s) = 0
    · rw [advance_of_mbLen_eq_zero hmb] at ih hnot h
      by_cases hc : c = m.doubleChar
      · subst hc
        rw [escapeToken_quote hmb] at h
        have hclean : CleanAt cs m (m.doubleChar :: s) := fun _ hne => absurd rfl hne
        obtain ⟨value', rfl, htail⟩ := (reads_pair_iff value rest (D := mysqlDialect cs m)
          (mbLen_ascii (doubleChar_ascii m))).mp h
        exact (ih (fun hs => hnot ⟨hclean, hs⟩) htail).append [m.doubleChar]
      · cases hescape : escapeOf cs m c with
        | some e =>
          rw [escapeToken_backslash hmb hc hescape] at h
          have hmulti (t : List UInt8) : (mysqlDialect cs m).multi (0x5c :: t) = 0 :=
            mbLen_ascii (by decide)
          have hquote : (0x5c : UInt8) ≠ (mysqlDialect cs m).quote :=
            (doubleChar_ne_backslash m).symm
          cases hback : m.useBackslash with
          | false =>
            -- the backslash is read as a byte of the value
            have hlead : looksLead cs m c = true := by
              rcases (escapeOf_eq_some hc hescape).2 with ⟨hlead, -⟩ | ⟨-, hback', -⟩
              · exact hlead
              · simp [hback] at hback'
            have hplain : (mysqlDialect cs m).escape ≠ some 0x5c := by simp [mysqlDialect, hback]
            obtain ⟨-, value', rfl, -⟩ := (reads_plain_iff (hmulti _) hquote hplain).mp h
            refine departs_of_head_ne fun heq => not_ascii_of_looksLead hlead ?_
            exact heq ▸ by decide
          | true =>
            have hescaped : (mysqlDialect cs m).escape = some 0x5c := by simp [mysqlDialect, hback]
            obtain ⟨value', rfl, htail⟩ := (reads_escaped_iff hescaped hquote (hmulti _)).mp h
            have hself : (mysqlDialect cs m).unescape e = [c] := by
              rcases (escapeOf_eq_some hc hescape).2 with ⟨hlead, rfl⟩ | ⟨-, -, hbyte⟩
              · exact unescapeByte_of_not_ascii (not_ascii_of_looksLead hlead)
              · exact unescapeByte_backslashEscape c e (hwild ▸ hbyte)
            have hclean : CleanAt cs m (c :: s) := fun _ _ =>
              ⟨fun _ => hback, by simp [hwild], by simp [hid], by simp [hescape]⟩
            rw [hself]
            exact (ih (fun hs => hnot ⟨hclean, hs⟩) htail).append [c]
        | none =>
          rw [escapeToken_raw hmb hescape, List.singleton_append] at h
          by_cases htext : mbLen cs (c :: quotedText cs m s after) = 0
          · have hlead : looksLead cs m c = false := by
              rw [Bool.eq_false_iff]
              intro hlead
              simp [escapeOf, hc, hlead] at hescape
            have hplain : (mysqlDialect cs m).escape ≠ some c := by
              intro heq
              cases hback : m.useBackslash with
              | false => simp [mysqlDialect, hback] at heq
              | true =>
                obtain rfl : 0x5c = c := by simpa [mysqlDialect, hback] using heq
                simp [escapeOf, hc, hlead, hback, backslashEscape] at hescape
            obtain ⟨-, value', rfl, htail⟩ := (reads_plain_iff htext hc hplain).mp h
            have hclean : CleanAt cs m (c :: s) := fun _ _ =>
              ⟨by simp [hlead], by simp [hwild], by simp [hid],
                fun _ => (mbLen_raw_iff after hmb).mp htext⟩
            exact (ih (fun hs => hnot ⟨hclean, hs⟩) htail).append [c]
          · obtain ⟨value', rfl, -⟩ := (reads_multi_iff htext).mp h
            exact departs_of_multi rfl htext hmb
    · rw [escapeToken_multi hmb] at h
      have hmulti : (mysqlDialect cs m).multi ((c :: s).take (mbLen cs (c :: s)) ++
          quotedText cs m (advance cs (c :: s)) after) = mbLen cs (c :: s) := mbLen_take hmb
      have hlen : ((c :: s).take (mbLen cs (c :: s))).length = mbLen cs (c :: s) := by
        rw [List.length_take, Nat.min_eq_left (mbLen_le cs _)]
      obtain ⟨value', rfl, htail⟩ := (reads_multi_iff (by rw [hmulti]; exact hmb)).mp h
      rw [hmulti, List.drop_left' hlen] at htail
      rw [hmulti, List.take_left' hlen]
      have hclean : CleanAt cs m (c :: s) := fun hzero => absurd hzero hmb
      have hdeparts := (ih (fun hs => hnot ⟨hclean, hs⟩) htail).append
        ((c :: s).take (mbLen cs (c :: s)))
      rwa [advance_of_mbLen_ne_zero hmb, List.take_append_drop] at hdeparts

/-- An escaped text is read as a value that goes on from it or breaks off at its NUL only if
the value is the text. -/
theorem reads_quotedText_value_iff (hid : m.escapeId = false) (hwild : m.escWildcard = false)
    (hafter : after.head? ≠ some m.doubleChar)
    (hvalue : Clean cs m s ∨ value <+: s ∨ s ++ [0] <+: value) :
    QuotedText.Reads (mysqlDialect cs m) (quotedText cs m s after) value rest ↔
      value = s ∧ Clean cs m s ∧ rest = after := by
  constructor
  · intro h
    by_cases hclean : Clean cs m s
    · obtain ⟨rfl, rfl⟩ := h.unique ((reads_quotedText_iff hafter).mpr hclean)
      exact ⟨rfl, hclean, rfl⟩
    · have hdeparts := departs_of_not_clean hid hwild hclean h
      rcases hvalue with hclean' | hprefix | hprefix
      · exact absurd hclean' hclean
      · exact absurd hprefix hdeparts.1
      · exact absurd hprefix hdeparts.2
  · rintro ⟨rfl, hclean, rfl⟩
    exact (reads_quotedText_iff hafter).mpr hclean

/-- A literal of ASCII bytes is clean. -/
theorem clean_of_ascii (hid : m.escapeId = false) (hwild : m.escWildcard = false)
    (h : ∀ c ∈ s, c < 0x80) : Clean cs m s := by
  induction s with
  | nil => exact clean_nil
  | cons c s ih =>
    have hc := h c List.mem_cons_self
    refine clean_iff.mpr ⟨fun _ _ => ⟨?_, ?_, ?_, fun _ => ⟨fun _ => ?_, fun _ => ?_⟩⟩, ?_⟩
    · simp [looksLead_ascii hc]
    · simp [hwild]
    · simp [hid]
    · exact mbLen_ascii hc
    · exact mbLen_ascii hc
    · rw [advance_of_mbLen_eq_zero (mbLen_ascii hc)]
      exact ih fun c' hc' => h c' (List.mem_cons_of_mem _ hc')

theorem not_isNumber_takeWhile (h : isNumberByte c = false) :
    isNumber ((c :: t).takeWhile (· ≠ 0x20)) = false := by
  rw [Bool.eq_false_iff]
  intro hnumber
  by_cases hc : c = 0x20
  · rw [List.takeWhile_cons_of_neg (by simpa using hc)] at hnumber
    exact absurd hnumber (by decide)
  · rw [List.takeWhile_cons_of_pos (by simpa using hc)] at hnumber
    simp [isNumberByte_of_isNumber hnumber c List.mem_cons_self] at h

/-- A byte that no literal begins with. -/
theorem not_readsLiteral (h : isNumberByte c = false) (hquote : c ≠ 0x27) (hintro : c ≠ 0x5f) :
    ¬ ReadsLiteral cs m (c :: t) value rest := by
  intro hread
  generalize htext : c :: t = text at hread
  cases hread with
  | quoted => exact hquote (List.cons.inj htext).1
  | binary => exact hintro (List.cons.inj htext).1
  | hex => exact hintro (List.cons.inj htext).1
  | number hnumber =>
    rw [← htext, not_isNumber_takeWhile h] at hnumber
    exact absurd hnumber Bool.false_ne_true

theorem readsLiteral_quoted_iff :
    ReadsLiteral cs m (0x27 :: t) value rest ↔ QuotedText.Reads (mysqlDialect cs m) t value rest := by
  constructor
  · intro h
    generalize htext : 0x27 :: t = text at h
    cases h with
    | quoted hread => rwa [(List.cons.inj htext).2]
    | binary => exact absurd (List.cons.inj htext).1 (by decide)
    | hex => exact absurd (List.cons.inj htext).1 (by decide)
    | number hnumber =>
      rw [← htext, not_isNumber_takeWhile (by decide)] at hnumber
      exact absurd hnumber Bool.false_ne_true
  · exact .quoted

theorem readsLiteral_binary_iff :
    ReadsLiteral cs m (binaryIntroducer ++ 0x27 :: t) value rest ↔
      QuotedText.Reads (mysqlDialect cs m) t value rest := by
  constructor
  · intro h
    generalize htext : binaryIntroducer ++ 0x27 :: t = text at h
    cases h with
    | quoted => exact absurd (List.cons.inj htext).1 (by decide)
    | binary hread =>
      rwa [(List.cons.inj (List.append_cancel_left htext)).2]
    | hex =>
      rw [List.append_assoc, List.append_assoc] at htext
      exact absurd (List.cons.inj (List.append_cancel_left htext)).1 (by decide)
    | number hnumber =>
      rw [← htext, binaryIntroducer, List.cons_append, not_isNumber_takeWhile (by decide)] at hnumber
      exact absurd hnumber Bool.false_ne_true
  · exact .binary

theorem isIdentByte_hexDigit : ∀ n < 16, isIdentByte (hexDigit n) = true := by decide

theorem hexDigit_injective : ∀ n < 16, ∀ k < 16, hexDigit n = hexDigit k → n = k := by decide

/-- The digits and what ends them determine the bytes. -/
theorem hexText_append_injective {v w : List UInt8}
    (hrest : (rest.head?.all fun c => !isIdentByte c) = true)
    (hafter : (after.head?.all fun c => !isIdentByte c) = true)
    (h : hexText v ++ rest = hexText w ++ after) : v = w ∧ rest = after := by
  have hdigit (c : UInt8) : isIdentByte (hexDigit (c.toNat / 16)) = true :=
    isIdentByte_hexDigit _ (by have := c.toNat_lt; omega)
  induction v generalizing w with
  | nil =>
    cases w with
    | nil => exact ⟨rfl, h⟩
    | cons b w =>
      obtain rfl : rest = hexDigit (b.toNat / 16) :: _ := h
      simp [hdigit] at hrest
  | cons a v ih =>
    cases w with
    | nil =>
      obtain rfl : _ = after := h
      simp [hexText, hdigit] at hafter
    | cons b w =>
      simp only [hexText, List.flatMap_cons, List.cons_append, List.nil_append, List.cons.injEq] at h
      obtain ⟨hhigh, hlow, htail⟩ := h
      have ha := a.toNat_lt
      have hb := b.toNat_lt
      have hhigh := hexDigit_injective _ (by omega) _ (by omega) hhigh
      have hlow := hexDigit_injective _ (by omega) _ (by omega) hlow
      have hab : a = b := UInt8.toNat_inj.mp (by omega)
      obtain ⟨rfl, hrest⟩ := ih htail
      exact ⟨by rw [hab], hrest⟩

variable (cs m s value rest) in
theorem readsLiteral_hex_iff (hafter : (after.head?.all fun c => !isIdentByte c) = true) :
    ReadsLiteral cs m (binaryIntroducer ++ hexPrefix ++ hexText s ++ after) value rest ↔
      s ≠ [] ∧ value = s ∧ rest = after := by
  constructor
  · intro h
    generalize htext : binaryIntroducer ++ hexPrefix ++ hexText s ++ after = text at h
    cases h with
    | quoted => exact absurd (List.cons.inj htext).1 (by decide)
    | binary =>
      rw [List.append_assoc, List.append_assoc] at htext
      exact absurd (List.cons.inj (List.append_cancel_left htext)).1 (by decide)
    | hex hne hrest =>
      rw [List.append_assoc, List.append_assoc _ _ rest] at htext
      obtain ⟨rfl, rfl⟩ := hexText_append_injective hafter hrest (List.append_cancel_left htext)
      exact ⟨hne, rfl, rfl⟩
    | number hnumber =>
      rw [← htext, binaryIntroducer, List.cons_append, List.cons_append, List.cons_append,
        not_isNumber_takeWhile (by decide)] at hnumber
      exact absurd hnumber Bool.false_ne_true
  · rintro ⟨hne, rfl, rfl⟩
    exact .hex hne hafter

/-- A text of number bytes is read as itself, if it is a number at all. -/
theorem readsLiteral_number_iff (hbytes : ∀ c ∈ t, isNumberByte c = true)
    (hafter : after.head? = some 0x20) :
    ReadsLiteral cs m (t ++ after) value rest ↔ isNumber t = true ∧ value = t ∧ rest = after := by
  have hspace : ∀ c ∈ t, (c ≠ (0x20 : UInt8) : Bool) = true := by
    intro c hc
    rw [decide_eq_true_eq]
    rintro rfl
    exact absurd (hbytes _ hc) (by decide)
  obtain ⟨tail, rfl⟩ : ∃ tail, after = 0x20 :: tail := by
    cases after with
    | nil => simp at hafter
    | cons c tail => exact ⟨tail, by rw [Option.some.inj hafter]⟩
  have htake : (t ++ 0x20 :: tail).takeWhile (· ≠ 0x20) = t := by
    rw [List.takeWhile_append_of_pos hspace, List.takeWhile_cons_of_neg (by simp), List.append_nil]
  have hdrop : (t ++ 0x20 :: tail).dropWhile (· ≠ 0x20) = 0x20 :: tail := by
    rw [List.dropWhile_append_of_pos hspace, List.dropWhile_cons_of_neg (by simp)]
  constructor
  · intro h
    generalize htext : t ++ 0x20 :: tail = text at h
    have hfirst (c : UInt8) (text' : List UInt8) (heq : text = c :: text') :
        isNumberByte c = true ∨ c = 0x20 := by
      rw [← htext] at heq
      cases t with
      | nil => exact Or.inr (List.cons.inj heq).1.symm
      | cons c' t => exact Or.inl ((List.cons.inj heq).1 ▸ hbytes c' List.mem_cons_self)
    cases h with
    | quoted => exact absurd (hfirst _ _ rfl) (by decide)
    | binary => exact absurd (hfirst _ _ rfl) (by decide)
    | hex => exact absurd (hfirst _ _ rfl) (by decide)
    | number hnumber =>
      rw [← htext, htake] at hnumber
      rw [← htext, htake, hdrop]
      exact ⟨hnumber, rfl, rfl⟩
  · rintro ⟨hnumber, rfl, rfl⟩
    have hread : isNumber ((value ++ 0x20 :: tail).takeWhile (· ≠ 0x20)) = true →
        ReadsLiteral cs m (value ++ 0x20 :: tail) _ _ := .number
    rw [htake, hdrop] at hread
    exact hread hnumber

/-- The separators of the locale leave the text of a number alone. -/
def Unlocalised (env : ParamEnv) (s : List UInt8) : Prop :=
  ∀ i < s.length,
    (env.separators.1 ≠ [] → env.separators.1.isPrefixOf (s.drop i) = false) ∧
    (env.separators.2 ≠ [] → env.separators.2.isPrefixOf (s.drop i) = true →
      env.separators.2 = [0x2e])

/-- A time of the day as `hh:mm:ss`. -/
def IsClock (s : List UInt8) : Prop :=
  ∃ h m sec, h < 24 ∧ m < 100 ∧ sec < 100 ∧
    s = twoDigits h ++ 0x3a :: twoDigits m ++ 0x3a :: twoDigits sec

/-- What `max_length` and the offset of an earlier read leave of a text for a hexadecimal
literal. -/
def hexSource (opts : StmtOptions) (offset : Option ℕ) (s : List UInt8) : List UInt8 :=
  (if opts.maxLength ≠ 0 then s.take ((opts.maxLength + 1) / 2) else s).drop (offset.getD 0)

/-- The hexadecimal literal is that of the value, and it is written as a whole. -/
def HexWhole (opts : StmtOptions) (offset : Option ℕ) (s value : List UInt8) : Prop :=
  hexSource opts offset s = value ∧ value ≠ [] ∧ opts.retrieveData = true ∧
    (opts.maxLength ≠ 0 → 2 * value.length ≤ opts.maxLength)

/-- The literal for the text `s` has the value, by the case of the type. -/
def SoundLiteral (env : ParamEnv) (offset : Option ℕ) (s value : List UInt8) : SqlTypeCase → Prop
  | .date => s = value ∧ s.head? ≠ some 0x7b ∧ (env.noDateOverflow = false → strToTs s ≠ none) ∧
      Clean env.cs env.literalMode s
  | .timestamp => s = value ∧ s.head? ≠ some 0x7b ∧ Clean env.cs env.literalMode s
  | .binary =>
    if env.noBackslashEscapes then HexWhole env.opts offset s value
    else s = value ∧ Clean env.cs env.literalMode s
  | .character | .numeric => s = value ∧ Clean env.cs env.literalMode s
  | .time => s = value ∧ IsClock s
  | .float => s = value ∧ Unlocalised env s ∧ s.length ≤ sizeofBuff
  | .interval | .bit => False

/-- The offset that a value leaves behind. -/
def offsetAfter (env : ParamEnv) (offset : Option ℕ) (s : List UInt8) (case : SqlTypeCase) :
    Option ℕ :=
  if env.noBackslashEscapes = true ∧ case = .binary then (copyBinhexResult env.opts offset s).2
  else offset

variable {env : ParamEnv} {sqlType : SqlType} {offset : Option ℕ}

theorem isBinarySqlType_iff : isBinarySqlType sqlType = true ↔ sqlType.switchCase = .binary := by
  cases sqlType <;> simp [isBinarySqlType, SqlType.switchCase]

/-- A quoted literal is written, if the type has no hexadecimal one. -/
theorem putQuoted_quoted (st : ParamBuffer)
    (h : ¬ (env.noBackslashEscapes = true ∧ sqlType.switchCase = .binary)) :
    putQuoted env sqlType s st =
      .ok (st.add (0x27 :: escapeText env.cs env.literalMode s ++ [0x27])) := by
  have hcond : ¬ (env.noBackslashEscapes && isBinarySqlType sqlType) = true := by
    rwa [Bool.and_eq_true, isBinarySqlType_iff]
  rw [putQuoted, if_neg hcond, myodbcEscapeString_eq _ _ _ (Or.inr (by omega))]

variable (value rest) in
theorem readsLiteral_escapeText_iff (hafter : after.head? = some 0x20)
    (hvalue : Clean env.cs env.literalMode s ∨ value <+: s ∨ s ++ [0] <+: value) :
    ReadsLiteral env.cs env.literalMode
        (0x27 :: escapeText env.cs env.literalMode s ++ [0x27] ++ after) value rest ↔
      value = s ∧ Clean env.cs env.literalMode s ∧ rest = after := by
  have htext : 0x27 :: escapeText env.cs env.literalMode s ++ [0x27] ++ after =
      0x27 :: quotedText env.cs env.literalMode s after := by
    simp [quotedText, ParamEnv.literalMode, EscapeMode.doubleChar]
  have hhead : after.head? ≠ some env.literalMode.doubleChar := by
    simp [hafter, ParamEnv.literalMode, EscapeMode.doubleChar]
  rw [htext, readsLiteral_quoted_iff, reads_quotedText_value_iff rfl rfl hhead hvalue]

variable (value rest) in
theorem readsLiteral_binary_escapeText_iff (hafter : after.head? = some 0x20)
    (hvalue : Clean env.cs env.literalMode s ∨ value <+: s ∨ s ++ [0] <+: value) :
    ReadsLiteral env.cs env.literalMode
        (binaryIntroducer ++ (0x27 :: escapeText env.cs env.literalMode s ++ [0x27]) ++ after)
        value rest ↔
      value = s ∧ Clean env.cs env.literalMode s ∧ rest = after := by
  rw [← readsLiteral_escapeText_iff _ _ hafter hvalue, List.append_assoc, List.cons_append,
    List.cons_append, readsLiteral_binary_iff, readsLiteral_quoted_iff]

variable (s) in
/-- What is written for a hexadecimal literal. -/
theorem copyBinhexResult_fst (opts : StmtOptions) (offset : Option ℕ) :
    (copyBinhexResult opts offset s).1 =
      if opts.retrieveData = false then some []
      else if opts.maxLength ≠ 0 ∧ opts.maxLength < 2 * (hexSource opts offset s).length then none
      else some (hexText (hexSource opts offset s)) := by
  have hrest (cbValueMax o : ℕ) (src : List UInt8)
      (hcb : cbValueMax = if opts.maxLength ≠ 0 then min (2 * s.length + 1) (opts.maxLength + 1)
        else 2 * s.length + 1) (hlen : (src.drop o).length ≤ s.length) :
      (copyBinhexResult.rest opts cbValueMax o src).1 =
        if opts.retrieveData = false then some []
        else if opts.maxLength ≠ 0 ∧ opts.maxLength < 2 * (src.drop o).length then none
        else some (hexText (src.drop o)) := by
    simp only [copyBinhexResult.rest, Bool.not_eq_true']
    split_ifs at hcb ⊢ <;> first | rfl | omega
  have hcut : (if opts.maxLength ≠ 0 then s.take ((opts.maxLength + 1) / 2) else s).length ≤
      s.length := by
    split_ifs
    · rw [List.length_take]
      exact Nat.min_le_right _ _
    · exact le_rfl
  unfold copyBinhexResult hexSource
  cases offset with
  | none => exact hrest _ 0 _ rfl (by simpa using hcut)
  | some o =>
    have hdrop (src : List UInt8) (hlen : src.length ≤ s.length) :
        (src.drop o).length ≤ s.length := by
      rw [List.length_drop]
      omega
    have hthis := hrest _ o _ rfl (hdrop _ hcut)
    simp only [Option.getD_some]
    generalize (if opts.maxLength ≠ 0 then s.take ((opts.maxLength + 1) / 2) else s) = src at *
    by_cases hle : src.length ≤ o
    · simp [if_pos hle, List.drop_eq_nil_of_le hle, hexText]
    · rw [if_neg hle]
      exact hthis

/-- The literal has a value exactly when it is whole. -/
theorem readsLiteral_copyBinhexResult_iff {text : List UInt8} {opts : StmtOptions}
    (hafter : after.head? = some 0x20) (htext : (copyBinhexResult opts offset s).1 = some text) :
    ReadsLiteral cs m (binaryIntroducer ++ hexPrefix ++ text ++ after) value rest ↔
      HexWhole opts offset s value ∧ rest = after := by
  have hend : (after.head?.all fun c => !isIdentByte c) = true := by
    rw [hafter]
    decide
  rw [copyBinhexResult_fst] at htext
  split_ifs at htext with hretrieve hlong
  · obtain rfl := Option.some.inj htext
    have hread := readsLiteral_hex_iff cs m [] value rest hend
    rw [hexText, List.flatMap_nil] at hread
    rw [hread]
    simp [HexWhole, hretrieve]
  · obtain rfl := Option.some.inj htext
    rw [readsLiteral_hex_iff _ _ _ _ _ hend]
    constructor
    · rintro ⟨hne, rfl, rfl⟩
      refine ⟨⟨rfl, hne, by simpa using hretrieve, fun hmax => ?_⟩, rfl⟩
      by_contra hlt
      exact hlong ⟨hmax, by omega⟩
    · rintro ⟨⟨rfl, hne, -, -⟩, rfl⟩
      exact ⟨hne, rfl, rfl⟩

theorem ascii_of_digit (h : isdigit c = true ∨ c = 0x3a) : c < 0x80 := by
  rcases h with hdigit | rfl
  · simp only [isdigit, Bool.and_eq_true, decide_eq_true_eq] at hdigit
    exact UInt8.lt_of_le_of_lt hdigit.2 (by decide)
  · decide

/-- Digits and colons are written as they are. -/
theorem escapeText_of_digits (h : ∀ c ∈ s, isdigit c = true ∨ c = 0x3a) :
    escapeText env.cs env.literalMode s = s := by
  induction s with
  | nil => rw [escapeText]
  | cons c s ih =>
    have hne (x : UInt8) (hx : isdigit x = false ∧ x ≠ 0x3a) : c ≠ x := by
      rintro rfl
      rcases h c List.mem_cons_self with hdigit | hcolon
      · simp [hdigit] at hx
      · exact hx.2 hcolon
    have hascii : c < 0x80 := ascii_of_digit (h c List.mem_cons_self)
    have hmb : mbLen env.cs (c :: s) = 0 := mbLen_ascii hascii
    have hescape : escapeOf env.cs env.literalMode c = none := by
      simp [escapeOf, looksLead_ascii hascii, ParamEnv.literalMode, EscapeMode.doubleChar,
        backslashEscape, hne 0x27 (by decide), hne 0 (by decide), hne 0x0a (by decide),
        hne 0x0d (by decide), hne 0x5c (by decide), hne 0x22 (by decide), hne 0x1a (by decide)]
    rw [escapeText, escapeToken_raw hmb hescape, advance_of_mbLen_eq_zero hmb,
      ih fun c' hc' => h c' (List.mem_cons_of_mem _ hc'), List.singleton_append]

theorem isdigit_twoDigits : ∀ n < 100, (twoDigits n).all isdigit = true := by decide +kernel

theorem digitRuns_twoDigits {n : ℕ} (hn : n < 100) (s : List UInt8) :
    digitRuns none (twoDigits n ++ s) = digitRuns (some n) s := by
  have hdigits := isdigit_twoDigits n hn
  simp only [twoDigits, List.all_cons, Bool.and_eq_true, List.all_nil, Bool.and_true] at hdigits
  have hvalue : ∀ k < 10, ((0x30 : UInt8) + UInt8.ofNat k).toNat - 0x30 = k := by decide
  have hhigh := hvalue (n / 10) (by omega)
  have hlow := hvalue (n % 10) (Nat.mod_lt _ (by decide))
  have hrun : ((0 * 10 + n / 10) % 2 ^ 32 * 10 + n % 10) % 2 ^ 32 = n := by omega
  simp only [twoDigits, List.cons_append, List.nil_append, digitRuns, hdigits, if_true, hhigh, hlow,
    Option.getD_none, Option.getD_some, hrun]

/-- A number ends at a byte that is no digit. -/
theorem digitRuns_colon (n : ℕ) (s : List UInt8) :
    digitRuns (some n) (0x3a :: s) = n :: digitRuns none s := rfl

theorem IsClock.digits (h : IsClock s) : ∀ c ∈ s, isdigit c = true ∨ c = 0x3a := by
  obtain ⟨hour, minute, second, hhour, hminute, hsecond, rfl⟩ := h
  intro c hc
  simp only [List.append_assoc, List.cons_append, List.mem_append, List.mem_cons] at hc
  rcases hc with hc | rfl | hc | rfl | hc
  · exact Or.inl (List.all_eq_true.mp (isdigit_twoDigits _ (by omega)) c hc)
  · exact Or.inr rfl
  · exact Or.inl (List.all_eq_true.mp (isdigit_twoDigits _ hminute) c hc)
  · exact Or.inr rfl
  · exact Or.inl (List.all_eq_true.mp (isdigit_twoDigits _ hsecond) c hc)

/-- The text of a time is a clock. -/
theorem isClock_clockText {time : ℕ} (h : time / 10000 ≤ 23) : IsClock (clockText time) :=
  ⟨time / 10000, time / 100 % 100, time % 100, by omega, Nat.mod_lt _ (by decide),
    Nat.mod_lt _ (by decide), rfl⟩

/-- A clock is written as it is. -/
theorem IsClock.timeLiteral_eq (h : IsClock s) : timeLiteral s = .ok (0x27 :: s ++ [0x27]) := by
  have hdigits := h.digits
  have hdot : s.dropWhile (· ≠ 0x2e) = [] := by
    refine List.dropWhile_eq_nil_iff.mpr fun c hc => ?_
    rw [decide_eq_true_eq]
    rintro rfl
    exact absurd (hdigits _ hc) (by decide)
  obtain ⟨hour, minute, second, hhour, hminute, hsecond, rfl⟩ := h
  have hruns : digitRuns none
      (twoDigits hour ++ 0x3a :: twoDigits minute ++ 0x3a :: twoDigits second) =
      [hour, minute, second] := by
    rw [List.append_assoc, digitRuns_twoDigits (by omega), List.cons_append, digitRuns_colon,
      digitRuns_twoDigits hminute, digitRuns_colon, ← List.append_nil (twoDigits second),
      digitRuns_twoDigits hsecond]
    rfl
  have htime : strToTimeAsLong
      (twoDigits hour ++ 0x3a :: twoDigits minute ++ 0x3a :: twoDigits second) =
      some (hour * 10000 + (minute * 100 + second)) := by
    rw [strToTimeAsLong, if_neg (by simp), hruns, timeOfRuns, if_neg (by omega)]
  have hhours : (hour * 10000 + (minute * 100 + second)) / 10000 = hour := by omega
  have hminutes : (hour * 10000 + (minute * 100 + second)) / 100 % 100 = minute := by omega
  have hseconds : (hour * 10000 + (minute * 100 + second)) % 100 = second := by omega
  have hfraction : (getFractionalPart
      (twoDigits hour ++ 0x3a :: twoDigits minute ++ 0x3a :: twoDigits second)).2 = 0 := by
    rw [getFractionalPart, hdot]
  rw [timeLiteral, hfraction, htime]
  simp [clockText, hhours, hminutes, hseconds, Nat.not_lt.mpr (Nat.le_of_lt_succ hhour)]

/-- The text of a time, if one is written, is read as the value exactly for a clock. -/
theorem readsLiteral_timeLiteral_iff {text : List UInt8} (hafter : after.head? = some 0x20)
    (htext : timeLiteral s = .ok text) (hvalue : s = value) :
    ReadsLiteral env.cs env.literalMode (text ++ after) value rest ↔
      IsClock s ∧ rest = after := by
  subst hvalue
  have hclock {t : List UInt8} (ht : IsClock t) (v : List UInt8) :
      ReadsLiteral env.cs env.literalMode (0x27 :: t ++ [0x27] ++ after) v rest ↔
        v = t ∧ rest = after := by
    have hclean : Clean env.cs env.literalMode t :=
      clean_of_ascii rfl rfl fun c hc => ascii_of_digit (ht.digits c hc)
    have hread := readsLiteral_escapeText_iff v rest hafter (Or.inl hclean)
    rw [escapeText_of_digits ht.digits] at hread
    simpa [hclean] using hread
  constructor
  · intro h
    obtain ⟨time, hhours, rfl⟩ : ∃ time, time / 10000 ≤ 23 ∧ text = 0x27 :: clockText time ++ [0x27] := by
      unfold timeLiteral at htext
      split_ifs at htext
      split at htext
      · cases htext
      · split_ifs at htext with hhours
        exact ⟨_, Nat.le_of_not_lt hhours, (Except.ok.inj htext).symm⟩
    obtain ⟨hs, hrest⟩ := (hclock (isClock_clockText hhours) s).mp h
    exact ⟨hs ▸ isClock_clockText hhours, hrest⟩
  · rintro ⟨hs, rfl⟩
    rw [hs.timeLiteral_eq] at htext
    obtain rfl := Except.ok.inj htext
    exact (hclock hs s).mpr ⟨rfl, rfl⟩

variable {thousandsSep decimalPoint : List UInt8} {fuel : ℕ}

variable (thousandsSep decimalPoint fuel s) in
theorem length_cleanNumber_le :
    (cleanNumber thousandsSep decimalPoint fuel s).length ≤ s.length := by
  induction fuel generalizing s with
  | zero => simp [cleanNumber]
  | succ fuel ih =>
    cases s with
    | nil => simp [cleanNumber]
    | cons c s =>
      rw [cleanNumber]
      split_ifs with hnul hsep hpoint
      · simp
      · exact (ih _).trans (by simp)
      · have hpos := List.length_pos_iff.mpr hpoint.1
        have hrest := ih ((c :: s).drop decimalPoint.length)
        rw [List.length_drop, List.length_cons] at hrest
        simp only [List.length_cons]
        omega
      · simpa using ih s

theorem mem_cleanNumber (h : c ∈ cleanNumber thousandsSep decimalPoint fuel s) :
    c ∈ s ∨ c = 0x2e := by
  induction fuel generalizing s with
  | zero => simp [cleanNumber] at h
  | succ fuel ih =>
    cases s with
    | nil => simp [cleanNumber] at h
    | cons b s =>
      rw [cleanNumber] at h
      split_ifs at h
      · simp at h
      · exact (ih h).imp_left List.mem_of_mem_drop
      · rcases List.mem_cons.mp h with rfl | h
        · exact Or.inr rfl
        · exact (ih h).imp_left List.mem_of_mem_drop
      · rcases List.mem_cons.mp h with rfl | h
        · exact Or.inl List.mem_cons_self
        · exact (ih h).imp_left (List.mem_cons_of_mem _)

/-- A number is left as it is exactly where no separator is met. -/
theorem cleanNumber_eq_iff (hfuel : s.length ≤ fuel) (hnul : ∀ c ∈ s, c ≠ 0) :
    cleanNumber thousandsSep decimalPoint fuel s = s ↔ ∀ i < s.length,
      (thousandsSep ≠ [] → thousandsSep.isPrefixOf (s.drop i) = false) ∧
      (decimalPoint ≠ [] → decimalPoint.isPrefixOf (s.drop i) = true → decimalPoint = [0x2e]) := by
  induction fuel generalizing s with
  | zero =>
    obtain rfl := List.length_eq_zero_iff.mp (Nat.le_zero.mp hfuel)
    simp [cleanNumber]
  | succ fuel ih =>
    cases s with
    | nil => simp [cleanNumber]
    | cons c s =>
      rw [List.length_cons] at hfuel
      have hrest := ih (by omega) fun b hb => hnul b (List.mem_cons_of_mem _ hb)
      rw [cleanNumber, if_neg (hnul c List.mem_cons_self), List.length_cons,
        Nat.forall_lt_succ_left]
      simp only [List.drop_zero, List.drop_succ_cons]
      rw [← hrest]
      split_ifs with hsep hpoint
      · -- the text gets shorter
        refine iff_of_false (fun heq => ?_) fun hall => ?_
        · have hpos := List.length_pos_iff.mpr hsep.1
          have hle := length_cleanNumber_le ((c :: s).drop thousandsSep.length) thousandsSep
            decimalPoint fuel
          rw [heq, List.length_drop, List.length_cons] at hle
          omega
        · have hfirst := hall.1.1 hsep.1
          rw [hsep.2] at hfirst
          exact absurd hfirst.symm Bool.false_ne_true
      · by_cases hdot : decimalPoint = [0x2e]
        · subst hdot
          obtain rfl : 0x2e = c := by simpa using hpoint.2
          have hfirst : thousandsSep ≠ [] → thousandsSep.isPrefixOf (0x2e :: s) = false :=
            fun hne => Bool.eq_false_iff.mpr fun hprefix => hsep ⟨hne, hprefix⟩
          rw [List.length_singleton, List.drop_one, List.tail_cons, List.cons_inj_right,
            and_iff_right ⟨hfirst, fun _ _ => rfl⟩]
        · refine iff_of_false (fun heq => ?_) fun hall => hdot (hall.1.2 hpoint.1 hpoint.2)
          obtain ⟨hhead, htail⟩ := List.cons.inj heq
          have hpos := List.length_pos_iff.mpr hpoint.1
          have hle := length_cleanNumber_le ((c :: s).drop decimalPoint.length) thousandsSep
            decimalPoint fuel
          have hfit := (List.isPrefixOf_iff_prefix.mp hpoint.2).length_le
          rw [htail, List.length_drop] at hle
          rw [List.length_cons] at hle hfit
          obtain ⟨d, rfl⟩ := List.length_eq_one_iff.mp (show decimalPoint.length = 1 by omega)
          obtain rfl : d = c := by simpa using hpoint.2
          exact hdot (by rw [hhead])
      · have hfirst : (thousandsSep ≠ [] → thousandsSep.isPrefixOf (c :: s) = false) ∧
            (decimalPoint ≠ [] → decimalPoint.isPrefixOf (c :: s) = true →
              decimalPoint = [0x2e]) :=
          ⟨fun hne => Bool.eq_false_iff.mpr fun hprefix => hsep ⟨hne, hprefix⟩,
            fun hne hprefix => absurd ⟨hne, hprefix⟩ hpoint⟩
        rw [List.cons_inj_right, and_iff_right hfirst]

variable (env) in
theorem isdigit_separators : ∀ c ∈ env.separators.1, isdigit c = false := by
  unfold ParamEnv.separators
  split_ifs
  · exact env.isdigit_thousandsSep
  · intro c hc
    rw [List.mem_singleton.mp hc]
    decide

theorem numberText_eq_iff (h : isNumber s = true) : numberText env s = s ↔ Unlocalised env s := by
  have hnul : ∀ c ∈ s, c ≠ 0 := by
    rintro c hc rfl
    exact absurd (isNumberByte_of_isNumber h 0 hc) (by decide)
  rw [Unlocalised, ← cleanNumber_eq_iff le_rfl hnul, numberText]
  split
  · rename_i hempty
    rw [hempty]
    apply iff_of_false
    · -- only a separator that is a digit would take a zero away
      rintro rfl
      rw [List.length_singleton, cleanNumber, if_neg (by decide)] at hempty
      split_ifs at hempty with hsep
      obtain ⟨tail, htail⟩ := List.isPrefixOf_iff_prefix.mp hsep.2
      obtain ⟨d, seps, hseps⟩ := List.exists_cons_of_ne_nil hsep.1
      have hdigit := isdigit_separators env d (hseps ▸ List.mem_cons_self)
      rw [hseps, List.cons_append] at htail
      rw [(List.cons.inj htail).1] at hdigit
      exact absurd hdigit (by decide)
    · rintro rfl
      exact absurd h (by decide)
  · exact Iff.rfl

variable (env s) in
theorem length_numberText_le : (numberText env s).length ≤ max 1 s.length := by
  unfold numberText
  split
  · exact Nat.le_max_left _ _
  · exact (length_cleanNumber_le s _ _ _).trans (Nat.le_max_right _ _)

/-- The text of a number is read as the number exactly when it is left as it is. -/
theorem readsLiteral_numberText_iff (hafter : after.head? = some 0x20)
    (hnumber : isNumber s = true) :
    ReadsLiteral env.cs env.literalMode (numberText env s ++ after) s rest ↔
      Unlocalised env s ∧ rest = after := by
  have hbytes : ∀ c ∈ numberText env s, isNumberByte c = true := by
    intro c hc
    unfold numberText at hc
    split at hc
    · rw [List.mem_singleton.mp hc]
      decide
    · rcases mem_cleanNumber hc with hmem | rfl
      · exact isNumberByte_of_isNumber hnumber c hmem
      · decide
  rw [readsLiteral_number_iff hbytes hafter, ← numberText_eq_iff hnumber]
  constructor
  · exact fun h => ⟨h.2.1.symm, h.2.2⟩
  · exact fun h => ⟨h.1.symm ▸ hnumber, h.1.symm, h.2⟩

/-- A text that begins with a brace is no literal. -/
theorem not_readsLiteral_brace (h : s.head? = some 0x7b) :
    ¬ ReadsLiteral cs m (s ++ after) value rest := by
  cases s with
  | nil => simp at h
  | cons c s =>
    obtain rfl := Option.some.inj h
    exact not_readsLiteral (by decide) (by decide) (by decide)

/-- The literal that is written is read as the value, up to its end, exactly when it is sound. -/
theorem readsLiteral_insertText_iff {st' : ParamBuffer}
    (hok : insertText env sqlType true s ⟨[], offset⟩ = .ok st') (hafter : after.head? = some 0x20)
    (hvalue : Clean env.cs env.literalMode s ∨ value <+: s ∨ s ++ [0] <+: value)
    (hfloat : sqlType.switchCase = .float → s = value ∧ isNumber s = true)
    (htime : sqlType.switchCase = .time → s = value) :
    (ReadsLiteral env.cs env.literalMode (st'.buf ++ after) value rest ↔
      SoundLiteral env offset s value sqlType.switchCase ∧ rest = after) ∧
    st'.srcOffset = offsetAfter env offset s sqlType.switchCase := by
  have hblank : ¬ ReadsLiteral env.cs env.literalMode after value rest := by
    cases after with
    | nil => simp at hafter
    | cons c after =>
      obtain rfl := Option.some.inj hafter
      exact not_readsLiteral (by decide) (by decide) (by decide)
  have hquoted := readsLiteral_escapeText_iff value rest hafter hvalue
  have hbinary := readsLiteral_binary_escapeText_iff value rest hafter hvalue
  unfold insertText at hok
  cases hcase : sqlType.switchCase with
  | date =>
    simp only [hcase] at hok
    split_ifs at hok with hbrace
    · obtain rfl := Except.ok.inj hok
      exact ⟨by simp [SoundLiteral, hbrace, ParamBuffer.add, not_readsLiteral_brace hbrace],
        by simp [ParamBuffer.add, offsetAfter]⟩
    · have hts : env.noDateOverflow = false → strToTs s ≠ none := by
        intro hcheck hnone
        rw [checkDateOverflow, if_neg (by simp [hcheck]), hnone] at hok
        cases hok
      rw [putQuoted_quoted _ (by simp [hcase])] at hok
      cases hcheck : checkDateOverflow env s with
      | error =>
        rw [hcheck] at hok
        cases hok
      | ok =>
        rw [hcheck] at hok
        obtain rfl := Except.ok.inj hok
        refine ⟨?_, by simp [ParamBuffer.add, offsetAfter]⟩
        simp only [ParamBuffer.add, List.nil_append, SoundLiteral, hbinary]
        constructor
        · exact fun h => ⟨⟨h.1.symm, hbrace, hts, h.2.1⟩, h.2.2⟩
        · exact fun h => ⟨h.1.1.symm, h.1.2.2.2, h.2⟩
  | timestamp =>
    simp only [hcase] at hok
    split_ifs at hok with hbrace
    · obtain rfl := Except.ok.inj hok
      exact ⟨by simp [SoundLiteral, hbrace, ParamBuffer.add, not_readsLiteral_brace hbrace],
        by simp [ParamBuffer.add, offsetAfter]⟩
    · rw [putQuoted_quoted _ (by simp [hcase])] at hok
      obtain rfl := Except.ok.inj hok
      refine ⟨?_, by simp [ParamBuffer.add, offsetAfter]⟩
      simp only [ParamBuffer.add, List.nil_append, SoundLiteral, hbinary]
      constructor
      · exact fun h => ⟨⟨h.1.symm, hbrace, h.2.1⟩, h.2.2⟩
      · exact fun h => ⟨h.1.1.symm, h.1.2.2, h.2⟩
  | binary =>
    simp only [hcase] at hok
    by_cases hmode : env.noBackslashEscapes = true
    · have hhex : (env.noBackslashEscapes && isBinarySqlType sqlType) = true := by
        rw [hmode, isBinarySqlType_iff.mpr hcase]
        rfl
      rw [putQuoted, if_pos hhex] at hok
      cases htext : (copyBinhexResult env.opts offset s).1 with
      | none => simp [ParamBuffer.add, htext] at hok
      | some text =>
        simp only [ParamBuffer.add, htext] at hok
        obtain rfl := Except.ok.inj hok
        rw [SoundLiteral, if_pos hmode, offsetAfter, if_pos ⟨hmode, rfl⟩]
        exact ⟨readsLiteral_copyBinhexResult_iff hafter htext, rfl⟩
    · rw [putQuoted_quoted _ (by simp [hmode])] at hok
      obtain rfl := Except.ok.inj hok
      refine ⟨?_, by simp [ParamBuffer.add, offsetAfter, hmode]⟩
      rw [SoundLiteral, if_neg hmode]
      simp only [ParamBuffer.add, List.nil_append, hbinary, and_assoc, eq_comm]
  | character =>
    simp only [hcase] at hok
    rw [putQuoted_quoted _ (by simp [hcase])] at hok
    obtain rfl := Except.ok.inj hok
    refine ⟨?_, by simp [ParamBuffer.add, offsetAfter]⟩
    rw [ParamBuffer.add, List.nil_append, hquoted, SoundLiteral, and_assoc, eq_comm]
  | interval =>
    simp only [hcase] at hok
    obtain rfl := Except.ok.inj hok
    exact ⟨by simp [SoundLiteral, hblank], by simp [offsetAfter]⟩
  | time =>
    obtain rfl := htime hcase
    simp only [hcase] at hok
    cases htext : timeLiteral s with
    | error =>
      rw [htext] at hok
      cases hok
    | ok text =>
      rw [htext] at hok
      obtain rfl := Except.ok.inj hok
      refine ⟨?_, by simp [ParamBuffer.add, offsetAfter]⟩
      simp only [ParamBuffer.add, List.nil_append, SoundLiteral, true_and]
      exact readsLiteral_timeLiteral_iff hafter htext rfl
  | bit =>
    simp only [hcase, if_true] at hok
    obtain rfl := Except.ok.inj hok
    exact ⟨by simp [SoundLiteral, hblank], by simp [offsetAfter]⟩
  | float =>
    obtain ⟨rfl, hnumber⟩ := hfloat hcase
    simp only [hcase, if_true] at hok
    split_ifs at hok with hlong
    obtain rfl := Except.ok.inj hok
    refine ⟨?_, by simp [ParamBuffer.add, offsetAfter]⟩
    simp only [ParamBuffer.add, List.nil_append, SoundLiteral, true_and]
    rw [readsLiteral_numberText_iff hafter hnumber]
    constructor
    · rintro ⟨hplain, hrest⟩
      rw [(numberText_eq_iff hnumber).mpr hplain] at hlong
      exact ⟨⟨hplain, Nat.le_of_not_lt hlong⟩, hrest⟩
    · exact fun h => ⟨h.1.1, h.2⟩
  | numeric =>
    simp only [hcase, if_true] at hok
    rw [putQuoted_quoted _ (by simp [hcase])] at hok
    obtain rfl := Except.ok.inj hok
    refine ⟨?_, by simp [ParamBuffer.add, offsetAfter]⟩
    rw [ParamBuffer.add, List.nil_append, hquoted, SoundLiteral, and_assoc, eq_comm]

/-- A sound literal makes no use of memory without a defined result. -/
theorem insertText_ne_undefined {case : SqlTypeCase} (hcase : sqlType.switchCase = case)
    (h : SoundLiteral env offset s value case) :
    insertText env sqlType true s ⟨[], offset⟩ ≠ .error .undefined := by
  have hquoted (st : ParamBuffer)
      (hmode : ¬ (env.noBackslashEscapes = true ∧ sqlType.switchCase = .binary)) :
      putQuoted env sqlType s st ≠ .error .undefined := by
    rw [putQuoted_quoted st hmode]
    exact nofun
  unfold insertText
  rw [hcase]
  cases case with
  | date =>
    simp only [if_neg h.2.1]
    unfold checkDateOverflow
    split_ifs with hcheck
    · exact hquoted _ (by simp [hcase])
    · cases hts : strToTs s with
      | none => exact absurd hts (h.2.2.1 (by simpa using hcheck))
      | some ts =>
        dsimp only
        split_ifs
        · exact nofun
        · exact hquoted _ (by simp [hcase])
  | timestamp =>
    simp only [if_neg h.2.1]
    exact hquoted _ (by simp [hcase])
  | binary =>
    by_cases hmode : env.noBackslashEscapes = true
    · rw [SoundLiteral, if_pos hmode] at h
      obtain ⟨rfl, -, hretrieve, hmax⟩ := h
      have hhex : (env.noBackslashEscapes && isBinarySqlType sqlType) = true := by
        rw [hmode, isBinarySqlType_iff.mpr hcase]
        rfl
      have htext : (copyBinhexResult env.opts offset s).1 =
          some (hexText (hexSource env.opts offset s)) := by
        rw [copyBinhexResult_fst, if_neg (by simp [hretrieve]), if_neg]
        exact fun hlong => absurd (hmax hlong.1) (Nat.not_le.mpr hlong.2)
      simp only [putQuoted, if_pos hhex, ParamBuffer.add, htext]
      exact nofun
    · exact hquoted _ (by simp [hmode])
  | character => exact hquoted _ (by simp [hcase])
  | interval => exact absurd h id
  | time =>
    rw [(h.2).timeLiteral_eq]
    exact nofun
  | bit => exact absurd h id
  | float =>
    obtain ⟨-, -, hlen⟩ := h
    have hle : (numberText env s).length ≤ sizeofBuff := by
      have := length_numberText_le s env
      unfold sizeofBuff at *
      omega
    simp only [if_true, if_neg (Nat.not_lt.mpr hle)]
    exact nofun
  | numeric => exact hquoted _ (by simp [hcase])

end MatrixOdbc.Driver
