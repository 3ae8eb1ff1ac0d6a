import MatrixOdbc.Foundations.Loop
import MatrixOdbc.Foundations.QuotedText
import MatrixOdbc.MysqlStrings.Charset

/-!
# Escaping string literals and identifiers

`myodbc_escape_string` of `driver/utility.cc`, and the way the server reads the
text between the quotes. The function puts a backslash in front of a byte that
only looks like the beginning of a multi-byte character, also where a backslash
escapes nothing; and a byte it copies as it is may form a character with a
backslash or with the quote behind it.
-/

namespace MatrixOdbc.Driver

open MysqlStrings WhileLoop QuotedText

/-- What the escaping depends on besides the character set: the two flags of the
call, the status `SERVER_STATUS_NO_BACKSLASH_ESCAPES`, and whether the compiler
takes `char` as signed. -/
structure EscapeMode where
  escapeId : Bool
  escWildcard : Bool
  noBackslashEscapes : Bool
  charIsSigned : Bool

namespace EscapeMode

/-- `double_char`: the byte that is escaped by doubling it. -/
def doubleChar (m : EscapeMode) : UInt8 := if m.escapeId then 0x60 else 0x27

/-- `use_backslash`. -/
def useBackslash (m : EscapeMode) : Bool := !m.escapeId && !m.noBackslashEscapes

/-- A `char` that is passed on as an `uint`. -/
def promote (m : EscapeMode) (c : UInt8) : ℕ :=
  if m.charIsSigned ∧ 0x80 ≤ c then 0xffffff00 + c.toNat else c.toNat

end EscapeMode

/-- `my_ismbchar`, where the character set has multi-byte characters. -/
def mbLen (cs : Charset) (s : List UInt8) : ℕ := if cs.useMb then cs.ismbchar s else 0

/-- The byte appears to begin a multi-byte character. -/
def looksLead (cs : Charset) (m : EscapeMode) (c : UInt8) : Bool :=
  cs.useMb && 1 < cs.mbcharlen (m.promote c)

/-- The bytes that are escaped with a backslash, with the byte behind it. -/
def backslashEscape (escWildcard : Bool) (c : UInt8) : Option UInt8 :=
  if c = 0 then some 0x30
  else if c = 0x0a then some 0x6e
  else if c = 0x0d then some 0x72
  else if c = 0x5c ∨ c = 0x27 ∨ c = 0x22 then some c
  else if c = 0x1a then some 0x5a
  else if c = 0x5f ∨ c = 0x25 then (if escWildcard then some c else none)
  else none

/-- The variable `escape`, when it is not 0. -/
def escapeOf (cs : Charset) (m : EscapeMode) (c : UInt8) : Option UInt8 :=
  if c = m.doubleChar then some m.doubleChar
  else if looksLead cs m c then some c
  else if m.useBackslash then backslashEscape m.escWildcard c
  else none

/-- The remaining input and what has been written. -/
structure EscapeState where
  source : List UInt8
  text : List UInt8

/-- One evaluation of the loop, with room for `room` bytes before the
terminator. It ends with the text and whether it overflowed. -/
def escapeBody (cs : Charset) (m : EscapeMode) (room : ℕ) (s : EscapeState) :
    Step EscapeState (List UInt8 × Bool) :=
  match s.source with
  | [] => .done (s.text, false)
  | c :: rest =>
    let tmpLength := mbLen cs (c :: rest)
    if tmpLength ≠ 0 then
      if room < s.text.length + tmpLength then .done (s.text, true)
      else .next ⟨(c :: rest).drop tmpLength, s.text ++ (c :: rest).take tmpLength⟩
    else
      match escapeOf cs m c with
      | some e =>
        if room < s.text.length + 2 then .done (s.text, true)
        else .next ⟨rest, s.text ++ [if e = m.doubleChar then e else 0x5c, e]⟩
      | none =>
        if room < s.text.length + 1 then .done (s.text, true)
        else .next ⟨rest, s.text ++ [c]⟩

/-- `to_end - to_start`. -/
def escapeRoom (toLength length : ℕ) : ℕ := if toLength ≠ 0 then toLength - 1 else 2 * length

/-- `myodbc_escape_string`: the text in front of the terminator, and whether
`(ulong)~0` is returned. Every round consumes a byte. -/
def myodbcEscapeString (cs : Charset) (m : EscapeMode) (toLength : ℕ) (source : List UInt8) :
    Option (List UInt8 × Bool) :=
  run (escapeBody cs m (escapeRoom toLength source.length)) (source.length + 1) ⟨source, []⟩

/-- The meaning of a byte behind a backslash. Both bytes are kept for wildcards. -/
def unescapeByte (c : UInt8) : List UInt8 :=
  if c = 0x6e then [0x0a]
  else if c = 0x74 then [0x09]
  else if c = 0x72 then [0x0d]
  else if c = 0x62 then [0x08]
  else if c = 0x30 then [0]
  else if c = 0x5a then [0x1a]
  else if c = 0x5f ∨ c = 0x25 then [0x5c, c]
  else [c]

/-- The grammar of a string literal between `'` and of an identifier between
backquotes. An identifier has no NUL in it. -/
def mysqlDialect (cs : Charset) (m : EscapeMode) : Dialect UInt8 where
  multi := mbLen cs
  quote := m.doubleChar
  escape := if m.useBackslash then some 0x5c else none
  unescape := unescapeByte
  allowed c := m.escapeId = true → c ≠ 0

/-- The number of bytes the caller provides: `to_length`, or enough for 0. -/
def bufferLength (toLength length : ℕ) : ℕ := if toLength = 0 then 2 * length + 1 else toLength

/-- The text is written without overflow, it fits the buffer with its
terminator, and between quotes it is read as one value, the input. -/
def EscapesLosslessly (cs : Charset) (m : EscapeMode) (toLength : ℕ) (source : List UInt8) : Prop :=
  ∃ out, myodbcEscapeString cs m toLength source = some (out, false) ∧
    out.length + 1 ≤ bufferLength toLength source.length ∧
    ∀ after : List UInt8, after.head? ≠ some m.doubleChar →
      Reads (mysqlDialect cs m) (out ++ m.doubleChar :: after) source after

/-- The next thing written for the text is an inserted backslash. -/
def insertsBackslash (cs : Charset) (m : EscapeMode) : List UInt8 → Bool
  | [] => false
  | c :: s => mbLen cs (c :: s) == 0 && c != m.doubleChar && (escapeOf cs m c).isSome

/-- At this place of the input nothing goes wrong: no byte is escaped with a
backslash where it escapes nothing, no wildcard is escaped, an identifier has no
NUL, and no byte forms a character with what is inserted behind it. -/
def CleanAt (cs : Charset) (m : EscapeMode) : List UInt8 → Prop
  | [] => True
  | c :: s => mbLen cs (c :: s) = 0 → c ≠ m.doubleChar →
    (looksLead cs m c = true → m.useBackslash = true) ∧
    (m.useBackslash = true → m.escWildcard = true → c ≠ 0x5f ∧ c ≠ 0x25) ∧
    (m.escapeId = true → c ≠ 0) ∧
    (escapeOf cs m c = none →
      (s = [] → mbLen cs [c, m.doubleChar] = 0) ∧
      (insertsBackslash cs m s = true → mbLen cs [c, 0x5c] = 0))

/-- The number of bytes one round consumes. -/
def stepLength (cs : Charset) (s : List UInt8) : ℕ := if mbLen cs s = 0 then 1 else mbLen cs s

/-- The input behind the first character. -/
def advance (cs : Charset) (s : List UInt8) : List UInt8 := s.drop (stepLength cs s)

/-- Every place of the input that is visited is clean. -/
def Clean (cs : Charset) (m : EscapeMode) (s : List UInt8) : Prop :=
  ∀ n, CleanAt cs m ((advance cs)^[n] s)

variable {cs : Charset} {m : EscapeMode} {c : UInt8} {s t after : List UInt8}

variable (cs s) in
theorem mbLen_le : mbLen cs s ≤ s.length := by
  unfold mbLen
  split
  · exact cs.ismbchar_le s
  · exact Nat.zero_le _

theorem mbLen_take (h : mbLen cs s ≠ 0) : mbLen cs (s.take (mbLen cs s) ++ t) = mbLen cs s := by
  unfold mbLen at *
  split_ifs at * with huse
  · exact cs.ismbchar_take s t h
  · exact absurd rfl h

theorem mbLen_ascii (h : c < 0x80) : mbLen cs (c :: s) = 0 := by
  unfold mbLen
  split
  · exact cs.ismbchar_ascii c s h
  · rfl

theorem mbLen_quoting (hc : c ∈ s.take (mbLen cs s)) (h : isQuotingByte c = true) :
    mbLen cs s = 2 := by
  unfold mbLen at *
  split_ifs at * with huse
  · exact cs.ismbchar_quoting s c hc h
  · simp at hc

/-- Texts that agree on the bytes of a character begin with the same character. -/
theorem mbLen_eq_of_take (s' : List UInt8) (h : mbLen cs s ≠ 0)
    (htake : s'.take (mbLen cs s) = s.take (mbLen cs s)) : mbLen cs s' = mbLen cs s := by
  rw [← List.take_append_drop (mbLen cs s) s', htake]
  exact mbLen_take h

theorem doubleChar_ascii (m : EscapeMode) : m.doubleChar < 0x80 := by
  unfold EscapeMode.doubleChar
  split <;> decide

theorem doubleChar_quoting (m : EscapeMode) : isQuotingByte m.doubleChar = true := by
  unfold EscapeMode.doubleChar
  split <;> decide

theorem doubleChar_ne_backslash (m : EscapeMode) : m.doubleChar ≠ 0x5c := by
  unfold EscapeMode.doubleChar
  split <;> decide

/-- An ASCII byte does not look like a lead byte. -/
theorem looksLead_ascii (h : c < 0x80) : looksLead cs m c = false := by
  have hnat : c.toNat < 0x80 := UInt8.lt_iff_toNat_lt.mp h
  have hle := cs.mbcharlen_ascii c.toNat hnat
  have hpromote : m.promote c = c.toNat := by
    rw [EscapeMode.promote, if_neg]
    rintro ⟨-, hge⟩
    exact absurd h (UInt8.not_lt.mpr hge)
  simp [looksLead, hpromote, hle]

/-- Where an escape comes from, when the byte is not the quote. -/
theorem escapeOf_eq_some {e : UInt8} (hc : c ≠ m.doubleChar) (h : escapeOf cs m c = some e) :
    e ≠ m.doubleChar ∧ (looksLead cs m c = true ∧ e = c ∨
      looksLead cs m c = false ∧ m.useBackslash = true ∧
        backslashEscape m.escWildcard c = some e) := by
  rw [escapeOf, if_neg hc] at h
  split_ifs at h with hlead hback
  · cases h
    exact ⟨hc, Or.inl ⟨hlead, rfl⟩⟩
  · refine ⟨?_, Or.inr ⟨by simpa using hlead, hback, h⟩⟩
    have hquote : m.doubleChar = 0x27 := by
      have : m.escapeId = false := by
        unfold EscapeMode.useBackslash at hback
        simp at hback
        exact hback.1
      simp [EscapeMode.doubleChar, this]
    rw [hquote] at hc ⊢
    unfold backslashEscape at h
    split_ifs at h <;> cases h <;> first | exact hc | decide

/-- What is written for the first character of the input. -/
def escapeToken (cs : Charset) (m : EscapeMode) : List UInt8 → List UInt8
  | [] => []
  | c :: s =>
    if mbLen cs (c :: s) ≠ 0 then (c :: s).take (mbLen cs (c :: s))
    else
      match escapeOf cs m c with
      | some e => [if e = m.doubleChar then e else 0x5c, e]
      | none => [c]

theorem escapeToken_multi (hmb : mbLen cs (c :: s) ≠ 0) :
    escapeToken cs m (c :: s) = (c :: s).take (mbLen cs (c :: s)) := by
  simp [escapeToken, hmb]

theorem escapeToken_quote (hmb : mbLen cs (m.doubleChar :: s) = 0) :
    escapeToken cs m (m.doubleChar :: s) = [m.doubleChar, m.doubleChar] := by
  simp [escapeToken, hmb, escapeOf]

theorem escapeToken_backslash {e : UInt8} (hmb : mbLen cs (c :: s) = 0) (hc : c ≠ m.doubleChar)
    (hescape : escapeOf cs m c = some e) : escapeToken cs m (c :: s) = [0x5c, e] := by
  simp [escapeToken, hmb, hescape, (escapeOf_eq_some hc hescape).1]

theorem escapeToken_raw (hmb : mbLen cs (c :: s) = 0) (hescape : escapeOf cs m c = none) :
    escapeToken cs m (c :: s) = [c] := by
  simp [escapeToken, hmb, hescape]

variable (cs s) in
theorem stepLength_pos : 0 < stepLength cs s := by
  unfold stepLength
  split_ifs <;> omega

/-- The text that is written for the whole input. -/
def escapeText (cs : Charset) (m : EscapeMode) : List UInt8 → List UInt8
  | [] => []
  | c :: s => escapeToken cs m (c :: s) ++ escapeText cs m (advance cs (c :: s))
termination_by s => s.length
decreasing_by
  have := stepLength_pos cs (c :: s)
  simp only [advance, List.length_drop, List.length_cons]
  omega

theorem advance_length_lt : (advance cs (c :: s)).length < (c :: s).length := by
  have := stepLength_pos cs (c :: s)
  simp only [advance, List.length_drop, List.length_cons]
  omega

/-- One round writes one token, if there is room. -/
theorem escapeBody_cons (room : ℕ) (text : List UInt8) :
    escapeBody cs m room ⟨c :: s, text⟩ =
      if room < text.length + (escapeToken cs m (c :: s)).length then .done (text, true)
      else .next ⟨advance cs (c :: s), text ++ escapeToken cs m (c :: s)⟩ := by
  have hle := mbLen_le cs (c :: s)
  by_cases hmb : mbLen cs (c :: s) = 0
  · cases hescape : escapeOf cs m c with
    | some e => simp [escapeBody, escapeToken, advance, stepLength, hmb, hescape]
    | none => simp [escapeBody, escapeToken, advance, stepLength, hmb, hescape]
  · have hmin : min (mbLen cs (c :: s)) (s.length + 1) = mbLen cs (c :: s) := Nat.min_eq_left hle
    simp [escapeBody, escapeToken, advance, stepLength, hmb, hmin]

variable (cs m c s) in
/-- A token is at most twice as long as what it is written for. -/
theorem escapeToken_length_le :
    (escapeToken cs m (c :: s)).length + 2 * (advance cs (c :: s)).length ≤ 2 * (c :: s).length := by
  have hle := mbLen_le cs (c :: s)
  by_cases hmb : mbLen cs (c :: s) = 0
  · cases hescape : escapeOf cs m c with
    | some e => simp [escapeToken, advance, stepLength, hmb, hescape]; omega
    | none => simp [escapeToken, advance, stepLength, hmb, hescape]; omega
  · simp only [escapeToken, advance, stepLength, hmb, ne_eq, not_false_eq_true, if_true, if_false,
      List.length_take, List.length_drop]
    omega

variable (cs m) in
theorem escapeText_length_le (s : List UInt8) : (escapeText cs m s).length ≤ 2 * s.length := by
  induction s using escapeText.induct cs with
  | case1 => simp [escapeText]
  | case2 c s ih =>
    have := escapeToken_length_le cs m c s
    rw [escapeText, List.length_append]
    omega

/-- With enough room the loop writes the whole text. -/
theorem returns_escapeText {room : ℕ} {text : List UInt8}
    (h : text.length + 2 * s.length ≤ room) :
    Returns (escapeBody cs m room) ⟨s, text⟩ (text ++ escapeText cs m s, false) := by
  induction s using escapeText.induct cs generalizing text with
  | case1 =>
    rw [escapeText, List.append_nil]
    exact returns_of_done rfl
  | case2 c s ih =>
    have hlen := escapeToken_length_le cs m c s
    have hnext : escapeBody cs m room ⟨c :: s, text⟩ =
        .next ⟨advance cs (c :: s), text ++ escapeToken cs m (c :: s)⟩ := by
      rw [escapeBody_cons, if_neg (by omega)]
    rw [returns_next_iff hnext, escapeText, ← List.append_assoc]
    exact ih (by rw [List.length_append]; omega)

theorem escapeBody_next {room : ℕ} {st st' : EscapeState}
    (h : escapeBody cs m room st = .next st') : st'.source.length < st.source.length := by
  obtain ⟨source, text⟩ := st
  cases source with
  | nil => exact absurd h (by simp [escapeBody])
  | cons c s =>
    rw [escapeBody_cons] at h
    split_ifs at h
    cases h
    exact advance_length_lt

variable (cs m s) in
/-- When the buffer is large enough, the whole text is written. -/
theorem myodbcEscapeString_eq {toLength : ℕ} (h : toLength = 0 ∨ 2 * s.length + 1 ≤ toLength) :
    myodbcEscapeString cs m toLength s = some (escapeText cs m s, false) := by
  have hroom : 2 * s.length ≤ escapeRoom toLength s.length := by
    unfold escapeRoom
    split_ifs <;> omega
  have hreturns : Returns (escapeBody cs m (escapeRoom toLength s.length)) ⟨s, []⟩
      (escapeText cs m s, false) := returns_escapeText (by simpa using hroom)
  obtain ⟨r, hr⟩ : ∃ r, run (escapeBody cs m (escapeRoom toLength s.length)) (s.length + 1)
      ⟨s, []⟩ = some r :=
    run_eq_some_of_measure (fun st => st.source.length)
      (fun _ _ _ hnext => escapeBody_next hnext) (Nat.lt_succ_self _)
  rw [myodbcEscapeString, hr, Returns.unique ⟨_, hr⟩ hreturns]

theorem advance_nil : advance cs [] = [] := List.drop_nil

/-- Cleanness is decided place by place. -/
theorem clean_iff : Clean cs m s ↔ CleanAt cs m s ∧ Clean cs m (advance cs s) := by
  constructor
  · exact fun h => ⟨h 0, fun n => h (n + 1)⟩
  · rintro ⟨hfirst, hrest⟩ n
    cases n with
    | zero => exact hfirst
    | succ n => exact hrest n

theorem clean_nil : Clean cs m [] := by
  intro n
  have hnil : (advance cs)^[n] [] = [] := by
    induction n with
    | zero => rfl
    | succ n ih => rw [Function.iterate_succ_apply, advance_nil, ih]
  rw [hnil]
  trivial

theorem advance_of_mbLen_eq_zero (h : mbLen cs (c :: s) = 0) : advance cs (c :: s) = s := by
  simp [advance, stepLength, h]

theorem advance_of_mbLen_ne_zero (h : mbLen cs s ≠ 0) : advance cs s = s.drop (mbLen cs s) := by
  simp [advance, stepLength, h]

/-- Behind a backslash, an escaped byte that is no wildcard stands for itself. -/
theorem unescapeByte_backslashEscape : ∀ c e : UInt8, backslashEscape false c = some e →
    unescapeByte e = [c] := by
  intro c e h
  unfold backslashEscape at h
  split_ifs at h with h₁ h₂ h₃ h₄ h₅
  · cases h; subst h₁; decide
  · cases h; subst h₂; decide
  · cases h; subst h₃; decide
  · cases h; rcases h₄ with rfl | rfl | rfl <;> decide
  · cases h; subst h₅; decide
  · contradiction

theorem backslashEscape_true {c e : UInt8} (h : backslashEscape true c = some e) :
    backslashEscape false c = some e ∨ (c = 0x5f ∨ c = 0x25) ∧ e = c := by
  unfold backslashEscape at *
  split_ifs at * <;> simp_all

/-- A byte that looks like a lead byte has no meaning of its own behind a backslash. -/
theorem unescapeByte_of_not_ascii (h : ¬ c < 0x80) : unescapeByte c = [c] := by
  unfold unescapeByte
  have hne (x : UInt8) (hx : x < 0x80) : c ≠ x := fun heq => h (heq ▸ hx)
  simp [hne _ (show (0x6e : UInt8) < 0x80 by decide), hne _ (show (0x74 : UInt8) < 0x80 by decide),
    hne _ (show (0x72 : UInt8) < 0x80 by decide), hne _ (show (0x62 : UInt8) < 0x80 by decide),
    hne _ (show (0x30 : UInt8) < 0x80 by decide), hne _ (show (0x5a : UInt8) < 0x80 by decide),
    hne _ (show (0x5f : UInt8) < 0x80 by decide), hne _ (show (0x25 : UInt8) < 0x80 by decide)]

/-- The text as it stands in front of what follows the literal. -/
def quotedText (cs : Charset) (m : EscapeMode) (s after : List UInt8) : List UInt8 :=
  escapeText cs m s ++ m.doubleChar :: after

theorem quotedText_nil : quotedText cs m [] after = m.doubleChar :: after := by
  simp [quotedText, escapeText]

theorem quotedText_cons : quotedText cs m (c :: s) after =
    escapeToken cs m (c :: s) ++ quotedText cs m (advance cs (c :: s)) after := by
  rw [quotedText, escapeText, List.append_assoc, quotedText]

/-- As long as no quoting byte is met, the text is the input itself. -/
theorem take_quotedText (n : ℕ)
    (h : ∀ x ∈ (quotedText cs m s after).take n, isQuotingByte x = false) :
    (quotedText cs m s after).take n = s.take n := by
  induction s using escapeText.induct cs generalizing n with
  | case1 =>
    cases n with
    | zero => rfl
    | succ n =>
      rw [quotedText_nil] at h
      have := h m.doubleChar (by simp)
      simp [doubleChar_quoting] at this
  | case2 c s ih =>
    cases n with
    | zero => rfl
    | succ n =>
      rw [quotedText_cons] at h ⊢
      by_cases hmb : mbLen cs (c :: s) = 0
      · rw [advance_of_mbLen_eq_zero hmb] at ih h ⊢
        cases hescape : escapeOf cs m c with
        | some e =>
          have hquoting := h (if e = m.doubleChar then e else 0x5c)
            (by simp [escapeToken, hmb, hescape])
          split_ifs at hquoting with heq
          · simp [heq, doubleChar_quoting] at hquoting
          · exact absurd hquoting (by decide)
        | none =>
          simp only [escapeToken, hmb, ne_eq, not_true_eq_false, if_false, hescape,
            List.singleton_append, List.take_succ_cons] at h ⊢
          rw [ih n fun x hx => h x (List.mem_cons_of_mem _ hx)]
      · rw [advance_of_mbLen_ne_zero hmb] at ih h ⊢
        simp only [escapeToken, ne_eq, hmb, not_false_eq_true, if_true] at h ⊢
        have hle := mbLen_le cs (c :: s)
        generalize mbLen cs (c :: s) = k at *
        have hlen : ((c :: s).take k).length = k := by
          rw [List.length_take]
          omega
        rw [List.take_append, hlen] at h ⊢
        rw [ih (n + 1 - k) fun x hx => h x (List.mem_append_right _ hx)]
        conv_rhs => rw [← List.take_append_drop k (c :: s), List.take_append, hlen]

/-- The text begins with the first byte of the input, unless a backslash is inserted. -/
theorem head?_quotedText (hhead : (quotedText cs m s after).head? ≠ s.head?) :
    (s = [] ∧ (quotedText cs m s after).head? = some m.doubleChar) ∨
      (insertsBackslash cs m s = true ∧ (quotedText cs m s after).head? = some 0x5c) := by
  cases s with
  | nil => exact Or.inl ⟨rfl, by rw [quotedText_nil]; rfl⟩
  | cons c s =>
    right
    rw [quotedText_cons] at hhead ⊢
    by_cases hmb : mbLen cs (c :: s) = 0
    · by_cases hc : c = m.doubleChar
      · subst hc
        rw [escapeToken_quote hmb] at hhead
        exact absurd rfl hhead
      · cases hescape : escapeOf cs m c with
        | none =>
          rw [escapeToken_raw hmb hescape] at hhead
          exact absurd rfl hhead
        | some e =>
          rw [escapeToken_backslash hmb hc hescape]
          exact ⟨by simp [insertsBackslash, hmb, hc, hescape], rfl⟩
    · rw [escapeToken_multi hmb] at hhead
      obtain ⟨k, hk⟩ := Nat.exists_eq_succ_of_ne_zero hmb
      rw [hk] at hhead
      exact absurd rfl hhead

variable (after) in
/-- A byte that is copied as it is begins a character of the text exactly when it
forms one with what is inserted behind it. -/
theorem mbLen_raw_iff (hmb : mbLen cs (c :: s) = 0) :
    mbLen cs (c :: quotedText cs m s after) = 0 ↔
      (s = [] → mbLen cs [c, m.doubleChar] = 0) ∧
        (insertsBackslash cs m s = true → mbLen cs [c, 0x5c] = 0) := by
  constructor
  · intro htext
    -- a character of `c` and the next byte would begin the text
    have hpair (x : UInt8) (hx : (quotedText cs m s after).head? = some x) :
        mbLen cs [c, x] = 0 := by
      by_contra hne
      obtain ⟨tail, htail⟩ : ∃ tail, quotedText cs m s after = x :: tail := by
        cases hq : quotedText cs m s after with
        | nil => simp [hq] at hx
        | cons y tail => exact ⟨tail, by simpa [hq] using hx⟩
      have hle : mbLen cs [c, x] ≤ 2 := mbLen_le _ _
      have := mbLen_eq_of_take (c :: quotedText cs m s after) hne (by
        rw [htail]
        have hsplit : c :: x :: tail = [c, x] ++ tail := rfl
        rw [hsplit, List.take_append_of_le_length hle])
      exact hne (this.symm.trans htext)
    constructor
    · rintro rfl
      exact hpair _ (by rw [quotedText_nil]; rfl)
    · intro hinsert
      apply hpair _
      cases s with
      | nil => simp [insertsBackslash] at hinsert
      | cons c' s =>
        simp only [insertsBackslash, Bool.and_eq_true, beq_iff_eq, bne_iff_ne] at hinsert
        obtain ⟨⟨hmb', hc'⟩, hsome⟩ := hinsert
        obtain ⟨e, he⟩ := Option.isSome_iff_exists.mp hsome
        rw [quotedText_cons, escapeToken_backslash hmb' hc' he]
        rfl
  · rintro ⟨hend, hinsert⟩
    by_contra hne
    have hclean : ∀ x ∈ (c :: quotedText cs m s after).take
        (mbLen cs (c :: quotedText cs m s after)), isQuotingByte x = true →
        mbLen cs (c :: quotedText cs m s after) = 2 := fun x => mbLen_quoting
    generalize hk : mbLen cs (c :: quotedText cs m s after) = k at *
    obtain ⟨n, rfl⟩ := Nat.exists_eq_succ_of_ne_zero hne
    rw [Nat.succ_eq_add_one, List.take_succ_cons] at hclean
    by_cases hsame : (quotedText cs m s after).take n = s.take n
    · -- the same bytes are there in the input
      have := mbLen_eq_of_take (c :: s) (s := c :: quotedText cs m s after)
        (by rw [hk]; exact hne) (by rw [hk, List.take_succ_cons, List.take_succ_cons, hsame])
      rw [hk, hmb] at this
      omega
    · obtain ⟨x, hx, hquoting⟩ : ∃ x ∈ (quotedText cs m s after).take n,
          isQuotingByte x = true := by
        by_contra hnone
        simp only [not_exists, not_and, Bool.not_eq_true] at hnone
        exact hsame (take_quotedText n hnone)
      have htwo : n = 1 := by
        have := hclean x (List.mem_cons_of_mem _ hx) hquoting
        omega
      subst htwo
      have hhead : (quotedText cs m s after).head? ≠ s.head? := by
        intro heq
        apply hsame
        rw [List.take_one, List.take_one, heq]
      have hpair (y : UInt8) (hy : (quotedText cs m s after).head? = some y) :
          mbLen cs [c, y] ≠ 0 := by
        have := mbLen_eq_of_take [c, y] (s := c :: quotedText cs m s after)
          (by rw [hk]; exact hne)
          (by
            have htwo : [c, y].take (Nat.succ 1) = [c, y] := rfl
            rw [hk, htwo, List.take_succ_cons, List.take_one, hy]
            rfl)
        rw [this, hk]
        exact hne
      rcases head?_quotedText hhead with ⟨hs, hq⟩ | ⟨hins, hq⟩
      · exact hpair _ hq (hend hs)
      · exact hpair _ hq (hinsert hins)

theorem not_ascii_of_looksLead (h : looksLead cs m c = true) : ¬ c < 0x80 := by
  intro hascii
  simp [looksLead_ascii hascii] at h

/-- Reading the backslash and the byte behind it gives the byte back exactly
when backslashes escape and the byte is no wildcard that is escaped. -/
theorem reads_backslash_iff {e : UInt8} {text value rest : List UInt8} (hc : c ≠ m.doubleChar)
    (hescape : escapeOf cs m c = some e) :
    Reads (mysqlDialect cs m) (0x5c :: e :: text) (c :: value) rest ↔
      ((looksLead cs m c = true → m.useBackslash = true) ∧
        (m.useBackslash = true → m.escWildcard = true → c ≠ 0x5f ∧ c ≠ 0x25)) ∧
      Reads (mysqlDialect cs m) text value rest := by
  obtain ⟨hne, hcase⟩ := escapeOf_eq_some hc hescape
  have hmulti (t : List UInt8) : (mysqlDialect cs m).multi (0x5c :: t) = 0 :=
    mbLen_ascii (by decide)
  have hquote : (0x5c : UInt8) ≠ (mysqlDialect cs m).quote := (doubleChar_ne_backslash m).symm
  cases hback : m.useBackslash with
  | false =>
    -- the backslash is read as a byte of the value
    obtain ⟨hlead, rfl⟩ : looksLead cs m c = true ∧ e = c := by
      rcases hcase with hlead | ⟨-, hback', -⟩
      · exact hlead
      · simp [hback] at hback'
    have hbyte : e ≠ 0x5c := fun heq => not_ascii_of_looksLead hlead (heq ▸ by decide)
    have hplain : (mysqlDialect cs m).escape ≠ some 0x5c := by simp [mysqlDialect, hback]
    rw [reads_plain_iff (hmulti _) hquote hplain]
    simp [hbyte, hlead]
  | true =>
    have hescaped : (mysqlDialect cs m).escape = some 0x5c := by simp [mysqlDialect, hback]
    rw [reads_escaped_iff hescaped hquote (hmulti _)]
    have hvalue : (mysqlDialect cs m).unescape e = unescapeByte e := rfl
    by_cases hwild : m.escWildcard = true ∧ (c = 0x5f ∨ c = 0x25)
    · -- both bytes of an escaped wildcard are kept
      have hlead : looksLead cs m c = false := by
        rcases hwild.2 with rfl | rfl <;> exact looksLead_ascii (by decide)
      have he : e = c := by
        rcases hcase with ⟨htrue, -⟩ | ⟨-, -, hescape⟩
        · simp [hlead] at htrue
        · rw [hwild.1] at hescape
          rcases hwild.2 with rfl | rfl <;> exact (Option.some.inj hescape).symm
      subst he
      rw [hvalue]
      rcases hwild.2 with rfl | rfl <;> simp [unescapeByte, hwild.1]
    · have hself : unescapeByte e = [c] := by
        rcases hcase with ⟨htrue, rfl⟩ | ⟨-, -, hescape⟩
        · exact unescapeByte_of_not_ascii (not_ascii_of_looksLead htrue)
        · cases hflag : m.escWildcard with
          | false => exact unescapeByte_backslashEscape c e (hflag ▸ hescape)
          | true =>
            rcases backslashEscape_true (hflag ▸ hescape) with hescape | ⟨hc', -⟩
            · exact unescapeByte_backslashEscape c e hescape
            · exact absurd ⟨hflag, hc'⟩ hwild
      have hclean : m.escWildcard = true → c ≠ 0x5f ∧ c ≠ 0x25 := fun hflag =>
        not_or.mp fun hc' => hwild ⟨hflag, hc'⟩
      rw [hvalue, hself]
      simpa using fun _ => hclean

/-- The text is read as the input exactly when the input is clean. -/
theorem reads_quotedText_iff (hafter : after.head? ≠ some m.doubleChar) :
    Reads (mysqlDialect cs m) (quotedText cs m s after) s after ↔ Clean cs m s := by
  induction s using escapeText.induct cs with
  | case1 =>
    rw [quotedText_nil]
    have hmulti : (mysqlDialect cs m).multi ((mysqlDialect cs m).quote :: after) = 0 :=
      mbLen_ascii (doubleChar_ascii m)
    exact iff_of_true ((reads_close_iff hmulti hafter).mpr ⟨rfl, rfl⟩) clean_nil
  | case2 c s ih =>
    rw [clean_iff, quotedText_cons]
    by_cases hmb : mbLen cs (c :: s) = 0
    · rw [advance_of_mbLen_eq_zero hmb] at ih ⊢
      by_cases hc : c = m.doubleChar
      · subst hc
        rw [escapeToken_quote hmb]
        have hmulti : (mysqlDialect cs m).multi ((mysqlDialect cs m).quote ::
            (mysqlDialect cs m).quote :: quotedText cs m s after) = 0 :=
          mbLen_ascii (doubleChar_ascii m)
        have hread := reads_pair_iff (m.doubleChar :: s) after hmulti
        rw [show [m.doubleChar, m.doubleChar] ++ quotedText cs m s after =
          (mysqlDialect cs m).quote :: (mysqlDialect cs m).quote :: quotedText cs m s after from rfl,
          hread]
        have hclean : CleanAt cs m (m.doubleChar :: s) := fun _ hne => absurd rfl hne
        constructor
        · rintro ⟨value, heq, htail⟩
          obtain rfl := (List.cons.inj heq).2
          exact ⟨hclean, ih.mp htail⟩
        · exact fun h => ⟨s, rfl, ih.mpr h.2⟩
      · cases hescape : escapeOf cs m c with
        | some e =>
          have hnul : m.escapeId = true → c ≠ 0 := by
            rintro hid rfl
            have hback : m.useBackslash = false := by simp [EscapeMode.useBackslash, hid]
            obtain ⟨-, ⟨hlead, -⟩ | ⟨-, hback', -⟩⟩ := escapeOf_eq_some hc hescape
            · exact not_ascii_of_looksLead hlead (by decide)
            · simp [hback] at hback'
          rw [escapeToken_backslash hmb hc hescape]
          rw [show [0x5c, e] ++ quotedText cs m s after = 0x5c :: e :: quotedText cs m s after from
            rfl, reads_backslash_iff hc hescape, ih]
          refine and_congr_left fun _ => ⟨fun h _ _ => ⟨h.1, h.2, hnul, ?_⟩, fun h => ?_⟩
          · simp [hescape]
          · exact ⟨(h hmb hc).1, (h hmb hc).2.1⟩
        | none =>
          rw [escapeToken_raw hmb hescape]
          have hraw := mbLen_raw_iff after (m := m) hmb
          have hlead : looksLead cs m c = false := by
            rw [Bool.eq_false_iff]
            intro hlead
            simp [escapeOf, hc, hlead] at hescape
          have hwild : m.useBackslash = true → m.escWildcard = true → c ≠ 0x5f ∧ c ≠ 0x25 := by
            intro hback hflag
            constructor <;>
            · rintro rfl
              simp [escapeOf, hc, hlead, hback, hflag, backslashEscape] at hescape
          have hcleanAt : CleanAt cs m (c :: s) ↔ (m.escapeId = true → c ≠ 0) ∧
              mbLen cs (c :: quotedText cs m s after) = 0 := by
            rw [hraw]
            constructor
            · exact fun h => ⟨(h hmb hc).2.2.1, (h hmb hc).2.2.2 hescape⟩
            · exact fun h _ _ => ⟨by simp [hlead], hwild, h.1, fun _ => h.2⟩
          rw [hcleanAt, List.singleton_append]
          by_cases htext : mbLen cs (c :: quotedText cs m s after) = 0
          · have hplain : (mysqlDialect cs m).escape ≠ some c := by
              cases hback : m.useBackslash with
              | false => simp [mysqlDialect, hback]
              | true =>
                intro heq
                have hsome : some 0x5c = some c := by
                  rw [← heq]
                  simp [mysqlDialect, hback]
                obtain rfl := Option.some.inj hsome
                simp [escapeOf, hc, hlead, hback, backslashEscape] at hescape
            rw [reads_plain_iff htext hc hplain]
            constructor
            · rintro ⟨hallowed, value, heq, htail⟩
              obtain rfl := (List.cons.inj heq).2
              exact ⟨⟨hallowed, htext⟩, ih.mp htail⟩
            · exact fun h => ⟨h.1.1, s, rfl, ih.mpr h.2⟩
          · -- a character that is not in the input would be part of the value
            refine iff_of_false ?_ fun h => htext h.1.2
            rw [reads_multi_iff htext]
            rintro ⟨value, heq, -⟩
            have hle : mbLen cs (c :: quotedText cs m s after) ≤ _ := mbLen_le _ _
            have htake : (c :: s).take (mbLen cs (c :: quotedText cs m s after)) =
                (c :: quotedText cs m s after).take
                  (mbLen cs (c :: quotedText cs m s after)) := by
              rw [heq, List.take_append_of_le_length (by
                rw [List.length_take]
                exact le_min le_rfl hle)]
              apply List.take_take.trans
              exact congrArg (List.take · _) (Nat.min_self _)
            exact htext ((mbLen_eq_of_take _ htext htake).symm.trans hmb)
    · rw [escapeToken_multi hmb]
      have hclean : CleanAt cs m (c :: s) := fun hzero => absurd hzero hmb
      have hle := mbLen_le cs (c :: s)
      have hmulti : (mysqlDialect cs m).multi ((c :: s).take (mbLen cs (c :: s)) ++
          quotedText cs m (advance cs (c :: s)) after) = mbLen cs (c :: s) := mbLen_take hmb
      have hlen : ((c :: s).take (mbLen cs (c :: s))).length = mbLen cs (c :: s) := by
        rw [List.length_take, Nat.min_eq_left hle]
      rw [reads_multi_iff (by rw [hmulti]; exact hmb), hmulti, List.take_append_of_le_length hlen.ge,
        List.take_take, Nat.min_self, List.drop_append, hlen, Nat.sub_self, List.drop_zero,
        List.drop_eq_nil_of_le hlen.le, List.nil_append]
      have hsplit : (c :: s).take (mbLen cs (c :: s)) ++ advance cs (c :: s) = c :: s := by
        rw [advance_of_mbLen_ne_zero hmb, List.take_append_drop]
      constructor
      · rintro ⟨value, heq, htail⟩
        obtain rfl := List.append_cancel_left (hsplit.trans heq)
        exact ⟨hclean, ih.mp htail⟩
      · exact fun h => ⟨_, hsplit.symm, ih.mpr h.2⟩

/-- Text that is read back as the input comes from a clean input. -/
theorem EscapesLosslessly.clean {toLength : ℕ}
    (hlen : toLength = 0 ∨ 2 * s.length + 1 ≤ toLength)
    (h : EscapesLosslessly cs m toLength s) : Clean cs m s := by
  obtain ⟨out, hout, -, hread⟩ := h
  have hrun := myodbcEscapeString_eq cs m s hlen
  obtain ⟨rfl, -⟩ := Prod.mk.inj (Option.some.inj (hrun.symm.trans hout))
  exact (reads_quotedText_iff (by simp)).mp (hread [] (by simp))

/-- The text that is written fits the buffer, and it is read back as the input
exactly when every place of the input that the loop visits is clean. -/
theorem myodbcEscapeString_lossless_iff (cs : Charset) (m : EscapeMode) (toLength : ℕ)
    (source : List UInt8) (hlen : toLength = 0 ∨ 2 * source.length + 1 ≤ toLength) :
    (∃ out, myodbcEscapeString cs m toLength source = some (out, false) ∧
      out.length + 1 ≤ bufferLength toLength source.length) ∧
    (EscapesLosslessly cs m toLength source ↔ Clean cs m source) := by
  have hrun := myodbcEscapeString_eq cs m source hlen
  have hfits : (escapeText cs m source).length + 1 ≤ bufferLength toLength source.length := by
    have := escapeText_length_le cs m source
    unfold bufferLength
    split_ifs <;> omega
  refine ⟨⟨_, hrun, hfits⟩, fun h => h.clean hlen, fun hclean => ?_⟩
  exact ⟨_, hrun, hfits, fun after hafter => (reads_quotedText_iff hafter).mpr hclean⟩

instance (cs : Charset) (m : EscapeMode) : DecidablePred (CleanAt cs m)
  | [] => inferInstanceAs (Decidable True)
  | _ :: _ => inferInstanceAs (Decidable (_ → _ → _ ∧ _ ∧ _ ∧ (_ → _ ∧ _)))

/-- The mode for string literals, and for identifiers, with the server's
default status. -/
def literalMode (escapeId : Bool) : EscapeMode := ⟨escapeId, false, false, true⟩

/-- A literal in `gbk` with a quote, a two-byte character whose second byte is a
backslash, and a lone lead byte in front of a quote. -/
theorem myodbcEscapeString_lossless_iff_gbk :
    (0 = 0 ∨ 2 * [(0x27 : UInt8), 0x81, 0x5c, 0x81, 0x27].length + 1 ≤ 0) ∧
    EscapesLosslessly gbk (literalMode false) 0 [0x27, 0x81, 0x5c, 0x81, 0x27] := by
  refine ⟨Or.inl rfl, (myodbcEscapeString_lossless_iff gbk (literalMode false) 0
    [0x27, 0x81, 0x5c, 0x81, 0x27] (Or.inl rfl)).2.mpr ?_⟩
  refine clean_iff.mpr ⟨by decide, clean_iff.mpr ⟨by decide, clean_iff.mpr ⟨by decide,
    clean_iff.mpr ⟨by decide, ?_⟩⟩⟩⟩
  exact clean_nil

/-- An identifier in `gbk` that ends in a lone lead byte gets a backslash, and a
literal in `gb18030` with a lone lead byte in front of a line feed is changed. -/
theorem myodbcEscapeString_leadByte_not_lossless :
    ¬ EscapesLosslessly gbk (literalMode true) 0 [0x81] ∧
    ¬ EscapesLosslessly gb18030 (literalMode false) 0 [0x81, 0x0a] := by
  constructor
  · intro h
    exact absurd (clean_iff.mp (h.clean (Or.inl rfl))).1 (by decide)
  · intro h
    exact absurd (clean_iff.mp (h.clean (Or.inl rfl))).1 (by decide)

end MatrixOdbc.Driver
