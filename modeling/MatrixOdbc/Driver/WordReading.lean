import MatrixOdbc.Driver.BraceTransparency

/-!
# Words and blanks in a query

What the reading of a query makes of a word, of the blanks behind it and of a quote. The marks
of the words strictly increase unless a quoted text begins directly behind blanks, where the
quote and the word are marked at one place.
-/

namespace MatrixOdbc.Driver

open MysqlStrings MatrixOdbc.Foundations

/-- An ASCII letter. -/
def IsLetter (c : UInt8) : Prop := 0x41 ≤ toupper c ∧ toupper c ≤ 0x5a

/-- A character type that takes all blanks of the C locale for spacing characters, and no
letter for a blank or a control character. -/
structure ClauseCtype extends QueryCtype where
  ctype_spacing : ∀ c, isspace c = true → ∀ s, spaceAt toCtype (c :: s) = true
  ctype_letter : ∀ c, IsLetter c → ∀ s,
    spaceAt toCtype (c :: s) = false ∧ controlAt toCtype (c :: s) = false

/-- A word: whole characters that are neither blanks nor braces nor part of the syntax. -/
inductive Word (cs : Ctype) : List UInt8 → Prop
  | nil : Word cs []
  | cons {c : UInt8} {rest : List UInt8}
      (plain : c ∉ 0x7b :: 0x7d :: syntaxBytes)
      (visible : spaceAt cs (c :: rest) = false ∧ controlAt cs (c :: rest) = false)
      (alone : ∀ behind, cs.ctype (c :: rest ++ behind) = cs.ctype (c :: rest))
      (inside : charLength cs (c :: rest) - 1 ≤ rest.length)
      (further : Word cs (rest.drop (charLength cs (c :: rest) - 1))) :
      Word cs (c :: rest)

section Letters

variable {c : UInt8} {text : List UInt8} {keyword : List Char} {cs : ClauseCtype}

theorem IsLetter.range (h : IsLetter c) :
    (0x41 ≤ c.toNat ∧ c.toNat ≤ 0x5a) ∨ (0x61 ≤ c.toNat ∧ c.toNat ≤ 0x7a) := by
  obtain ⟨hlow, hhigh⟩ := h
  rw [UInt8.le_iff_toNat_le] at hlow hhigh
  rw [toupper] at hlow hhigh
  split_ifs at hlow hhigh with hlower
  · right
    exact ⟨UInt8.le_iff_toNat_le.mp hlower.1, UInt8.le_iff_toNat_le.mp hlower.2⟩
  · exact Or.inl ⟨hlow, hhigh⟩

/-- A letter is ASCII, no blank and no part of the syntax. -/
theorem IsLetter.plain (h : IsLetter c) :
    c < 0x80 ∧ isspace c = false ∧ c ≠ 0 ∧ c ∉ 0x7b :: 0x7d :: syntaxBytes := by
  have hrange := h.range
  refine ⟨?_, ?_, ?_, ?_⟩
  · rw [UInt8.lt_iff_toNat_lt]
    have : (0x80 : UInt8).toNat = 128 := rfl
    omega
  · rw [← Bool.not_eq_true]
    intro hspace
    simp only [isspace, Bool.or_eq_true, beq_iff_eq, Bool.and_eq_true, decide_eq_true_eq] at hspace
    obtain rfl | ⟨-, hle⟩ := hspace
    · simp at hrange
    · have hle' : c.toNat ≤ 0x0d := hle
      omega
  · rintro rfl
    simp at hrange
  · intro hmem
    simp only [syntaxBytes, List.mem_cons, List.not_mem_nil, or_false] at hmem
    obtain rfl | rfl | rfl | rfl | rfl | rfl | rfl | rfl | rfl | rfl | rfl | rfl := hmem <;>
      simp at hrange

/-- A text of letters is a word. -/
theorem Word.of_letters (h : ∀ c ∈ text, IsLetter c) : Word cs.toCtype text := by
  induction text with
  | nil => exact .nil
  | cons c text ih =>
    obtain ⟨hletter, htext⟩ := List.forall_mem_cons.mp h
    obtain ⟨hascii, -, -, hplain⟩ := hletter.plain
    refine .cons hplain (cs.ctype_letter c hletter text) ?_ ?_ ?_
    · intro behind
      rw [List.cons_append, cs.ctype_alone c hascii, cs.ctype_alone c hascii text]
    · rw [charLength_ascii hascii]
      exact Nat.zero_le _
    · rw [charLength_ascii hascii]
      exact ih htext

/-- The text is a keyword, in any case. -/
def IsKeyword (keyword : List Char) (text : List UInt8) : Prop :=
  text.map toupper = keyword.map fun c => UInt8.ofNat c.toNat

/-- A keyword is of capital letters. -/
def Capitals (keyword : List Char) : Prop :=
  ∀ c ∈ keyword, 0x41 ≤ UInt8.ofNat c.toNat ∧ UInt8.ofNat c.toNat ≤ 0x5a

instance (keyword : List Char) : Decidable (Capitals keyword) := List.decidableBAll _ _

instance (keyword : List Char) (text : List UInt8) : Decidable (IsKeyword keyword text) :=
  inferInstanceAs (Decidable (_ = _))

theorem IsKeyword.length_eq (h : IsKeyword keyword text) : text.length = keyword.length := by
  simpa using congrArg List.length h

theorem IsKeyword.letters (h : IsKeyword keyword text) (hcapitals : Capitals keyword) :
    ∀ c ∈ text, IsLetter c := by
  intro c hc
  have hmem : toupper c ∈ keyword.map fun c => UInt8.ofNat c.toNat :=
    h ▸ List.mem_map_of_mem hc
  obtain ⟨k, hk, heq⟩ := List.mem_map.mp hmem
  rw [IsLetter, ← heq]
  exact hcapitals k hk

end Letters

section Words

variable {cs : ClauseCtype} {s : ReadingState} {c : UInt8}
  {text rest behind blanks : List UInt8} {offset : ℕ} {kind : ReadingMark}

/-- A character of a word, at its first place or a later one. -/
theorem step_visible (hplain : c ∉ 0x7b :: 0x7d :: syntaxBytes)
    (hvisible : spaceAt cs.toCtype (c :: rest) = false ∧ controlAt cs.toCtype (c :: rest) = false)
    (houtside : s.outside = true) :
    (queryReader cs.toCtype).step s c rest = (.plain, charLength cs.toCtype (c :: rest) - 1,
      if s = .blanks then [.token, .last] else [.last]) := by
  obtain ⟨-, -, hquiet⟩ : c ≠ 0x7b ∧ c ≠ 0x7d ∧ c ∉ syntaxBytes := by
    simpa [List.mem_cons, not_or] using hplain
  have hchar := @readChar_of_notMem cs.toCtype c rest hquiet
  cases s with
  | plain => simp only [queryReader, readPlain, hvisible.1, hchar]; rfl
  | blanks => simp only [queryReader, hvisible.1, hvisible.2, hchar]; rfl
  | closed =>
    have hquote : c ∉ ansiSyntaxMarkers.quote := by
      intro hmem
      apply hquiet
      simp only [ansiSyntaxMarkers, List.mem_cons, List.not_mem_nil, or_false] at hmem
      obtain rfl | rfl | rfl := hmem <;> decide
    simp only [queryReader, if_neg hquote, readPlain, hvisible.1, hchar]; rfl
  | quoted quote closed => cases houtside
  | escaped quote closed => cases houtside
  | line => cases houtside
  | block => cases houtside

theorem step_visible_append (hplain : c ∉ 0x7b :: 0x7d :: syntaxBytes)
    (hvisible : spaceAt cs.toCtype (c :: rest) = false ∧ controlAt cs.toCtype (c :: rest) = false)
    (halone : cs.ctype (c :: rest ++ behind) = cs.ctype (c :: rest)) (houtside : s.outside = true) :
    (queryReader cs.toCtype).step s c (rest ++ behind) = (queryReader cs.toCtype).step s c rest := by
  have hvisible' : spaceAt cs.toCtype (c :: (rest ++ behind)) = false ∧
      controlAt cs.toCtype (c :: (rest ++ behind)) = false := by
    rw [← List.cons_append, spaceAt_append halone, controlAt_append halone]
    exact hvisible
  rw [step_visible hplain hvisible houtside, step_visible hplain hvisible' houtside, charLength,
    charLength, ← List.cons_append, halone]

/-- A word is read alike whatever is behind it. -/
theorem Word.isLocal (h : Word cs.toCtype text) (houtside : s.outside = true)
    (behind : List UInt8) : (queryReader cs.toCtype).Local behind s text := by
  induction h generalizing s with
  | nil => exact .nil s
  | @cons c rest plain visible alone inside further ih =>
    have hstep := step_visible plain visible houtside
    refine .cons (step_visible_append plain visible (alone behind) houtside) ?_ ?_
    · rw [hstep]
      exact inside
    · rw [hstep]
      exact ih rfl

/-- Behind a word. -/
theorem Word.final_eq (h : Word cs.toCtype text) (hne : text ≠ []) (houtside : s.outside = true) :
    (queryReader cs.toCtype).final s text = .plain := by
  induction h generalizing s with
  | nil => exact absurd rfl hne
  | @cons c rest plain visible alone inside further ih =>
    rw [Transducer.final_cons (step_visible plain visible houtside)]
    by_cases hend : rest.drop (charLength cs.toCtype (c :: rest) - 1) = []
    · rw [hend, Transducer.final_nil]
    · exact ih hend rfl

/-- What is behind a word is read as plain text. -/
theorem Word.run_append (h : Word cs.toCtype text) (hne : text ≠ []) (houtside : s.outside = true)
    (behind : List UInt8) : (queryReader cs.toCtype).run s offset (text ++ behind) =
      (queryReader cs.toCtype).run s offset text ++
        (queryReader cs.toCtype).run .plain (offset + text.length) behind := by
  rw [(h.isLocal houtside behind).run_append, h.final_eq hne houtside]

/-- A word is marked where it begins if there are blanks in front of it, and not at all behind
other words and closing quotes. -/
theorem Word.offsetsOf_run (h : Word cs.toCtype text) (hne : text ≠ [])
    (houtside : s.outside = true) :
    offsetsOf .token ((queryReader cs.toCtype).run s offset text) =
      if s = .blanks then [offset] else [] := by
  induction h generalizing s offset with
  | nil => exact absurd rfl hne
  | @cons c rest plain visible alone inside further ih =>
    rw [Transducer.run_cons (step_visible plain visible houtside), offsetsOf_append]
    have hbehind : offsetsOf .token ((queryReader cs.toCtype).run .plain
        (offset + 1 + (charLength cs.toCtype (c :: rest) - 1))
        (rest.drop (charLength cs.toCtype (c :: rest) - 1))) = [] := by
      by_cases hend : rest.drop (charLength cs.toCtype (c :: rest) - 1) = []
      · rw [hend, Transducer.run_nil]
        rfl
      · rw [ih hend rfl, if_neg (by decide)]
    rw [hbehind, List.append_nil]
    split_ifs <;> rfl

/-- The last character of a word is noted, and it is no brace. -/
theorem Word.lastOf_run (h : Word cs.toCtype text) (hne : text ≠ []) (houtside : s.outside = true)
    (last : Option ℕ) :
    ∃ i, i < text.length ∧
      lastOf last ((queryReader cs.toCtype).run s offset text) = some (offset + i) ∧
      text[i]? ≠ some 0x7d := by
  induction h generalizing s offset last with
  | nil => exact absurd rfl hne
  | @cons c rest plain visible alone inside further ih =>
    rw [Transducer.run_cons (step_visible plain visible houtside), lastOf_append]
    have hhere : lastOf last ((if s = .blanks then [ReadingMark.token, .last] else [.last]).map
        fun mark => (mark, offset)) = some offset := by
      split_ifs <;> rfl
    rw [hhere]
    by_cases hend : rest.drop (charLength cs.toCtype (c :: rest) - 1) = []
    · refine ⟨0, by simp, ?_, ?_⟩
      · rw [hend, Transducer.run_nil]
        rfl
      · rintro hbrace
        obtain rfl : c = 0x7d := by simpa using hbrace
        exact plain (by decide)
    · obtain ⟨i, hi, hlast, hbyte⟩ :=
        @ih .plain (offset + 1 + (charLength cs.toCtype (c :: rest) - 1)) hend rfl (some offset)
      rw [List.length_drop] at hi
      refine ⟨charLength cs.toCtype (c :: rest) - 1 + i + 1, ?_, ?_, ?_⟩
      · rw [List.length_cons]
        omega
      · rw [hlast]
        congr 1
        omega
      · rw [List.getElem?_cons_succ, ← List.getElem?_drop]
        exact hbyte

/-- Blanks behind a word. -/
theorem run_gap (h : Blank blanks) (hne : blanks ≠ []) (behind : List UInt8) :
    (queryReader cs.toCtype).run .plain offset (blanks ++ behind) =
      (queryReader cs.toCtype).run .blanks (offset + blanks.length) behind := by
  obtain ⟨c, blanks, rfl⟩ := List.exists_cons_of_ne_nil hne
  have hspace := cs.ctype_spacing c (h c List.mem_cons_self) (blanks ++ behind)
  have hstep : (queryReader cs.toCtype).step .plain c (blanks ++ behind) =
      (queryReader cs.toCtype).step .blanks c (blanks ++ behind) := by
    simp only [queryReader, readPlain, hspace, Bool.true_or, if_true]
  rw [List.cons_append, Transducer.run_congr hstep, ← List.cons_append, run_blanks_append h]

/-- A quote is marked where it is, twice if there are blanks in front of it. -/
theorem step_quote (h : c ∈ ansiSyntaxMarkers.quote) :
    (queryReader cs.toCtype).step .plain c rest = (.quoted c false, 0, [.token, .last]) ∧
      (queryReader cs.toCtype).step .blanks c rest =
        (.quoted c false, 0, [.token, .token, .last]) := by
  have hall : ∀ b ∈ ansiSyntaxMarkers.quote, b ∈ syntaxBytes ∧ b ≠ 0x3b ∧ b ≠ 0x5c :=
    List.all_iff_forall_prop.mp (by decide)
  obtain ⟨hquiet, hsemicolon, hescape⟩ := hall c h
  obtain ⟨hspc, hctr⟩ := cs.ctype_syntax c hquiet rest
  have hspace : spaceAt cs.toCtype (c :: rest) = false := by simp [spaceAt, hspc]
  have hcontrol : controlAt cs.toCtype (c :: rest) = false := by simp [controlAt, hctr]
  have hsep : ansiSyntaxMarkers.querySep.find? (·.isPrefixOf (c :: rest)) = none := by
    simp [ansiSyntaxMarkers, List.isPrefixOf, Ne.symm hsemicolon, Ne.symm hescape]
  have hchar : readChar cs.toCtype c rest = (.quoted c false, 0, [.token, .last]) := by
    simp only [readChar, hsep, if_pos h]
  constructor
  · simp only [queryReader, readPlain, hspace, hchar]
    rfl
  · simp only [queryReader, hspace, hcontrol, hchar]
    rfl

end Words

section Marks

variable {cs : ClauseCtype} {s : ReadingState} {c : UInt8} {text rest : List UInt8} {offset t : ℕ}

/-- The words that a place marks. -/
theorem readChar_tokens : ((readChar cs.toCtype c rest).2.2.filter (· = .token)).length =
    if c ∈ ansiSyntaxMarkers.quote then 1 else 0 := by
  have hall : ∀ b ∈ ansiSyntaxMarkers.quote, b ≠ 0x3b ∧ b ≠ 0x5c :=
    List.all_iff_forall_prop.mp (by decide)
  by_cases hquote : c ∈ ansiSyntaxMarkers.quote
  · obtain ⟨hsemicolon, hescape⟩ := hall c hquote
    have hsep : ansiSyntaxMarkers.querySep.find? (·.isPrefixOf (c :: rest)) = none := by
      simp [ansiSyntaxMarkers, List.isPrefixOf, Ne.symm hsemicolon, Ne.symm hescape]
    simp only [readChar, hsep, if_pos hquote]
    rfl
  · rw [if_neg hquote, readChar]
    split
    · rfl
    · rw [if_neg hquote]
      split_ifs <;> rfl

theorem readPlain_tokens :
    ((readPlain cs.toCtype c rest).2.2.filter (· = .token)).length ≤ 1 := by
  rw [readPlain]
  split
  · exact Nat.zero_le _
  · rw [readChar_tokens]
    split_ifs <;> omega

/-- Only a quote behind blanks is marked twice. -/
theorem step_tokens_le_iff :
    (((queryReader cs.toCtype).step s c rest).2.2.filter (· = .token)).length ≤ 1 ↔
      ¬ (s = .blanks ∧ c ∈ ansiSyntaxMarkers.quote) := by
  cases s with
  | plain => exact iff_of_true readPlain_tokens (by simp)
  | blanks =>
    by_cases hquote : c ∈ ansiSyntaxMarkers.quote
    · rw [(step_quote hquote).2]
      refine iff_of_false ?_ (by simp [hquote])
      show ¬ 2 ≤ 1
      omega
    · refine iff_of_true ?_ (by simp [hquote])
      simp only [queryReader]
      split
      · exact Nat.zero_le _
      · have hchar := @readChar_tokens cs c rest
        rw [if_neg hquote] at hchar
        simp [hchar]
  | quoted quote closed =>
    refine iff_of_true ?_ (by simp)
    simp only [queryReader]
    split_ifs <;> simp
  | escaped quote closed => exact iff_of_true (Nat.zero_le _) (by simp)
  | closed =>
    refine iff_of_true ?_ (by simp)
    simp only [queryReader]
    split
    · exact Nat.zero_le _
    · exact readPlain_tokens
  | line =>
    refine iff_of_true ?_ (by simp)
    simp only [queryReader]
    split
    · exact readPlain_tokens
    · exact Nat.zero_le _
  | block =>
    refine iff_of_true ?_ (by simp)
    simp only [queryReader]
    split
    · exact readPlain_tokens
    · exact Nat.zero_le _

/-- A quoted text begins directly behind blanks, a separator or the start of the text. -/
def QuoteBehindBlanks (cs : Ctype) (text : List UInt8) : Prop :=
  ∃ c rest, c ∈ ansiSyntaxMarkers.quote ∧
    (queryReader cs).Visits .blanks text .blanks (c :: rest)

/-- The marks of the words strictly increase exactly if no quoted text begins behind blanks. -/
theorem pairwise_words_iff : (offsetsOf .token (readingOf cs.toCtype text)).Pairwise (· < ·) ↔
    ¬ QuoteBehindBlanks cs.toCtype text := by
  have hoffsets := Transducer.pairwise_offsets_iff (T := queryReader cs.toCtype)
    (fun mark => decide (mark = .token)) .blanks text 0
  rw [offsetsOf, readingOf]
  apply hoffsets.trans
  constructor
  · rintro h ⟨c, rest, hquote, hvisits⟩
    exact step_tokens_le_iff.mp (h .blanks c rest hvisits) ⟨rfl, hquote⟩
  · intro h s' c rest hvisits
    apply step_tokens_le_iff.mpr
    rintro ⟨rfl, hquote⟩
    exact h ⟨c, rest, hquote, hvisits⟩

/-- The quote of a quoted text is one. -/
def ReadingState.Proper : ReadingState → Prop
  | .quoted quote _ => quote ∈ ansiSyntaxMarkers.quote
  | .escaped quote _ => quote ∈ ansiSyntaxMarkers.quote
  | _ => True

theorem readChar_proper : (readChar cs.toCtype c rest).1.Proper := by
  rw [readChar]
  split
  · trivial
  · split_ifs with hquote
    · exact hquote
    all_goals trivial

theorem readPlain_proper : (readPlain cs.toCtype c rest).1.Proper := by
  rw [readPlain]
  split
  · trivial
  · exact readChar_proper

theorem step_proper (h : s.Proper) : ((queryReader cs.toCtype).step s c rest).1.Proper := by
  cases s with
  | plain => exact readPlain_proper
  | blanks =>
    simp only [queryReader]
    split
    · trivial
    · exact readChar_proper
  | quoted quote closed =>
    simp only [queryReader]
    by_cases hescape : c = ansiSyntaxMarkers.escape
    · rw [if_pos hescape]
      exact h
    · rw [if_neg hescape]
      by_cases hclosing : c = quote
      · rw [if_pos hclosing]
        trivial
      · rw [if_neg hclosing]
        exact h
  | escaped quote closed => exact h
  | closed =>
    simp only [queryReader]
    split_ifs with hquote
    · exact hquote
    · exact readPlain_proper
  | line =>
    simp only [queryReader]
    split
    · exact readPlain_proper
    · trivial
  | block =>
    simp only [queryReader]
    split
    · exact readPlain_proper
    · trivial

theorem not_quote_of_isspace (h : isspace c = true) : c ∉ ansiSyntaxMarkers.quote := by
  intro hmem
  simp only [ansiSyntaxMarkers, List.mem_cons, List.not_mem_nil, or_false] at hmem
  obtain rfl | rfl | rfl := hmem <;> exact absurd h (by decide)

theorem readPlain_blank (h : isspace c = true) :
    readPlain cs.toCtype c rest = (.blanks, 0, []) := by
  rw [readPlain, if_pos (cs.ctype_spacing c h rest), charLength_ascii (isspace_ascii h)]

/-- A blank: what is behind it is behind blanks, or still in a quoted text or a comment. -/
theorem step_blank (h : isspace c = true) (hs : s.Proper) :
    ∃ next, (queryReader cs.toCtype).step s c rest =
        (next, 0, ((queryReader cs.toCtype).step s c rest).2.2) ∧
      offsetsOf .token (((queryReader cs.toCtype).step s c rest).2.2.map
        fun mark => (mark, offset)) = [] ∧
      next.Proper ∧ (next = .blanks ∨ next.outside = false) := by
  have hlength := @charLength_ascii cs.toCtype c rest (isspace_ascii h)
  have hplain := @readPlain_blank cs c rest h
  cases s with
  | plain =>
    refine ⟨.blanks, ?_, ?_, trivial, Or.inl rfl⟩
    · simp only [queryReader, hplain]
    · simp only [queryReader, hplain]
      rfl
  | blanks =>
    have hblanks := @step_blanks_blank cs.toQueryCtype c rest h
    exact ⟨.blanks, by rw [hblanks], by rw [hblanks]; rfl, trivial, Or.inl rfl⟩
  | quoted quote closed =>
    have hne : c ≠ quote := by
      rintro rfl
      exact not_quote_of_isspace h hs
    have hescape : c ≠ ansiSyntaxMarkers.escape := by
      rintro rfl
      exact absurd h (by decide)
    refine ⟨.quoted quote closed, ?_, ?_, hs, Or.inr rfl⟩
    · simp only [queryReader, if_neg hescape, if_neg hne, hlength]
    · simp only [queryReader, if_neg hescape, if_neg hne]
      split <;> rfl
  | escaped quote closed =>
    refine ⟨.quoted quote closed, ?_, rfl, hs, Or.inr rfl⟩
    simp only [queryReader, hlength]
  | closed =>
    refine ⟨.blanks, ?_, ?_, trivial, Or.inl rfl⟩
    · simp only [queryReader, if_neg (not_quote_of_isspace h), hplain]
    · simp only [queryReader, if_neg (not_quote_of_isspace h), hplain]
      rfl
  | line =>
    by_cases hnewline : ansiSyntaxMarkers.newLineEnd.isPrefixOf (c :: rest) = true
    · refine ⟨.blanks, ?_, ?_, trivial, Or.inl rfl⟩
      · simp only [queryReader, if_pos hnewline, hplain]
      · simp only [queryReader, if_pos hnewline, hplain]
        rfl
    · refine ⟨.line, ?_, ?_, trivial, Or.inr rfl⟩
      · simp only [queryReader, if_neg hnewline, hlength]
      · simp only [queryReader, if_neg hnewline]
        rfl
  | block =>
    by_cases hclose : ansiSyntaxMarkers.cStyleCloseComment.isPrefixOf (c :: rest) = true
    · refine ⟨.blanks, ?_, ?_, trivial, Or.inl rfl⟩
      · simp only [queryReader, if_pos hclose, hplain]
      · simp only [queryReader, if_pos hclose, hplain]
        rfl
    · refine ⟨.block, ?_, ?_, trivial, Or.inr rfl⟩
      · simp only [queryReader, if_neg hclose, hlength]
      · simp only [queryReader, if_neg hclose]
        rfl

/-- No blank is marked. -/
theorem token_not_blank (hs : s.Proper)
    (h : t ∈ offsetsOf .token ((queryReader cs.toCtype).run s offset text)) :
    ∃ i c, t = offset + i ∧ text[i]? = some c ∧ isspace c = false := by
  induction s, text using (queryReader cs.toCtype).places_induction generalizing offset with
  | nil s => simp [offsetsOf] at h
  | cons s c rest ih =>
    rw [Transducer.run, offsetsOf_append, List.mem_append] at h
    obtain hhere | hbehind := h
    · refine ⟨0, c, ?_, rfl, ?_⟩
      · obtain ⟨mark, hmark, rfl⟩ := List.mem_map.mp hhere
        obtain ⟨kind, -, rfl⟩ := List.mem_map.mp (List.mem_filter.mp hmark).1
        rfl
      · rw [← Bool.not_eq_true]
        intro hblank
        obtain ⟨next, -, hsilent, -⟩ := @step_blank cs s c rest offset hblank hs
        rw [hsilent] at hhere
        exact absurd hhere (by simp)
    · obtain ⟨i, d, ht, hbyte, hspace⟩ := ih (step_proper hs) hbehind
      refine ⟨((queryReader cs.toCtype).step s c rest).2.1 + i + 1, d, by omega, ?_, hspace⟩
      rw [List.getElem?_cons_succ, ← List.getElem?_drop]
      exact hbyte

/-- Behind blanks the reading is behind blanks, or still in a quoted text or a comment. -/
theorem final_blank (h : Blank rest) (hne : rest ≠ []) (hs : s.Proper)
    (houtside : ((queryReader cs.toCtype).final s rest).outside = true) :
    (queryReader cs.toCtype).final s rest = .blanks := by
  induction rest generalizing s with
  | nil => exact absurd rfl hne
  | cons c rest ih =>
    obtain ⟨hblank, hrest⟩ := List.forall_mem_cons.mp h
    obtain ⟨next, hstep, -, hproper, hnext⟩ := @step_blank cs s c rest 0 hblank hs
    rw [Transducer.final_cons hstep, List.drop_zero] at houtside ⊢
    obtain rfl | hinside := hnext
    · have hfinal := @final_blanks_append cs.toQueryCtype [] rest hrest
      rwa [List.append_nil, Transducer.final_nil] at hfinal
    · by_cases hend : rest = []
      · subst hend
        rw [Transducer.final_nil, hinside] at houtside
        cases houtside
      · exact ih hrest hend hproper houtside

/-- So it is when the blanks are at the end of a text. -/
theorem final_append_blank (hwhole : WholeChars cs.toCtype text) (h : Blank rest) (hne : rest ≠ [])
    (hs : s.Proper) (houtside : ((queryReader cs.toCtype).final s (text ++ rest)).outside = true) :
    (queryReader cs.toCtype).final s (text ++ rest) = .blanks := by
  induction hlength : text.length using Nat.strongRecOn generalizing s text with
  | ind n ih =>
    cases text with
    | nil => exact final_blank h hne hs houtside
    | cons c text =>
      have hplace : OnePlace cs.toCtype c text
          ((queryReader cs.toCtype).step s c (text ++ rest)) := by
        obtain hskip | ⟨rfl, ⟨rest', hg⟩, hskip⟩ :=
          @onePlace_step cs.toCtype s c (text ++ rest)
        · left
          cases hwhole with
          | cons alone _ _ => rw [hskip, charLength, charLength, ← List.cons_append, alone]
        · refine Or.inr ⟨rfl, ?_, hskip⟩
          cases text with
          | nil =>
            obtain ⟨b, rest, rfl⟩ := List.exists_cons_of_ne_nil hne
            obtain rfl : b = 0x67 := (List.cons.inj hg).1
            exact absurd (h _ List.mem_cons_self) (by decide)
          | cons b text => exact ⟨text, by rw [(List.cons.inj hg).1]⟩
      obtain ⟨hinside, hfurther⟩ := hwhole.behind_place hplace
      rw [List.cons_append, Transducer.final, List.drop_append_of_le_length hinside] at houtside ⊢
      refine ih _ ?_ hfurther (step_proper hs) houtside rfl
      rw [← hlength, List.length_drop, List.length_cons]
      omega

end Marks

end MatrixOdbc.Driver
