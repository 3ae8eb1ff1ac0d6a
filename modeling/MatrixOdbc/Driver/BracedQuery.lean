import MatrixOdbc.Driver.Prepare
import MatrixOdbc.Driver.QueryReading
import Mathlib.Data.List.Find

/-!
# A query in braces

`parse` of `{ .. }`: when the braces are blanked out, and the query between them is parsed as
it is without them.
-/

namespace MatrixOdbc.Driver

open MysqlStrings MatrixOdbc.Foundations

/-- A character type that knows the blanks of the C locale and takes the braces for neither
blanks nor control characters. -/
structure QueryCtype extends Ctype where
  ctype_alone : ∀ c, c < 0x80 → ∀ s, ctype (c :: s) = ctype [c]
  ctype_blank : ∀ c, isspace c = true → ∀ s,
    spaceAt toCtype (c :: s) = true ∨ controlAt toCtype (c :: s) = true
  ctype_space : ∀ s, spaceAt toCtype (0x20 :: s) = true
  ctype_brace : ∀ c, c = 0x7b ∨ c = 0x7d → ∀ s,
    spaceAt toCtype (c :: s) = false ∧ controlAt toCtype (c :: s) = false

/-- A text of blanks. -/
def Blank (text : List UInt8) : Prop := ∀ c ∈ text, isspace c = true

/-- Every character of the text is read in the same way whatever is behind the text. -/
inductive WholeChars (cs : Ctype) : List UInt8 → Prop
  | nil : WholeChars cs []
  | cons {c : UInt8} {rest : List UInt8}
      (alone : ∀ behind, cs.ctype (c :: rest ++ behind) = cs.ctype (c :: rest))
      (inside : charLength cs (c :: rest) - 1 ≤ rest.length)
      (further : WholeChars cs (rest.drop (charLength cs (c :: rest) - 1))) :
      WholeChars cs (c :: rest)

theorem WholeChars.append {cs : Ctype} {first second : List UInt8} (hfirst : WholeChars cs first)
    (hsecond : WholeChars cs second) : WholeChars cs (first ++ second) := by
  induction hfirst with
  | nil => exact hsecond
  | @cons c rest alone inside further ih =>
    have hlength : charLength cs (c :: (rest ++ second)) = charLength cs (c :: rest) := by
      rw [charLength, charLength, ← List.cons_append, alone]
    rw [List.cons_append]
    refine .cons ?_ ?_ ?_
    · intro behind
      rw [← List.cons_append, List.append_assoc, alone, alone]
    · rw [hlength, List.length_append]
      omega
    · rw [hlength, List.drop_append_of_le_length inside]
      exact ih

theorem isspace_ascii {c : UInt8} (h : isspace c = true) : c < 0x80 := by
  simp only [isspace, Bool.or_eq_true, beq_iff_eq, Bool.and_eq_true, decide_eq_true_eq] at h
  obtain rfl | ⟨-, hle⟩ := h
  · decide
  · exact UInt8.lt_of_le_of_lt hle (by decide)

theorem Blank.wholeChars {cs : QueryCtype} {text : List UInt8} (h : Blank text) :
    WholeChars cs.toCtype text := by
  induction text with
  | nil => exact .nil
  | cons c text ih =>
    obtain ⟨hspace, htext⟩ := List.forall_mem_cons.mp h
    have hascii := isspace_ascii hspace
    refine .cons ?_ ?_ ?_
    · intro behind
      rw [List.cons_append, cs.ctype_alone c hascii, cs.ctype_alone c hascii text]
    · rw [charLength_ascii hascii]
      exact Nat.zero_le _
    · rw [charLength_ascii hascii]
      exact ih htext

/-- The bytes behind the first one of a delimiter, but for the blank of `-- `. -/
def closingBytes : List UInt8 := [0x67, 0x2a, 0x21, 0x2f, 0x2d]

/-- A text that completes no delimiter in front of it, but for `-- `. -/
def Harmless (behind : List UInt8) : Prop :=
  ∀ c, behind.head? = some c → c ∉ closingBytes

section Reader

variable {cs : Ctype} {s next : ReadingState} {c : UInt8} {rest behind : List UInt8}
  {skipped : ℕ} {marks : List ReadingMark}

/-- A delimiter is not completed by what is behind. -/
theorem isPrefixOf_append_harmless (h : Harmless behind) {a : UInt8} {str : List UInt8}
    (hstr : ∀ b ∈ str, b ∈ closingBytes) :
    (a :: str).isPrefixOf (c :: rest ++ behind) = (a :: str).isPrefixOf (c :: rest) := by
  have hbehind : ∀ (str text : List UInt8), (∀ b ∈ str, b ∈ closingBytes) →
      str.isPrefixOf (text ++ behind) = str.isPrefixOf text := by
    intro str text hstr
    induction str generalizing text with
    | nil => simp
    | cons b str ih =>
      obtain ⟨hb, hstr⟩ := List.forall_mem_cons.mp hstr
      cases text with
      | nil =>
        cases behind with
        | nil => rfl
        | cons d behind =>
          have hne : b ≠ d := by
            rintro rfl
            exact h b rfl hb
          simp [List.isPrefixOf, hne]
      | cons d text => simp only [List.cons_append, List.isPrefixOf, ih text hstr]
  simp only [List.cons_append, List.isPrefixOf, hbehind str rest hstr]

/-- The two dashes of a comment that the text behind them opens. -/
def DashesOpened (c : UInt8) (rest behind : List UInt8) : Prop :=
  c = 0x2d ∧ rest = [0x2d] ∧ behind.head? = some 0x20

theorem dashComment_append (h : Harmless behind) (hdashes : ¬ DashesOpened c rest behind) :
    ansiSyntaxMarkers.dashComment.isPrefixOf (c :: rest ++ behind) =
      ansiSyntaxMarkers.dashComment.isPrefixOf (c :: rest) := by
  match rest with
  | [] =>
    cases behind with
    | nil => rfl
    | cons d behind =>
      have hne : 0x2d ≠ d := by
        rintro rfl
        exact h 0x2d rfl (by decide)
      simp [ansiSyntaxMarkers, List.isPrefixOf, hne]
  | [d] =>
    cases behind with
    | nil => rfl
    | cons e behind =>
      by_cases hdash : 0x2d = c ∧ 0x2d = d
      · have hne : 0x20 ≠ e := by
          rintro rfl
          exact hdashes ⟨hdash.1.symm, by rw [hdash.2], rfl⟩
        simp [ansiSyntaxMarkers, List.isPrefixOf, hne]
      · simp only [not_and] at hdash
        simp only [ansiSyntaxMarkers, List.cons_append, List.nil_append, List.isPrefixOf,
          Bool.and_false]
        by_cases hc : 0x2d = c
        · simp [hdash hc]
        · simp [hc]
  | d :: e :: rest => simp [ansiSyntaxMarkers, List.isPrefixOf]

/-- A character is read alike whatever is behind, but for dashes that open a comment. -/
theorem readChar_append (h : Harmless behind) (hdashes : ¬ DashesOpened c rest behind)
    (halone : cs.ctype (c :: rest ++ behind) = cs.ctype (c :: rest)) :
    readChar cs c (rest ++ behind) = readChar cs c rest := by
  have hlength : charLength cs (c :: rest ++ behind) = charLength cs (c :: rest) := by
    rw [charLength, charLength, halone]
  have hsep : ansiSyntaxMarkers.querySep.find? (·.isPrefixOf (c :: rest ++ behind)) =
      ansiSyntaxMarkers.querySep.find? (·.isPrefixOf (c :: rest)) := by
    apply List.find?_congr
    intro sep hmem
    simp only [ansiSyntaxMarkers, List.mem_cons, List.not_mem_nil, or_false] at hmem
    obtain rfl | rfl := hmem
    · exact isPrefixOf_append_harmless h (by simp)
    · exact isPrefixOf_append_harmless h (by simp [closingBytes])
  have hhash : ansiSyntaxMarkers.hashComment.isPrefixOf (c :: rest ++ behind) =
      ansiSyntaxMarkers.hashComment.isPrefixOf (c :: rest) :=
    isPrefixOf_append_harmless h (by simp)
  have hvar : ansiSyntaxMarkers.cVarOpenComment.isPrefixOf (c :: rest ++ behind) =
      ansiSyntaxMarkers.cVarOpenComment.isPrefixOf (c :: rest) :=
    isPrefixOf_append_harmless h (by simp [closingBytes])
  have hopen : ansiSyntaxMarkers.cStyleOpenComment.isPrefixOf (c :: rest ++ behind) =
      ansiSyntaxMarkers.cStyleOpenComment.isPrefixOf (c :: rest) :=
    isPrefixOf_append_harmless h (by simp [closingBytes])
  unfold readChar
  rw [← List.cons_append, hsep, hhash, dashComment_append h hdashes, hvar, hopen, hlength]

theorem spaceAt_append (halone : cs.ctype (c :: rest ++ behind) = cs.ctype (c :: rest)) :
    spaceAt cs (c :: rest ++ behind) = spaceAt cs (c :: rest) := by
  rw [spaceAt, spaceAt, halone]

theorem controlAt_append (halone : cs.ctype (c :: rest ++ behind) = cs.ctype (c :: rest)) :
    controlAt cs (c :: rest ++ behind) = controlAt cs (c :: rest) := by
  rw [controlAt, controlAt, halone]

/-- A place is read alike whatever is behind, but for dashes that open a comment. -/
theorem step_append (h : Harmless behind) (hdashes : ¬ DashesOpened c rest behind)
    (halone : cs.ctype (c :: rest ++ behind) = cs.ctype (c :: rest)) :
    (queryReader cs).step s c (rest ++ behind) = (queryReader cs).step s c rest := by
  have hlength : charLength cs (c :: rest ++ behind) = charLength cs (c :: rest) := by
    rw [charLength, charLength, halone]
  have hchar := readChar_append h hdashes halone
  have hplain : readPlain cs c (rest ++ behind) = readPlain cs c rest := by
    rw [readPlain, readPlain, ← List.cons_append, spaceAt_append halone, hlength, hchar]
  have hnewline : ansiSyntaxMarkers.newLineEnd.isPrefixOf (c :: rest ++ behind) =
      ansiSyntaxMarkers.newLineEnd.isPrefixOf (c :: rest) :=
    isPrefixOf_append_harmless h (by simp)
  have hclose : ansiSyntaxMarkers.cStyleCloseComment.isPrefixOf (c :: rest ++ behind) =
      ansiSyntaxMarkers.cStyleCloseComment.isPrefixOf (c :: rest) :=
    isPrefixOf_append_harmless h (by simp [closingBytes])
  cases s with
  | plain => exact hplain
  | blanks =>
    simp only [queryReader, ← List.cons_append, spaceAt_append halone, controlAt_append halone,
      hlength, hchar]
  | quoted quote closed => simp only [queryReader, ← List.cons_append, hlength]
  | escaped quote closed => simp only [queryReader, ← List.cons_append, hlength]
  | closed => simp only [queryReader, hplain]
  | line => simp only [queryReader, ← List.cons_append, hnewline, hlength, hplain]
  | block => simp only [queryReader, ← List.cons_append, hclose, hlength, hplain]

/-- A place is one character, or the separator `\g`. -/
def OnePlace (cs : Ctype) (c : UInt8) (rest : List UInt8)
    (read : ReadingState × ℕ × List ReadingMark) : Prop :=
  read.2.1 = charLength cs (c :: rest) - 1 ∨ c = 0x5c ∧ (∃ rest', rest = 0x67 :: rest') ∧ read.2.1 = 1

theorem onePlace_readChar : OnePlace cs c rest (readChar cs c rest) := by
  have hascii : c < 0x80 → charLength cs (c :: rest) - 1 = 0 := fun h => by
    rw [charLength_ascii h]
  unfold OnePlace readChar
  split
  · next sep hsep =>
    have hmem := List.mem_of_find?_eq_some hsep
    have hprefix := List.find?_some hsep
    simp only [ansiSyntaxMarkers, List.mem_cons, List.not_mem_nil, or_false] at hmem
    obtain rfl | rfl := hmem
    · left
      obtain rfl : 0x3b = c := by simpa [List.isPrefixOf] using hprefix
      rw [hascii (by decide)]
      rfl
    · right
      obtain ⟨rest', hrest⟩ := List.isPrefixOf_iff_prefix.mp hprefix
      obtain ⟨rfl, rfl⟩ : 0x5c = c ∧ 0x67 :: rest' = rest := by simpa using hrest
      exact ⟨rfl, ⟨rest', rfl⟩, rfl⟩
  · left
    split_ifs with hquote hline hvar hopen hmarker
    · have hall : ∀ b ∈ ansiSyntaxMarkers.quote, b < 0x80 :=
        List.all_iff_forall_prop.mp (by decide)
      exact (hascii (hall c hquote)).symm
    · refine (hascii ?_).symm
      simp only [ansiSyntaxMarkers, List.isPrefixOf, Bool.or_eq_true, Bool.and_eq_true,
        beq_iff_eq] at hline
      obtain ⟨rfl, -⟩ | ⟨rfl, -⟩ := hline <;> decide
    · refine (hascii ?_).symm
      simp only [ansiSyntaxMarkers, List.isPrefixOf, Bool.and_eq_true, beq_iff_eq] at hvar
      rw [← hvar.1]
      decide
    · refine (hascii ?_).symm
      simp only [ansiSyntaxMarkers, List.isPrefixOf, Bool.and_eq_true, beq_iff_eq] at hopen
      rw [← hopen.1]
      decide
    · refine (hascii ?_).symm
      rw [hmarker]
      decide
    · rfl

theorem onePlace_readPlain : OnePlace cs c rest (readPlain cs c rest) := by
  unfold readPlain
  split_ifs
  · exact Or.inl rfl
  · exact onePlace_readChar

theorem onePlace_step : OnePlace cs c rest ((queryReader cs).step s c rest) := by
  have hascii : c < 0x80 → charLength cs (c :: rest) - 1 = 0 := fun h => by
    rw [charLength_ascii h]
  cases s with
  | plain => exact onePlace_readPlain
  | blanks =>
    by_cases hblank : (spaceAt cs (c :: rest) || controlAt cs (c :: rest)) = true
    · left
      simp only [queryReader, hblank, if_true]
    · have hchar := @onePlace_readChar cs c rest
      simp only [queryReader, hblank]
      exact hchar
  | quoted quote closed =>
    by_cases hescape : c = ansiSyntaxMarkers.escape
    · left
      simp only [queryReader, hescape, if_true]
      rw [charLength_ascii (by decide)]
    · left
      simp only [queryReader, hescape, if_false]
      split <;> rfl
  | escaped quote closed => exact Or.inl rfl
  | closed =>
    by_cases hquote : c ∈ ansiSyntaxMarkers.quote
    · have hall : ∀ b ∈ ansiSyntaxMarkers.quote, b < 0x80 :=
        List.all_iff_forall_prop.mp (by decide)
      left
      simp only [queryReader, if_pos hquote]
      exact (hascii (hall c hquote)).symm
    · simp only [queryReader, if_neg hquote]
      exact onePlace_readPlain
  | line =>
    simp only [queryReader]
    split
    · exact onePlace_readPlain
    · exact Or.inl rfl
  | block =>
    simp only [queryReader]
    split
    · exact onePlace_readPlain
    · exact Or.inl rfl

/-- What is behind a place has whole characters, too. -/
theorem WholeChars.behind_place (h : WholeChars cs (c :: rest)) {read : ReadingState × ℕ × List ReadingMark}
    (hread : OnePlace cs c rest read) :
    read.2.1 ≤ rest.length ∧ WholeChars cs (rest.drop read.2.1) := by
  cases h with
  | cons alone inside further =>
    obtain hlength | ⟨rfl, ⟨rest', rfl⟩, hone⟩ := hread
    · rw [hlength]
      exact ⟨inside, further⟩
    · rw [charLength_ascii (by decide)] at further
      rw [hone]
      refine ⟨by simp, ?_⟩
      cases further with
      | cons alone' inside' further' =>
        rwa [charLength_ascii (by decide)] at further'

/-- A text of whole characters is read alike in front of a text that completes nothing. -/
theorem WholeChars.isLocal {text : List UInt8} (h : WholeChars cs text) (hbehind : Harmless behind)
    (hspace : behind.head? ≠ some 0x20) (s : ReadingState) :
    (queryReader cs).Local behind s text := by
  induction s, text using (queryReader cs).places_induction with
  | nil s => exact .nil s
  | cons s c rest ih =>
    obtain ⟨hinside, hfurther⟩ := h.behind_place onePlace_step
    have hdashes : ¬ DashesOpened c rest behind := fun hdashes => hspace hdashes.2.2
    cases h with
    | cons alone _ _ => exact .cons (step_append hbehind hdashes (alone behind)) hinside (ih hfurther)

/-- No token and no marker. -/
def Silent (marks : List (ReadingMark × ℕ)) : Prop :=
  offsetsOf .token marks = [] ∧ offsetsOf .marker marks = []

theorem Silent.append {first second : List (ReadingMark × ℕ)} (hfirst : Silent first)
    (hsecond : Silent second) : Silent (first ++ second) := by
  constructor
  · rw [offsetsOf_append, hfirst.1, hsecond.1, List.append_nil]
  · rw [offsetsOf_append, hfirst.2, hsecond.2, List.append_nil]

/-- A character with no meaning in the syntax. -/
theorem readChar_of_notMem (h : c ∉ syntaxBytes) :
    readChar cs c rest = (.plain, charLength cs (c :: rest) - 1, [.last]) := by
  simp only [syntaxBytes, List.mem_cons, List.not_mem_nil, not_or, not_false_eq_true,
    and_true] at h
  obtain ⟨h₁, h₂, h₃, h₄, h₅, h₆, h₇, h₈, h₉, h₁₀⟩ := h
  simp [readChar, ansiSyntaxMarkers, List.isPrefixOf, h₁, h₂, h₃, h₄, Ne.symm h₅, Ne.symm h₆,
    Ne.symm h₇, Ne.symm h₉, Ne.symm h₁₀]

theorem silent_last (offset : ℕ) :
    Silent ([ReadingMark.last].map fun mark => (mark, offset)) := ⟨rfl, rfl⟩

theorem silent_nil : Silent [] := ⟨rfl, rfl⟩

theorem notMem_syntaxBytes_of_isspace (h : isspace c = true) : c ∉ syntaxBytes := by
  intro hmem
  have hall : ∀ b ∈ syntaxBytes, isspace b = false := List.all_iff_forall_prop.mp (by decide)
  rw [hall c hmem] at h
  exact absurd h (by simp)

end Reader

section Blanks

variable {cs : QueryCtype} {s : ReadingState} {c : UInt8} {rest text blanks : List UInt8}
  {offset : ℕ}

theorem step_blank_silent (h : isspace c = true) :
    Silent (((queryReader cs.toCtype).step s c rest).2.2.map fun mark => (mark, offset)) := by
  have hchar := @readChar_of_notMem cs.toCtype c rest (notMem_syntaxBytes_of_isspace h)
  have hplain : Silent ((readPlain cs.toCtype c rest).2.2.map fun mark => (mark, offset)) := by
    unfold readPlain
    split_ifs
    · exact silent_nil
    · rw [hchar]
      exact silent_last offset
  cases s with
  | plain => exact hplain
  | blanks =>
    have hblank : (spaceAt cs.toCtype (c :: rest) || controlAt cs.toCtype (c :: rest)) = true := by
      rw [Bool.or_eq_true]
      exact cs.ctype_blank c h rest
    simp only [queryReader, hblank, if_true]
    exact silent_nil
  | quoted quote closed =>
    simp only [queryReader]
    split_ifs <;> exact ⟨rfl, rfl⟩
  | escaped quote closed => exact silent_nil
  | closed =>
    simp only [queryReader]
    split
    · exact silent_nil
    · exact hplain
  | line =>
    simp only [queryReader]
    split
    · exact hplain
    · exact silent_nil
  | block =>
    simp only [queryReader]
    split
    · exact hplain
    · exact silent_nil

/-- No token and no marker begins among blanks. -/
theorem run_blank_silent (h : Blank text) : Silent ((queryReader cs.toCtype).run s offset text) := by
  induction s, text using (queryReader cs.toCtype).places_induction generalizing offset with
  | nil s =>
    rw [Transducer.run_nil]
    exact silent_nil
  | cons s c rest ih =>
    rw [Transducer.run]
    refine (step_blank_silent (h c List.mem_cons_self)).append (ih ?_)
    intro d hd
    exact h d (List.mem_cons_of_mem _ (List.mem_of_mem_drop hd))

/-- Dashes that open a comment put down the marks of dashes that do not. -/
theorem step_dashes (h : DashesOpened c rest blanks) :
    (queryReader cs.toCtype).step s c (rest ++ blanks) = (queryReader cs.toCtype).step s c rest ∨
      ∃ marks, (queryReader cs.toCtype).step s c (rest ++ blanks) = (.line, 0, marks) ∧
        (queryReader cs.toCtype).step s c rest = (.plain, 0, marks) := by
  obtain ⟨rfl, rfl, hspace⟩ := h
  obtain ⟨blanks, rfl⟩ : ∃ more, blanks = 0x20 :: more := by
    cases blanks with
    | nil => simp at hspace
    | cons d blanks => exact ⟨blanks, by simpa using hspace⟩
  have hlength : ∀ rest, charLength cs.toCtype (0x2d :: rest) = 1 := fun rest =>
    charLength_ascii (by decide)
  have htypes : ∀ rest, spaceAt cs.toCtype (0x2d :: rest) = false ∧
      controlAt cs.toCtype (0x2d :: rest) = false := by
    intro rest
    obtain ⟨hspc, hctr⟩ := cs.ctype_syntax 0x2d (by decide) rest
    exact ⟨by simp [spaceAt, hspc], by simp [controlAt, hctr]⟩
  have hopened : readChar cs.toCtype 0x2d ([0x2d] ++ 0x20 :: blanks) = (.line, 0, [.last]) := by
    simp [readChar, ansiSyntaxMarkers, List.isPrefixOf]
  have halone : readChar cs.toCtype 0x2d [0x2d] = (.plain, 0, [.last]) := by
    simp [readChar, ansiSyntaxMarkers, List.isPrefixOf, hlength]
  have hplainOpened : readPlain cs.toCtype 0x2d ([0x2d] ++ 0x20 :: blanks) =
      (.line, 0, [.last]) := by
    rw [readPlain, (htypes _).1, if_neg Bool.false_ne_true, hopened]
  have hplainAlone : readPlain cs.toCtype 0x2d [0x2d] = (.plain, 0, [.last]) := by
    rw [readPlain, (htypes _).1, if_neg Bool.false_ne_true, halone]
  cases s with
  | plain => exact Or.inr ⟨_, hplainOpened, hplainAlone⟩
  | blanks =>
    refine Or.inr ⟨[.token, .last], ?_, ?_⟩
    · simp only [queryReader, (htypes _).1, (htypes _).2, hopened]
      rfl
    · simp only [queryReader, (htypes _).1, (htypes _).2, halone]
      rfl
  | quoted quote closed => exact Or.inl (by simp only [queryReader, hlength])
  | escaped quote closed => exact Or.inl (by simp only [queryReader, hlength])
  | closed =>
    have hquote : ¬ (0x2d : UInt8) ∈ ansiSyntaxMarkers.quote := by decide
    refine Or.inr ⟨[.last], ?_, ?_⟩
    · simp only [queryReader, if_neg hquote, hplainOpened]
    · simp only [queryReader, if_neg hquote, hplainAlone]
  | line => exact Or.inl (by simp [queryReader, ansiSyntaxMarkers, List.isPrefixOf, hlength])
  | block => exact Or.inl (by simp [queryReader, ansiSyntaxMarkers, List.isPrefixOf, hlength])

/-- Blanks behind a text add no token and no marker. -/
theorem run_append_blank (h : WholeChars cs.toCtype text) (hblank : Blank blanks)
    {kind : ReadingMark} (hkind : kind = .token ∨ kind = .marker) :
    offsetsOf kind ((queryReader cs.toCtype).run s offset (text ++ blanks)) =
      offsetsOf kind ((queryReader cs.toCtype).run s offset text) := by
  have hsilent : ∀ marks, Silent marks → offsetsOf kind marks = [] := by
    intro marks hmarks
    obtain rfl | rfl := hkind
    · exact hmarks.1
    · exact hmarks.2
  have hharmless : Harmless blanks := by
    intro c hc hmem
    have hall : ∀ b ∈ closingBytes, isspace b = false := List.all_iff_forall_prop.mp (by decide)
    have hspace := hblank c (List.mem_of_mem_head? hc)
    rw [hall c hmem] at hspace
    exact absurd hspace (by simp)
  induction s, text using (queryReader cs.toCtype).places_induction generalizing offset with
  | nil s =>
    rw [List.nil_append, Transducer.run_nil]
    exact hsilent _ (run_blank_silent hblank)
  | cons s c rest ih =>
    obtain ⟨hinside, hfurther⟩ := h.behind_place (@onePlace_step cs.toCtype s c rest)
    have hsame : (queryReader cs.toCtype).step s c (rest ++ blanks) =
          (queryReader cs.toCtype).step s c rest →
        offsetsOf kind ((queryReader cs.toCtype).run s offset (c :: rest ++ blanks)) =
          offsetsOf kind ((queryReader cs.toCtype).run s offset (c :: rest)) := by
      intro hstep
      rw [List.cons_append, Transducer.run, Transducer.run, hstep, offsetsOf_append,
        offsetsOf_append, List.drop_append_of_le_length hinside, ih hfurther]
    by_cases hdashes : DashesOpened c rest blanks
    · obtain hstep | ⟨marks, hopened, halone⟩ := @step_dashes cs s c rest blanks hdashes
      · exact hsame hstep
      · -- Behind the first dash there is one more dash, in the comment or in plain text.
        obtain ⟨rfl, rfl, -⟩ := hdashes
        have hline : (queryReader cs.toCtype).step .line 0x2d blanks = (.line, 0, []) := by
          simp [queryReader, ansiSyntaxMarkers, List.isPrefixOf,
            @charLength_ascii cs.toCtype 0x2d blanks (by decide)]
        have hplain : (queryReader cs.toCtype).step .plain 0x2d [] = (.plain, 0, [.last]) := by
          obtain ⟨hspc, -⟩ := cs.ctype_syntax 0x2d (by decide) []
          have hspace : spaceAt cs.toCtype [0x2d] = false := by simp [spaceAt, hspc]
          have hlength : charLength cs.toCtype [0x2d] = 1 := charLength_ascii (by decide)
          simp [queryReader, readPlain, readChar, ansiSyntaxMarkers, List.isPrefixOf, hspace,
            hlength]
        rw [List.cons_append, Transducer.run_cons hopened, Transducer.run_cons halone,
          offsetsOf_append, offsetsOf_append]
        congr 1
        rw [List.drop_zero, List.drop_zero, List.singleton_append, Transducer.run_cons hline,
          Transducer.run_cons hplain, List.drop_nil, List.drop_zero, Transducer.run_nil]
        exact (hsilent _ (silent_nil.append (run_blank_silent hblank))).trans
          (hsilent _ ((silent_last _).append silent_nil)).symm
    · cases h with
      | cons alone _ _ => exact hsame (step_append hharmless hdashes (alone blanks))

theorem step_blanks_blank (h : isspace c = true) :
    (queryReader cs.toCtype).step .blanks c rest = (.blanks, 0, []) := by
  have hblank : (spaceAt cs.toCtype (c :: rest) || controlAt cs.toCtype (c :: rest)) = true := by
    rw [Bool.or_eq_true]
    exact cs.ctype_blank c h rest
  simp only [queryReader, hblank, if_true, charLength_ascii (isspace_ascii h)]

/-- Blanks in front of a text are read without a mark. -/
theorem run_blanks_append (h : Blank blanks) :
    (queryReader cs.toCtype).run .blanks offset (blanks ++ text) =
      (queryReader cs.toCtype).run .blanks (offset + blanks.length) text := by
  induction blanks generalizing offset with
  | nil => simp
  | cons c blanks ih =>
    obtain ⟨hspace, hblanks⟩ := List.forall_mem_cons.mp h
    rw [List.cons_append, Transducer.run_cons (step_blanks_blank hspace), List.drop_zero,
      ih hblanks, List.length_cons]
    simp [Nat.add_assoc, Nat.add_comm 1]

theorem final_blanks_append (h : Blank blanks) :
    (queryReader cs.toCtype).final .blanks (blanks ++ text) =
      (queryReader cs.toCtype).final .blanks text := by
  induction blanks with
  | nil => rfl
  | cons c blanks ih =>
    obtain ⟨hspace, hblanks⟩ := List.forall_mem_cons.mp h
    rw [List.cons_append, Transducer.final_cons (step_blanks_blank hspace), List.drop_zero,
      ih hblanks]

/-- Among the blanks that the text begins with there is a spacing character, or there is
nothing but blanks. -/
inductive SpaceAhead (cs : Ctype) : List UInt8 → Prop
  | nil : SpaceAhead cs []
  | space {c : UInt8} {rest : List UInt8} (space : spaceAt cs (c :: rest) = true) :
      SpaceAhead cs (c :: rest)
  | control {c : UInt8} {rest : List UInt8} (control : controlAt cs (c :: rest) = true)
      (further : SpaceAhead cs (rest.drop (charLength cs (c :: rest) - 1))) :
      SpaceAhead cs (c :: rest)

theorem SpaceAhead.append (h : SpaceAhead cs.toCtype text) (hwhole : WholeChars cs.toCtype text)
    (hblank : Blank blanks) : SpaceAhead cs.toCtype (text ++ blanks) := by
  induction h with
  | nil =>
    rw [List.nil_append]
    clear hwhole
    induction blanks with
    | nil => exact .nil
    | cons c blanks ih =>
      obtain ⟨hspace, hblanks⟩ := List.forall_mem_cons.mp hblank
      obtain hspc | hctr := cs.ctype_blank c hspace blanks
      · exact .space hspc
      · refine .control hctr ?_
        rw [charLength_ascii (isspace_ascii hspace)]
        exact ih hblanks
  | @space c rest hspace =>
    cases hwhole with
    | cons alone _ _ => exact .space ((spaceAt_append (alone blanks)).trans hspace)
  | @control c rest hcontrol hfurther ih =>
    cases hwhole with
    | cons alone inside further =>
      have hlength : charLength cs.toCtype (c :: (rest ++ blanks)) =
          charLength cs.toCtype (c :: rest) := by
        rw [charLength, charLength, ← List.cons_append, alone]
      rw [List.cons_append]
      refine .control ((controlAt_append (alone blanks)).trans hcontrol) ?_
      rw [hlength, List.drop_append_of_le_length inside]
      exact ih further

/-- Behind a spacing character the first word of a text is found, as at the beginning. -/
theorem SpaceAhead.run_plain (h : SpaceAhead cs.toCtype text) {kind : ReadingMark}
    (hkind : kind = .token ∨ kind = .marker) :
    offsetsOf kind ((queryReader cs.toCtype).run .plain offset text) =
        offsetsOf kind ((queryReader cs.toCtype).run .blanks offset text) ∧
      ((queryReader cs.toCtype).final .plain text).outside =
        ((queryReader cs.toCtype).final .blanks text).outside := by
  have hblanks : ∀ c rest, spaceAt cs.toCtype (c :: rest) || controlAt cs.toCtype (c :: rest) →
      (queryReader cs.toCtype).step .blanks c rest =
        (.blanks, charLength cs.toCtype (c :: rest) - 1, []) := by
    intro c rest hblank
    simp only [queryReader, hblank, if_true]
  have hspaced : ∀ c rest, spaceAt cs.toCtype (c :: rest) = true →
      (queryReader cs.toCtype).step .plain c rest = (queryReader cs.toCtype).step .blanks c rest := by
    intro c rest hspace
    rw [hblanks c rest (by rw [hspace]; rfl)]
    exact if_pos hspace
  induction h generalizing offset with
  | nil =>
    rw [Transducer.run_nil, Transducer.run_nil, Transducer.final_nil, Transducer.final_nil]
    exact ⟨rfl, rfl⟩
  | @space c rest hspace =>
    rw [Transducer.run_congr (hspaced c rest hspace), Transducer.final_congr (hspaced c rest hspace)]
    exact ⟨rfl, rfl⟩
  | @control c rest hcontrol hfurther ih =>
    by_cases hspace : spaceAt cs.toCtype (c :: rest) = true
    · rw [Transducer.run_congr (hspaced c rest hspace),
        Transducer.final_congr (hspaced c rest hspace)]
      exact ⟨rfl, rfl⟩
    · have hmem : c ∉ syntaxBytes := by
        intro hmem
        obtain ⟨-, hctr⟩ := cs.ctype_syntax c hmem rest
        simp [controlAt, hctr] at hcontrol
      have hplain : (queryReader cs.toCtype).step .plain c rest =
          (.plain, charLength cs.toCtype (c :: rest) - 1, [.last]) :=
        (if_neg hspace).trans (readChar_of_notMem hmem)
      have hblank := hblanks c rest (by rw [hcontrol, Bool.or_true])
      rw [Transducer.run_cons hplain, Transducer.run_cons hblank, Transducer.final_cons hplain,
        Transducer.final_cons hblank, offsetsOf_append, offsetsOf_append]
      obtain ⟨hkinds, houtside⟩ := ih
      refine ⟨?_, houtside⟩
      rw [hkinds]
      congr 1
      obtain rfl | rfl := hkind <;> rfl

/-- A brace is a plain character. -/
theorem readPlain_brace (h : c = 0x7b ∨ c = 0x7d) :
    readPlain cs.toCtype c rest = (.plain, 0, [.last]) := by
  obtain ⟨hspace, -⟩ := cs.ctype_brace c h rest
  have hmem : c ∉ syntaxBytes := by
    obtain rfl | rfl := h <;> decide
  have hascii : c < 0x80 := by
    obtain rfl | rfl := h <;> decide
  rw [readPlain, hspace, if_neg Bool.false_ne_true, readChar_of_notMem hmem, charLength_ascii hascii]

theorem step_blanks_brace (h : c = 0x7b ∨ c = 0x7d) :
    (queryReader cs.toCtype).step .blanks c rest = (.plain, 0, [.token, .last]) := by
  obtain ⟨hspace, hcontrol⟩ := cs.ctype_brace c h rest
  have hplain := @readPlain_brace cs c rest h
  rw [readPlain, hspace, if_neg Bool.false_ne_true] at hplain
  simp only [queryReader, hspace, hcontrol, hplain]
  rfl

/-- The closing brace outside quotes and comments. -/
theorem step_brace (h : c = 0x7b ∨ c = 0x7d) (houtside : s.outside = true) :
    ∃ marks, (queryReader cs.toCtype).step s c rest = (.plain, 0, marks) ∧
      (marks = [.last] ∨ marks = [.token, .last]) := by
  have hquote : c ∉ ansiSyntaxMarkers.quote := by
    obtain rfl | rfl := h <;> decide
  cases s with
  | plain => exact ⟨_, readPlain_brace h, Or.inl rfl⟩
  | blanks => exact ⟨_, step_blanks_brace h, Or.inr rfl⟩
  | closed =>
    refine ⟨[.last], ?_, Or.inl rfl⟩
    simp only [queryReader, if_neg hquote, readPlain_brace h]
  | quoted quote closed => cases houtside
  | escaped quote closed => cases houtside
  | line => cases houtside
  | block => cases houtside

/-- Blanks that begin with a spacing character are read without a mark in plain text, too. -/
theorem run_plain_blank (h : Blank text) (hspace : text = [] ∨ spaceAt cs.toCtype text = true) :
    (queryReader cs.toCtype).run .plain offset text = [] := by
  cases text with
  | nil => exact Transducer.run_nil
  | cons c rest =>
    have hspace' : spaceAt cs.toCtype (c :: rest) = true := hspace.resolve_left (by simp)
    have hstep : (queryReader cs.toCtype).step .plain c rest =
        (queryReader cs.toCtype).step .blanks c rest := by
      simp only [queryReader, readPlain, hspace', Bool.true_or, if_true]
    have hblanks : (queryReader cs.toCtype).run .blanks offset (c :: rest ++ []) =
        (queryReader cs.toCtype).run .blanks (offset + (c :: rest).length) [] :=
      run_blanks_append h
    rw [List.append_nil, Transducer.run_nil] at hblanks
    rw [Transducer.run_congr hstep, hblanks]

end Blanks

end MatrixOdbc.Driver
