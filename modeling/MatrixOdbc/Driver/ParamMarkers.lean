import MatrixOdbc.Driver.Parse
import MatrixOdbc.Foundations.Lexis

/-!
# Parameter markers

Which `?` bytes of a query `parse` takes as parameter markers, against the lexical
reading of the query. The cursor of `tokenize` follows that reading from place to
place, except around the ends of comments: the end of a comment is looked for from
its opening on, and the cursor then stays on it, so that its `/` can begin another
comment.
-/

namespace MatrixOdbc.Driver

open MysqlStrings Lexis

/-- The quotes and comments of SQL. -/
def sqlLexicon : Lexicon UInt8 where
  quotes := [0x27, 0x22, 0x60]
  escape := 0x5c
  lineOpens := [[0x23], [0x2d, 0x2d, 0x20]]
  lineEnd := [0x0a]
  blockOpen := [0x2f, 0x2a]
  blockClose := [0x2a, 0x2f]
  transparentOpen := [0x2f, 0x2a, 0x21]

/-- The offsets of the `?` bytes outside quotes and comments. -/
def markerOffsets (query : List UInt8) : List ℕ :=
  sqlLexicon.marksFrom 0x3f (.plain false) 0 query

/-- The parameter markers of a query are found: in order, and exactly these. -/
def MarkersFound (cs : Ctype) (query : List UInt8) : Prop :=
  (parse cs query).paramPos.Pairwise (· < ·) ∧
    ∀ offset, offset ∈ (parse cs query).paramPos ↔ offset ∈ markerOffsets query

/-- Behind a `/`, the text makes it the opening of a comment. -/
def opensBehindSlash (text : List UInt8) : Bool :=
  [0x2a].isPrefixOf text && !([0x2a, 0x21].isPrefixOf text)

/-- The text begins with the end of a comment, and with it another one seems to open. -/
def reopens (text : List UInt8) : Bool :=
  [0x2a, 0x2f].isPrefixOf text && opensBehindSlash (text.drop 2)

/-- The places where the driver reads a comment differently: a comment that opens as
`/*/`, and the end of a comment that is followed by `*` but not by `*!`. -/
def misread : Context UInt8 → List UInt8 → Bool
  | .plain inside, text => [0x2f, 0x2a, 0x2f].isPrefixOf text || inside && reopens text
  | .block _, text => reopens text
  | _, _ => false

/-- The number of bytes the cursor is moved by at the beginning of a text. -/
def charLength (cs : Ctype) (text : List UInt8) : ℕ :=
  if (cs.ctype text).2.natAbs = 0 then 1 else (cs.ctype text).2.natAbs

/-- The characters of a text, as the cursor moves over them. -/
def chars (cs : Ctype) : List UInt8 → List (List UInt8)
  | [] => []
  | c :: rest =>
    (c :: rest).take (charLength cs (c :: rest)) ::
      chars cs ((c :: rest).drop (charLength cs (c :: rest)))
  termination_by text => text.length
  decreasing_by
    simp only [List.length_drop, List.length_cons, charLength]
    split_ifs <;> omega

/-- No character of several bytes covers an ASCII byte. -/
def Separate (cs : Ctype) (text : List UInt8) : Prop :=
  ∀ char ∈ chars cs text, char.length = 1 ∨ ∀ c ∈ char, ¬ c < 0x80

/-- The reading of a text from an offset on gives these marks, and nothing of it is
misread. -/
def Reads (context : Context UInt8) (marks : List ℕ) (offset : ℕ) (text : List UInt8) : Prop :=
  sqlLexicon.AllPlaces (fun context text => misread context text = false) context text ∧
    sqlLexicon.marksFrom 0x3f context offset text = marks

section Reads

variable {context after : Context UInt8} {marks : List ℕ} {offset skipped : ℕ} {c : UInt8}
  {text rest run : List UInt8} {inside : Bool}

theorem reads_nil : Reads context marks offset [] ↔ marks = [] := by
  rw [Reads, Lexicon.marksFrom_nil, eq_comm]
  exact and_iff_right Lexicon.allPlaces_nil

/-- Nothing is misread at the first place. -/
theorem Reads.safe (h : Reads context marks offset (c :: rest)) :
    misread context (c :: rest) = false := by
  rcases hread : sqlLexicon.read context c rest with ⟨next, skipped⟩
  exact ((Lexicon.allPlaces_cons hread).mp h.1).1

/-- The place behind one that is no mark. -/
theorem Reads.behind (after : Context UInt8) (skipped : ℕ)
    (h : Reads context marks offset (c :: rest))
    (hread : sqlLexicon.read context c rest = (after, skipped))
    (hmark : Lexicon.isMark 0x3f ⟨context, offset, c :: rest⟩ = false) :
    Reads after marks (offset + 1 + skipped) (rest.drop skipped) :=
  ⟨((Lexicon.allPlaces_cons hread).mp h.1).2, by rw [← Lexicon.marksFrom_cons hread hmark, h.2]⟩

/-- The place behind units that stand for themselves. -/
theorem Reads.append (h : Reads context marks offset (run ++ rest))
    (hrun : ∀ c ∈ run, sqlLexicon.Inert context c)
    (hmark : ∀ c ∈ run, Lexicon.isMark 0x3f ⟨context, 0, [c]⟩ = false) :
    Reads context marks (offset + run.length) rest :=
  ⟨h.1.of_append hrun, by rw [← Lexicon.marksFrom_append hrun hmark, h.2]⟩

/-- A mark. -/
theorem Reads.mark (h : Reads (.plain inside) marks offset (0x3f :: rest)) :
    ∃ marks', marks = offset :: marks' ∧ Reads (.plain inside) marks' (offset + 1) rest := by
  have hread : sqlLexicon.read (.plain inside) 0x3f rest = (.plain inside, 0) := by
    simp [Lexicon.read, sqlLexicon, List.isPrefixOf]
  refine ⟨_, h.2.symm.trans (Lexicon.marksFrom_cons_mark hread), ?_, rfl⟩
  exact ((Lexicon.allPlaces_cons hread).mp h.1).2

/-- Before a unit that stands for itself. -/
theorem Reads.before (h : Reads context marks (offset + 1) rest)
    (hread : sqlLexicon.read context c rest = (context, 0))
    (hmark : Lexicon.isMark 0x3f ⟨context, offset, c :: rest⟩ = false)
    (hsafe : misread context (c :: rest) = false) : Reads context marks offset (c :: rest) :=
  ⟨(Lexicon.allPlaces_cons hread).mpr ⟨hsafe, h.1⟩, by
    rw [Lexicon.marksFrom_cons hread hmark]
    exact h.2⟩

/-- The units with a meaning of their own in plain text. -/
def delimiterBytes : List UInt8 := [0x27, 0x22, 0x60, 0x23, 0x2d, 0x2f, 0x2a]

theorem inert_plain (h : c ∉ delimiterBytes) : sqlLexicon.Inert (.plain inside) c := by
  intro rest
  simp only [delimiterBytes, List.mem_cons, List.not_mem_nil, not_or, not_false_eq_true,
    and_true] at h
  obtain ⟨h₁, h₂, h₃, h₄, h₅, h₆, h₇⟩ := h
  simp [Lexicon.read, sqlLexicon, List.isPrefixOf, h₁, h₂, h₃, Ne.symm h₄, Ne.symm h₅,
    Ne.symm h₆, Ne.symm h₇]

theorem inert_quoted {quote : UInt8} (hescape : c ≠ 0x5c) (hquote : c ≠ quote) :
    sqlLexicon.Inert (.quoted inside quote) c := by
  intro rest
  have hescape : c ≠ sqlLexicon.escape := hescape
  simp [Lexicon.read, hescape, hquote]

theorem inert_line (h : c ≠ 0x0a) : sqlLexicon.Inert (.line inside) c := by
  intro rest
  simp [Lexicon.read, sqlLexicon, List.isPrefixOf, Ne.symm h]

theorem inert_block (h : c ≠ 0x2a) : sqlLexicon.Inert (.block inside) c := by
  intro rest
  simp [Lexicon.read, sqlLexicon, List.isPrefixOf, Ne.symm h]

/-- The context is one that the reading of a query can come to. -/
def ContextOk : Context UInt8 → Prop
  | .quoted _ quote => quote ∈ sqlLexicon.quotes
  | _ => True

theorem ne_of_not_ascii {a : UInt8} (h : ¬ c < 0x80) (ha : a < 0x80) : c ≠ a := by
  rintro rfl
  exact h ha

/-- Bytes that are not ASCII stand for themselves. -/
theorem inert_of_not_ascii (hcontext : ContextOk context) (h : ¬ c < 0x80) :
    sqlLexicon.Inert context c := by
  cases context with
  | plain inside =>
    have hall : ∀ a ∈ delimiterBytes, a < 0x80 := List.all_iff_forall_prop.mp (by decide)
    exact inert_plain fun hmem => h (hall c hmem)
  | quoted inside quote =>
    have hall : ∀ a ∈ sqlLexicon.quotes, a < 0x80 := List.all_iff_forall_prop.mp (by decide)
    exact inert_quoted (ne_of_not_ascii h (by decide)) (ne_of_not_ascii h (hall quote hcontext))
  | line inside => exact inert_line (ne_of_not_ascii h (by decide))
  | block inside => exact inert_block (ne_of_not_ascii h (by decide))

/-- A closing quote, with no quote of its kind behind it. -/
theorem Reads.closing {quote : UInt8}
    (h : Reads (.quoted inside quote) marks offset (quote :: rest))
    (hmem : quote ∈ sqlLexicon.quotes) (hhead : rest.head? ≠ some quote) :
    Reads (.plain inside) marks (offset + 1) rest := by
  have hescape : quote ≠ sqlLexicon.escape := by
    rintro rfl
    exact absurd hmem (by decide)
  exact h.behind _ 0 (by simp [Lexicon.read, hescape, hhead]) rfl

/-- A closing quote with a quote of any kind behind it. -/
theorem Reads.reopening {quote other : UInt8}
    (h : Reads (.quoted inside quote) marks offset (quote :: other :: rest))
    (hmem : quote ∈ sqlLexicon.quotes) (hother : other ∈ sqlLexicon.quotes) :
    Reads (.quoted inside other) marks (offset + 1 + 1) rest := by
  by_cases heq : other = quote
  · subst heq
    have hescape : other ≠ sqlLexicon.escape := by
      rintro rfl
      exact absurd hmem (by decide)
    exact h.behind _ 1 (by simp [Lexicon.read, hescape]) rfl
  · have hplain := h.closing hmem (by simpa using heq)
    have hmark : other ≠ 0x3f := by
      rintro rfl
      exact absurd hother (by decide)
    exact hplain.behind _ 0 (by simp [Lexicon.read, hother])
      (by simpa [Lexicon.isMark] using hmark)

theorem isMark_eq_false {place : Place UInt8} (h : place.text.head? ≠ some 0x3f) :
    Lexicon.isMark 0x3f place = false := by
  unfold Lexicon.isMark
  split
  · simpa using h
  · rfl

end Reads

section Cursor

variable (cs : Ctype) (query : List UInt8)

/-- The parser knows the character at the cursor. -/
def CursorFresh (p : MyParser) : Prop :=
  endNotReached query p = true → p.ctype = (cs.ctype (query.drop p.pos)).1 ∧
    p.bytesAtPos = (cs.ctype (query.drop p.pos)).2.natAbs

/-- The parser knows the character at the cursor, and the cursor stands at the
beginning of a character. -/
structure Synced (p : MyParser) : Prop where
  fresh : endNotReached query p = true → p.ctype = (cs.ctype (query.drop p.pos)).1 ∧
    p.bytesAtPos = (cs.ctype (query.drop p.pos)).2.natAbs
  separate : Separate cs (query.drop p.pos)

variable {cs query} {p p' : MyParser} {c : UInt8} {rest : List UInt8} {context : Context UInt8}
  {marks : List ℕ} {inside : Bool}

theorem endNotReached_iff : endNotReached query p = true ↔ p.pos < query.length := by
  simp [endNotReached]

theorem endNotReached_of_drop (h : query.drop p.pos = c :: rest) :
    endNotReached query p = true := by
  rw [endNotReached_iff]
  by_contra hge
  simp [List.drop_eq_nil_of_le (not_lt.mp hge)] at h

theorem exists_drop (h : endNotReached query p = true) :
    ∃ c rest, query.drop p.pos = c :: rest := by
  rw [endNotReached_iff] at h
  exact ⟨_, _, List.drop_eq_getElem_cons h⟩

theorem drop_eq_nil (h : ¬ endNotReached query p = true) : query.drop p.pos = [] := by
  rw [endNotReached_iff] at h
  exact List.drop_eq_nil_of_le (not_lt.mp h)

theorem drop_succ (h : query.drop p.pos = c :: rest) : query.drop (p.pos + 1) = rest := by
  rw [← List.drop_drop, h, List.drop_one, List.tail_cons]

theorem charLength_ascii (h : c < 0x80) : charLength cs (c :: rest) = 1 := by
  simp [charLength, cs.ctype_ascii c rest h]

theorem Separate.drop {text : List UInt8} (h : Separate cs text) :
    Separate cs (text.drop (charLength cs text)) := by
  cases text with
  | nil => simpa using h
  | cons c rest =>
    rw [Separate, chars] at h
    exact fun char hchar => h char (List.mem_cons_of_mem _ hchar)

/-- The number of bytes the cursor is moved by. -/
theorem Synced.charLength (hs : Synced cs query p) (h : endNotReached query p = true) :
    charLength cs (query.drop p.pos) = if p.bytesAtPos = 0 then 1 else p.bytesAtPos := by
  rw [(hs.fresh h).2, Driver.charLength]

theorem stepChar_fresh (h : endNotReached query (stepChar cs query p) = true) :
    (stepChar cs query p).ctype = (cs.ctype (query.drop (stepChar cs query p).pos)).1 ∧
      (stepChar cs query p).bytesAtPos =
        (cs.ctype (query.drop (stepChar cs query p).pos)).2.natAbs := by
  rw [endNotReached_iff, stepChar_pos] at h
  have hmore : endNotReached query
      { p with pos := p.pos + if p.bytesAtPos = 0 then 1 else p.bytesAtPos } = true := by
    rwa [endNotReached_iff]
  rw [stepChar_pos]
  unfold stepChar
  simp [hmore, getCtype]

theorem Synced.stepChar (hs : Synced cs query p) : Synced cs query (stepChar cs query p) := by
  refine ⟨stepChar_fresh, ?_⟩
  by_cases h : endNotReached query p = true
  · rw [stepChar_pos, ← hs.charLength h, ← List.drop_drop]
    exact hs.separate.drop
  · have hlt := lt_stepChar_pos cs query p
    rw [endNotReached_iff] at h
    rw [List.drop_eq_nil_of_le (by omega)]
    simp [Separate, chars]

/-- An ASCII byte is stepped over alone. -/
theorem Synced.stepChar_ascii (hs : Synced cs query p) (htext : query.drop p.pos = c :: rest)
    (hc : c < 0x80) : (Driver.stepChar cs query p).pos = p.pos + 1 := by
  rw [stepChar_pos, ← hs.charLength (endNotReached_of_drop htext), htext, charLength_ascii hc]

/-- Other bytes are stepped over without an ASCII byte among them. -/
theorem Synced.stepChar_run (hs : Synced cs query p) (htext : query.drop p.pos = c :: rest)
    (hc : ¬ c < 0x80) : ∃ run, query.drop p.pos =
        c :: run ++ query.drop (Driver.stepChar cs query p).pos ∧
      (∀ b ∈ c :: run, ¬ b < 0x80) ∧
      (query.drop (Driver.stepChar cs query p).pos ≠ [] →
        (Driver.stepChar cs query p).pos = p.pos + (c :: run).length) := by
  have hmore := endNotReached_of_drop htext
  have hlen := hs.charLength hmore
  have hpos : (Driver.stepChar cs query p).pos =
      p.pos + Driver.charLength cs (query.drop p.pos) := by
    rw [stepChar_pos, hlen]
  have hone : 1 ≤ Driver.charLength cs (query.drop p.pos) := by
    rw [hlen]
    split_ifs <;> omega
  obtain ⟨n, hn⟩ := Nat.exists_eq_add_of_le' hone
  have hchar := hs.separate
  rw [htext, Separate, chars, List.forall_mem_cons, ← htext, hn, htext] at hchar
  rw [hpos, ← List.drop_drop, htext] at *
  rw [hn]
  simp only [List.take_succ_cons, List.drop_succ_cons, List.length_cons] at *
  refine ⟨rest.take n, by rw [List.cons_append, List.take_append_drop], ?_, fun hne => ?_⟩
  · rcases hchar.1 with hone | hall
    · have : rest.take n = [] := List.eq_nil_of_length_eq_zero (by simpa using hone)
      simpa [this] using hc
    · exact hall
  · have : n < rest.length := by
      by_contra hge
      exact hne (List.drop_eq_nil_of_le (not_lt.mp hge))
    rw [List.length_take]
    omega

/-- The cursor steps over a character that stands for itself. -/
theorem Reads.stepChar (h : Reads context marks p.pos (query.drop p.pos)) (hs : Synced cs query p)
    (hmore : endNotReached query p = true) (hcontext : ContextOk context)
    (hinert : ∀ c rest, query.drop p.pos = c :: rest → c < 0x80 →
      sqlLexicon.read context c rest = (context, 0) ∧
        Lexicon.isMark 0x3f ⟨context, p.pos, c :: rest⟩ = false) :
    Reads context marks (Driver.stepChar cs query p).pos
      (query.drop (Driver.stepChar cs query p).pos) := by
  obtain ⟨c, rest, htext⟩ := exists_drop hmore
  by_cases hc : c < 0x80
  · obtain ⟨hread, hmark⟩ := hinert c rest htext hc
    rw [htext] at h
    rw [hs.stepChar_ascii htext hc, drop_succ htext]
    exact h.behind _ _ hread hmark
  · obtain ⟨run, hrun, hhigh, hpos⟩ := hs.stepChar_run htext hc
    rw [hrun] at h
    have hbehind := h.append (fun b hb => inert_of_not_ascii hcontext (hhigh b hb))
      (fun b hb => isMark_eq_false (by simpa using ne_of_not_ascii (hhigh b hb) (by decide)))
    by_cases hend : query.drop (Driver.stepChar cs query p).pos = []
    · rw [hend, reads_nil] at hbehind ⊢
      exact hbehind
    · rwa [← hpos hend] at hbehind

/-- At an ASCII character of its own, the type is that of the byte. -/
theorem charIs_iff (hs : CursorFresh cs query p) (htext : query.drop p.pos = c :: rest) {b : UInt8}
    (hb : b < 0x80) : charIs query p b = true ↔ c = b := by
  simp only [charIs, Bool.and_eq_true, beq_iff_eq, htext, List.head?_cons, Option.some.injEq]
  apply and_iff_right_of_imp
  rintro rfl
  rw [(hs (endNotReached_of_drop htext)).2, htext, cs.ctype_ascii c rest hb]
  rfl

theorem isQuote_eq_some (hs : CursorFresh cs query p) (htext : query.drop p.pos = c :: rest)
    {quote : UInt8} : isQuote query p = some quote ↔ c = quote ∧ c ∈ sqlLexicon.quotes := by
  have hall : ∀ b ∈ sqlLexicon.quotes, b < 0x80 := List.all_iff_forall_prop.mp (by decide)
  constructor
  · intro h
    have hmem : quote ∈ sqlLexicon.quotes := List.mem_of_find?_eq_some h
    have hc := (charIs_iff hs htext (hall quote hmem)).mp (List.find?_some h)
    exact ⟨hc, hc ▸ hmem⟩
  · rintro ⟨rfl, hmem⟩
    have hfind : ∃ b, isQuote query p = some b := by
      rw [← Option.isSome_iff_exists, isQuote, List.find?_isSome]
      exact ⟨c, hmem, (charIs_iff hs htext (hall c hmem)).mpr rfl⟩
    obtain ⟨b, hb⟩ := hfind
    rw [hb, (charIs_iff hs htext (hall b (List.mem_of_find?_eq_some hb))).mp (List.find?_some hb)]

theorem isQuote_eq_none (hs : CursorFresh cs query p) (htext : query.drop p.pos = c :: rest) :
    isQuote query p = none ↔ c ∉ sqlLexicon.quotes := by
  rw [Option.eq_none_iff_forall_ne_some]
  constructor
  · intro h hmem
    exact h c ((isQuote_eq_some hs htext).mpr ⟨rfl, hmem⟩)
  · intro h quote hquote
    exact h ((isQuote_eq_some hs htext).mp hquote).2

/-- A blank or control character is no character of the syntax. -/
theorem notMem_syntaxBytes (hs : CursorFresh cs query p) (htext : query.drop p.pos = c :: rest)
    (hspace : (isSpace p || isSplChar p) = true) : c ∉ syntaxBytes := by
  intro hmem
  have htypes := cs.ctype_syntax c hmem rest
  simp only [isSpace, isSplChar, (hs (endNotReached_of_drop htext)).1, htext,
    Bool.or_eq_true, decide_eq_true_eq] at hspace
  tauto

theorem Reads.stepChar_blank (h : Reads (.plain inside) marks p.pos (query.drop p.pos))
    (hs : Synced cs query p) (hmore : endNotReached query p = true)
    (hspace : (isSpace p || isSplChar p) = true) :
    Reads (.plain inside) marks (Driver.stepChar cs query p).pos
      (query.drop (Driver.stepChar cs query p).pos) := by
  refine h.stepChar hs hmore trivial fun c rest htext _ => ?_
  have hc := notMem_syntaxBytes hs.fresh htext hspace
  have hdelimiter : c ∉ delimiterBytes := fun hmem => hc (by
    have hall : ∀ b ∈ delimiterBytes, b ∈ syntaxBytes :=
      List.all_iff_forall_prop.mp (by decide)
    exact hall c hmem)
  refine ⟨inert_plain hdelimiter rest, isMark_eq_false ?_⟩
  rintro hhead
  obtain rfl : c = 0x3f := by simpa using hhead
  exact hc (by decide)

@[simp] theorem stepChar_paramPos : (stepChar cs query p).paramPos = p.paramPos := by
  unfold stepChar getCtype
  dsimp only
  split_ifs <;> rfl

@[simp] theorem stepChar_quote : (stepChar cs query p).quote = p.quote := by
  unfold stepChar getCtype
  dsimp only
  split_ifs <;> rfl

/-- Blanks are skipped without leaving plain text. -/
theorem skipSpaces_spec (hs : Synced cs query p)
    (h : Reads (.plain inside) marks p.pos (query.drop p.pos)) :
    Synced cs query (skipSpaces cs query p) ∧
      (skipSpaces cs query p).paramPos = p.paramPos ∧ (skipSpaces cs query p).quote = p.quote ∧
      Reads (.plain inside) marks (skipSpaces cs query p).pos
        (query.drop (skipSpaces cs query p).pos) := by
  fun_induction skipSpaces cs query p with
  | case1 p hmore ih =>
    obtain ⟨hsynced, hparams, hquote, hreads⟩ :=
      ih hs.stepChar (h.stepChar_blank hs hmore.1 hmore.2)
    exact ⟨hsynced, by rw [hparams, stepChar_paramPos], by rw [hquote, stepChar_quote], hreads⟩
  | case2 p _ => exact ⟨hs, rfl, rfl, h⟩

/-- At the end of the query there are no more marks. -/
theorem Reads.of_end {other : Context UInt8} (h : Reads context marks p.pos (query.drop p.pos))
    (hend : ¬ endNotReached query p = true) : Reads other marks p'.pos (query.drop p.pos) := by
  rw [drop_eq_nil hend, reads_nil] at *
  exact h

/-- The two characters of an escape sequence are stepped over. -/
theorem Reads.stepChar_escape {quote : UInt8}
    (h : Reads (.quoted inside quote) marks p.pos (query.drop p.pos)) (hs : Synced cs query p)
    (hmem : quote ∈ sqlLexicon.quotes) (hmore : endNotReached query p = true)
    (hescape : isEscape query p = true) :
    Reads (.quoted inside quote) marks (Driver.stepChar cs query (Driver.stepChar cs query p)).pos
      (query.drop (Driver.stepChar cs query (Driver.stepChar cs query p)).pos) := by
  obtain ⟨c, rest, htext⟩ := exists_drop hmore
  obtain rfl := (charIs_iff hs.fresh htext (by decide)).mp hescape
  have hpos := hs.stepChar_ascii htext (by decide)
  have hdrop := drop_succ htext
  have hread : sqlLexicon.read (.quoted inside quote) 0x5c rest = (.quoted inside quote, 1) := rfl
  rw [htext] at h
  have hbehind := h.behind _ _ hread rfl
  cases rest with
  | nil =>
    have hend : query.drop (Driver.stepChar cs query (Driver.stepChar cs query p)).pos = [] := by
      have hlt := lt_stepChar_pos cs query (Driver.stepChar cs query p)
      rw [List.drop_eq_nil_iff] at hdrop ⊢
      omega
    rw [hend]
    rw [List.drop_nil, reads_nil] at hbehind
    rwa [reads_nil]
  | cons d rest =>
    rw [← hpos] at hdrop
    by_cases hd : d < 0x80
    · rw [hs.stepChar.stepChar_ascii hdrop hd, drop_succ hdrop, hpos]
      exact hbehind
    · obtain ⟨run, hrun, hhigh, hend⟩ := hs.stepChar.stepChar_run hdrop hd
      rw [hdrop, List.cons_append, List.cons.injEq] at hrun
      rw [List.drop_one, List.tail_cons, hrun.2] at hbehind
      have hreads := hbehind.append
        (fun b hb => inert_of_not_ascii hmem (hhigh b (List.mem_cons_of_mem _ hb)))
        (fun b hb => rfl)
      by_cases hnil : query.drop (Driver.stepChar cs query (Driver.stepChar cs query p)).pos = []
      · rw [hnil, reads_nil] at hreads ⊢
        exact hreads
      · have hsecond := hend hnil
        rw [hpos, List.length_cons] at hsecond
        have hoffset : (Driver.stepChar cs query (Driver.stepChar cs query p)).pos =
            p.pos + 1 + 1 + run.length := by omega
        rwa [← hoffset] at hreads

theorem getCtype_synced (hs : Synced cs query p) : Synced cs query (getCtype cs query p) := by
  refine ⟨fun hmore => ?_, by simpa using hs.separate⟩
  have hp : endNotReached query p = true := by simpa [endNotReached] using hmore
  simp [getCtype, hp]

@[simp] theorem getCtype_paramPos : (getCtype cs query p).paramPos = p.paramPos := by
  unfold getCtype
  split_ifs <;> rfl

@[simp] theorem getCtype_quote : (getCtype cs query p).quote = p.quote := by
  unfold getCtype
  split_ifs <;> rfl

theorem Synced.of_eq (hs : Synced cs query p) (hpos : p'.pos = p.pos)
    (hbytes : p'.bytesAtPos = p.bytesAtPos) (hctype : p'.ctype = p.ctype) : Synced cs query p' := by
  refine ⟨fun hmore => ?_, by rw [hpos]; exact hs.separate⟩
  rw [hpos, hbytes, hctype]
  exact hs.fresh (by simpa [endNotReached, hpos] using hmore)

theorem getCtype_bytesAtPos (h : ¬ (getCtype cs query p).bytesAtPos = 0) :
    endNotReached query (getCtype cs query p) = true := by
  by_contra hend
  rw [endNotReached_iff, getCtype_pos] at hend
  exact h (by simp [getCtype, endNotReached_iff, hend])

/-- The closing quote is stepped over alone. -/
theorem closing_text {quote : UInt8} (hs : Synced cs query p)
    (hmore : endNotReached query p = true) (hquote : p.quote = some quote) (hc : quote < 0x80)
    (hclosing : isClosingQuote query p = true) :
    ∃ rest, query.drop p.pos = quote :: rest ∧ (stepChar cs query p).pos = p.pos + 1 := by
  obtain ⟨c, rest, htext⟩ := exists_drop hmore
  rw [isClosingQuote, hquote] at hclosing
  obtain rfl := (charIs_iff hs.fresh htext hc).mp hclosing
  exact ⟨rest, htext, hs.stepChar_ascii htext hc⟩

/-- `find_closing_quote` ends in plain text. -/
theorem findClosingQuote_spec {closingQuote : Option ℕ} {quote : UInt8} (hs : Synced cs query p)
    (hquote : p.quote = some quote) (hmem : quote ∈ sqlLexicon.quotes)
    (h : Reads (.quoted inside quote) marks p.pos (query.drop p.pos)) :
    Synced cs query (findClosingQuote cs query closingQuote p).2 ∧
      (findClosingQuote cs query closingQuote p).2.paramPos = p.paramPos ∧
      Reads (.plain inside) marks (findClosingQuote cs query closingQuote p).2.pos
        (query.drop (findClosingQuote cs query closingQuote p).2.pos) := by
  have hall : ∀ b ∈ sqlLexicon.quotes, b < 0x80 := List.all_iff_forall_prop.mp (by decide)
  fun_induction findClosingQuote cs query closingQuote p generalizing quote with
  | case1 closingQuote p hmore hescape ih =>
    obtain ⟨hsynced, hparams, hreads⟩ := ih hs.stepChar.stepChar
      (by rw [stepChar_quote, stepChar_quote, hquote]) hmem (h.stepChar_escape hs hmem hmore hescape)
    exact ⟨hsynced, by rw [hparams, stepChar_paramPos, stepChar_paramPos], hreads⟩
  | case2 closingQuote p hmore _ hclosing next other hother =>
    rename_i ih
    obtain ⟨rest, htext, hpos⟩ := closing_text hs hmore hquote (hall quote hmem) hclosing
    have hpos : next.pos = p.pos + 1 := by rw [getCtype_pos, hpos]
    have hsnext : Synced cs query next := getCtype_synced hs.stepChar
    split_ifs at hother with hbytes
    obtain ⟨d, rest', hd⟩ := exists_drop (getCtype_bytesAtPos hbytes)
    obtain ⟨rfl, hmemd⟩ := (isQuote_eq_some hsnext.fresh hd).mp hother
    have hsopened : Synced cs query (openQuote d next) := hsnext.of_eq rfl rfl rfl
    have hd' : query.drop (openQuote d next).pos = d :: rest' := hd
    have hsecond := hsopened.stepChar_ascii hd' (hall d hmemd)
    have hrest : rest = d :: rest' := by rw [← hd, hpos, drop_succ htext]
    rw [htext, hrest] at h
    obtain ⟨hsynced, hparams, hreads⟩ := ih hsopened.stepChar (by rw [stepChar_quote]; rfl) hmemd
      (by
        rw [hsecond, drop_succ hd', show (openQuote d next).pos = p.pos + 1 from hpos]
        exact h.reopening hmem hmemd)
    refine ⟨hsynced, ?_, hreads⟩
    rw [hparams, stepChar_paramPos]
    show next.paramPos = p.paramPos
    rw [getCtype_paramPos, stepChar_paramPos]
  | case3 closingQuote p hmore _ hclosing next =>
    rename_i hnone
    obtain ⟨rest, htext, hpos⟩ := closing_text hs hmore hquote (hall quote hmem) hclosing
    have hpos : next.pos = p.pos + 1 := by rw [getCtype_pos, hpos]
    have hsnext : Synced cs query next := getCtype_synced hs.stepChar
    have hhead : rest.head? ≠ some quote := by
      intro hhead
      obtain ⟨rest', rfl⟩ : ∃ rest', rest = quote :: rest' := by
        cases rest with
        | nil => simp at hhead
        | cons d rest' => exact ⟨rest', by simpa using hhead⟩
      have hd : query.drop next.pos = quote :: rest' := by rw [hpos, drop_succ htext]
      have hbytes : next.bytesAtPos = 1 := by
        rw [(hsnext.fresh (endNotReached_of_drop hd)).2, hd,
          cs.ctype_ascii quote rest' (hall quote hmem)]
        rfl
      rw [dif_neg (by omega), isQuote_eq_none hsnext.fresh hd] at hnone
      exact hnone hmem
    refine ⟨hsnext, by rw [getCtype_paramPos, stepChar_paramPos], ?_⟩
    rw [htext] at h
    rw [hpos, drop_succ htext]
    exact h.closing hmem hhead
  | case4 closingQuote p hmore hescape hclosing ih =>
    obtain ⟨hsynced, hparams, hreads⟩ := ih hs.stepChar (by rw [stepChar_quote, hquote]) hmem
      (h.stepChar hs hmore hmem fun c rest htext hc => by
        have hc₁ : c ≠ 0x5c := fun heq => hescape ((charIs_iff hs.fresh htext (by decide)).mpr heq)
        have hc₂ : c ≠ quote := fun heq => hclosing (by
          rw [isClosingQuote, hquote]
          exact (charIs_iff hs.fresh htext (hall quote hmem)).mpr heq)
        exact ⟨inert_quoted hc₁ hc₂ rest, rfl⟩)
    exact ⟨hsynced, by rw [hparams, stepChar_paramPos], hreads⟩
  | case5 closingQuote p hend => exact ⟨hs, rfl, h.of_end hend⟩

@[simp] theorem stepChar_comment : (stepChar cs query p).hashComment = p.hashComment ∧
    (stepChar cs query p).dashComment = p.dashComment ∧
    (stepChar cs query p).cStyleComment = p.cStyleComment := by
  unfold stepChar getCtype
  dsimp only
  split_ifs <;> simp

theorem parserCompare_eq (htext : query.drop p.pos = c :: rest) (str : List UInt8) :
    parserCompare query p str = str.isPrefixOf (c :: rest) := by
  rw [parserCompare, htext]

/-- The loop condition of `skip_comment` in a comment of one kind. -/
theorem line_goes_on {hash dash block newline close : Bool} (hline : (hash || dash) = true)
    (hblock : block = false) :
    (hash && !newline || dash && !newline || block && !close) = !newline := by
  subst hblock
  cases hash <;> cases dash <;> simp_all

/-- A comment up to the end of the line is skipped up to the line end. -/
theorem skipComment_line (hs : Synced cs query p) (hline : (p.hashComment || p.dashComment) = true)
    (hblock : p.cStyleComment = false)
    (h : Reads (.line inside) marks p.pos (query.drop p.pos)) :
    Synced cs query (skipComment cs query p) ∧
      (skipComment cs query p).paramPos = p.paramPos ∧ (skipComment cs query p).quote = p.quote ∧
      Reads (.plain inside) marks (skipComment cs query p).pos
        (query.drop (skipComment cs query p).pos) := by
  fun_induction skipComment cs query p with
  | case1 p hmore ih =>
    rw [line_goes_on hline hblock, Bool.not_eq_true'] at hmore
    have hnewline := hmore.2
    obtain ⟨hsynced, hparams, hquote, hreads⟩ := ih hs.stepChar (by simpa using hline)
      (by simpa using hblock)
      (h.stepChar hs hmore.1 trivial fun c rest htext _ =>
        ⟨inert_line (by
          rintro rfl
          simp [parserCompare_eq htext, ansiSyntaxMarkers, List.isPrefixOf] at hnewline) rest, rfl⟩)
    exact ⟨hsynced, by rw [hparams, stepChar_paramPos], by rw [hquote, stepChar_quote], hreads⟩
  | case2 p hstop =>
    refine ⟨hs, rfl, rfl, ?_⟩
    by_cases hmore : endNotReached query p = true
    · rw [line_goes_on hline hblock] at hstop
      have hnewline : parserCompare query p ansiSyntaxMarkers.newLineEnd = true := by
        simpa [hmore] using hstop
      obtain ⟨c, rest, htext⟩ := exists_drop hmore
      rw [parserCompare_eq htext] at hnewline
      obtain rfl : 0x0a = c := by
        simpa [ansiSyntaxMarkers, List.isPrefixOf] using hnewline
      rw [htext] at h ⊢
      have hbehind := h.behind _ 0 rfl rfl
      exact hbehind.before (inert_plain (by decide) rest) rfl (by
        simp [misread, reopens, List.isPrefixOf])
    · exact h.of_end hmore

/-- Where the cursor stands between two iterations, and the marks still to come: in
quoted text, in plain text, or on the end of a comment, `ends`, with plain text
behind it. -/
inductive Resting (query : List UInt8) (marks : List ℕ) (p : MyParser) : Prop where
  | quoted {inside : Bool} {quote : UInt8} : p.quote = some quote → quote ∈ sqlLexicon.quotes →
      Reads (.quoted inside quote) marks p.pos (query.drop p.pos) → Resting query marks p
  | plain {inside : Bool} : p.quote = none →
      Reads (.plain inside) marks p.pos (query.drop p.pos) → Resting query marks p
  | commentEnd {inside : Bool} {ends rest : List UInt8} : p.quote = none →
      ends ∈ [[0x2a, 0x2f], [0x2f]] → query.drop p.pos = ends ++ rest →
      opensBehindSlash rest = false → Reads (.plain inside) marks (p.pos + ends.length) rest →
      Resting query marks p

/-- The cursor stands on the end of a comment. -/
theorem Resting.starSlash {query rest : List UInt8} {marks : List ℕ} {p : MyParser} {inside : Bool}
    (hquote : p.quote = none) (htext : query.drop p.pos = 0x2a :: 0x2f :: rest)
    (hopens : opensBehindSlash rest = false)
    (hreads : Reads (.plain inside) marks (p.pos + 2) rest) : Resting query marks p := by
  have hends : query.drop p.pos = [0x2a, 0x2f] ++ rest := htext
  exact .commentEnd hquote (by decide) hends hopens hreads

/-- The cursor stands on the slash of the end of a comment. -/
theorem Resting.slash {query rest : List UInt8} {marks : List ℕ} {p : MyParser} {inside : Bool}
    (hquote : p.quote = none) (htext : query.drop p.pos = 0x2f :: rest)
    (hopens : opensBehindSlash rest = false)
    (hreads : Reads (.plain inside) marks (p.pos + 1) rest) : Resting query marks p := by
  have hends : query.drop p.pos = [0x2f] ++ rest := htext
  exact .commentEnd hquote (by decide) hends hopens hreads

/-- A `/* .. */` comment is skipped up to its end, where the cursor stays. -/
theorem skipComment_block (hs : Synced cs query p) (hhash : p.hashComment = false)
    (hdash : p.dashComment = false) (hblock : p.cStyleComment = true) (hquote : p.quote = none)
    (h : Reads (.block inside) marks p.pos (query.drop p.pos)) :
    Synced cs query (skipComment cs query p) ∧
      (skipComment cs query p).paramPos = p.paramPos ∧
      Resting query marks (skipComment cs query p) := by
  fun_induction skipComment cs query p with
  | case1 p hmore ih =>
    simp only [hhash, hdash, hblock, Bool.false_and, Bool.true_and, Bool.false_or,
      Bool.not_eq_true'] at hmore
    have hreads : Reads (.block inside) marks (stepChar cs query p).pos
        (query.drop (stepChar cs query p).pos) :=
      h.stepChar hs hmore.1 trivial fun c rest htext _ => by
        have hclose : sqlLexicon.blockClose.isPrefixOf (c :: rest) = false := by
          rw [← parserCompare_eq htext]
          exact hmore.2
        exact ⟨by simp [Lexicon.read, hclose], rfl⟩
    obtain ⟨hsynced, hparams, hresting⟩ := ih hs.stepChar (by simpa using hhash)
      (by simpa using hdash) (by simpa using hblock) (by rw [stepChar_quote, hquote]) hreads
    exact ⟨hsynced, by rw [hparams, stepChar_paramPos], hresting⟩
  | case2 p hstop =>
    refine ⟨hs, rfl, ?_⟩
    by_cases hmore : endNotReached query p = true
    · have hclose : parserCompare query p ansiSyntaxMarkers.cStyleCloseComment = true := by
        simpa [hhash, hdash, hblock, hmore] using hstop
      obtain ⟨rest, htext⟩ := List.isPrefixOf_iff_prefix.mp hclose
      have htext : query.drop p.pos = 0x2a :: 0x2f :: rest := htext.symm
      rw [htext] at h
      have hsafe := h.safe
      simp only [misread, reopens, List.isPrefixOf, Bool.and_eq_false_imp] at hsafe
      exact .starSlash hquote htext (by simpa using hsafe) (h.behind _ 1 rfl rfl)
    · exact .plain hquote (h.of_end hmore : Reads (.plain inside) marks _ _)

variable (cs query) in
/-- The parser has moved on without losing or adding a mark. -/
def Advances (marks : List ℕ) (p p' : MyParser) : Prop :=
  Synced cs query p' ∧ ∃ marks', Resting query marks' p' ∧
    p'.paramPos ++ marks'.map uint = p.paramPos ++ marks.map uint

theorem Advances.of_paramPos (h : Advances cs query marks p p')
    {p₀ : MyParser} (hparams : p.paramPos = p₀.paramPos) : Advances cs query marks p₀ p' := by
  obtain ⟨hs, marks', hresting, hmarks⟩ := h
  exact ⟨hs, marks', hresting, by rw [hmarks, hparams]⟩

@[simp] theorem addToken_fields : (addToken query p).bytesAtPos = p.bytesAtPos ∧
    (addToken query p).ctype = p.ctype ∧ (addToken query p).quote = p.quote ∧
    (addToken query p).paramPos = p.paramPos := by
  unfold addToken
  split_ifs <;> simp

@[simp] theorem isComment_fields : (isComment query p).2.bytesAtPos = p.bytesAtPos ∧
    (isComment query p).2.ctype = p.ctype ∧ (isComment query p).2.quote = p.quote ∧
    (isComment query p).2.paramPos = p.paramPos := by
  unfold isComment
  dsimp only
  split_ifs <;> simp

theorem Synced.addToken (hs : Synced cs query p) : Synced cs query (addToken query p) :=
  hs.of_eq (addToken_pos query p) addToken_fields.1 addToken_fields.2.1

theorem Synced.isComment (hs : Synced cs query p) : Synced cs query (isComment query p).2 :=
  hs.of_eq (isComment_pos query p) isComment_fields.1 isComment_fields.2.1

/-- The rest of a text behind ASCII bytes. -/
theorem Separate.of_append {run rest : List UInt8} (h : Separate cs (run ++ rest))
    (hrun : ∀ b ∈ run, b < 0x80) : Separate cs rest := by
  induction run with
  | nil => exact h
  | cons b run ih =>
    have hdrop := h.drop
    rw [List.cons_append, charLength_ascii (hrun b List.mem_cons_self), List.drop_one,
      List.tail_cons] at hdrop
    exact ih hdrop fun b hb => hrun b (List.mem_cons_of_mem _ hb)

/-- A query separator is stepped over. -/
theorem advances_separator {sep : List UInt8} (hs : Synced cs query p) (hquote : p.quote = none)
    (h : Reads (.plain inside) marks p.pos (query.drop p.pos))
    (hsep : sep ∈ ansiSyntaxMarkers.querySep) (hcompare : parserCompare query p sep = true) :
    Advances cs query marks p
      (addToken query (skipSpaces cs query (getCtype cs query { p with pos := p.pos + sep.length })))
    := by
  have hall : ∀ sep ∈ ansiSyntaxMarkers.querySep, ∀ b ∈ sep,
      b < 0x80 ∧ b ∉ delimiterBytes ∧ b ≠ 0x3f := by
    simp [ansiSyntaxMarkers, delimiterBytes]
  obtain ⟨rest, htext⟩ := List.isPrefixOf_iff_prefix.mp hcompare
  have hrest : query.drop (p.pos + sep.length) = rest := by
    rw [← List.drop_drop, ← htext, List.drop_left]
  rw [← htext] at h
  have hbehind := h.append (fun b hb => inert_plain (hall sep hsep b hb).2.1)
    (fun b hb => isMark_eq_false (by simpa using (hall sep hsep b hb).2.2))
  have hsynced : Synced cs query (getCtype cs query { p with pos := p.pos + sep.length }) := by
    refine ⟨fun hmore => ?_, ?_⟩
    · have hp : endNotReached query { p with pos := p.pos + sep.length } = true := by
        simpa [endNotReached] using hmore
      simp [getCtype, hp]
    · have hseparate := hs.separate
      rw [← htext] at hseparate
      rw [getCtype_pos, hrest]
      exact hseparate.of_append fun b hb => (hall sep hsep b hb).1
  have hreads : Reads (.plain inside) marks (p.pos + sep.length)
      (query.drop (p.pos + sep.length)) := by rwa [hrest]
  obtain ⟨hskipped, hparams, hnone, hplain⟩ := skipSpaces_spec hsynced
    (by simpa only [getCtype_pos] using hreads)
  refine ⟨hskipped.addToken, marks, .plain ?_ (?_ : Reads (.plain inside) marks _ _), ?_⟩
  · rw [addToken_fields.2.2.1, hnone, getCtype_quote]
    exact hquote
  · rwa [addToken_pos]
  · rw [addToken_fields.2.2.2, hparams, getCtype_paramPos]

/-- A quote opens quoted text. -/
theorem advances_quote {quote : UInt8} (hs : Synced cs query p)
    (h : Reads (.plain inside) marks p.pos (query.drop p.pos))
    (hmore : endNotReached query p = true) (hisQuote : isQuote query p = some quote) :
    Advances cs query marks p (stepChar cs query (addToken query (openQuote quote p))) := by
  obtain ⟨c, rest, htext⟩ := exists_drop hmore
  obtain ⟨rfl, hmem⟩ := (isQuote_eq_some hs.fresh htext).mp hisQuote
  have hall : ∀ b ∈ sqlLexicon.quotes, b < 0x80 ∧ b ≠ 0x3f :=
    List.all_iff_forall_prop.mp (by decide)
  have hsopened : Synced cs query (addToken query (openQuote c p)) :=
    Synced.addToken (hs.of_eq rfl rfl rfl)
  have hopened : (addToken query (openQuote c p)).pos = p.pos := addToken_pos query _
  have htext' : query.drop (addToken query (openQuote c p)).pos = c :: rest := by
    rw [hopened, htext]
  rw [htext] at h
  have hbehind := h.behind (.quoted inside c) 0
    (by simp [Lexicon.read, hmem]) (isMark_eq_false (by simpa using (hall c hmem).2))
  refine ⟨hsopened.stepChar, marks,
    .quoted ?_ hmem (?_ : Reads (.quoted inside c) marks _ _), ?_⟩
  · rw [stepChar_quote, addToken_fields.2.2.1]
    rfl
  · rw [hsopened.stepChar_ascii htext' (hall c hmem).1, hopened, drop_succ htext]
    exact hbehind
  · rw [stepChar_paramPos, addToken_fields.2.2.2]
    rfl

/-- A comment begins at the cursor, of one of the two kinds. -/
theorem isComment_true (htext : query.drop p.pos = c :: rest)
    (h : (isComment query p).1 = true) :
    (sqlLexicon.lineOpens.any (·.isPrefixOf (c :: rest)) = true ∧
      ((isComment query p).2.hashComment || (isComment query p).2.dashComment) = true ∧
      (isComment query p).2.cStyleComment = false) ∨
    (sqlLexicon.lineOpens.any (·.isPrefixOf (c :: rest)) = false ∧
      sqlLexicon.transparentOpen.isPrefixOf (c :: rest) = false ∧
      sqlLexicon.blockOpen.isPrefixOf (c :: rest) = true ∧
      (isComment query p).2.hashComment = false ∧ (isComment query p).2.dashComment = false ∧
      (isComment query p).2.cStyleComment = true) := by
  unfold isComment at h ⊢
  simp only [parserCompare, htext, sqlLexicon, ansiSyntaxMarkers, List.any_cons, List.any_nil] at h ⊢
  split_ifs at h ⊢ <;> grind

/-- No comment begins at the cursor. -/
theorem isComment_false (htext : query.drop p.pos = c :: rest)
    (h : (isComment query p).1 = false) :
    sqlLexicon.lineOpens.any (·.isPrefixOf (c :: rest)) = false ∧
      (sqlLexicon.transparentOpen.isPrefixOf (c :: rest) = true ∨
        sqlLexicon.blockOpen.isPrefixOf (c :: rest) = false) := by
  unfold isComment at h
  simp only [parserCompare, htext, sqlLexicon, ansiSyntaxMarkers, List.any_cons, List.any_nil] at h ⊢
  split_ifs at h <;> grind

/-- A comment is skipped. -/
theorem advances_comment (hs : Synced cs query p) (hquote : p.quote = none)
    (h : Reads (.plain inside) marks p.pos (query.drop p.pos))
    (hmore : endNotReached query p = true) (hnone : isQuote query p = none)
    (hcomment : (isComment query p).1 = true) :
    Advances cs query marks p (skipComment cs query (isComment query p).2) := by
  obtain ⟨c, rest, htext⟩ := exists_drop hmore
  have hnotMem := (isQuote_eq_none hs.fresh htext).mp hnone
  have htext' : query.drop (isComment query p).2.pos = c :: rest := by rw [isComment_pos, htext]
  have hquote' : (isComment query p).2.quote = none := by rw [isComment_fields.2.2.1, hquote]
  rw [htext] at h
  rcases isComment_true htext hcomment with ⟨hline, hflags, hblock⟩ |
    ⟨hline, htransparent, hopen, hhash, hdash, hblock⟩
  · have hc : c = 0x23 ∨ c = 0x2d := by
      simp only [sqlLexicon, List.any_cons, List.any_nil, List.isPrefixOf, Bool.or_eq_true,
        Bool.and_eq_true, beq_iff_eq] at hline
      tauto
    have hreads : Reads (.line inside) marks (isComment query p).2.pos
        (query.drop (isComment query p).2.pos) := by
      rw [htext', isComment_pos]
      have hbehind := h.behind (.line inside) 0
        (by simp [Lexicon.read, hnotMem, hline])
        (isMark_eq_false (by rcases hc with rfl | rfl <;> simp))
      exact hbehind.before (inert_line (by rcases hc with rfl | rfl <;> decide) rest) rfl rfl
    obtain ⟨hsynced, hparams, hskipped, hplain⟩ :=
      skipComment_line hs.isComment hflags hblock hreads
    exact ⟨hsynced, marks, .plain (hskipped.trans hquote') hplain, by
      rw [hparams, isComment_fields.2.2.2]⟩
  · obtain ⟨rest', hrest⟩ := List.isPrefixOf_iff_prefix.mp hopen
    obtain ⟨rfl, rfl⟩ : 0x2f = c ∧ 0x2a :: rest' = rest := by simpa [sqlLexicon] using hrest
    have hsafe := h.safe
    have hhead : [0x2f].isPrefixOf rest' = false := by
      simp only [misread, List.isPrefixOf, Bool.or_eq_false_iff] at hsafe
      simpa [List.isPrefixOf] using hsafe.1
    have hreads : Reads (.block inside) marks (isComment query p).2.pos
        (query.drop (isComment query p).2.pos) := by
      rw [htext', isComment_pos]
      have hbehind := h.behind (.block inside) 1
        (by simp only [Lexicon.read, hnotMem, hline, htransparent, hopen, if_false, if_true]; rfl)
        rfl
      have hstar : Reads (.block inside) marks (p.pos + 1) (0x2a :: rest') := by
        refine Reads.before hbehind ?_ rfl ?_
        · simp only [Lexicon.read, sqlLexicon, List.isPrefixOf_cons_cons, hhead, Bool.and_false]
          rfl
        · simp only [misread, reopens, List.isPrefixOf_cons_cons, hhead, Bool.and_false,
            Bool.false_and]
      exact hstar.before (inert_block (by decide) _) rfl rfl
    obtain ⟨hsynced, hparams, hresting⟩ :=
      skipComment_block hs.isComment hhash hdash hblock hquote' hreads
    exact ⟨hsynced, marks, hresting, by rw [hparams, isComment_fields.2.2.2]⟩

/-- A parameter marker is kept and stepped over. -/
theorem advances_marker (hs : Synced cs query p) (hquote : p.quote = none)
    (h : Reads (.plain inside) marks p.pos (query.drop p.pos))
    (hmore : endNotReached query p = true) (hmarker : isParamMarker query p = true) :
    Advances cs query marks p (stepChar cs query (addParameter (isComment query p).2)) := by
  obtain ⟨c, rest, htext⟩ := exists_drop hmore
  obtain rfl := (charIs_iff hs.fresh htext (by decide)).mp hmarker
  have hadded : Synced cs query (addParameter (isComment query p).2) :=
    hs.isComment.of_eq rfl rfl rfl
  have hpos : (addParameter (isComment query p).2).pos = p.pos := isComment_pos query p
  have htext' : query.drop (addParameter (isComment query p).2).pos = 0x3f :: rest := by
    rw [hpos, htext]
    rfl
  rw [htext] at h
  obtain ⟨marks', rfl, hreads⟩ := Reads.mark h
  refine ⟨hadded.stepChar, marks', .plain ?_ (?_ : Reads (.plain inside) marks' _ _), ?_⟩
  · rw [stepChar_quote]
    exact isComment_fields.2.2.1.trans hquote
  · rwa [hadded.stepChar_ascii htext' (by decide), hpos, drop_succ htext]
  · rw [stepChar_paramPos, addParameter]
    simp only [isComment_pos, isComment_fields.2.2.2, List.map_cons, List.append_assoc,
      List.singleton_append]

/-- Every other character of plain text is stepped over. -/
theorem advances_other (hs : Synced cs query p) (hquote : p.quote = none)
    (h : Reads (.plain inside) marks p.pos (query.drop p.pos))
    (hmore : endNotReached query p = true) (hnone : isQuote query p = none)
    (hcomment : (isComment query p).1 = false) (hmarker : isParamMarker query p = false) :
    Advances cs query marks p (stepChar cs query (isComment query p).2) := by
  obtain ⟨c, rest, htext⟩ := exists_drop hmore
  have hpos := isComment_pos query p
  have htext' : query.drop (isComment query p).2.pos = c :: rest := by rw [hpos, htext]
  have hnotMem := (isQuote_eq_none hs.fresh htext).mp hnone
  obtain ⟨hline, hopen⟩ := isComment_false htext hcomment
  have hquote' : (stepChar cs query (isComment query p).2).quote = none := by
    rw [stepChar_quote, isComment_fields.2.2.1, hquote]
  have hparams : (stepChar cs query (isComment query p).2).paramPos = p.paramPos := by
    rw [stepChar_paramPos, isComment_fields.2.2.2]
  refine ⟨hs.isComment.stepChar, marks, ?_, by rw [hparams]⟩
  by_cases hc : c < 0x80
  · have hmark : Lexicon.isMark 0x3f ⟨.plain inside, p.pos, c :: rest⟩ = false := by
      refine isMark_eq_false fun hhead => ?_
      rw [isParamMarker, ← Bool.not_eq_true, charIs_iff hs.fresh htext (by decide)] at hmarker
      have heq : c = 0x3f := by simpa using hhead
      exact hmarker heq
    have hstep : (stepChar cs query (isComment query p).2).pos = p.pos + 1 := by
      rw [hs.isComment.stepChar_ascii htext' hc, hpos]
    have hdrop : query.drop (stepChar cs query (isComment query p).2).pos = rest := by
      rw [hstep, drop_succ htext]
    rw [htext] at h
    by_cases htransparent : sqlLexicon.transparentOpen.isPrefixOf (c :: rest) = true
    · have hbehind := h.behind (.plain true) 0
        (by simp [Lexicon.read, hnotMem, hline, htransparent]) hmark
      refine .plain hquote' (?_ : Reads (.plain true) marks _ _)
      rwa [hstep, drop_succ htext]
    · have hblock := hopen.resolve_left htransparent
      by_cases hclose : (inside && sqlLexicon.blockClose.isPrefixOf (c :: rest)) = true
      · -- the end of a transparent comment: the cursor is moved onto its `/`
        obtain ⟨rfl, hprefix⟩ := Bool.and_eq_true_iff.mp hclose
        obtain ⟨rest', hrest⟩ := List.isPrefixOf_iff_prefix.mp hprefix
        obtain ⟨rfl, rfl⟩ : 0x2a = c ∧ 0x2f :: rest' = rest := by simpa [sqlLexicon] using hrest
        have hsafe := h.safe
        simp only [misread, reopens, List.isPrefixOf, Bool.true_and, Bool.or_eq_false_iff] at hsafe
        have hbehind := h.behind (.plain false) 1
          (by simp only [Lexicon.read, hnotMem, hline, htransparent, hblock, hprefix, if_false,
                Bool.true_and, if_true, Bool.false_eq_true]
              rfl) hmark
        refine .slash hquote' hdrop ?_ (?_ : Reads (.plain false) marks _ _)
        · simpa using hsafe.2
        · rw [hstep]
          exact hbehind
      · have hbehind := h.behind (.plain inside) 0
          (by simp [Lexicon.read, hnotMem, hline, htransparent, hblock, hclose]) hmark
        refine .plain hquote' (?_ : Reads (.plain inside) marks _ _)
        rwa [hstep, drop_succ htext]
  · refine .plain hquote' (?_ : Reads (.plain inside) marks _ _)
    rw [← hpos] at h
    exact h.stepChar hs.isComment (endNotReached_of_drop htext') trivial
      fun d rest' hd hascii => absurd hascii (by
        rw [htext'] at hd
        obtain ⟨rfl, -⟩ := List.cons.inj hd
        exact hc)

theorem charIs_isComment (b : UInt8) : charIs query (isComment query p).2 b = charIs query p b := by
  rw [charIs, charIs, isComment_pos, isComment_fields.1]

/-- What `tokenize` does behind the blanks, in plain text. -/
theorem advances_tokenizeChar (hs : Synced cs query p) (hquote : p.quote = none)
    (h : Reads (.plain inside) marks p.pos (query.drop p.pos))
    (hmore : endNotReached query p = true) : Advances cs query marks p (tokenizeChar cs query p) := by
  have hs' : Synced cs query { p with lastChar := some p.pos } := hs.of_eq rfl rfl rfl
  unfold tokenizeChar isQuerySeparator
  split
  · next next hsep =>
    split at hsep
    · next sep hfind =>
      obtain rfl := Option.some.inj hsep
      exact advances_separator hs hquote h (List.mem_of_find?_eq_some hfind)
        (List.find?_some hfind)
    · simp at hsep
  · dsimp only
    split
    · next quote hisQuote =>
      exact (advances_quote hs' h hmore hisQuote).of_paramPos rfl
    · next hnone =>
      split_ifs with hcomment hmarker
      · exact (advances_comment hs' hquote h hmore hnone hcomment).of_paramPos rfl
      · rw [isParamMarker, charIs_isComment] at hmarker
        exact (advances_marker hs' hquote h hmore hmarker).of_paramPos rfl
      · rw [isParamMarker, charIs_isComment, Bool.not_eq_true] at hmarker
        exact (advances_other hs' hquote h hmore hnone (by simpa using hcomment)
          hmarker).of_paramPos rfl

/-- On the end of a comment the cursor is moved by one byte. -/
theorem tokenizeChar_commentEnd (hs : Synced cs query p) (htext : query.drop p.pos = c :: rest)
    (hc : c = 0x2a ∨ c = 0x2f ∧ opensBehindSlash rest = false) :
    tokenizeChar cs query p =
      stepChar cs query (isComment query { p with lastChar := some p.pos }).2 := by
  have hs' : Synced cs query { p with lastChar := some p.pos } := hs.of_eq rfl rfl rfl
  have hfind : ansiSyntaxMarkers.querySep.find? (parserCompare query p ·) = none := by
    rw [List.find?_eq_none]
    intro sep hsep
    rw [parserCompare_eq htext]
    simp only [ansiSyntaxMarkers, List.mem_cons, List.not_mem_nil, or_false] at hsep
    rcases hsep with rfl | rfl <;> rcases hc with rfl | ⟨rfl, -⟩ <;> simp [List.isPrefixOf]
  have hnone : isQuote query { p with lastChar := some p.pos } = none := by
    rw [isQuote_eq_none hs'.fresh htext]
    rcases hc with rfl | ⟨rfl, -⟩ <;> decide
  have hcomment : (isComment query { p with lastChar := some p.pos }).1 = false := by
    simp only [isComment, parserCompare, htext, ansiSyntaxMarkers, List.isPrefixOf_cons_cons]
    rcases hc with rfl | ⟨rfl, hopens⟩
    · rfl
    · simp only [opensBehindSlash, Bool.and_eq_false_imp, Bool.not_eq_false'] at hopens
      by_cases hstar : [0x2a].isPrefixOf rest = true
      · simp only [hopens hstar]
        rfl
      · rw [Bool.not_eq_true] at hstar
        cases hvar : [0x2a, 0x21].isPrefixOf rest <;> simp only [hstar] <;> rfl
  have hmarker : isParamMarker query (isComment query { p with lastChar := some p.pos }).2 =
      false := by
    rw [isParamMarker, charIs_isComment, ← Bool.not_eq_true, charIs_iff hs'.fresh htext (by decide)]
    rcases hc with rfl | ⟨rfl, -⟩ <;> decide
  simp [tokenizeChar, isQuerySeparator, hfind, hnone, hcomment, hmarker]

/-- An iteration on the end of a comment. -/
theorem tokenizeIteration_commentEnd (hs : Synced cs query p) (hquote : p.quote = none)
    (htext : query.drop p.pos = c :: rest)
    (hc : c = 0x2a ∨ c = 0x2f ∧ opensBehindSlash rest = false) :
    Synced cs query (tokenizeIteration cs query p) ∧
      (tokenizeIteration cs query p).quote = none ∧
      (tokenizeIteration cs query p).paramPos = p.paramPos ∧
      (tokenizeIteration cs query p).pos = p.pos + 1 := by
  have hs' : Synced cs query { p with lastChar := some p.pos } := hs.of_eq rfl rfl rfl
  have hspace : ¬ isSpace p = true := by
    intro hspace
    apply notMem_syntaxBytes hs.fresh htext (by simp [hspace])
    rcases hc with rfl | ⟨rfl, -⟩ <;> decide
  have htext' : query.drop (isComment query { p with lastChar := some p.pos }).2.pos =
      c :: rest := by rw [isComment_pos, htext]
  have hascii : c < 0x80 := by rcases hc with rfl | ⟨rfl, -⟩ <;> decide
  rw [tokenizeIteration, if_neg (by simp [hquote]), if_neg hspace,
    tokenizeChar_commentEnd hs htext hc]
  refine ⟨hs'.isComment.stepChar, ?_, ?_, ?_⟩
  · rw [stepChar_quote, isComment_fields.2.2.1, hquote]
  · rw [stepChar_paramPos, isComment_fields.2.2.2]
  · rw [hs'.isComment.stepChar_ascii htext' hascii, isComment_pos]

/-- One iteration of the loop of `tokenize`. -/
theorem advances_tokenizeIteration (hs : Synced cs query p) (hresting : Resting query marks p)
    (hmore : endNotReached query p = true) :
    Advances cs query marks p (tokenizeIteration cs query p) := by
  cases hresting with
  | @quoted inside quote hquote hmem h =>
    obtain ⟨hsynced, hparams, hreads⟩ :=
      findClosingQuote_spec hs hquote hmem h
    rw [tokenizeIteration, if_pos (by simp [hquote])]
    exact ⟨hsynced.of_eq rfl rfl rfl, marks, .plain rfl hreads,
      congrArg (· ++ marks.map uint) hparams⟩
  | @plain inside hquote h =>
    rw [tokenizeIteration, if_neg (by simp [hquote])]
    split_ifs with hspace
    · have hblank := h.stepChar_blank hs hmore (by simp [hspace])
      obtain ⟨hsynced, hparams, hskipped, hreads⟩ := skipSpaces_spec hs.stepChar hblank
      have hquote' : (skipSpaces cs query (stepChar cs query p)).quote = none := by
        rw [hskipped, stepChar_quote, hquote]
      dsimp only
      split_ifs with hend
      · refine (advances_tokenizeChar hsynced.addToken ?_
          (?_ : Reads (.plain inside) marks _ _) ?_).of_paramPos ?_
        · rw [addToken_fields.2.2.1, hquote']
        · rwa [addToken_pos]
        · simpa [endNotReached] using hend
        · rw [addToken_fields.2.2.2, hparams, stepChar_paramPos]
      · exact ⟨hsynced, marks, .plain hquote' hreads, by rw [hparams, stepChar_paramPos]⟩
    · exact advances_tokenizeChar hs hquote h hmore
  | @commentEnd inside ends rest hquote hends htext hopens h =>
    simp only [List.mem_cons, List.not_mem_nil, or_false] at hends
    rcases hends with rfl | rfl
    · obtain ⟨hsynced, hnone, hparams, hpos⟩ :=
        tokenizeIteration_commentEnd hs hquote htext (.inl rfl)
      refine ⟨hsynced, marks, .slash hnone ?_ hopens
        (?_ : Reads (.plain inside) marks _ _), by
        rw [hparams]⟩
      · rw [hpos, drop_succ htext]
        rfl
      · rwa [hpos]
    · obtain ⟨hsynced, hnone, hparams, hpos⟩ :=
        tokenizeIteration_commentEnd hs hquote htext (.inr ⟨rfl, hopens⟩)
      exact ⟨hsynced, marks, .plain hnone (by rwa [hpos, drop_succ htext]), by rw [hparams]⟩

/-- A whole run of `tokenize`. -/
theorem tokenizeLoop_paramPos (hs : Synced cs query p) (hresting : Resting query marks p) :
    (tokenizeLoop cs query p).paramPos = p.paramPos ++ marks.map uint := by
  fun_induction tokenizeLoop cs query p generalizing marks with
  | case1 p hmore ih =>
    obtain ⟨hsynced, marks', hresting', hmarks⟩ := advances_tokenizeIteration hs hresting hmore
    rw [ih hsynced hresting', hmarks]
  | case2 p hend =>
    have hnil : marks = [] := by
      cases hresting with
      | quoted _ _ h => rwa [drop_eq_nil hend, reads_nil] at h
      | plain _ h => rwa [drop_eq_nil hend, reads_nil] at h
      | commentEnd _ hends htext _ _ =>
        rw [drop_eq_nil hend] at htext
        obtain ⟨rfl, -⟩ := List.append_eq_nil_iff.mp htext.symm
        exact absurd hends (by decide)
    rw [hnil, List.map_nil, List.append_nil]

end Cursor

theorem removeBraces_paramPos (cs : Ctype) (query : List UInt8) (p : MyParser) :
    (removeBraces cs query p).2.paramPos = p.paramPos := by
  unfold removeBraces
  split
  · split_ifs <;> simp
  · rfl

/-- Nothing in the reading of the query is misread, no character covers an ASCII byte,
and every offset is an `uint`. -/
structure ReadSafely (cs : Ctype) (query : List UInt8) : Prop where
  comments : sqlLexicon.AllPlaces (fun context text => misread context text = false)
    (.plain false) query
  separate : Separate cs query
  length : query.length ≤ 2 ^ 32

theorem initParser_synced {cs : Ctype} {query : List UInt8} (h : Separate cs query) :
    Synced cs query (initParser cs query) := by
  refine ⟨fun hmore => ?_, by simpa [initParser] using h⟩
  have hlt : 0 < query.length := by simpa [initParser, endNotReached] using hmore
  simp [initParser, getCtype, endNotReached, hlt]

theorem parse_paramPos {cs : Ctype} {query : List UInt8} (h : ReadSafely cs query) :
    (parse cs query).paramPos = markerOffsets query := by
  have hreads : Reads (.plain false) (markerOffsets query) (initParser cs query).pos
      (query.drop (initParser cs query).pos) := by
    simpa [initParser, Reads] using ⟨h.comments, rfl⟩
  obtain ⟨hsynced, hparams, hquote, hplain⟩ :=
    skipSpaces_spec (initParser_synced h.separate) hreads
  have hnone : (addToken query (skipSpaces cs query (initParser cs query))).quote = none := by
    rw [addToken_fields.2.2.1, hquote, initParser, getCtype_quote]
  have hnil : (addToken query (skipSpaces cs query (initParser cs query))).paramPos = [] := by
    rw [addToken_fields.2.2.2, hparams, initParser, getCtype_paramPos]
  have hloop := tokenizeLoop_paramPos hsynced.addToken
    (.plain hnone (by rw [addToken_pos]; exact hplain))
  calc (parse cs query).paramPos
      = (tokenize cs query).paramPos := removeBraces_paramPos cs query _
    _ = (markerOffsets query).map uint := by rw [tokenize, hloop, hnil, List.nil_append]
    _ = markerOffsets query := by
      refine (List.map_congr_left fun offset hoffset => ?_).trans (List.map_id _)
      have hlt := Lexicon.lt_of_mem_marksFrom hoffset
      exact uint_eq_self (lt_of_lt_of_le (by omega) h.length)

/-- `parse` finds the parameter markers of every query that is read safely. -/
theorem parse_markersFound (cs : Ctype) (query : List UInt8) (h : ReadSafely cs query) :
    MarkersFound cs query := by
  rw [MarkersFound, parse_paramPos h]
  exact ⟨Lexicon.marksFrom_sorted, fun _ => Iff.rfl⟩

instance (cs : Ctype) (text : List UInt8) : Decidable (Separate cs text) :=
  decidable_of_iff
    ((chars cs text).all (fun char => char.length = 1 || char.all fun c => ¬ c < 0x80) = true)
    (by simp [Separate])

/-- `'?'?/*?*/?# ?`. -/
def markedQuery : List UInt8 :=
  [0x27, 0x3f, 0x27, 0x3f, 0x2f, 0x2a, 0x3f, 0x2a, 0x2f, 0x3f, 0x23, 0x20, 0x3f]

/-- Two of the five `?` of `'?'?/*?*/?# ?` are markers. -/
theorem parse_markersFound_markedQuery :
    MarkersFound ctypeLatin1 markedQuery ∧ markerOffsets markedQuery = [3, 9] :=
  ⟨parse_markersFound ctypeLatin1 markedQuery
    ⟨show ∀ place ∈ _, _ from by decide +kernel, by decide +kernel, by decide⟩,
    by decide +kernel⟩

/-- `SELECT 1/*c*/*?`. -/
def reopeningQuery : List UInt8 :=
  [0x53, 0x45, 0x4c, 0x45, 0x43, 0x54, 0x20, 0x31, 0x2f, 0x2a, 0x63, 0x2a, 0x2f, 0x2a, 0x3f]

/-- The `/` that ends the comment is taken for the opening of another one, and the marker
behind it is lost. -/
theorem parse_reopeningQuery_not_markersFound : ¬ MarkersFound ctypeLatin1 reopeningQuery := by
  rintro ⟨-, h⟩
  have hmarker : 14 ∈ markerOffsets reopeningQuery := by decide +kernel
  have hlost : (parse ctypeLatin1 reopeningQuery).paramPos = [] := by decide +kernel
  rw [← h 14, hlost] at hmarker
  exact absurd hmarker List.not_mem_nil

end MatrixOdbc.Driver
