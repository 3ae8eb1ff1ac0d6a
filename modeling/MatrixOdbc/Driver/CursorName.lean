import Mathlib.Data.List.TakeWhile
import MatrixOdbc.Driver.CatalogCondition
import MatrixOdbc.Driver.Positioned
import MatrixOdbc.Driver.WordReading
import MatrixOdbc.Foundations.QuotedText

/-!
# The name of the cursor

`get_cursor_name` of a query that ends in `WHERE CURRENT OF` and a name, and what
`check_if_positioned_cursor_exists` makes of it. The clause is looked for among the last four
tokens, and the name is compared with all that is behind the third of them. So the name has
to be plain and the end of the text.
-/

namespace MatrixOdbc.Driver

open MysqlStrings MatrixOdbc.Foundations

/-- How a name between quotes is read: a quote is written twice or behind a backslash. -/
def cursorNameDialect (cs : Ctype) (quote : UInt8) : QuotedText.Dialect UInt8 where
  multi text := if charLength cs text = 1 then 0 else charLength cs text
  quote := quote
  escape := some ansiSyntaxMarkers.escape
  unescape c := [c]
  allowed _ := True

/-- The name of a cursor as it is written. -/
inductive WrittenName where
  | plain (name : List UInt8)
  | quoted (quote : UInt8) (body name : List UInt8)

namespace WrittenName

/-- The text. -/
def text : WrittenName → List UInt8
  | plain name => name
  | quoted quote body _ => quote :: (body ++ [quote])

/-- The name without its quotes. -/
def value : WrittenName → List UInt8
  | plain name => name
  | quoted _ _ name => name

/-- A plain name is a word, and a quoted one is read as the name. -/
def Valid (cs : Ctype) : WrittenName → Prop
  | plain name => Word cs name
  | quoted quote body name => quote ∈ ansiSyntaxMarkers.quote ∧
      QuotedText.Reads (cursorNameDialect cs quote) (body ++ [quote]) name []

/-- The name has no quotes. -/
def IsPlain : WrittenName → Prop
  | plain _ => True
  | quoted _ _ _ => False

theorem text_of_isPlain {name : WrittenName} (h : name.IsPlain) : name.text = name.value := by
  cases name with
  | plain name => rfl
  | quoted quote body name => exact absurd h id

end WrittenName

/-- Blanks, with a separator or a closing brace between them. -/
def IsTail (tail : List UInt8) : Prop :=
  ∃ before closer behind, tail = before ++ (closer ++ behind) ∧ Blank before ∧ Blank behind ∧
    closer ∈ [[], [0x3b], [0x5c, 0x67], [0x7d]]

/-- The parts of a query that ends in `WHERE CURRENT OF` and a name: the text before the
clause, the words, the blanks before and behind each of them, the name and what is behind it. -/
structure ClauseText where
  before : List UInt8
  sep : List UInt8
  whereWord : List UInt8
  whereGap : List UInt8
  currentWord : List UInt8
  currentGap : List UInt8
  ofWord : List UInt8
  ofGap : List UInt8
  name : WrittenName
  tail : List UInt8

namespace ClauseText

variable (q : ClauseText)

/-- The text in front of the clause, with the blanks. -/
def front : List UInt8 := q.before ++ q.sep

/-- The text from the name on. -/
def nameText : List UInt8 := q.name.text ++ q.tail

/-- The query. -/
def text : List UInt8 :=
  q.front ++ (q.whereWord ++ (q.whereGap ++ (q.currentWord ++ (q.currentGap ++
    (q.ofWord ++ (q.ofGap ++ q.nameText))))))

/-- Where the words begin. -/
def wherePos : ℕ := q.front.length

@[inherit_doc wherePos] def currentPos : ℕ := q.wherePos + q.whereWord.length + q.whereGap.length

@[inherit_doc wherePos] def ofPos : ℕ := q.currentPos + q.currentWord.length + q.currentGap.length

/-- Where the name begins. -/
def namePos : ℕ := q.ofPos + q.ofWord.length + q.ofGap.length

end ClauseText

/-- A query that ends in `WHERE CURRENT OF` and a name: the words are in any case, quoted texts
and comments in front of the clause are complete, and there are blanks between the words, but
perhaps not in front of a quoted name. -/
structure PositionedQuery (cs : Ctype) extends ClauseText where
  whole : WholeChars cs before
  sep_blank : Blank sep
  trimmed : ∀ c ∈ before.getLast?, isspace c = false
  outside : ((queryReader cs).final .blanks (before ++ sep)).outside = true
  where_eq : IsKeyword ['W', 'H', 'E', 'R', 'E'] whereWord
  current_eq : IsKeyword ['C', 'U', 'R', 'R', 'E', 'N', 'T'] currentWord
  of_eq : IsKeyword ['O', 'F'] ofWord
  whereGap_blank : Blank whereGap ∧ whereGap ≠ []
  currentGap_blank : Blank currentGap ∧ currentGap ≠ []
  ofGap_blank : Blank ofGap ∧ (name.IsPlain → ofGap ≠ [])
  valid : name.Valid cs
  named : name.value ≠ []
  nonzero : 0 ∉ name.text
  tail_eq : IsTail tail

/-- The query as it is parsed. -/
def parsedQuery (cs : Ctype) (text : List UInt8) : ParsedQuery :=
  ParsedQuery.parse cs (ParsedQuery.reset text)

/-- The clause is honoured: the offsets of the tokens strictly increase, the clause is found, the
chopped statement is the text before it up to blanks, and among any statements the cursor
with the name is selected. -/
structure PositionedQuery.Honoured {cs : Ctype} (q : PositionedQuery cs) : Prop where
  increasing : (parsedQuery cs q.text).token2.Pairwise (· < ·)
  found : ∀ stmtList, ∃ c, checkIfPositionedCursorExists stmtList (parsedQuery cs q.text) = some c ∧
    (∃ blanks, Blank blanks ∧ cString (chop c.cursorPos (parsedQuery cs q.text)).query 0 =
      (parsedQuery cs q.text).query.take q.before.length ++ blanks) ∧
    (if c.found then c.cursor else none) = stmtList.find? fun stmt =>
      stmt.hasResult && stmt.name ≠ [] && strcaseEq stmt.name q.name.value

/-- The name is plain and the end of the text, there are blanks in front of the clause and a word
in front of them, no terminator, and no quoted text behind blanks. -/
structure PositionedQuery.PlainClause {cs : Ctype} (q : PositionedQuery cs) : Prop where
  plain : q.name.IsPlain
  tail_nil : q.tail = []
  sep_ne : q.sep ≠ []
  nonzero : 0 ∉ q.before
  word : offsetsOf .token (readingOf cs q.front) ≠ []
  unquoted : ¬ QuoteBehindBlanks cs q.front

/-- The last four words begin with `WHERE`, `CURRENT`, `OF` and anything, and there is a word in
front of them. The braces around a text are no words. -/
def TakenAsPositioned (cs : Ctype) (text : List UInt8) : Prop :=
  ∃ front w c o n behind,
    offsetsOf .token (readingOf cs text) = front ++ ([w, c, o, n] ++ behind) ∧
    caseCompare text (some w) ['W', 'H', 'E', 'R', 'E'] ∧
    caseCompare text (some c) ['C', 'U', 'R', 'R', 'E', 'N', 'T'] ∧
    caseCompare text (some o) ['O', 'F'] ∧
    ((¬ InBraces cs text ∧ front ≠ [] ∧ behind = []) ∨
      (InBraces cs text ∧ 2 ≤ front.length ∧
        ∃ last, lastOf none (readingOf cs text) = some last ∧
          (behind = [last] ∨ behind = [] ∧ n ≠ last)))

section Lookup

variable {pq : ParsedQuery} {off : ℕ}

/-- The clause is found if the last four of at least five tokens begin with its words. -/
theorem getCursorName_eq_some_iff : pq.getCursorName = some off ↔
    ∃ front w c o, pq.token2 = front ++ [w, c, o, off] ∧ front ≠ [] ∧
      caseCompare pq.query (some w) ['W', 'H', 'E', 'R', 'E'] ∧
      caseCompare pq.query (some c) ['C', 'U', 'R', 'R', 'E', 'N', 'T'] ∧
      caseCompare pq.query (some o) ['O', 'F'] := by
  have hlast : ∀ (front : List ℕ) (w c o n : ℕ), pq.token2 = front ++ [w, c, o, n] →
      pq.tokenFromEnd 4 = some w ∧ pq.tokenFromEnd 3 = some c ∧ pq.tokenFromEnd 2 = some o ∧
        pq.tokenFromEnd 1 = some n := by
    intro front w c o n htokens
    simp [ParsedQuery.tokenFromEnd, htokens]
  constructor
  · intro h
    rw [ParsedQuery.getCursorName] at h
    split_ifs at h with hclause
    obtain ⟨hlength, hwhere, hcurrent, hof⟩ := hclause
    have hfour : (pq.token2.drop (pq.token2.length - 4)).length = 4 := by
      rw [List.length_drop]
      omega
    obtain ⟨w, c, o, n, hdrop⟩ : ∃ w c o n,
        pq.token2.drop (pq.token2.length - 4) = [w, c, o, n] := by
      obtain ⟨w, behind, hw⟩ := List.exists_of_length_succ _ hfour
      rw [hw, List.length_cons, Nat.succ_inj] at hfour
      obtain ⟨c, behind, rfl⟩ := List.exists_of_length_succ _ hfour
      rw [List.length_cons, Nat.succ_inj] at hfour
      obtain ⟨o, behind, rfl⟩ := List.exists_of_length_succ _ hfour
      rw [List.length_cons, Nat.succ_inj] at hfour
      obtain ⟨n, rfl⟩ := List.length_eq_one_iff.mp hfour
      exact ⟨w, c, o, n, hw⟩
    have htokens : pq.token2 = pq.token2.take (pq.token2.length - 4) ++ [w, c, o, n] := by
      rw [← hdrop, List.take_append_drop]
    obtain ⟨hw, hc, ho, hn⟩ := hlast _ w c o n htokens
    rw [hw] at hwhere
    rw [hc] at hcurrent
    rw [ho] at hof
    obtain rfl : n = off := Option.some_inj.mp (hn.symm.trans h)
    refine ⟨_, w, c, o, htokens, ?_, hwhere, hcurrent, hof⟩
    intro hnil
    have := congrArg List.length hnil
    rw [List.length_take, List.length_nil] at this
    omega
  · rintro ⟨front, w, c, o, htokens, hfront, hwhere, hcurrent, hof⟩
    obtain ⟨hw, hc, ho, hn⟩ := hlast front w c o off htokens
    have hlength : 4 < pq.token2.length := by
      have hpos := List.length_pos_iff.mpr hfront
      rw [htokens, List.length_append]
      simp only [List.length_cons, List.length_nil]
      omega
    rw [ParsedQuery.getCursorName, hw, hc, ho, if_pos ⟨hlength, hwhere, hcurrent, hof⟩, hn]

/-- What is looked up: the place in front of the clause, and the first cursor whose name is the
text behind it. -/
theorem checkIfPositionedCursorExists_eq {front : List ℕ} {w x y : ℕ} (stmtList : List CursorStmt)
    (hname : pq.getCursorName = some off) (htokens : pq.token2 = front ++ [w, x, y, off]) :
    ∃ c, checkIfPositionedCursorExists stmtList pq = some c ∧ c.cursorPos = w - 1 ∧
      (if c.found then c.cursor else none) = stmtList.find? fun stmt =>
        stmt.hasResult && stmt.name ≠ [] && strcaseEq stmt.name (cString pq.query off) := by
  have hw : pq.tokenFromEnd 4 = some w := by
    simp [ParsedQuery.tokenFromEnd, htokens]
  rw [checkIfPositionedCursorExists, hname, Option.map_some, hw, Option.getD_some]
  refine ⟨_, rfl, ?_⟩
  cases hfind : stmtList.find? fun stmt =>
      stmt.hasResult && stmt.name ≠ [] && strcaseEq stmt.name (cString pq.query off) with
  | some cursor => exact ⟨rfl, rfl⟩
  | none => exact ⟨rfl, rfl⟩

end Lookup

section Parsed

variable {cs : ClauseCtype} {text : List UInt8}

/-- The query is parsed as it is read, or it is in braces: then they are blanks, and their tokens
are gone. -/
theorem parsedQuery_cases (cs : ClauseCtype) (hlength : text.length ≤ 2 ^ 32) :
    (¬ InBraces cs.toCtype text ∧ (parsedQuery cs.toCtype text).query = text ∧
      (parsedQuery cs.toCtype text).token2 = offsetsOf .token (readingOf cs.toCtype text)) ∨
    InBraces cs.toCtype text ∧ ∃ first last tokens,
      offsetsOf .token (readingOf cs.toCtype text) = first :: tokens ∧
      lastOf none (readingOf cs.toCtype text) = some last ∧
      text[first]? = some 0x7b ∧ text[last]? = some 0x7d ∧
      (parsedQuery cs.toCtype text).query = (text.set first 0x20).set last 0x20 ∧
      (parsedQuery cs.toCtype text).token2 =
        if tokens.getLast? = some last then tokens.dropLast else tokens := by
  obtain ⟨htoken2, -, hlastChar⟩ := tokenize_reading cs.toCtype text
  rw [map_uint fun offset hoffset => (offsetsOf_inside hoffset).trans_le hlength] at htoken2
  by_cases hbraces : InBraces cs.toCtype text
  · right
    refine ⟨hbraces, ?_⟩
    obtain ⟨first, last, hfirst, hlast, hopen, hclose⟩ := hbraces
    obtain ⟨tokens, htokens⟩ : ∃ tokens,
        offsetsOf .token (readingOf cs.toCtype text) = first :: tokens :=
      List.head?_eq_some_iff.mp hfirst
    have hne : first ≠ last := by
      rintro rfl
      rw [hopen] at hclose
      exact absurd hclose (by decide)
    have hinside : first < text.length := (List.getElem?_eq_some_iff.mp hopen).1
    have hblank : ((text.set first 0x20).set last 0x20).drop first =
        0x20 :: ((text.set first 0x20).set last 0x20).drop (first + 1) := by
      rw [List.drop_eq_getElem_cons (by simpa using hinside),
        List.getElem_set_of_ne (Ne.symm hne), List.getElem_set_self]
    have hspace : ∀ p : MyParser, p.pos = first →
        isSpace (getCtype cs.toCtype ((text.set first 0x20).set last 0x20) p) = true := by
      intro p hp
      have hfresh : CursorFresh cs.toCtype ((text.set first 0x20).set last 0x20)
        (getCtype cs.toCtype ((text.set first 0x20).set last 0x20) p) := fresh_getCtype
      rw [hfresh.isSpace_eq (by rw [getCtype_pos, hp]; exact hblank)]
      exact cs.ctype_space _
    have hremoved : (removeBraces cs.toCtype text (tokenize cs.toCtype text)).1 =
          (text.set first 0x20).set last 0x20 ∧
        (removeBraces cs.toCtype text (tokenize cs.toCtype text)).2.token2 =
          if tokens.getLast? = some last then tokens.dropLast else tokens := by
      have htoken : getToken (tokenize cs.toCtype text).token2 0 = some first := by
        rw [htoken2, htokens]
        rfl
      unfold removeBraces
      rw [htoken, hlastChar, hlast]
      dsimp only
      rw [if_pos ⟨hopen, hclose⟩]
      refine ⟨rfl, ?_⟩
      dsimp only
      rw [if_pos (hspace _ rfl), getCtype_token2]
      dsimp only
      rw [htoken2, htokens, List.drop_one, List.tail_cons]
    exact ⟨first, last, tokens, htokens, hlast, hopen, hclose, hremoved.1, hremoved.2⟩
  · left
    have hremoved := removeBraces_of_unbraced hbraces hlength
    refine ⟨hbraces, congrArg Prod.fst hremoved, ?_⟩
    rw [← htoken2]
    exact congrArg (fun r => MyParser.token2 r.2) hremoved

/-- The tokens are some of those that are read, but for one in front and a closing brace. -/
theorem parsedQuery_tokens (cs : ClauseCtype) (hlength : text.length ≤ 2 ^ 32) :
    ∃ front behind, offsetsOf .token (readingOf cs.toCtype text) =
      front ++ ((parsedQuery cs.toCtype text).token2 ++ behind) ∧
        ∀ last ∈ behind, behind = [last] ∧ text[last]? = some 0x7d := by
  obtain ⟨-, -, htokens⟩ | ⟨-, first, last, tokens, hread, -, -, hclose, -, htokens⟩ :=
    parsedQuery_cases cs hlength
  · exact ⟨[], [], by simp [htokens], by simp⟩
  · rw [hread, htokens]
    split_ifs with hlast
    · refine ⟨[first], [last], ?_, ?_⟩
      · obtain ⟨front, hfront⟩ := List.getLast?_eq_some_iff.mp hlast
        rw [hfront, List.dropLast_concat]
        rfl
      · intro b hb
        obtain rfl := List.mem_singleton.mp hb
        exact ⟨rfl, hclose⟩
    · exact ⟨[first], [], by simp, by simp⟩

/-- The text is kept, but for braces that are blanks. -/
theorem parsedQuery_getElem? (cs : ClauseCtype) (hlength : text.length ≤ 2 ^ 32) (i : ℕ) :
    (parsedQuery cs.toCtype text).query[i]? = text[i]? ∨
      (parsedQuery cs.toCtype text).query[i]? = some 0x20 ∧
        (text[i]? = some 0x7b ∨ text[i]? = some 0x7d) := by
  obtain ⟨-, hquery, -⟩ | ⟨-, first, last, -, -, -, hopen, hclose, hquery, -⟩ :=
    parsedQuery_cases cs hlength
  · exact Or.inl (by rw [hquery])
  · rw [hquery]
    have hfirst := (List.getElem?_eq_some_iff.mp hopen).1
    have hlast := (List.getElem?_eq_some_iff.mp hclose).1
    by_cases hi : i = last
    · subst hi
      exact Or.inr ⟨by simp [hlast], Or.inr hclose⟩
    · rw [List.getElem?_set_ne (Ne.symm hi)]
      by_cases hi' : i = first
      · subst hi'
        exact Or.inr ⟨by simp [hfirst], Or.inl hopen⟩
      · exact Or.inl (List.getElem?_set_ne (Ne.symm hi'))

theorem length_parsedQuery (cs : ClauseCtype) :
    (parsedQuery cs.toCtype text).query.length = text.length := length_removeBraces

/-- No terminator is gained or lost. -/
theorem parsedQuery_zero (cs : ClauseCtype) (hlength : text.length ≤ 2 ^ 32) (i : ℕ) :
    (parsedQuery cs.toCtype text).query[i]? = some 0 ↔ text[i]? = some 0 := by
  obtain hsame | ⟨hblank, hbrace | hbrace⟩ := parsedQuery_getElem? cs hlength i
  · rw [hsame]
  · rw [hblank, hbrace]
    exact iff_of_false (by decide) (by decide)
  · rw [hblank, hbrace]
    exact iff_of_false (by decide) (by decide)

end Parsed

section Clause

variable {cs : ClauseCtype} (q : PositionedQuery cs.toCtype)

theorem PositionedQuery.words : Word cs.toCtype q.whereWord ∧ Word cs.toCtype q.currentWord ∧
    Word cs.toCtype q.ofWord :=
  ⟨Word.of_letters (q.where_eq.letters (by decide)),
    Word.of_letters (q.current_eq.letters (by decide)),
    Word.of_letters (q.of_eq.letters (by decide))⟩

/-- Every keyword has a character. -/
theorem IsKeyword.ne_nil {k : Char} {keyword : List Char} {text : List UInt8}
    (h : IsKeyword (k :: keyword) text) : text ≠ [] := by
  rintro rfl
  simpa using h.length_eq

/-- What is in front of the clause is read alike without it. -/
theorem PositionedQuery.isLocal_front (behind : List UInt8) :
    (queryReader cs.toCtype).Local (q.whereWord ++ behind) .blanks q.front := by
  obtain ⟨c, word, hword⟩ := List.exists_cons_of_ne_nil q.where_eq.ne_nil
  have hcapital : toupper c = 0x57 := by
    have hkeyword := q.where_eq
    rw [IsKeyword, hword] at hkeyword
    exact (List.cons.inj hkeyword).1
  have hne : c ∉ 0x20 :: closingBytes := by
    intro hmem
    simp only [closingBytes, List.mem_cons, List.not_mem_nil, or_false] at hmem
    obtain rfl | rfl | rfl | rfl | rfl | rfl := hmem <;> exact absurd hcapital (by decide)
  have hwhole : WholeChars cs.toCtype q.front := q.whole.append q.sep_blank.wholeChars
  rw [hword]
  refine hwhole.isLocal ?_ ?_ .blanks
  · rintro b hb hmem
    obtain rfl : c = b := by simpa using hb
    exact hne (List.mem_cons_of_mem _ hmem)
  · rintro hb
    obtain rfl : c = 0x20 := by simpa using hb
    exact hne List.mem_cons_self

/-- The reading behind the front. -/
def PositionedQuery.frontState : ReadingState := (queryReader cs.toCtype).final .blanks q.front

/-- The marks of the text: those of the front, of the three words, and of what is behind them. -/
theorem PositionedQuery.readingOf_text : readingOf cs.toCtype q.text =
    readingOf cs.toCtype q.front ++
      ((queryReader cs.toCtype).run q.frontState q.wherePos q.whereWord ++
        ((queryReader cs.toCtype).run .blanks q.currentPos q.currentWord ++
          ((queryReader cs.toCtype).run .blanks q.ofPos q.ofWord ++
            (queryReader cs.toCtype).run .plain (q.ofPos + q.ofWord.length)
              (q.ofGap ++ q.nameText)))) := by
  obtain ⟨hwhere, hcurrent, hof⟩ := q.words
  have houtside : ((queryReader cs.toCtype).final .blanks q.front).outside = true := q.outside
  rw [readingOf, ClauseText.text, (q.isLocal_front _).run_append, Nat.zero_add]
  rw [hwhere.run_append q.where_eq.ne_nil houtside, run_gap q.whereGap_blank.1 q.whereGap_blank.2,
    hcurrent.run_append q.current_eq.ne_nil rfl, run_gap q.currentGap_blank.1 q.currentGap_blank.2,
    hof.run_append q.of_eq.ne_nil rfl]
  rfl

/-- The tokens from the name on. -/
def PositionedQuery.nameTokens : List ℕ := offsetsOf .token
  ((queryReader cs.toCtype).run .plain (q.ofPos + q.ofWord.length) (q.ofGap ++ q.nameText))

/-- The tokens of the text. `WHERE` is one only if there are blanks in front of it. -/
theorem PositionedQuery.tokens_text : offsetsOf .token (readingOf cs.toCtype q.text) =
    offsetsOf .token (readingOf cs.toCtype q.front) ++
      ((if q.frontState = .blanks then [q.wherePos] else []) ++
        q.currentPos :: q.ofPos :: q.nameTokens) := by
  obtain ⟨hwhere, hcurrent, hof⟩ := q.words
  have houtside : q.frontState.outside = true := q.outside
  rw [q.readingOf_text, offsetsOf_append, offsetsOf_append, offsetsOf_append, offsetsOf_append,
    hwhere.offsetsOf_run q.where_eq.ne_nil houtside,
    hcurrent.offsetsOf_run q.current_eq.ne_nil rfl, hof.offsetsOf_run q.of_eq.ne_nil rfl]
  rfl

/-- A name begins with a token. -/
theorem PositionedQuery.nameTokens_eq : ∃ behind, q.nameTokens = q.namePos :: behind := by
  rw [nameTokens, ClauseText.nameText, ClauseText.namePos]
  have hvalid := q.valid
  have hnamed := q.named
  cases hname : q.name with
  | plain name =>
    rw [hname] at hvalid hnamed
    have hword : Word cs.toCtype name := hvalid
    rw [run_gap q.ofGap_blank.1 (q.ofGap_blank.2 (by rw [hname]; trivial)), WrittenName.text,
      hword.run_append hnamed rfl, offsetsOf_append, hword.offsetsOf_run hnamed rfl]
    exact ⟨_, rfl⟩
  | quoted quote body name =>
    rw [hname] at hvalid
    obtain ⟨hplain, hblanks⟩ := @step_quote cs quote (body ++ [quote] ++ q.tail) hvalid.1
    rw [WrittenName.text, List.cons_append]
    by_cases hgap : q.ofGap = []
    · rw [hgap, List.nil_append, Transducer.run_cons hplain]
      exact ⟨_, rfl⟩
    · rw [run_gap q.ofGap_blank.1 hgap, Transducer.run_cons hblanks]
      exact ⟨_, rfl⟩

/-- A plain name at the end of the text is the last token. -/
theorem PositionedQuery.nameTokens_plain (hplain : q.name.IsPlain) (htail : q.tail = []) :
    q.nameTokens = [q.namePos] := by
  rw [nameTokens, ClauseText.nameText, ClauseText.namePos, htail, List.append_nil,
    run_gap q.ofGap_blank.1 (q.ofGap_blank.2 hplain)]
  have hvalid := q.valid
  have hnamed := q.named
  cases hname : q.name with
  | plain name =>
    rw [hname] at hvalid hnamed
    have hword : Word cs.toCtype name := hvalid
    exact (hword.offsetsOf_run hnamed rfl).trans (if_pos rfl)
  | quoted quote body name =>
    rw [hname] at hplain
    exact absurd hplain id

/-- The other tokens of the clause are behind `WHERE`. -/
theorem PositionedQuery.le_of_mem_clause {t : ℕ}
    (h : t ∈ q.currentPos :: q.ofPos :: q.nameTokens) : q.wherePos + 2 ≤ t := by
  have hwhere := q.where_eq.length_eq
  simp only [List.length_cons, List.length_nil] at hwhere
  have hcurrent : q.currentPos = q.wherePos + q.whereWord.length + q.whereGap.length := rfl
  have hof : q.ofPos = q.currentPos + q.currentWord.length + q.currentGap.length := rfl
  rw [List.mem_cons, List.mem_cons] at h
  obtain rfl | rfl | hname := h
  · omega
  · omega
  · obtain ⟨mark, hmark, rfl⟩ := List.mem_map.mp hname
    have hinside := Transducer.run_inside (List.mem_filter.mp hmark).1
    omega

/-- What is behind the name is all that is left of the text. -/
theorem PositionedQuery.text_eq : ∃ before, q.text = before ++ q.nameText ∧
    before.length = q.namePos := by
  refine ⟨q.front ++ (q.whereWord ++ (q.whereGap ++ (q.currentWord ++ (q.currentGap ++
    (q.ofWord ++ q.ofGap))))), ?_, ?_⟩
  · simp [ClauseText.text]
  · simp only [ClauseText.namePos, ClauseText.ofPos, ClauseText.currentPos, ClauseText.wherePos,
      List.length_append]
    omega

theorem PositionedQuery.drop_namePos : q.text.drop q.namePos = q.nameText := by
  obtain ⟨before, htext, hlength⟩ := q.text_eq
  rw [htext, ← hlength, List.drop_left]

/-- A plain name at the end of the text leaves no closing brace there. -/
theorem PositionedQuery.not_inBraces (hplain : q.name.IsPlain) (htail : q.tail = []) :
    ¬ InBraces cs.toCtype q.text := by
  rintro ⟨first, last, -, hlast, -, hclose⟩
  have hvalid := q.valid
  have hnamed := q.named
  have hgap := q.ofGap_blank.2 hplain
  rw [q.readingOf_text, run_gap q.ofGap_blank.1 hgap, ← List.append_assoc, ← List.append_assoc,
    ← List.append_assoc, lastOf_append] at hlast
  cases hname : q.name with
  | plain name =>
    rw [hname] at hvalid hnamed
    have hword : Word cs.toCtype name := hvalid
    have hnameText : q.nameText = name := by
      rw [ClauseText.nameText, hname, htail, List.append_nil, WrittenName.text]
    obtain ⟨i, hi, hlastOf, hbrace⟩ := @Word.lastOf_run cs .blanks _ q.namePos hword hnamed rfl
      (lastOf none (readingOf cs.toCtype q.front ++
        (queryReader cs.toCtype).run q.frontState q.wherePos q.whereWord ++
          (queryReader cs.toCtype).run .blanks q.currentPos q.currentWord ++
            (queryReader cs.toCtype).run .blanks q.ofPos q.ofWord))
    rw [hnameText] at hlast
    obtain rfl := Option.some_inj.mp (hlastOf.symm.trans hlast)
    rw [← List.getElem?_drop, q.drop_namePos, hnameText] at hclose
    exact hbrace hclose
  | quoted quote body name =>
    rw [hname] at hplain
    exact absurd hplain id

/-- The words are found where they stand. -/
theorem caseCompare_keyword {keyword : List Char} {word : List UInt8} (h : IsKeyword keyword word)
    (front behind : List UInt8) :
    caseCompare (front ++ (word ++ behind)) (some front.length) keyword = true := by
  rw [caseCompare, List.drop_left, List.map_append, h, List.isPrefixOf_iff_prefix]
  exact List.prefix_append _ _

theorem PositionedQuery.caseCompare_words :
    caseCompare q.text (some q.wherePos) ['W', 'H', 'E', 'R', 'E'] ∧
      caseCompare q.text (some q.currentPos) ['C', 'U', 'R', 'R', 'E', 'N', 'T'] ∧
      caseCompare q.text (some q.ofPos) ['O', 'F'] := by
  refine ⟨caseCompare_keyword q.where_eq _ _, ?_, ?_⟩
  · have hpos : q.currentPos = (q.front ++ (q.whereWord ++ q.whereGap)).length := by
      simp only [ClauseText.currentPos, ClauseText.wherePos, List.length_append]
      omega
    have htext : q.text = (q.front ++ (q.whereWord ++ q.whereGap)) ++ (q.currentWord ++
        (q.currentGap ++ (q.ofWord ++ (q.ofGap ++ q.nameText)))) := by
      simp [ClauseText.text]
    rw [hpos, htext]
    exact caseCompare_keyword q.current_eq _ _
  · have hpos : q.ofPos = (q.front ++ (q.whereWord ++ (q.whereGap ++
        (q.currentWord ++ q.currentGap)))).length := by
      simp only [ClauseText.ofPos, ClauseText.currentPos, ClauseText.wherePos, List.length_append]
      omega
    have htext : q.text = (q.front ++ (q.whereWord ++ (q.whereGap ++
        (q.currentWord ++ q.currentGap)))) ++ (q.ofWord ++ (q.ofGap ++ q.nameText)) := by
      simp [ClauseText.text]
    rw [hpos, htext]
    exact caseCompare_keyword q.of_eq _ _

/-- The words follow one another. -/
theorem PositionedQuery.positions : q.wherePos + 6 ≤ q.currentPos ∧ q.currentPos < q.ofPos ∧
    q.ofPos < q.namePos := by
  have hwhere := q.where_eq.length_eq
  have hcurrent := q.current_eq.length_eq
  have hof := q.of_eq.length_eq
  have hgap := List.length_pos_iff.mpr q.whereGap_blank.2
  simp only [List.length_cons, List.length_nil] at hwhere hcurrent hof
  simp only [ClauseText.currentPos, ClauseText.ofPos, ClauseText.namePos]
  omega

theorem PositionedQuery.wherePos_lt : q.wherePos < q.text.length := by
  have hwhere := List.length_pos_iff.mpr q.where_eq.ne_nil
  rw [ClauseText.wherePos, ClauseText.text, List.length_append, List.length_append]
  omega

theorem Blank.zero_notMem {text : List UInt8} (h : Blank text) : 0 ∉ text := fun hmem =>
  absurd (h 0 hmem) (by decide)

/-- The only terminators of the text are in front of the clause. -/
theorem PositionedQuery.zero_notMem (h : 0 ∉ q.before) : 0 ∉ q.text := by
  have hletters : ∀ word : List UInt8, (∀ c ∈ word, IsLetter c) → 0 ∉ word :=
    fun word hword hmem => (hword 0 hmem).plain.2.2.1 rfl
  have htail : 0 ∉ q.tail := by
    obtain ⟨before, closer, behind, htail, hbefore, hbehind, hcloser⟩ := q.tail_eq
    have hnone : 0 ∉ closer := by
      simp only [List.mem_cons, List.not_mem_nil, or_false] at hcloser
      obtain rfl | rfl | rfl | rfl := hcloser <;> decide
    simp [htail, hbefore.zero_notMem, hbehind.zero_notMem, hnone]
  have hwhere := hletters _ (q.where_eq.letters (by decide))
  have hcurrent := hletters _ (q.current_eq.letters (by decide))
  have hof := hletters _ (q.of_eq.letters (by decide))
  simp [ClauseText.text, ClauseText.front, ClauseText.nameText, h, q.sep_blank.zero_notMem, hwhere,
    q.whereGap_blank.1.zero_notMem, hcurrent, q.currentGap_blank.1.zero_notMem, hof,
    q.ofGap_blank.1.zero_notMem, q.nonzero, htail]

/-- A text without terminators is a C string. -/
theorem cString_of_notMem {text : List UInt8} (h : 0 ∉ text) (offset : ℕ) :
    cString text offset = text.drop offset := by
  rw [cString, List.takeWhile_eq_self_iff]
  intro c hc
  have hne : c ≠ 0 := by
    rintro rfl
    exact h (List.mem_of_mem_drop hc)
  simpa using hne

/-- What is left of a chopped text. -/
theorem cString_chop {pq : ParsedQuery} {pos : ℕ} (h : pos < pq.query.length) :
    cString (chop pos pq).query 0 = (pq.query.take pos).takeWhile (· ≠ 0) := by
  have hcut : ∀ front behind : List UInt8,
      (front ++ 0 :: behind).takeWhile (· ≠ 0) = front.takeWhile (· ≠ 0) := by
    intro front behind
    induction front with
    | nil => rfl
    | cons c front ih =>
      rw [List.cons_append, List.takeWhile_cons, List.takeWhile_cons, ih]
  rw [cString, List.drop_zero, chop]
  dsimp only
  rw [List.set_eq_take_append_cons_drop, if_pos h, hcut]

end Clause

section Honoured

variable {cs : ClauseCtype} {q : PositionedQuery cs.toCtype}

/-- A plain clause is honoured. -/
theorem PositionedQuery.PlainClause.honoured (h : q.PlainClause)
    (hlength : q.text.length ≤ 2 ^ 32) : q.Honoured := by
  have hstate : q.frontState = .blanks :=
    final_append_blank q.whole q.sep_blank h.sep_ne trivial q.outside
  have hread := q.tokens_text
  rw [hstate, if_pos rfl, q.nameTokens_plain h.plain h.tail_nil] at hread
  obtain ⟨-, hquery, htokens⟩ :=
    (parsedQuery_cases cs (by omega)).resolve_right fun hbraces =>
      q.not_inBraces h.plain h.tail_nil hbraces.1
  rw [hread] at htokens
  obtain ⟨hwhere, hcurrent, hof⟩ := q.positions
  have hfront : ∀ t ∈ offsetsOf .token (readingOf cs.toCtype q.front), t < q.wherePos :=
    fun t ht => offsetsOf_inside ht
  have hname : (parsedQuery cs.toCtype q.text).getCursorName = some q.namePos := by
    refine getCursorName_eq_some_iff.mpr ⟨_, _, _, _, htokens, h.word, ?_⟩
    rw [hquery]
    exact q.caseCompare_words
  have hzero := q.zero_notMem h.nonzero
  refine ⟨?_, fun stmtList => ?_⟩
  · rw [htokens, List.pairwise_append]
    refine ⟨pairwise_words_iff.mpr h.unquoted, ?_, ?_⟩
    · simp only [List.singleton_append, List.pairwise_cons, List.mem_cons, List.not_mem_nil,
        or_false, forall_eq_or_imp, forall_eq, List.Pairwise.nil, false_implies, implies_true,
        and_true]
      omega
    · intro t ht t' ht'
      have hlt := hfront t ht
      simp only [List.singleton_append, List.mem_cons, List.not_mem_nil, or_false] at ht'
      omega
  · obtain ⟨c, hcheck, hpos, hselect⟩ :=
      checkIfPositionedCursorExists_eq stmtList hname htokens
    have hinside := q.wherePos_lt
    have hsep := List.length_pos_iff.mpr h.sep_ne
    have hfrontLength : q.wherePos = q.before.length + q.sep.length := by
      rw [ClauseText.wherePos, ClauseText.front, List.length_append]
    refine ⟨c, hcheck, ⟨q.sep.dropLast, ?_, ?_⟩, ?_⟩
    · exact fun b hb => q.sep_blank b (List.dropLast_subset _ hb)
    · have htake : q.text.take (q.wherePos - 1) = q.before ++ q.sep.dropLast := by
        rw [ClauseText.text, List.take_append_of_le_length (by rw [← ClauseText.wherePos]; omega),
          ClauseText.front, List.take_append, List.take_of_length_le (by omega),
          List.dropLast_eq_take]
        congr 2
        omega
      rw [cString_chop (by rw [hpos, hquery]; omega), hpos, hquery, htake, ClauseText.text,
        ClauseText.front, List.append_assoc, List.take_left, List.takeWhile_eq_self_iff]
      intro b hb
      have hne : b ≠ 0 := by
        rintro rfl
        rw [← htake] at hb
        exact hzero (List.mem_of_mem_take hb)
      simpa using hne
    · rw [hselect, hquery, cString_of_notMem hzero, q.drop_namePos, ClauseText.nameText, h.tail_nil,
        List.append_nil, WrittenName.text_of_isPlain h.plain]

/-- A name is equal to itself. -/
theorem strcaseEq_refl (s : List UInt8) : strcaseEq s s = true := beq_self_eq_true _

/-- When the chopped text is the text before the clause, it is chopped in front of `WHERE`, which
stands behind blanks. -/
theorem PositionedQuery.wherePos_of_chopped {w : ℕ} {blanks : List UInt8}
    (hlength : q.text.length ≤ 2 ^ 32) (hw : w ∈ offsetsOf .token (readingOf cs.toCtype q.text))
    (hblanks : Blank blanks)
    (hchopped : ((parsedQuery cs.toCtype q.text).query.take (w - 1)).takeWhile (· ≠ 0) =
      (parsedQuery cs.toCtype q.text).query.take q.before.length ++ blanks) :
    0 ∉ q.before ∧ q.frontState = .blanks ∧ w = q.wherePos ∧
      w - 1 = q.before.length + blanks.length := by
  have hwhole := @length_parsedQuery q.text cs
  have hwhere := q.wherePos_lt
  have hinside := offsetsOf_inside hw
  have hfrontLength : q.wherePos = q.before.length + q.sep.length := by
    rw [ClauseText.wherePos, ClauseText.front, List.length_append]
  have hbefore : ∀ (i : ℕ) (c : UInt8), q.before[i]? = some c → q.text[i]? = some c := by
    intro i c hi
    have hi' := (List.getElem?_eq_some_iff.mp hi).1
    rw [ClauseText.text, ClauseText.front, List.append_assoc, List.getElem?_append_left hi', hi]
  have hzero : 0 ∉ q.before := by
    intro hmem
    obtain ⟨i, hi⟩ := List.mem_iff_getElem?.mp hmem
    have hquery := (parsedQuery_zero cs (by omega) i).mpr (hbefore i 0 hi)
    have hi' := (List.getElem?_eq_some_iff.mp hi).1
    have htaken : 0 ∈ (parsedQuery cs.toCtype q.text).query.take q.before.length :=
      List.mem_of_getElem? (by rw [List.getElem?_take_of_lt hi']; exact hquery)
    have hkept := List.mem_append_left blanks htaken
    rw [← hchopped] at hkept
    simpa using List.mem_takeWhile_imp hkept
  have hnoZero : 0 ∉ (parsedQuery cs.toCtype q.text).query := by
    intro hmem
    obtain ⟨i, hi⟩ := List.mem_iff_getElem?.mp hmem
    exact q.zero_notMem hzero (List.mem_of_getElem? ((parsedQuery_zero cs (by omega) i).mp hi))
  have htake : (parsedQuery cs.toCtype q.text).query.take (w - 1) =
      (parsedQuery cs.toCtype q.text).query.take q.before.length ++ blanks := by
    rw [← hchopped, eq_comm, List.takeWhile_eq_self_iff]
    intro b hb
    have hne : b ≠ 0 := by
      rintro rfl
      exact hnoZero (List.mem_of_mem_take hb)
    simpa using hne
  have hsize : w - 1 = q.before.length + blanks.length := by
    have hcount := congrArg List.length htake
    rw [List.length_append, List.length_take, List.length_take] at hcount
    omega
  -- The first letter of the clause is no blank, so the text is chopped in front of it.
  have hle : w - 1 ≤ q.wherePos := by
    by_contra hlt
    obtain ⟨b, word, hword⟩ := List.exists_cons_of_ne_nil q.where_eq.ne_nil
    obtain ⟨-, hspace, -, hplain⟩ := (q.where_eq.letters (by decide) b (by rw [hword]; simp)).plain
    have htext : q.text[q.wherePos]? = some b := by
      rw [ClauseText.text, ClauseText.wherePos, List.getElem?_append_right le_rfl, Nat.sub_self,
        hword]
      rfl
    have hquery : (parsedQuery cs.toCtype q.text).query[q.wherePos]? = some b := by
      obtain hsame | ⟨-, hbrace | hbrace⟩ := @parsedQuery_getElem? q.text cs (by omega) q.wherePos
      · rw [hsame, htext]
      · rw [htext] at hbrace
        obtain rfl := Option.some_inj.mp hbrace
        exact absurd hplain (by decide)
      · rw [htext] at hbrace
        obtain rfl := Option.some_inj.mp hbrace
        exact absurd hplain (by decide)
    have hblank : (blanks[q.wherePos - q.before.length]?) = some b := by
      have hplace := congrArg (·[q.wherePos]?) htake
      simp only [List.getElem?_take_of_lt (by omega : q.wherePos < w - 1)] at hplace
      rw [hquery, List.getElem?_append_right (by rw [List.length_take]; omega), List.length_take,
        Nat.min_eq_left (by omega)] at hplace
      exact hplace.symm
    rw [hblanks b (List.mem_of_getElem? hblank)] at hspace
    cases hspace
  refine ⟨hzero, ?_⟩
  rw [q.tokens_text, List.mem_append, List.mem_append] at hw
  obtain hfront | hwhereToken | hlater := hw
  · -- A token of the front from there on would be a blank.
    exfalso
    obtain ⟨i, b, hi, hbyte, hspace⟩ := token_not_blank (by trivial) hfront
    rw [Nat.zero_add] at hi
    subst hi
    have hinside' := (List.getElem?_eq_some_iff.mp hbyte).1
    rw [ClauseText.front, List.getElem?_append_right (by omega)] at hbyte
    rw [q.sep_blank b (List.mem_of_getElem? hbyte)] at hspace
    cases hspace
  · by_cases hstate : q.frontState = .blanks
    · rw [if_pos hstate, List.mem_singleton] at hwhereToken
      exact ⟨hstate, hwhereToken, hsize⟩
    · rw [if_neg hstate] at hwhereToken
      cases hwhereToken
  · exfalso
    have hlate := q.le_of_mem_clause hlater
    omega

/-- A clause that is honoured is plain. -/
theorem PositionedQuery.Honoured.plainClause (h : q.Honoured) (hlength : q.text.length ≤ 2 ^ 32) :
    q.PlainClause := by
  obtain ⟨c, hcheck, ⟨blanks, hblanks, hchopped⟩, hselect⟩ := h.found [⟨true, q.name.value, false⟩]
  obtain ⟨z, hname, -⟩ := Option.map_eq_some_iff.mp hcheck
  obtain ⟨front, w, x, y, htokens, hfront, -⟩ := getCursorName_eq_some_iff.mp hname
  obtain ⟨c', hcheck', hpos, hselect'⟩ :=
    checkIfPositionedCursorExists_eq [⟨true, q.name.value, false⟩] hname htokens
  obtain rfl := Option.some_inj.mp (hcheck.symm.trans hcheck')
  obtain ⟨first, closing, hread, hclosing⟩ := @parsedQuery_tokens q.text cs (by omega)
  have hwread : w ∈ offsetsOf .token (readingOf cs.toCtype q.text) := by
    rw [hread, htokens]
    simp
  have hinside : c.cursorPos < (parsedQuery cs.toCtype q.text).query.length := by
    have hlt := offsetsOf_inside hwread
    rw [length_parsedQuery, hpos]
    omega
  rw [cString_chop hinside, hpos] at hchopped
  obtain ⟨hzero, hstate, rfl, hsize⟩ :=
    q.wherePos_of_chopped hlength hwread hblanks hchopped
  obtain ⟨behind, hbehind⟩ := q.nameTokens_eq
  -- `WHERE` is one token only, so that the tokens in front of it and behind it are the same.
  have hsplit : offsetsOf .token (readingOf cs.toCtype q.front) = first ++ front ∧
      q.currentPos :: q.ofPos :: q.namePos :: behind = x :: y :: z :: closing := by
    have hread' := q.tokens_text
    rw [hread, htokens, hstate, if_pos rfl, hbehind] at hread'
    have hsame : offsetsOf .token (readingOf cs.toCtype q.front) ++
        q.wherePos :: (q.currentPos :: q.ofPos :: q.namePos :: behind) =
          (first ++ front) ++ q.wherePos :: (x :: y :: z :: closing) := by
      simpa using hread'.symm
    refine And.imp_right And.right ((List.append_cons_inj_of_notMem ?_ ?_).mp hsame)
    · intro hmem
      exact absurd (offsetsOf_inside hmem) (Nat.lt_irrefl _)
    · intro hmem
      rw [← hbehind] at hmem
      have hlate := q.le_of_mem_clause hmem
      omega
  obtain ⟨hfrontTokens, hclause⟩ := hsplit
  have hz : z = q.namePos :=
    (List.cons.inj (List.cons.inj (List.cons.inj hclause).2).2).1.symm
  have hnoZero : 0 ∉ (parsedQuery cs.toCtype q.text).query := by
    intro hmem
    obtain ⟨i, hi⟩ := List.mem_iff_getElem?.mp hmem
    exact q.zero_notMem hzero (List.mem_of_getElem? ((parsedQuery_zero cs (by omega) i).mp hi))
  have hlengths : q.name.value.length = q.name.text.length + q.tail.length := by
    have hsame :
        strcaseEq q.name.value (cString (parsedQuery cs.toCtype q.text).query z) = true := by
      have hfind := hselect.symm.trans hselect'
      by_contra hne
      rw [Bool.not_eq_true] at hne
      simp [strcaseEq_refl, hne, q.named] at hfind
    have hcount := congrArg List.length (eq_of_beq hsame)
    rw [List.length_map, List.length_map] at hcount
    rw [cString_of_notMem hnoZero, List.length_drop, length_parsedQuery, hz, ← List.length_drop,
      q.drop_namePos, ClauseText.nameText, List.length_append] at hcount
    exact hcount
  have hplain : q.name.IsPlain ∧ q.tail = [] := by
    have hvalid := q.valid
    cases hcase : q.name with
    | plain name =>
      rw [hcase] at hlengths
      simp only [WrittenName.value, WrittenName.text] at hlengths
      exact ⟨trivial, List.length_eq_zero_iff.mp (by omega)⟩
    | quoted quote body name =>
      rw [hcase] at hlengths hvalid
      have hshort := hvalid.2.length_lt fun c => by simp [cursorNameDialect]
      rw [List.length_nil] at hshort
      simp only [WrittenName.value, WrittenName.text, List.length_cons] at hlengths
      omega
  have hsome : ∃ t, t ∈ offsetsOf .token (readingOf cs.toCtype q.front) := by
    obtain ⟨t, more, hmore⟩ := List.exists_cons_of_ne_nil hfront
    exact ⟨t, by rw [hfrontTokens, hmore]; simp⟩
  obtain ⟨t, ht⟩ := hsome
  have hpositive : t < q.wherePos := offsetsOf_inside ht
  refine ⟨hplain.1, hplain.2, ?_, hzero, List.ne_nil_of_mem ht, ?_⟩
  · intro hnil
    have hfrontLength : q.wherePos = q.before.length := by
      rw [ClauseText.wherePos, ClauseText.front, hnil, List.append_nil]
    omega
  · obtain ⟨-, -, htokens'⟩ :=
      (parsedQuery_cases cs (by omega)).resolve_right fun hbraces =>
        q.not_inBraces hplain.1 hplain.2 hbraces.1
    have hincreasing := h.increasing
    rw [htokens', q.tokens_text, List.pairwise_append] at hincreasing
    exact pairwise_words_iff.mp hincreasing.1

end Honoured

section Taken

variable {cs : ClauseCtype} {text : List UInt8}

/-- A capital keyword is found in the parsed query where it is found in the text, as neither
blanks nor braces are letters. -/
theorem caseCompare_parsedQuery (hlength : text.length ≤ 2 ^ 32) (off : ℕ) {keyword : List Char}
    (hcapitals : Capitals keyword) :
    caseCompare (parsedQuery cs.toCtype text).query (some off) keyword =
      caseCompare text (some off) keyword := by
  have hletter : ∀ (i : ℕ) (k : UInt8), k ∈ keyword.map (fun c => UInt8.ofNat c.toNat) →
      ((((parsedQuery cs.toCtype text).query.drop off).map toupper)[i]? = some k ↔
        ((text.drop off).map toupper)[i]? = some k) := by
    intro i k hk
    rw [List.getElem?_map, List.getElem?_map, List.getElem?_drop, List.getElem?_drop]
    obtain hsame | ⟨hblank, hbrace⟩ := parsedQuery_getElem? cs hlength (off + i)
    · rw [hsame]
    · obtain ⟨letter, hletter, rfl⟩ := List.mem_map.mp hk
      have hcapital := hcapitals letter hletter
      have hne : ∀ b : UInt8, b ∈ [(0x20 : UInt8), 0x7b, 0x7d] →
          toupper b ≠ UInt8.ofNat letter.toNat := by
        intro b hb heq
        rw [← heq] at hcapital
        simp only [List.mem_cons, List.not_mem_nil, or_false] at hb
        obtain rfl | rfl | rfl := hb <;> exact absurd hcapital (by decide)
      rw [hblank]
      obtain hbrace | hbrace := hbrace
      · rw [hbrace]
        exact iff_of_false (by simpa using hne 0x20 (by simp)) (by simpa using hne 0x7b (by simp))
      · rw [hbrace]
        exact iff_of_false (by simpa using hne 0x20 (by simp)) (by simpa using hne 0x7d (by simp))
  rw [caseCompare, caseCompare, Bool.eq_iff_iff, List.isPrefixOf_iff_prefix,
    List.isPrefixOf_iff_prefix, List.prefix_iff_getElem?, List.prefix_iff_getElem?]
  exact forall₂_congr fun i hi => hletter i _ (List.getElem_mem hi)

/-- Which texts are taken as positioned. -/
theorem getCursorName_isSome_iff (hlength : text.length ≤ 2 ^ 32) :
    (parsedQuery cs.toCtype text).getCursorName.isSome = true ↔
      TakenAsPositioned cs.toCtype text := by
  have hclause : (parsedQuery cs.toCtype text).getCursorName.isSome = true ↔
      ∃ front w c o n, (parsedQuery cs.toCtype text).token2 = front ++ [w, c, o, n] ∧
        front ≠ [] ∧ caseCompare text (some w) ['W', 'H', 'E', 'R', 'E'] ∧
        caseCompare text (some c) ['C', 'U', 'R', 'R', 'E', 'N', 'T'] ∧
        caseCompare text (some o) ['O', 'F'] := by
    rw [Option.isSome_iff_exists]
    constructor
    · rintro ⟨n, hname⟩
      obtain ⟨front, w, c, o, htokens, hfront, hwords⟩ := getCursorName_eq_some_iff.mp hname
      rw [caseCompare_parsedQuery hlength _ (by decide),
        caseCompare_parsedQuery hlength _ (by decide),
        caseCompare_parsedQuery hlength _ (by decide)] at hwords
      exact ⟨front, w, c, o, n, htokens, hfront, hwords⟩
    · rintro ⟨front, w, c, o, n, htokens, hfront, hwords⟩
      rw [← @caseCompare_parsedQuery cs text hlength _ _ (by decide),
        ← @caseCompare_parsedQuery cs text hlength _ _ (by decide),
        ← @caseCompare_parsedQuery cs text hlength _ _ (by decide)] at hwords
      exact ⟨n, getCursorName_eq_some_iff.mpr ⟨front, w, c, o, htokens, hfront, hwords⟩⟩
  rw [hclause]
  obtain ⟨hbraces, -, htokens⟩ | ⟨hbraces, first, last, tokens, hread, hlast, -, -, -, htokens⟩ :=
    parsedQuery_cases cs hlength
  · constructor
    · rintro ⟨front, w, c, o, n, hclauseTokens, hfront, hwhere, hcurrent, hof⟩
      exact ⟨front, w, c, o, n, [], by rw [← htokens, hclauseTokens, List.append_nil], hwhere,
        hcurrent, hof, Or.inl ⟨hbraces, hfront, rfl⟩⟩
    · rintro ⟨front, w, c, o, n, behind, hread, hwhere, hcurrent, hof, hends⟩
      obtain ⟨-, hfront, rfl⟩ := hends.resolve_right fun h => hbraces h.1
      rw [List.append_nil] at hread
      exact ⟨front, w, c, o, n, htokens.trans hread, hfront, hwhere, hcurrent, hof⟩
  · constructor
    · rintro ⟨front, w, c, o, n, hclauseTokens, hfront, hwhere, hcurrent, hof⟩
      have hpos := List.length_pos_iff.mpr hfront
      rw [htokens] at hclauseTokens
      split_ifs at hclauseTokens with hclosing
      · obtain ⟨most, hmost⟩ := List.getLast?_eq_some_iff.mp hclosing
        rw [hmost, List.dropLast_concat] at hclauseTokens
        refine ⟨first :: front, w, c, o, n, [last], ?_, hwhere, hcurrent, hof,
          Or.inr ⟨hbraces, ?_, last, hlast, Or.inl rfl⟩⟩
        · rw [hread, hmost, hclauseTokens]
          simp
        · rw [List.length_cons]
          omega
      · refine ⟨first :: front, w, c, o, n, [], ?_, hwhere, hcurrent, hof,
          Or.inr ⟨hbraces, ?_, last, hlast, Or.inr ⟨rfl, ?_⟩⟩⟩
        · rw [hread, hclauseTokens, List.append_nil, List.cons_append]
        · rw [List.length_cons]
          omega
        · rintro rfl
          exact hclosing (by simp [hclauseTokens])
    · rintro ⟨front, w, c, o, n, behind, hread', hwhere, hcurrent, hof, hends⟩
      obtain ⟨-, hfront, last', hlast', hclosing⟩ := hends.resolve_left fun h => h.1 hbraces
      obtain rfl := Option.some_inj.mp (hlast.symm.trans hlast')
      cases front with
      | nil => exact absurd hfront (by simp)
      | cons first' front =>
        rw [hread, List.cons_append] at hread'
        have htail := (List.cons.inj hread').2
        have hne : front ≠ [] := by
          rintro rfl
          exact absurd hfront (by simp)
        refine ⟨front, w, c, o, n, ?_, hne, hwhere, hcurrent, hof⟩
        obtain rfl | ⟨rfl, hn⟩ := hclosing
        · have hconcat : tokens = (front ++ [w, c, o, n]) ++ [last] := by
            rw [htail, List.append_assoc]
          rw [htokens, hconcat, List.getLast?_concat, if_pos rfl, List.dropLast_concat]
        · rw [List.append_nil] at htail
          have hopen : tokens.getLast? ≠ some last := by
            simpa [htail] using hn
          rw [htokens, if_neg hopen, htail]

end Taken

/-- A query that ends in the clause is honoured exactly if the clause is plain, and a text is taken
as positioned exactly if its last words begin with those of the clause. -/
theorem positionedQuery_honoured_iff (cs : ClauseCtype) (text : List UInt8)
    (hlength : text.length ≤ 2 ^ 32) :
    (∀ q : PositionedQuery cs.toCtype, q.text = text → (q.Honoured ↔ q.PlainClause)) ∧
    ∀ stmtList, checkIfPositionedCursorExists stmtList (parsedQuery cs.toCtype text) = none ↔
      ¬ TakenAsPositioned cs.toCtype text := by
  constructor
  · rintro q rfl
    exact ⟨fun h => h.plainClause hlength, fun h => h.honoured hlength⟩
  · intro stmtList
    rw [checkIfPositionedCursorExists, Option.map_eq_none_iff, ← getCursorName_isSome_iff hlength,
      Option.not_isSome_iff_eq_none]

/-- The handler of `latin1` knows the letters. -/
theorem exists_clauseLatin1 : ∃ cs : ClauseCtype, cs.toCtype = ctypeLatin1 := by
  refine ⟨{ toQueryCtype := queryLatin1, ctype_spacing := ?_, ctype_letter := ?_ }, rfl⟩
  · have hall : ∀ n < 256, isspace (UInt8.ofNat n) = true →
        ctypeLatin1Array.getD (n + 1) 0 &&& MY_SPC ≠ 0 := by decide +kernel
    intro c hc s
    exact decide_eq_true (hall c.toNat c.toNat_lt (by rwa [UInt8.ofNat_toNat]))
  · have hall : ∀ n < 256, 0x41 ≤ toupper (UInt8.ofNat n) → toupper (UInt8.ofNat n) ≤ 0x5a →
        ctypeLatin1Array.getD (n + 1) 0 &&& MY_SPC = 0 ∧
          ctypeLatin1Array.getD (n + 1) 0 &&& MY_CTR = 0 := by decide +kernel
    rintro c ⟨hlow, hhigh⟩ s
    obtain ⟨hspace, hcontrol⟩ := hall c.toNat c.toNat_lt (by rwa [UInt8.ofNat_toNat])
      (by rwa [UInt8.ofNat_toNat])
    exact ⟨decide_eq_false (not_not.mpr hspace), decide_eq_false (not_not.mpr hcontrol)⟩

/-- `DELETE FROM t WHERE CURRENT OF` and a name. -/
def deleteClause (name : WrittenName) : ClauseText :=
  ⟨[0x44, 0x45, 0x4c, 0x45, 0x54, 0x45, 0x20, 0x46, 0x52, 0x4f, 0x4d, 0x20, 0x74], [0x20],
    [0x57, 0x48, 0x45, 0x52, 0x45], [0x20], [0x43, 0x55, 0x52, 0x52, 0x45, 0x4e, 0x54], [0x20],
    [0x4f, 0x46], [0x20], name, []⟩

/-- How the texts of the examples are read. -/
theorem latin1_readings :
    (deleteClause (.plain [0x63])).text = sqlText "DELETE FROM t WHERE CURRENT OF c" ∧
    (deleteClause (.quoted 0x27 [0x63] [0x63])).text =
      sqlText "DELETE FROM t WHERE CURRENT OF 'c'" ∧
    (∀ name, ((queryReader ctypeLatin1).final .blanks (deleteClause name).front).outside = true ∧
      offsetsOf .token (readingOf ctypeLatin1 (deleteClause name).front) = [0, 7, 12]) ∧
    (offsetsOf .token (readingOf ctypeLatin1 (sqlText "SELECT 1"))).length = 2 ∧
    ¬ (parsedQuery ctypeLatin1 (sqlText "DELETE FROM t WHERE CURRENT OF 'c'")).token2.Pairwise
      (· < ·) ∧
    checkIfPositionedCursorExists [] (parsedQuery ctypeLatin1
      (sqlText "SELECT 1 FROM t WHERE CURRENT_DATE OFFSET 5")) ≠ none ∧
    ∀ i < 43, (((sqlText "SELECT 1 FROM t WHERE CURRENT_DATE OFFSET 5").drop i).take 7).map
      toupper = [0x43, 0x55, 0x52, 0x52, 0x45, 0x4e, 0x54] →
        ∀ c ∈ (sqlText "SELECT 1 FROM t WHERE CURRENT_DATE OFFSET 5")[i + 7]?,
          isspace c = false := by
  refine ⟨by decide +kernel, by decide +kernel, fun name => ?_, by decide +kernel,
    by decide +kernel, Option.isSome_iff_ne_none.mp (by decide +kernel), by decide +kernel⟩
  exact (by decide +kernel : ((queryReader ctypeLatin1).final .blanks
      (deleteClause (.plain [])).front).outside = true ∧
    offsetsOf .token (readingOf ctypeLatin1 (deleteClause (.plain [])).front) = [0, 7, 12])

theorem blank_gap : Blank [0x20] ∧ [(0x20 : UInt8)] ≠ [] := by
  refine ⟨fun c hc => ?_, List.cons_ne_nil _ _⟩
  obtain rfl := List.mem_singleton.mp hc
  rfl

theorem exists_deleteClause {name : WrittenName} (hvalid : name.Valid ctypeLatin1)
    (hnamed : name.value ≠ []) (hzero : 0 ∉ name.text) :
    ∃ q : PositionedQuery ctypeLatin1, q.toClauseText = deleteClause name := by
  obtain ⟨-, -, hread, -⟩ := latin1_readings
  refine ⟨⟨deleteClause name, wholeChars_ctype8bit _, blank_gap.1, fun c hc => ?_, (hread name).1,
    rfl, rfl, rfl, blank_gap, blank_gap, ⟨blank_gap.1, fun _ => blank_gap.2⟩, hvalid, hnamed, hzero,
    [], [], [], rfl, by simp [Blank], by simp [Blank], by simp⟩, rfl⟩
  obtain rfl : 0x74 = c := Option.some_inj.mp hc
  rfl

/-- `DELETE FROM t WHERE CURRENT OF c` is plain. -/
theorem exists_plainDelete : ∃ q : PositionedQuery ctypeLatin1,
    q.text = sqlText "DELETE FROM t WHERE CURRENT OF c" ∧ q.PlainClause := by
  obtain ⟨htext, -, hread, -⟩ := latin1_readings
  obtain ⟨cs, hcs⟩ := exists_clauseLatin1
  have hname : Word ctypeLatin1 [0x63] := by
    rw [← hcs]
    refine Word.of_letters fun c hc => ?_
    obtain rfl := List.mem_singleton.mp hc
    exact ⟨by decide, by decide⟩
  obtain ⟨q, hq⟩ := @exists_deleteClause (.plain [0x63]) hname (List.cons_ne_nil _ _)
    (by simp [WrittenName.text])
  refine ⟨q, by rw [hq, htext], by rw [hq]; trivial, by rw [hq]; rfl,
    by rw [hq]; exact blank_gap.2, by rw [hq]; decide, ?_, ?_⟩
  · rw [hq, (hread _).2]
    exact List.cons_ne_nil _ _
  · rw [hq, ← hcs, ← pairwise_words_iff, hcs, (hread _).2]
    decide

/-- The cursor of `DELETE FROM t WHERE CURRENT OF c` is found, and `SELECT 1` is not taken as
positioned. -/
theorem positionedQuery_honoured_delete :
    (∃ (cs : ClauseCtype) (q : PositionedQuery cs.toCtype),
      q.text = sqlText "DELETE FROM t WHERE CURRENT OF c" ∧ q.Honoured) ∧
    ∃ cs : ClauseCtype,
      checkIfPositionedCursorExists [] (parsedQuery cs.toCtype (sqlText "SELECT 1")) = none := by
  obtain ⟨htext, -, -, hwords, -⟩ := latin1_readings
  obtain ⟨cs, hcs⟩ := exists_clauseLatin1
  constructor
  · have hplain := exists_plainDelete
    rw [← hcs] at hplain
    obtain ⟨q, hq, hplain⟩ := hplain
    refine ⟨cs, q, hq, ((positionedQuery_honoured_iff cs _ ?_).1 q hq).mpr hplain⟩
    rw [← htext]
    decide
  · refine ⟨cs, ((positionedQuery_honoured_iff cs (sqlText "SELECT 1") ?_).2 []).mpr ?_⟩
    · decide
    · rintro ⟨front, w, c, o, n, behind, hread, -⟩
      rw [← hcs, hread] at hwords
      simp only [List.length_append, List.length_cons, List.length_nil] at hwords
      omega

/-- No clause is in a text in which `CURRENT` is never followed by a blank. -/
theorem ne_of_no_gap {text : List UInt8} {cs : ClauseCtype}
    (h : ∀ i < text.length, ((text.drop i).take 7).map toupper =
      [0x43, 0x55, 0x52, 0x52, 0x45, 0x4e, 0x54] → ∀ c ∈ text[i + 7]?, isspace c = false)
    (q : PositionedQuery cs.toCtype) : q.text ≠ text := by
  rintro rfl
  have hlength : q.currentWord.length = 7 := q.current_eq.length_eq
  obtain ⟨c, gap, hgap⟩ := List.exists_cons_of_ne_nil q.currentGap_blank.2
  have hsplit : q.text = (q.front ++ (q.whereWord ++ q.whereGap)) ++ (q.currentWord ++
      (c :: (gap ++ (q.ofWord ++ (q.ofGap ++ q.nameText))))) := by
    simp [ClauseText.text, hgap]
  have hword : ((q.text.drop (q.front ++ (q.whereWord ++ q.whereGap)).length).take 7).map toupper =
      [0x43, 0x55, 0x52, 0x52, 0x45, 0x4e, 0x54] := by
    rw [hsplit, List.drop_left, List.take_left' hlength]
    exact q.current_eq
  have hbyte : q.text[(q.front ++ (q.whereWord ++ q.whereGap)).length + 7]? = some c := by
    rw [hsplit, List.getElem?_append_right (by omega), Nat.add_sub_cancel_left, ← hlength,
      List.getElem?_append_right le_rfl, Nat.sub_self]
    rfl
  have hinside := (List.getElem?_eq_some_iff.mp hbyte).1
  have hspace := h _ (by omega) hword c hbyte
  rw [q.currentGap_blank.1 c (by rw [hgap]; exact List.mem_cons_self)] at hspace
  cases hspace

/-- The quotes of `DELETE FROM t WHERE CURRENT OF 'c'` stay in the name that is compared, and
`SELECT 1 FROM t WHERE CURRENT_DATE OFFSET 5` is taken as positioned. -/
theorem positionedQuery_not_honoured :
    (∃ q : PositionedQuery ctypeLatin1,
      q.text = sqlText "DELETE FROM t WHERE CURRENT OF 'c'" ∧ ¬ q.Honoured) ∧
    (∀ q : PositionedQuery ctypeLatin1,
      q.text ≠ sqlText "SELECT 1 FROM t WHERE CURRENT_DATE OFFSET 5") ∧
    checkIfPositionedCursorExists [] (parsedQuery ctypeLatin1
      (sqlText "SELECT 1 FROM t WHERE CURRENT_DATE OFFSET 5")) ≠ none := by
  obtain ⟨-, htext, -, -, htokens, htaken, hgaps⟩ := latin1_readings
  obtain ⟨cs, hcs⟩ := exists_clauseLatin1
  refine ⟨?_, ?_, htaken⟩
  · have hreads : QuotedText.Reads (cursorNameDialect ctypeLatin1 0x27) [0x63, 0x27] [0x63] [] := by
      refine QuotedText.Reads.plain ?_ ?_ ?_ trivial (.close ?_ ?_)
      · decide
      · decide
      · decide
      · decide
      · simp
    obtain ⟨q, hq⟩ := @exists_deleteClause (.quoted 0x27 [0x63] [0x63])
      ⟨by decide, hreads⟩ (List.cons_ne_nil _ _) (by simp [WrittenName.text])
    have hq' : q.text = sqlText "DELETE FROM t WHERE CURRENT OF 'c'" := by rw [hq, htext]
    refine ⟨q, hq', fun h => htokens ?_⟩
    rw [← hq']
    exact h.increasing
  · rw [← hcs]
    exact ne_of_no_gap hgaps

end MatrixOdbc.Driver
