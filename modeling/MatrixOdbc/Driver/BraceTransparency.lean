import MatrixOdbc.Driver.BracedQuery
import MatrixOdbc.Driver.ParseAccess

/-!
# Braces around a query are transparent

`parse` of a query in braces against `parse` of the query: the type, the parameter markers
and the text. Blanking the opening brace always costs the first token, which is that of the
brace only if there is a spacing character behind it, and the closing brace has to be the
last character outside quotes and comments.
-/

namespace MatrixOdbc.Driver

open MysqlStrings MatrixOdbc.Foundations

/-- A query in braces, with blanks before, between and behind them. -/
def bracedQuery (before between query after behind : List UInt8) : List UInt8 :=
  before ++ 0x7b :: (between ++ (query ++ (after ++ 0x7d :: behind)))

/-- The query in braces is parsed like the query: the type is the same, the markers are
those of the query where it begins, and the braces are blanks in the text. -/
structure BraceTransparent (cs : Ctype) (before between query after behind : List UInt8) :
    Prop where
  queryType : (parse cs (bracedQuery before between query after behind)).queryType =
    (parse cs query).queryType
  paramPos : (parse cs (bracedQuery before between query after behind)).paramPos =
    (parse cs query).paramPos.map (before.length + 1 + between.length + ·)
  text : (parse cs (bracedQuery before between query after behind)).query =
    before ++ 0x20 :: (between ++ (query ++ (after ++ 0x20 :: behind)))

/-- The query is in braces itself: its first word begins with a brace, and its last
character outside quotes and comments is a brace. -/
def InBraces (cs : Ctype) (query : List UInt8) : Prop :=
  ∃ first last, (offsetsOf .token (readingOf cs query)).head? = some first ∧
    lastOf none (readingOf cs query) = some last ∧
    query[first]? = some 0x7b ∧ query[last]? = some 0x7d

/-- When the braces are seen, and cost no word: there is a spacing character between the
opening brace and the first word, the closing brace is outside quotes and comments with a
spacing character or nothing behind it, and the query is not in braces itself and ends with
a whole character. -/
structure BracesSeen (cs : Ctype) (between query after behind : List UInt8) : Prop where
  space : SpaceAhead cs (between ++ query)
  outside : ((queryReader cs).final .blanks (query ++ after)).outside = true
  behind : behind = [] ∨ spaceAt cs behind = true
  unbraced : ¬ InBraces cs query
  whole : WholeChars cs query

section Reading

variable {cs : QueryCtype} {before between query after behind : List UInt8}

/-- Where the closing brace is. -/
def closingBrace (before between query after : List UInt8) : ℕ :=
  before.length + 1 + between.length + query.length + after.length

/-- The tokens and markers of a query stand behind the opening brace where they stand in the
query. -/
theorem offsetsOf_inner (hbetween : Blank between) (hafter : Blank after)
    (hquery : WholeChars cs.toCtype query) (h : SpaceAhead cs.toCtype (between ++ query))
    {kind : ReadingMark} (hkind : kind = .token ∨ kind = .marker) (offset : ℕ) :
    offsetsOf kind ((queryReader cs.toCtype).run .plain offset (between ++ query ++ after)) =
      (offsetsOf kind (readingOf cs.toCtype query)).map (offset + between.length + ·) := by
  have hahead := h.append (hbetween.wholeChars.append hquery) hafter
  rw [(hahead.run_plain hkind).1, List.append_assoc, run_blanks_append hbetween,
    run_append_blank hquery hafter hkind, ← Nat.add_zero (offset + between.length),
    Transducer.run_shift, Nat.add_zero, readingOf]
  simp [offsetsOf, List.filter_map, Function.comp_def]

/-- The reading of a query in braces. -/
theorem readingOf_braced (hbefore : Blank before) (hbetween : Blank between)
    (hafter : Blank after) (hbehind : Blank behind)
    (h : BracesSeen cs.toCtype between query after behind) :
    ∃ marks, (marks = [.last] ∨ marks = [.token, .last]) ∧
      readingOf cs.toCtype (bracedQuery before between query after behind) =
        [(.token, before.length), (.last, before.length)] ++
          ((queryReader cs.toCtype).run .plain (before.length + 1) (between ++ query ++ after) ++
            marks.map fun mark => (mark, closingBrace before between query after)) := by
  have hinner : WholeChars cs.toCtype (between ++ query ++ after) :=
    (hbetween.wholeChars.append h.whole).append hafter.wholeChars
  have hharmless : Harmless (0x7d :: behind) := by
    rintro c hc
    obtain rfl : 0x7d = c := by simpa using hc
    decide
  have hlocal := hinner.isLocal hharmless (by simp) .plain
  have hahead := h.space.append (hbetween.wholeChars.append h.whole) hafter
  have houtside : ((queryReader cs.toCtype).final .plain (between ++ query ++ after)).outside =
      true := by
    rw [(@SpaceAhead.run_plain cs _ 0 hahead .token (Or.inl rfl)).2, List.append_assoc,
      final_blanks_append hbetween]
    exact h.outside
  obtain ⟨marks, hstep, hmarks⟩ := @step_brace cs _ 0x7d behind (Or.inr rfl) houtside
  refine ⟨marks, hmarks, ?_⟩
  have hopen : (queryReader cs.toCtype).step .blanks 0x7b
      (between ++ query ++ after ++ 0x7d :: behind) = (.plain, 0, [.token, .last]) :=
    step_blanks_brace (Or.inl rfl)
  have hclosing : (queryReader cs.toCtype).run
      ((queryReader cs.toCtype).final .plain (between ++ query ++ after))
      (closingBrace before between query after) (0x7d :: behind) =
        marks.map fun mark => (mark, closingBrace before between query after) := by
    rw [Transducer.run_cons hstep, List.drop_zero, run_plain_blank hbehind h.behind,
      List.append_nil]
  have hlength : before.length + 1 + (between ++ query ++ after).length =
      closingBrace before between query after := by
    rw [closingBrace, List.length_append, List.length_append]
    omega
  calc readingOf cs.toCtype (bracedQuery before between query after behind)
      = (queryReader cs.toCtype).run .blanks 0
          (before ++ 0x7b :: (between ++ query ++ after ++ 0x7d :: behind)) := by
        rw [readingOf, bracedQuery]
        simp only [List.append_assoc]
    _ = (queryReader cs.toCtype).run .blanks before.length
          (0x7b :: (between ++ query ++ after ++ 0x7d :: behind)) := by
        rw [run_blanks_append hbefore, Nat.zero_add]
    _ = [(.token, before.length), (.last, before.length)] ++
          (queryReader cs.toCtype).run .plain (before.length + 1)
            (between ++ query ++ after ++ 0x7d :: behind) := by
        rw [Transducer.run_cons hopen, List.drop_zero]
        rfl
    _ = _ := by
        rw [hlocal.run_append, hlength, hclosing]

/-- The marks of a query in braces: a token at the opening brace, those of the query, and
perhaps a token at the closing brace, which is the last character. -/
theorem readingOf_bracedQuery (hbefore : Blank before) (hbetween : Blank between)
    (hafter : Blank after) (hbehind : Blank behind)
    (h : BracesSeen cs.toCtype between query after behind) :
    ∃ closing, (closing = [] ∨ closing = [closingBrace before between query after]) ∧
      offsetsOf .token (readingOf cs.toCtype (bracedQuery before between query after behind)) =
        before.length :: (offsetsOf .token (readingOf cs.toCtype query)).map
          (before.length + 1 + between.length + ·) ++ closing ∧
      offsetsOf .marker (readingOf cs.toCtype (bracedQuery before between query after behind)) =
        (offsetsOf .marker (readingOf cs.toCtype query)).map
          (before.length + 1 + between.length + ·) ∧
      lastOf none (readingOf cs.toCtype (bracedQuery before between query after behind)) =
        some (closingBrace before between query after) := by
  obtain ⟨marks, hmarks, hreading⟩ :=
    readingOf_braced hbefore hbetween hafter hbehind h
  have htokens := offsetsOf_inner hbetween hafter h.whole h.space (Or.inl rfl) (before.length + 1)
  have hmarkers := offsetsOf_inner hbetween hafter h.whole h.space (Or.inr rfl) (before.length + 1)
  rw [hreading]
  simp only [offsetsOf_append, lastOf_append, htokens, hmarkers]
  obtain rfl | rfl := hmarks
  · exact ⟨[], Or.inl rfl, by simp [offsetsOf], by simp [offsetsOf], by simp [lastOf]⟩
  · exact ⟨[closingBrace before between query after], Or.inr rfl, by simp [offsetsOf],
      by simp [offsetsOf], by simp [lastOf]⟩

/-- The keywords of a rule are upper-case letters. -/
def QueryTypeResolving.letters : QueryTypeResolving → Bool
  | .null => true
  | .rule keyword _ _ _ andRule orRule =>
    keyword.all (fun c => 0x41 ≤ c.toNat && c.toNat ≤ 0x5a) && andRule.letters && orRule.letters

/-- A word is not continued by what is behind the query. -/
theorem isPrefixOf_append_word {keyword text behind : List UInt8}
    (h : ∀ c, behind.head? = some c → c ∉ keyword) :
    keyword.isPrefixOf (text ++ behind) = keyword.isPrefixOf text := by
  induction keyword generalizing text with
  | nil => simp
  | cons k keyword ih =>
    cases text with
    | nil =>
      cases behind with
      | nil => rfl
      | cons c behind =>
        have hne : k ≠ c := by
          rintro rfl
          exact h k rfl List.mem_cons_self
        simp [List.isPrefixOf, hne]
    | cons c text =>
      have hkeyword : ∀ c, behind.head? = some c → c ∉ keyword := fun c hc hmem =>
        h c hc (List.mem_cons_of_mem _ hmem)
      simp only [List.cons_append, List.isPrefixOf, ih hkeyword]

theorem caseCompare_append {front text behind : List UInt8} {keyword : List Char} {token : ℕ}
    (hkeyword : keyword.all (fun c => 0x41 ≤ c.toNat && c.toNat ≤ 0x5a) = true)
    (htoken : token ≤ text.length) (hbehind : ∀ c, behind.head? = some c → isspace c = true) :
    caseCompare (front ++ (text ++ behind)) (some (front.length + token)) keyword =
      caseCompare text (some token) keyword := by
  have hdrop : (front ++ (text ++ behind)).drop (front.length + token) =
      text.drop token ++ behind := by
    rw [← List.drop_drop, List.drop_left, List.drop_append_of_le_length htoken]
  rw [caseCompare, caseCompare, hdrop, List.map_append]
  apply isPrefixOf_append_word
  intro c hc hmem
  rw [List.head?_map, Option.map_eq_some_iff] at hc
  obtain ⟨blank, hblank, rfl⟩ := hc
  obtain ⟨letter, hletter, heq⟩ := List.mem_map.mp hmem
  have hrange := List.all_eq_true.mp hkeyword letter hletter
  simp only [Bool.and_eq_true, decide_eq_true_eq] at hrange
  have hupper : ∀ b : UInt8, isspace b = true → (toupper b).toNat ≤ 0x20 := by
    intro b hb
    simp only [isspace, Bool.or_eq_true, beq_iff_eq, Bool.and_eq_true, decide_eq_true_eq] at hb
    obtain rfl | ⟨-, hle⟩ := hb
    · decide
    · have hle' : b.toNat ≤ 0x0d := hle
      have hlower : ¬ (0x61 ≤ b ∧ b ≤ 0x7a) := by
        rintro ⟨hge, -⟩
        have hge' : 0x61 ≤ b.toNat := hge
        omega
      rw [toupper, if_neg hlower]
      omega
  have hle := hupper blank (hbehind blank hblank)
  rw [← heq, UInt8.toNat_ofNat'] at hle
  omega

/-- A rule finds in front and behind of blanks what it finds in the query. -/
theorem processRule_append {front text behind : List UInt8} {tokens : List ℕ}
    (htokens : ∀ token ∈ tokens, token ≤ text.length)
    (hbehind : ∀ c, behind.head? = some c → isspace c = true) (rule : QueryTypeResolving)
    (hletters : rule.letters = true) :
    processRule (front ++ (text ++ behind)) (tokens.map (front.length + ·)) rule =
      processRule text tokens rule := by
  induction rule with
  | null => rfl
  | rule keyword posFrom posThru queryType andRule orRule ihAnd ihOr =>
    simp only [QueryTypeResolving.letters, Bool.and_eq_true] at hletters
    obtain ⟨⟨hkeyword, hand⟩, hor⟩ := hletters
    have hcompare : ∀ i, caseCompare (front ++ (text ++ behind))
        (getToken (tokens.map (front.length + ·)) i) keyword =
          caseCompare text (getToken tokens i) keyword := by
      intro i
      rw [getToken, getToken, List.getElem?_map]
      cases htoken : tokens[i]? with
      | none => rfl
      | some token =>
        exact caseCompare_append hkeyword (htokens token (List.mem_of_getElem? htoken)) hbehind
    simp only [processRule, List.length_map, hcompare, ihAnd hand, ihOr hor]

theorem detectQueryType_append {front text behind : List UInt8} {tokens : List ℕ}
    (htokens : ∀ token ∈ tokens, token ≤ text.length)
    (hbehind : ∀ c, behind.head? = some c → isspace c = true) :
    detectQueryType (front ++ (text ++ behind)) (tokens.map (front.length + ·)) =
      detectQueryType text tokens := by
  have hletters : ∀ rule ∈ queryTypeRules, rule.letters = true := by
    have hall : queryTypeRules.all QueryTypeResolving.letters = true := by decide
    exact List.all_eq_true.mp hall
  rw [detectQueryType, detectQueryType]
  congr 1
  generalize queryTypeRules = rules at hletters ⊢
  induction rules with
  | nil => rfl
  | cons rule rules ih =>
    obtain ⟨hrule, hrules⟩ := List.forall_mem_cons.mp hletters
    rw [List.findSome?_cons, List.findSome?_cons, processRule_append htokens hbehind rule hrule,
      ih hrules]

theorem map_uint {offsets : List ℕ} (h : ∀ offset ∈ offsets, offset < 2 ^ 32) :
    offsets.map uint = offsets := by
  refine (List.map_congr_left fun offset hoffset => ?_).trans (List.map_id _)
  exact uint_eq_self (h offset hoffset)

/-- The marks stand inside the query. -/
theorem offsetsOf_inside {cs : Ctype} {query : List UInt8} {kind : ReadingMark} {offset : ℕ}
    (h : offset ∈ offsetsOf kind (readingOf cs query)) : offset < query.length := by
  obtain ⟨mark, hmark, rfl⟩ := List.mem_map.mp h
  have hinside := Transducer.run_inside (List.mem_filter.mp hmark).1
  omega

/-- Braces that are seen are blanked, the first token goes with the opening brace, and the
token of the closing brace goes, too. -/
theorem removeBraces_of_seen {text : List UInt8} {p : MyParser} {first last : ℕ}
    {tokens closing : List ℕ} (htokens : p.token2 = first :: tokens ++ closing)
    (hclosing : closing = [] ∨ closing = [last]) (hlast : p.lastChar = some last)
    (hopen : text[first]? = some 0x7b) (hclose : text[last]? = some 0x7d)
    (hbefore : ∀ token ∈ tokens, token ≠ last) :
    (removeBraces cs.toCtype text p).1 = (text.set first 0x20).set last 0x20 ∧
      (removeBraces cs.toCtype text p).2.token2 = tokens := by
  have htoken : getToken p.token2 0 = some first := by
    rw [htokens]
    rfl
  have hne : first ≠ last := by
    rintro rfl
    rw [hopen] at hclose
    exact absurd hclose (by decide)
  have hinside : first < text.length := (List.getElem?_eq_some_iff.mp hopen).1
  have hblank : ((text.set first 0x20).set last 0x20).drop first =
      0x20 :: ((text.set first 0x20).set last 0x20).drop (first + 1) := by
    rw [List.drop_eq_getElem_cons (by simpa using hinside),
      List.getElem_set_of_ne (Ne.symm hne), List.getElem_set_self]
  have hspace : ∀ q : MyParser, q.pos = first →
      isSpace (getCtype cs.toCtype ((text.set first 0x20).set last 0x20) q) = true := by
    intro q hq
    have hfresh : CursorFresh cs.toCtype ((text.set first 0x20).set last 0x20)
      (getCtype cs.toCtype ((text.set first 0x20).set last 0x20) q) := fresh_getCtype
    rw [hfresh.isSpace_eq (by rw [getCtype_pos, hq]; exact hblank)]
    exact cs.ctype_space _
  unfold removeBraces
  rw [htoken, hlast]
  dsimp only
  rw [if_pos ⟨hopen, hclose⟩]
  refine ⟨rfl, ?_⟩
  dsimp only
  rw [if_pos (hspace _ rfl), getCtype_token2, htokens]
  obtain rfl | rfl := hclosing
  · rw [List.append_nil, List.drop_one, List.tail_cons, if_neg]
    intro hgetLast
    exact hbefore last (List.mem_of_getLast? hgetLast) rfl
  · rw [List.cons_append, List.drop_one, List.tail_cons, if_pos (by simp), List.dropLast_concat]

/-- A query that is not in braces keeps its text and its tokens. -/
theorem removeBraces_of_unbraced {cs : Ctype} {query : List UInt8} (h : ¬ InBraces cs query)
    (hlength : query.length ≤ 2 ^ 32) :
    removeBraces cs query (tokenize cs query) = (query, tokenize cs query) := by
  obtain ⟨htokens, -, hlast⟩ := tokenize_reading cs query
  rw [map_uint fun offset hoffset => (offsetsOf_inside hoffset).trans_le hlength] at htokens
  unfold removeBraces
  split
  · next first last hfirst hlastChar =>
    rw [if_neg]
    rintro ⟨hopen, hclose⟩
    refine h ⟨first, last, ?_, ?_, hopen, hclose⟩
    · rw [← htokens, List.head?_eq_getElem?]
      exact hfirst
    · rw [← hlast]
      exact hlastChar
  · rfl

/-- The text of a query in braces, cut in front of the closing brace. -/
theorem bracedQuery_eq : bracedQuery before between query after behind =
    (before ++ 0x7b :: (between ++ (query ++ after))) ++ 0x7d :: behind := by
  simp [bracedQuery]

theorem length_front_closing (before between query after : List UInt8) :
    (before ++ 0x7b :: (between ++ (query ++ after))).length =
    closingBrace before between query after := by
  simp only [closingBrace, List.length_append, List.length_cons]
  omega

/-- The braces of the text, and the text with blanks in their place. -/
theorem bracedQuery_braces :
    (bracedQuery before between query after behind)[before.length]? = some 0x7b ∧
      (bracedQuery before between query after behind)[closingBrace before between query after]? =
        some 0x7d ∧
      ((bracedQuery before between query after behind).set before.length 0x20).set
          (closingBrace before between query after) 0x20 =
        before ++ 0x20 :: (between ++ (query ++ (after ++ 0x20 :: behind))) := by
  refine ⟨?_, ?_, ?_⟩
  · rw [bracedQuery, List.getElem?_append_right le_rfl, Nat.sub_self]
    rfl
  · rw [bracedQuery_eq, ← length_front_closing before between query after,
      List.getElem?_append_right le_rfl, Nat.sub_self]
    rfl
  · have hfirst : (bracedQuery before between query after behind).set before.length 0x20 =
        (before ++ 0x20 :: (between ++ (query ++ after))) ++ 0x7d :: behind := by
      rw [bracedQuery, List.set_append_right _ _ le_rfl, Nat.sub_self, List.set_cons_zero]
      simp
    have hlength : (before ++ 0x20 :: (between ++ (query ++ after))).length =
        closingBrace before between query after := by
      simp only [closingBrace, List.length_append, List.length_cons]
      omega
    rw [hfirst, ← hlength, List.set_append_right _ _ le_rfl, Nat.sub_self, List.set_cons_zero]
    simp

theorem parse_queryType (cs : Ctype) (query : List UInt8) : (parse cs query).queryType =
    detectQueryType (removeBraces cs query (tokenize cs query)).1
      (removeBraces cs query (tokenize cs query)).2.token2 := rfl

theorem parse_tokenize_paramPos (cs : Ctype) (query : List UInt8) :
    (parse cs query).paramPos = (tokenize cs query).paramPos :=
  removeBraces_paramPos cs query _

/-- Braces that are seen are transparent. -/
theorem parse_braceTransparent (cs : QueryCtype) (before between query after behind : List UInt8)
    (hbefore : Blank before) (hbetween : Blank between) (hafter : Blank after)
    (hbehind : Blank behind)
    (hlength : (bracedQuery before between query after behind).length ≤ 2 ^ 32)
    (h : BracesSeen cs.toCtype between query after behind) :
    BraceTransparent cs.toCtype before between query after behind := by
  obtain ⟨closing, hclosing, htokens, hmarkers, hlast⟩ :=
    readingOf_bracedQuery hbefore hbetween hafter hbehind h
  obtain ⟨htoken2, hparamPos, hlastChar⟩ :=
    tokenize_reading cs.toCtype (bracedQuery before between query after behind)
  obtain ⟨htoken2', hparamPos', -⟩ := tokenize_reading cs.toCtype query
  obtain ⟨hopen, hclose, htext⟩ := @bracedQuery_braces before between query after behind
  have hfits : ∀ kind, ∀ offset ∈ offsetsOf kind
      (readingOf cs.toCtype (bracedQuery before between query after behind)), offset < 2 ^ 32 :=
    fun kind offset hoffset => (offsetsOf_inside hoffset).trans_le hlength
  have hquery : query.length ≤ 2 ^ 32 := by
    refine le_trans ?_ hlength
    simp only [bracedQuery, List.length_append, List.length_cons]
    omega
  have hfits' : ∀ kind, ∀ offset ∈ offsetsOf kind (readingOf cs.toCtype query), offset < 2 ^ 32 :=
    fun kind offset hoffset => (offsetsOf_inside hoffset).trans_le hquery
  rw [map_uint (hfits .token), htokens] at htoken2
  rw [map_uint (hfits .marker), hmarkers] at hparamPos
  rw [map_uint (hfits' .token)] at htoken2'
  rw [map_uint (hfits' .marker)] at hparamPos'
  have hbefore' : ∀ token ∈ (offsetsOf .token (readingOf cs.toCtype query)).map
      (before.length + 1 + between.length + ·),
        token ≠ closingBrace before between query after := by
    intro token htoken
    obtain ⟨offset, hoffset, rfl⟩ := List.mem_map.mp htoken
    have hinside := offsetsOf_inside hoffset
    unfold closingBrace
    omega
  obtain ⟨hremoved, hremovedTokens⟩ := @removeBraces_of_seen cs _ _ _ _ _ _ htoken2 hclosing
    (hlastChar.trans hlast) hopen hclose hbefore'
  have hunbraced := removeBraces_of_unbraced h.unbraced hquery
  refine ⟨?_, ?_, ?_⟩
  · rw [parse_queryType, parse_queryType, hremoved, hremovedTokens, hunbraced, htext, htoken2']
    have hfront : (before ++ 0x20 :: between).length = before.length + 1 + between.length := by
      simp only [List.length_append, List.length_cons]
      omega
    have hsplit : before ++ 0x20 :: (between ++ (query ++ (after ++ 0x20 :: behind))) =
        (before ++ 0x20 :: between) ++ (query ++ (after ++ 0x20 :: behind)) := by
      simp
    rw [hsplit, ← hfront]
    refine detectQueryType_append (fun token htoken => (offsetsOf_inside htoken).le) ?_
    intro c hc
    cases after with
    | nil =>
      obtain rfl : 0x20 = c := by simpa using hc
      decide
    | cons d after =>
      obtain rfl : d = c := by simpa using hc
      exact hafter d List.mem_cons_self
  · rw [parse_tokenize_paramPos, parse_tokenize_paramPos, hparamPos, hparamPos']
  · exact hremoved.trans htext

end Reading

/-- In a single-byte character set every character is whole. -/
theorem wholeChars_ctype8bit {table : List ℕ} {hbytes : ∀ c ∈ syntaxBytes,
    table.getD (c.toNat + 1) 0 &&& MY_SPC = 0 ∧ table.getD (c.toNat + 1) 0 &&& MY_CTR = 0}
    (text : List UInt8) : WholeChars (ctype8bit table hbytes) text := by
  induction text with
  | nil => exact .nil
  | cons c text ih => exact .cons (fun _ => rfl) (Nat.zero_le _) ih

/-- The handler of `latin1` knows the blanks and the braces. -/
def queryLatin1 : QueryCtype where
  toCtype := ctypeLatin1
  ctype_alone _ _ _ := rfl
  ctype_blank c hc s := by
    have hall : ∀ c ∈ [(0x20 : UInt8), 0x09, 0x0a, 0x0b, 0x0c, 0x0d],
        ctypeLatin1Array.getD (c.toNat + 1) 0 &&& MY_SPC ≠ 0 :=
      List.all_iff_forall_prop.mp (by decide)
    have hmem : c ∈ [(0x20 : UInt8), 0x09, 0x0a, 0x0b, 0x0c, 0x0d] := by
      simp only [isspace, Bool.or_eq_true, beq_iff_eq, Bool.and_eq_true, decide_eq_true_eq] at hc
      obtain rfl | ⟨hlow, hhigh⟩ := hc
      · decide
      · have hlow' : 0x09 ≤ c.toNat := hlow
        have hhigh' : c.toNat ≤ 0x0d := hhigh
        have hcases : c.toNat = 0x09 ∨ c.toNat = 0x0a ∨ c.toNat = 0x0b ∨ c.toNat = 0x0c ∨
            c.toNat = 0x0d := by omega
        rw [← UInt8.ofNat_toNat (x := c)]
        obtain h | h | h | h | h := hcases <;> rw [h] <;> decide
    exact Or.inl (decide_eq_true (hall c hmem))
  ctype_space _ := decide_eq_true
    (by decide : ctypeLatin1Array.getD ((0x20 : UInt8).toNat + 1) 0 &&& MY_SPC ≠ 0)
  ctype_brace c hc s := by
    have hall : ∀ c ∈ [(0x7b : UInt8), 0x7d],
        ctypeLatin1Array.getD (c.toNat + 1) 0 &&& MY_SPC = 0 ∧
          ctypeLatin1Array.getD (c.toNat + 1) 0 &&& MY_CTR = 0 :=
      List.all_iff_forall_prop.mp (by decide)
    obtain ⟨hspace, hcontrol⟩ := hall c (by simpa using hc)
    exact ⟨decide_eq_false (not_not.mpr hspace), decide_eq_false (not_not.mpr hcontrol)⟩

/-- `call p`. -/
def callQuery : List UInt8 := [0x63, 0x61, 0x6c, 0x6c, 0x20, 0x70]

/-- `{ call p }` is parsed as `call p`. -/
theorem parse_braceTransparent_spaced :
    BraceTransparent queryLatin1.toCtype [] [0x20] callQuery [0x20] [] := by
  have hreading : readingOf ctypeLatin1 callQuery =
      [(.token, 0), (.last, 0), (.last, 1), (.last, 2), (.last, 3), (.token, 5), (.last, 5)] := by
    decide +kernel
  refine parse_braceTransparent queryLatin1 [] [0x20] callQuery [0x20] [] nofun
    (by simp [Blank]; decide) (by simp [Blank]; decide) nofun (by decide)
    ⟨.space (queryLatin1.ctype_space _), by decide +kernel, Or.inl rfl, ?_, wholeChars_ctype8bit _⟩
  rintro ⟨first, last, hfirst, -, hopen, -⟩
  have hfirst' : (offsetsOf .token (readingOf ctypeLatin1 callQuery)).head? = some first := hfirst
  rw [hreading] at hfirst'
  obtain rfl : 0 = first := by simpa [offsetsOf] using hfirst'
  exact absurd hopen (by decide)

/-- `{call p}` loses its first word with the opening brace. -/
theorem parse_braced_not_transparent :
    ¬ ∀ (cs : QueryCtype) (before between query after behind : List UInt8), Blank before →
      Blank between → Blank after → Blank behind →
        BraceTransparent cs.toCtype before between query after behind := by
  intro hall
  have htransparent := hall queryLatin1 [] [] callQuery [] [] nofun nofun nofun nofun
  have htype := htransparent.queryType
  revert htype
  decide +kernel

end MatrixOdbc.Driver
