import MatrixOdbc.Driver.Parse

/-!
# What the parser reads

The bytes of the query that each function of the parser reads at most, and the tokens it
asks for, in the order of the source. `parse` stays inside the query, and inside its tokens
where there are any.
-/

namespace MatrixOdbc.Driver

open MysqlStrings

/-- An access of the parser: bytes that are read through a pointer, which may be null, and
a token that is asked for by its index, out of a number of tokens. -/
inductive ParserAccess where
  | bytes (pos : Option ℕ) (len : ℕ)
  | token (index count : ℕ)
  deriving DecidableEq

/-- The bytes are those of a text, and the token is there. Without tokens the first one is
asked for. -/
def ParserAccess.Inside (length : ℕ) : ParserAccess → Prop
  | bytes pos len => ∃ offset, pos = some offset ∧ offset + len ≤ length
  | token index count => index < count ∨ index = 0 ∧ count = 0

section Accesses

variable (cs : Ctype) (query : List UInt8)

/-- The accesses of `get_ctype`, which hands the rest of the query on. -/
def getCtypeAccesses (p : MyParser) : List ParserAccess :=
  if endNotReached query p then [.bytes (some p.pos) (query.length - p.pos)] else []

/-- The accesses of `parser_compare`. -/
def parserCompareAccesses (p : MyParser) (str : List UInt8) : List ParserAccess :=
  if (str.length : ℤ) ≤ query.length - p.pos then [.bytes (some p.pos) str.length] else []

/-- The accesses of a comparison of the character at the cursor with a single byte. -/
def charIsAccesses (p : MyParser) : List ParserAccess :=
  if p.bytesAtPos = 1 then [.bytes (some p.pos) 1] else []

/-- The accesses of `step_char`. -/
def stepCharAccesses (p : MyParser) : List ParserAccess :=
  getCtypeAccesses query { p with pos := p.pos + if p.bytesAtPos = 0 then 1 else p.bytesAtPos }

/-- The accesses of `skip_spaces`. -/
def skipSpacesAccesses (p : MyParser) : List ParserAccess :=
  if _hmore : endNotReached query p ∧ (isSpace p || isSplChar p) then
    stepCharAccesses query p ++ skipSpacesAccesses (stepChar cs query p)
  else []
  termination_by query.length - p.pos
  decreasing_by
    have := lt_stepChar_pos cs query p
    simp only [endNotReached, decide_eq_true_eq] at _hmore
    omega

/-- The accesses of the condition of `skip_comment`, while the end is not reached. -/
def inCommentAccesses (p : MyParser) : List ParserAccess :=
  (if p.hashComment then parserCompareAccesses query p ansiSyntaxMarkers.newLineEnd else []) ++
    (if p.dashComment then parserCompareAccesses query p ansiSyntaxMarkers.newLineEnd else []) ++
    if p.cStyleComment then parserCompareAccesses query p ansiSyntaxMarkers.cStyleCloseComment
    else []

/-- The accesses of `skip_comment`. -/
def skipCommentAccesses (p : MyParser) : List ParserAccess :=
  if _hmore : endNotReached query p then
    inCommentAccesses query p ++
      if p.hashComment && !parserCompare query p ansiSyntaxMarkers.newLineEnd ||
          p.dashComment && !parserCompare query p ansiSyntaxMarkers.newLineEnd ||
          p.cStyleComment && !parserCompare query p ansiSyntaxMarkers.cStyleCloseComment then
        stepCharAccesses query p ++ skipCommentAccesses (stepChar cs query p)
      else []
  else []
  termination_by query.length - p.pos
  decreasing_by
    have := lt_stepChar_pos cs query p
    simp only [endNotReached, decide_eq_true_eq] at _hmore
    omega

/-- The accesses of `is_quote`. -/
def isQuoteAccesses (p : MyParser) : List ParserAccess :=
  ansiSyntaxMarkers.quote.flatMap fun _ => charIsAccesses p

/-- The accesses of `is_comment`. -/
def isCommentAccesses (p : MyParser) : List ParserAccess :=
  parserCompareAccesses query p ansiSyntaxMarkers.hashComment ++
    parserCompareAccesses query p ansiSyntaxMarkers.dashComment ++
    parserCompareAccesses query p ansiSyntaxMarkers.cVarOpenComment ++
    parserCompareAccesses query p ansiSyntaxMarkers.cStyleOpenComment

/-- The accesses of `find_closing_quote`. -/
def findClosingQuoteAccesses (p : MyParser) : List ParserAccess :=
  if _hmore : endNotReached query p then
    charIsAccesses p ++
      if isEscape query p then
        stepCharAccesses query p ++ stepCharAccesses query (stepChar cs query p) ++
          findClosingQuoteAccesses (stepChar cs query (stepChar cs query p))
      else
        charIsAccesses p ++
          if isClosingQuote query p then
            let next := getCtype cs query (stepChar cs query p)
            stepCharAccesses query p ++ getCtypeAccesses query (stepChar cs query p) ++
              (if next.bytesAtPos = 0 then [] else isQuoteAccesses next) ++
              match if next.bytesAtPos = 0 then none else isQuote query next with
              | some quote =>
                stepCharAccesses query (openQuote quote next) ++
                  findClosingQuoteAccesses (stepChar cs query (openQuote quote next))
              | none => []
          else stepCharAccesses query p ++ findClosingQuoteAccesses (stepChar cs query p)
  else []
  termination_by query.length - p.pos
  decreasing_by
    all_goals
      have hfirst := lt_stepChar_pos cs query p
      simp only [endNotReached, decide_eq_true_eq] at _hmore
    · have := lt_stepChar_pos cs query (stepChar cs query p)
      omega
    · have hsecond := lt_stepChar_pos cs query (openQuote quote next)
      have hnext : (openQuote quote next).pos = (stepChar cs query p).pos := getCtype_pos cs query _
      show query.length - (stepChar cs query (openQuote quote next)).pos < query.length - p.pos
      omega
    · omega

/-- The accesses of `is_query_separator`. -/
def isQuerySeparatorAccesses (p : MyParser) : List ParserAccess :=
  ansiSyntaxMarkers.querySep.flatMap (parserCompareAccesses query p) ++
    match ansiSyntaxMarkers.querySep.find? (parserCompare query p ·) with
    | some sep => getCtypeAccesses query { p with pos := p.pos + sep.length }
    | none => []

/-- The accesses of `tokenize` behind the blanks of an iteration. -/
def tokenizeCharAccesses (p : MyParser) : List ParserAccess :=
  isQuerySeparatorAccesses query p ++
    match isQuerySeparator cs query p with
    | some next => skipSpacesAccesses cs query next
    | none =>
      let p := { p with lastChar := some p.pos }
      isQuoteAccesses p ++
        match isQuote query p with
        | some quote => stepCharAccesses query (addToken query (openQuote quote p))
        | none =>
          let (comment, p) := isComment query p
          isCommentAccesses query p ++
            if comment then skipCommentAccesses cs query p
            else charIsAccesses p ++ stepCharAccesses query p

/-- The accesses of one iteration of the loop of `tokenize`. -/
def tokenizeIterationAccesses (p : MyParser) : List ParserAccess :=
  if p.quote.isSome then findClosingQuoteAccesses cs query p
  else if isSpace p then
    let next := skipSpaces cs query (stepChar cs query p)
    stepCharAccesses query p ++ skipSpacesAccesses cs query (stepChar cs query p) ++
      if endNotReached query next then tokenizeCharAccesses cs query (addToken query next) else []
  else tokenizeCharAccesses cs query p

/-- The accesses of the loop of `tokenize`. -/
def tokenizeLoopAccesses (p : MyParser) : List ParserAccess :=
  if _hmore : endNotReached query p then
    tokenizeIterationAccesses cs query p ++ tokenizeLoopAccesses (tokenizeIteration cs query p)
  else []
  termination_by query.length - p.pos
  decreasing_by
    have := lt_tokenizeIteration_pos cs query _hmore
    simp only [endNotReached, decide_eq_true_eq] at _hmore
    omega

/-- The accesses of `init_parser`. -/
def initParserAccesses : List ParserAccess :=
  getCtypeAccesses query
    { pos := 0, bytesAtPos := 0, ctype := 0, quote := none, hashComment := false,
      dashComment := false, cStyleComment := false, token2 := [], paramPos := [],
      lastChar := none }

/-- The accesses of `tokenize`, with those of `init_parser`. -/
def tokenizeAccesses : List ParserAccess :=
  initParserAccesses query ++ skipSpacesAccesses cs query (initParser cs query) ++
    tokenizeLoopAccesses cs query (addToken query (skipSpaces cs query (initParser cs query)))

/-- The accesses of `remove_braces`. -/
def removeBracesAccesses (p : MyParser) : List ParserAccess :=
  match getToken p.token2 0 with
  | none => []
  | some token =>
    .token 0 p.token2.length :: .bytes (some token) 1 ::
      if query[token]? = some ansiSyntaxMarkers.odbcEscapeOpen then
        match p.lastChar with
        | none => []
        | some lastChar =>
          .bytes (some lastChar) 1 ::
            if query[lastChar]? = some ansiSyntaxMarkers.odbcEscapeClose then
              let query := (query.set token 0x20).set lastChar 0x20
              let tokens := if isSpace (getCtype cs query { p with pos := token }) then
                p.token2.drop 1 else p.token2
              getCtypeAccesses query { p with pos := token } ++
                if tokens.length = 0 then [] else [.token (tokens.length - 1) tokens.length]
            else []
      else []

/-- The accesses of `case_compare`; `myodbc_casecmp` takes a null pointer as a different
text. -/
def caseCompareAccesses (pos : Option ℕ) (keyword : List Char) : List ParserAccess :=
  match pos with
  | none => []
  | some offset =>
    if (keyword.length : ℤ) ≤ query.length - offset then [.bytes pos keyword.length] else []

/-- The accesses of `process_rule`: the loop over the tokens ends at one that matches. -/
def processRuleAccesses (token2 : List ℕ) : QueryTypeResolving → List ParserAccess
  | .null => []
  | .rule keyword posFrom posThru _ andRule orRule =>
    let last := min (if 0 < posThru then posThru else posFrom)
      (if token2.length = 0 then 2 ^ 64 - 1 else token2.length - 1)
    let indices := List.range' posFrom (last + 1 - posFrom)
    let found := indices.find? fun i => caseCompare query (getToken token2 i) keyword
    let seen := (indices.takeWhile fun i => !caseCompare query (getToken token2 i) keyword) ++
      found.toList
    (seen.flatMap fun i =>
        .token i token2.length :: caseCompareAccesses query (getToken token2 i) keyword) ++
      if found.isSome then processRuleAccesses token2 andRule
      else processRuleAccesses token2 orRule

/-- The accesses of `detect_query_type`, up to the rule that succeeds. -/
def detectQueryTypeAccesses (token2 : List ℕ) : List QueryTypeResolving → List ParserAccess
  | [] => []
  | rule :: rules =>
    processRuleAccesses query token2 rule ++
      if (processRule query token2 rule).isSome then [] else detectQueryTypeAccesses token2 rules

/-- The accesses of `parse`. -/
def parseAccesses : List ParserAccess :=
  let p := tokenize cs query
  let (text, p') := removeBraces cs query p
  tokenizeAccesses cs query ++ removeBracesAccesses cs query p ++
    detectQueryTypeAccesses text p'.token2 queryTypeRules

variable {cs query} {p : MyParser}

/-- Every access of a list is inside the query. -/
def AllInside (query : List UInt8) (accesses : List ParserAccess) : Prop :=
  ∀ access ∈ accesses, access.Inside query.length

theorem allInside_nil : AllInside query [] := by
  intro access h
  exact absurd h List.not_mem_nil

theorem AllInside.append {l l' : List ParserAccess} (h : AllInside query l)
    (h' : AllInside query l') : AllInside query (l ++ l') := by
  intro access hmem
  rcases List.mem_append.mp hmem with hmem | hmem
  · exact h access hmem
  · exact h' access hmem

theorem AllInside.cons {access : ParserAccess} {l : List ParserAccess}
    (h : access.Inside query.length) (h' : AllInside query l) : AllInside query (access :: l) :=
  List.forall_mem_cons.mpr ⟨h, h'⟩

theorem AllInside.flatMap {α : Type} {l : List α} {f : α → List ParserAccess}
    (h : ∀ a ∈ l, AllInside query (f a)) : AllInside query (l.flatMap f) := by
  intro access hmem
  obtain ⟨a, ha, hmem⟩ := List.mem_flatMap.mp hmem
  exact h a ha access hmem

theorem AllInside.ite {c : Prop} [Decidable c] {l l' : List ParserAccess}
    (h : c → AllInside query l) (h' : ¬ c → AllInside query l') :
    AllInside query (if c then l else l') := by
  split_ifs with hc
  · exact h hc
  · exact h' hc

/-- Only the length of the query matters. -/
theorem AllInside.of_length {text : List UInt8} {l : List ParserAccess} (h : AllInside text l)
    (hlength : text.length = query.length) : AllInside query l := by
  unfold AllInside at *
  rwa [← hlength]

theorem pos_lt (h : endNotReached query p = true) : p.pos < query.length := by
  simpa [endNotReached] using h

theorem getCtypeAccesses_inside : AllInside query (getCtypeAccesses query p) := by
  refine .ite (fun h => .cons ⟨p.pos, rfl, ?_⟩ allInside_nil) fun _ => allInside_nil
  have hlt := pos_lt h
  omega

theorem parserCompareAccesses_inside {str : List UInt8} :
    AllInside query (parserCompareAccesses query p str) := by
  refine .ite (fun h => .cons ⟨p.pos, rfl, ?_⟩ allInside_nil) fun _ => allInside_nil
  omega

theorem charIsAccesses_inside (h : endNotReached query p = true) :
    AllInside query (charIsAccesses p) :=
  .ite (fun _ => .cons ⟨p.pos, rfl, pos_lt h⟩ allInside_nil) fun _ => allInside_nil

theorem stepCharAccesses_inside : AllInside query (stepCharAccesses query p) :=
  getCtypeAccesses_inside

theorem isQuoteAccesses_inside (h : endNotReached query p = true) :
    AllInside query (isQuoteAccesses p) :=
  .flatMap fun _ _ => charIsAccesses_inside h

theorem isCommentAccesses_inside : AllInside query (isCommentAccesses query p) :=
  ((parserCompareAccesses_inside.append parserCompareAccesses_inside).append
    parserCompareAccesses_inside).append parserCompareAccesses_inside

theorem isQuerySeparatorAccesses_inside : AllInside query (isQuerySeparatorAccesses query p) := by
  refine .append (.flatMap fun _ _ => parserCompareAccesses_inside) ?_
  split
  · exact getCtypeAccesses_inside
  · exact allInside_nil

theorem inCommentAccesses_inside : AllInside query (inCommentAccesses query p) := by
  refine .append (.append ?_ ?_) ?_ <;>
    exact .ite (fun _ => parserCompareAccesses_inside) fun _ => allInside_nil

theorem skipSpacesAccesses_inside (p : MyParser) :
    AllInside query (skipSpacesAccesses cs query p) := by
  fun_induction skipSpacesAccesses cs query p with
  | case1 p _ ih => exact stepCharAccesses_inside.append ih
  | case2 p _ => exact allInside_nil

theorem skipCommentAccesses_inside (p : MyParser) :
    AllInside query (skipCommentAccesses cs query p) := by
  fun_induction skipCommentAccesses cs query p with
  | case1 p _ ih =>
    refine inCommentAccesses_inside.append (.ite (fun _ => ?_) fun _ => allInside_nil)
    exact stepCharAccesses_inside.append ih
  | case2 p _ => exact allInside_nil

/-- The character behind a closing quote is compared only where there is one. -/
theorem endNotReached_of_bytesAtPos {next : MyParser} (hnext : next = getCtype cs query p)
    (h : next.bytesAtPos ≠ 0) : endNotReached query next = true := by
  subst hnext
  unfold getCtype at h ⊢
  split_ifs at h ⊢ with hmore
  · exact hmore
  · exact absurd rfl h

theorem findClosingQuoteAccesses_inside (p : MyParser) :
    AllInside query (findClosingQuoteAccesses cs query p) := by
  fun_induction findClosingQuoteAccesses cs query p with
  | case1 p hmore ih1 ih2 ih3 =>
    have hchar := charIsAccesses_inside hmore
    refine hchar.append (.ite (fun _ => ?_) fun _ => hchar.append (.ite (fun _ => ?_) fun _ => ?_))
    · exact (stepCharAccesses_inside.append stepCharAccesses_inside).append ih1
    · refine AllInside.append ((stepCharAccesses_inside.append getCtypeAccesses_inside).append
        (.ite (fun _ => allInside_nil) fun hbytes => ?_)) ?_
      · exact isQuoteAccesses_inside (endNotReached_of_bytesAtPos rfl hbytes)
      · split
        · exact stepCharAccesses_inside.append (ih2 _)
        · exact allInside_nil
    · exact stepCharAccesses_inside.append ih3
  | case2 p _ => exact allInside_nil

theorem tokenizeCharAccesses_inside (h : endNotReached query p = true) :
    AllInside query (tokenizeCharAccesses cs query p) := by
  apply isQuerySeparatorAccesses_inside.append
  split
  · exact skipSpacesAccesses_inside _
  · have hquote : AllInside query (isQuoteAccesses { p with lastChar := some p.pos }) :=
      isQuoteAccesses_inside h
    apply hquote.append
    split
    · exact stepCharAccesses_inside
    · have hcomment : endNotReached query
          (isComment query { p with lastChar := some p.pos }).2 = true := by
        simpa [endNotReached] using h
      refine isCommentAccesses_inside.append (.ite (fun _ => ?_) fun _ => ?_)
      · exact skipCommentAccesses_inside _
      · exact (charIsAccesses_inside hcomment).append stepCharAccesses_inside

theorem tokenizeIterationAccesses_inside (h : endNotReached query p = true) :
    AllInside query (tokenizeIterationAccesses cs query p) := by
  refine .ite (fun _ => findClosingQuoteAccesses_inside p) fun _ => .ite (fun _ => ?_) fun _ => ?_
  · refine (stepCharAccesses_inside.append (skipSpacesAccesses_inside _)).append
      (.ite (fun hmore => tokenizeCharAccesses_inside ?_) fun _ => allInside_nil)
    simpa [endNotReached] using hmore
  · exact tokenizeCharAccesses_inside h

theorem tokenizeLoopAccesses_inside (p : MyParser) :
    AllInside query (tokenizeLoopAccesses cs query p) := by
  fun_induction tokenizeLoopAccesses cs query p with
  | case1 p hmore ih => exact (tokenizeIterationAccesses_inside hmore).append ih
  | case2 p _ => exact allInside_nil

theorem tokenizeAccesses_inside : AllInside query (tokenizeAccesses cs query) :=
  (getCtypeAccesses_inside.append (skipSpacesAccesses_inside _)).append
    (tokenizeLoopAccesses_inside _)

/-- The tokens and the last character are offsets into the query. -/
structure TokensInside (query : List UInt8) (p : MyParser) : Prop where
  tokens : ∀ token ∈ p.token2, token < query.length
  lastChar : ∀ offset, p.lastChar = some offset → offset < query.length

/-- The cursor moves on without a new token. -/
theorem TokensInside.of_eq {p' : MyParser} (h : TokensInside query p)
    (htokens : p'.token2 = p.token2) (hlast : p'.lastChar = p.lastChar) :
    TokensInside query p' :=
  ⟨htokens ▸ h.tokens, hlast ▸ h.lastChar⟩

theorem TokensInside.stepChar (h : TokensInside query p) :
    TokensInside query (Driver.stepChar cs query p) :=
  h.of_eq (stepChar_token2 cs query p) (stepChar_lastChar cs query p)

theorem TokensInside.getCtype (h : TokensInside query p) :
    TokensInside query (Driver.getCtype cs query p) :=
  h.of_eq (getCtype_token2 cs query p) (getCtype_lastChar cs query p)

theorem TokensInside.addToken (h : TokensInside query p) :
    TokensInside query (Driver.addToken query p) := by
  unfold Driver.addToken
  split_ifs with hmore
  · refine ⟨fun token htoken => ?_, h.lastChar⟩
    rcases List.mem_append.mp htoken with htoken | htoken
    · exact h.tokens token htoken
    · rw [List.mem_singleton.mp htoken]
      exact (Nat.mod_le _ _).trans_lt (pos_lt hmore)
  · exact h

theorem TokensInside.skipSpaces (h : TokensInside query p) :
    TokensInside query (Driver.skipSpaces cs query p) := by
  fun_induction Driver.skipSpaces cs query p with
  | case1 p _ ih => exact ih h.stepChar
  | case2 p _ => exact h

theorem TokensInside.skipComment (h : TokensInside query p) :
    TokensInside query (Driver.skipComment cs query p) := by
  fun_induction Driver.skipComment cs query p with
  | case1 p _ ih => exact ih h.stepChar
  | case2 p _ => exact h

theorem TokensInside.isComment (h : TokensInside query p) :
    TokensInside query (Driver.isComment query p).2 := by
  unfold Driver.isComment
  dsimp only
  split_ifs <;> exact ⟨h.tokens, h.lastChar⟩

/-- The closing quote that is found is inside the query, as the one found before. -/
theorem TokensInside.findClosingQuote {closingQuote : Option ℕ} (h : TokensInside query p)
    (hclosing : ∀ offset, closingQuote = some offset → offset < query.length) :
    TokensInside query (Driver.findClosingQuote cs query closingQuote p).2 ∧
      ∀ offset, (Driver.findClosingQuote cs query closingQuote p).1 = some offset →
        offset < query.length := by
  fun_induction Driver.findClosingQuote cs query closingQuote p with
  | case1 closingQuote p _ _ ih => exact ih h.stepChar.stepChar hclosing
  | case2 closingQuote p hmore _ _ next quote _ ih =>
    refine ih ?_ fun offset hoffset => ?_
    · have hnext : TokensInside query next := h.stepChar.getCtype
      have hopen : TokensInside query (openQuote quote next) := ⟨hnext.tokens, hnext.lastChar⟩
      exact hopen.stepChar
    · exact Option.some.inj hoffset ▸ pos_lt hmore
  | case3 closingQuote p hmore _ _ next _ =>
    exact ⟨h.stepChar.getCtype, fun offset hoffset => Option.some.inj hoffset ▸ pos_lt hmore⟩
  | case4 closingQuote p _ _ _ ih => exact ih h.stepChar hclosing
  | case5 closingQuote p _ => exact ⟨h, hclosing⟩

theorem TokensInside.tokenizeChar (h : TokensInside query p) (hmore : endNotReached query p = true) :
    TokensInside query (Driver.tokenizeChar cs query p) := by
  unfold Driver.tokenizeChar isQuerySeparator
  split
  · rename_i next hsep
    split at hsep
    · rename_i sep _
      obtain rfl := Option.some.inj hsep
      have hnext : TokensInside query { p with pos := p.pos + sep.length } :=
        ⟨h.tokens, h.lastChar⟩
      exact hnext.getCtype.skipSpaces.addToken
    · exact absurd hsep (by simp)
  · have hlast : TokensInside query { p with lastChar := some p.pos } :=
      ⟨h.tokens, fun offset hoffset => Option.some.inj hoffset ▸ pos_lt hmore⟩
    dsimp only
    split
    · rename_i quote _
      have hopen : TokensInside query (openQuote quote { p with lastChar := some p.pos }) :=
        ⟨hlast.tokens, hlast.lastChar⟩
      exact hopen.addToken.stepChar
    · split_ifs
      · exact hlast.isComment.skipComment
      · have hmarker : TokensInside query
            (addParameter (Driver.isComment query { p with lastChar := some p.pos }).2) :=
          ⟨hlast.isComment.tokens, hlast.isComment.lastChar⟩
        exact hmarker.stepChar
      · exact hlast.isComment.stepChar

theorem TokensInside.tokenizeIteration (h : TokensInside query p)
    (hmore : endNotReached query p = true) :
    TokensInside query (Driver.tokenizeIteration cs query p) := by
  unfold Driver.tokenizeIteration
  split_ifs with hquote hspace
  · have hfound : TokensInside query (Driver.findClosingQuote cs query none p).2 ∧ _ :=
      h.findClosingQuote nofun
    exact ⟨hfound.1.tokens, hfound.2⟩
  · dsimp only
    split_ifs with hnext
    · apply h.stepChar.skipSpaces.addToken.tokenizeChar
      simpa [endNotReached] using hnext
    · exact h.stepChar.skipSpaces
  · exact h.tokenizeChar hmore

theorem tokenize_tokensInside : TokensInside query (tokenize cs query) := by
  have hloop : ∀ p, TokensInside query p → TokensInside query (tokenizeLoop cs query p) := by
    intro p h
    fun_induction tokenizeLoop cs query p with
    | case1 p hmore ih => exact ih (h.tokenizeIteration hmore)
    | case2 p _ => exact h
  have hinit : TokensInside query (initParser cs query) := by
    have hnew : TokensInside query (MyParser.mk 0 0 0 none false false false [] [] none) :=
      ⟨nofun, nofun⟩
    exact hnew.getCtype
  exact hloop _ hinit.skipSpaces.addToken

theorem removeBracesAccesses_inside (h : TokensInside query p) :
    AllInside query (removeBracesAccesses cs query p) := by
  unfold removeBracesAccesses
  split
  · exact allInside_nil
  · rename_i token htoken
    have hmem : token ∈ p.token2 := List.mem_of_getElem? htoken
    have hlength : 0 < p.token2.length := List.length_pos_of_mem hmem
    refine .cons (.inl hlength) (.cons ⟨token, rfl, h.tokens token hmem⟩ (.ite (fun _ => ?_)
      fun _ => allInside_nil))
    split
    · exact allInside_nil
    · rename_i lastChar hlast
      refine .cons ⟨lastChar, rfl, h.lastChar lastChar hlast⟩ (.ite (fun _ => ?_)
        fun _ => allInside_nil)
      have htext : AllInside ((query.set token 0x20).set lastChar 0x20)
          (getCtypeAccesses ((query.set token 0x20).set lastChar 0x20) { p with pos := token }) :=
        getCtypeAccesses_inside
      refine AllInside.append (htext.of_length (by simp))
        (.ite (fun _ => allInside_nil) fun hne => ?_)
      refine .cons (.inl ?_) allInside_nil
      omega

theorem caseCompareAccesses_inside {pos : Option ℕ} {keyword : List Char} :
    AllInside query (caseCompareAccesses query pos keyword) := by
  unfold caseCompareAccesses
  split
  · exact allInside_nil
  · rename_i offset
    refine .ite (fun _ => .cons ⟨offset, rfl, ?_⟩ allInside_nil) fun _ => allInside_nil
    omega

/-- A rule looks at the tokens there are. -/
theorem processRuleAccesses_inside {token2 : List ℕ} (hne : token2 ≠ [])
    (rule : QueryTypeResolving) : AllInside query (processRuleAccesses query token2 rule) := by
  induction rule with
  | null => exact allInside_nil
  | rule keyword posFrom posThru queryType andRule orRule ihAnd ihOr =>
    have hlength : 0 < token2.length := List.length_pos_iff.mpr hne
    refine .append (.flatMap fun i hi => .cons (.inl ?_) caseCompareAccesses_inside)
      (.ite (fun _ => ihAnd) fun _ => ihOr)
    have hmem : i ∈ List.range' posFrom (min (if 0 < posThru then posThru else posFrom)
        (if token2.length = 0 then 2 ^ 64 - 1 else token2.length - 1) + 1 - posFrom) := by
      rcases List.mem_append.mp hi with hi | hi
      · exact (List.takeWhile_sublist _).subset hi
      · exact List.mem_of_find?_eq_some (Option.mem_toList.mp hi)
    have hlast : (if token2.length = 0 then 2 ^ 64 - 1 else token2.length - 1) =
        token2.length - 1 := if_neg hlength.ne'
    rw [hlast, List.mem_range'_1] at hmem
    split_ifs at hmem <;> omega

/-- Without tokens, a rule of the list asks for the first one only, which is null. -/
theorem processRuleAccesses_nil {keyword : List Char} {queryType : QueryTypeEnum}
    {andRule : QueryTypeResolving} :
    processRuleAccesses query [] (.rule keyword 0 0 queryType andRule .null) = [.token 0 0] := by
  simp [processRuleAccesses, getToken, caseCompare, caseCompareAccesses]

theorem detectQueryTypeAccesses_inside {token2 : List ℕ} {rules : List QueryTypeResolving}
    (hrules : ∀ rule ∈ rules, ∃ keyword queryType andRule,
      rule = .rule keyword 0 0 queryType andRule .null) :
    AllInside query (detectQueryTypeAccesses query token2 rules) := by
  induction rules with
  | nil => exact allInside_nil
  | cons rule rules ih =>
    refine .append ?_ (.ite (fun _ => allInside_nil) fun _ => ?_)
    · by_cases hnil : token2 = []
      · obtain ⟨keyword, queryType, andRule, rfl⟩ := hrules rule List.mem_cons_self
        rw [hnil, processRuleAccesses_nil]
        exact .cons (.inr ⟨rfl, rfl⟩) allInside_nil
      · exact processRuleAccesses_inside hnil rule
    · exact ih fun other hother => hrules other (List.mem_cons_of_mem _ hother)

theorem queryTypeRules_first : ∀ rule ∈ queryTypeRules, ∃ keyword queryType andRule,
    rule = .rule keyword 0 0 queryType andRule .null := by
  simp only [queryTypeRules, List.forall_mem_cons, List.not_mem_nil, false_imp_iff, implies_true,
    and_true]
  refine ⟨?_, ?_, ?_, ?_, ?_, ?_, ?_, ?_, ?_⟩ <;> exact ⟨_, _, _, rfl⟩

theorem length_removeBraces : (removeBraces cs query p).1.length = query.length := by
  unfold removeBraces
  split
  · split_ifs
    · simp
    · rfl
  · rfl

/-- An empty query has no tokens. -/
theorem tokenize_nil :
    tokenize ctypeLatin1 [] = MyParser.mk 0 0 0 none false false false [] [] none := by
  have hinit : initParser ctypeLatin1 [] =
      MyParser.mk 0 0 0 none false false false [] [] none := by
    simp [initParser, getCtype, endNotReached]
  have hskip : skipSpaces ctypeLatin1 [] (MyParser.mk 0 0 0 none false false false [] [] none) =
      MyParser.mk 0 0 0 none false false false [] [] none := by
    rw [skipSpaces, dif_neg (by simp [endNotReached])]
  rw [tokenize, hinit, hskip, tokenizeLoop, dif_neg (by simp [endNotReached, addToken])]
  simp [addToken, endNotReached]

/-- `parse` reads no byte outside the query and through no null pointer, and asks for no token
that is not there, but for the first one where there is none. -/
theorem parseAccesses_inside (cs : Ctype) (query : List UInt8) :
    ∀ access ∈ parseAccesses cs query, access.Inside query.length := by
  have hrules : AllInside (removeBraces cs query (tokenize cs query)).1
      (detectQueryTypeAccesses (removeBraces cs query (tokenize cs query)).1
        (removeBraces cs query (tokenize cs query)).2.token2 queryTypeRules) :=
    detectQueryTypeAccesses_inside queryTypeRules_first
  exact (tokenizeAccesses_inside.append
    (removeBracesAccesses_inside tokenize_tokensInside)).append
      (hrules.of_length length_removeBraces)

/-- Also of an empty query no byte is read. -/
theorem parseAccesses_inside_empty : (ParserAccess.token 0 0).Inside ([] : List UInt8).length := by
  apply parseAccesses_inside ctypeLatin1 [] (.token 0 0)
  unfold parseAccesses
  rw [tokenize_nil]
  apply List.mem_append_right _
  decide

/-- The first token of an empty query is asked for all the same. -/
theorem parseAccesses_empty_token :
    ParserAccess.token 0 0 ∈ parseAccesses ctypeLatin1 [] := by
  unfold parseAccesses
  rw [tokenize_nil]
  apply List.mem_append_right _
  decide

end Accesses

end MatrixOdbc.Driver
