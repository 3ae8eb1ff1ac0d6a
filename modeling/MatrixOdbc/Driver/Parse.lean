import MatrixOdbc.MysqlStrings.Ctype

/-!
# The query parser

`parse` of the driver: one pass over the text of a query collects the offsets of its
tokens and parameter markers, then curly braces around the query are blanked out and
the type of the query is taken from its first tokens. The functions hand a cursor on
to each other; each is written as in the source, over the text and the character
type function of its character set.
-/

namespace MatrixOdbc.Driver

open MysqlStrings

/-- `MY_SYNTAX_MARKERS`, without the keywords. -/
structure SyntaxMarkers where
  quote : List UInt8
  querySep : List (List UInt8)
  escape : UInt8
  odbcEscapeOpen : UInt8
  odbcEscapeClose : UInt8
  paramMarker : UInt8
  hashComment : List UInt8
  dashComment : List UInt8
  cStyleOpenComment : List UInt8
  cStyleCloseComment : List UInt8
  cVarOpenComment : List UInt8
  newLineEnd : List UInt8

/-- `ansi_syntax_markers`, with the line end of the systems other than Windows. -/
def ansiSyntaxMarkers : SyntaxMarkers where
  quote := [0x27, 0x22, 0x60]
  querySep := [[0x3b], [0x5c, 0x67]]
  escape := 0x5c
  odbcEscapeOpen := 0x7b
  odbcEscapeClose := 0x7d
  paramMarker := 0x3f
  hashComment := [0x23]
  dashComment := [0x2d, 0x2d, 0x20]
  cStyleOpenComment := [0x2f, 0x2a]
  cStyleCloseComment := [0x2a, 0x2f]
  cVarOpenComment := [0x2f, 0x2a, 0x21]
  newLineEnd := [0x0a]

/-- `MY_PARSER`, with what it writes to the parsed query. Positions are offsets into
the query. -/
structure MyParser where
  pos : ℕ
  bytesAtPos : ℕ
  ctype : ℕ
  quote : Option UInt8
  hashComment : Bool
  dashComment : Bool
  cStyleComment : Bool
  token2 : List ℕ
  paramPos : List ℕ
  lastChar : Option ℕ
  deriving DecidableEq

/-- The conversion of an offset to `uint`. -/
def uint (n : ℕ) : ℕ := n % 2 ^ 32

theorem uint_eq_self {n : ℕ} (h : n < 2 ^ 32) : uint n = n := Nat.mod_eq_of_lt h

section Parser

variable (cs : Ctype) (query : List UInt8)

/-- `END_NOT_REACHED`. -/
def endNotReached (p : MyParser) : Bool := p.pos < query.length

/-- `IS_SPACE`. -/
def isSpace (p : MyParser) : Bool := p.ctype &&& MY_SPC ≠ 0

/-- `IS_SPL_CHAR`. -/
def isSplChar (p : MyParser) : Bool := p.ctype &&& MY_CTR ≠ 0

/-- `get_ctype`. The byte count of an error is made positive. -/
def getCtype (p : MyParser) : MyParser :=
  if endNotReached query p then
    let (ctype, byteCount) := cs.ctype (query.drop p.pos)
    { p with ctype := ctype, bytesAtPos := byteCount.natAbs }
  else { p with bytesAtPos := 0 }

@[simp] theorem getCtype_pos (p : MyParser) : (getCtype cs query p).pos = p.pos := by
  unfold getCtype
  split_ifs <;> rfl

@[simp] theorem getCtype_token2 (p : MyParser) : (getCtype cs query p).token2 = p.token2 := by
  unfold getCtype
  split_ifs <;> rfl

@[simp] theorem getCtype_lastChar (p : MyParser) :
    (getCtype cs query p).lastChar = p.lastChar := by
  unfold getCtype
  split_ifs <;> rfl

/-- `init_parser`. -/
def initParser : MyParser :=
  getCtype cs query
    { pos := 0, bytesAtPos := 0, ctype := 0, quote := none, hashComment := false,
      dashComment := false, cStyleComment := false, token2 := [], paramPos := [],
      lastChar := none }

/-- `parser_compare`. -/
def parserCompare (p : MyParser) (str : List UInt8) : Bool := str.isPrefixOf (query.drop p.pos)

/-- The character at the cursor is the given byte. -/
def charIs (p : MyParser) (c : UInt8) : Bool :=
  p.bytesAtPos == 1 && (query.drop p.pos).head? == some c

/-- `step_char`. -/
def stepChar (p : MyParser) : MyParser :=
  let stepped := { p with pos := p.pos + if p.bytesAtPos = 0 then 1 else p.bytesAtPos }
  if endNotReached query stepped then getCtype cs query stepped else stepped

theorem stepChar_pos (p : MyParser) : (stepChar cs query p).pos =
    p.pos + if p.bytesAtPos = 0 then 1 else p.bytesAtPos := by
  unfold stepChar getCtype
  dsimp only
  split_ifs <;> rfl

@[simp] theorem stepChar_token2 (p : MyParser) : (stepChar cs query p).token2 = p.token2 := by
  unfold stepChar getCtype
  dsimp only
  split_ifs <;> rfl

@[simp] theorem stepChar_lastChar (p : MyParser) :
    (stepChar cs query p).lastChar = p.lastChar := by
  unfold stepChar getCtype
  dsimp only
  split_ifs <;> rfl

theorem lt_stepChar_pos (p : MyParser) : p.pos < (stepChar cs query p).pos := by
  rw [stepChar_pos]
  split_ifs <;> omega

/-- `skip_spaces`. It returns whether the end has been reached, which the callers
test on the parser here. -/
def skipSpaces (p : MyParser) : MyParser :=
  if _hmore : endNotReached query p ∧ (isSpace p || isSplChar p) then skipSpaces (stepChar cs query p)
  else p
  termination_by query.length - p.pos
  decreasing_by
    have := lt_stepChar_pos cs query p
    simp only [endNotReached, decide_eq_true_eq] at _hmore
    omega

/-- `skip_comment`. -/
def skipComment (p : MyParser) : MyParser :=
  if _hmore : endNotReached query p ∧
      (p.hashComment && !parserCompare query p ansiSyntaxMarkers.newLineEnd ||
        p.dashComment && !parserCompare query p ansiSyntaxMarkers.newLineEnd ||
        p.cStyleComment && !parserCompare query p ansiSyntaxMarkers.cStyleCloseComment) then
    skipComment (stepChar cs query p)
  else p
  termination_by query.length - p.pos
  decreasing_by
    have := lt_stepChar_pos cs query p
    simp only [endNotReached, decide_eq_true_eq] at _hmore
    omega

/-- `add_token`. -/
def addToken (p : MyParser) : MyParser :=
  if endNotReached query p then { p with token2 := p.token2 ++ [uint p.pos] } else p

/-- `is_escape`. -/
def isEscape (p : MyParser) : Bool := charIs query p ansiSyntaxMarkers.escape

/-- `is_quote`. -/
def isQuote (p : MyParser) : Option UInt8 := ansiSyntaxMarkers.quote.find? (charIs query p ·)

/-- `is_comment`: which kind of comment begins at the cursor is kept in the parser. -/
def isComment (p : MyParser) : Bool × MyParser :=
  let p := { p with hashComment := false, dashComment := false, cStyleComment := false }
  if parserCompare query p ansiSyntaxMarkers.hashComment then (true, { p with hashComment := true })
  else if parserCompare query p ansiSyntaxMarkers.dashComment then
    (true, { p with dashComment := true })
  else if parserCompare query p ansiSyntaxMarkers.cVarOpenComment then (false, p)
  else if parserCompare query p ansiSyntaxMarkers.cStyleOpenComment then
    (true, { p with cStyleComment := true })
  else (false, p)

/-- `is_closing_quote`. -/
def isClosingQuote (p : MyParser) : Bool :=
  match p.quote with
  | some c => charIs query p c
  | none => false

/-- `open_quote`. -/
def openQuote (quote : UInt8) (p : MyParser) : MyParser := { p with quote := some quote }

/-- `find_closing_quote`: the last closing quote, and the cursor behind it. A quote
directly behind a closing quote opens the next quoted text, whatever its kind. -/
def findClosingQuote (closingQuote : Option ℕ) (p : MyParser) : Option ℕ × MyParser :=
  if _hmore : endNotReached query p then
    if isEscape query p then findClosingQuote closingQuote (stepChar cs query (stepChar cs query p))
    else if isClosingQuote query p then
      let next := getCtype cs query (stepChar cs query p)
      match if next.bytesAtPos = 0 then none else isQuote query next with
      | some quote => findClosingQuote (some p.pos) (stepChar cs query (openQuote quote next))
      | none => (some p.pos, next)
    else findClosingQuote closingQuote (stepChar cs query p)
  else (closingQuote, p)
  termination_by query.length - p.pos
  decreasing_by
    all_goals
      have hfirst := lt_stepChar_pos cs query p
      simp only [endNotReached, decide_eq_true_eq] at _hmore
    · have := lt_stepChar_pos cs query (stepChar cs query p)
      omega
    · have hsecond := lt_stepChar_pos cs query (openQuote quote next)
      have hnext : (openQuote quote next).pos = (stepChar cs query p).pos := getCtype_pos cs query _
      show query.length - (stepChar cs query (openQuote quote next)).pos < query.length - p.pos
      omega
    · omega

/-- `is_param_marker`. -/
def isParamMarker (p : MyParser) : Bool := charIs query p ansiSyntaxMarkers.paramMarker

/-- `add_parameter`. -/
def addParameter (p : MyParser) : MyParser := { p with paramPos := p.paramPos ++ [uint p.pos] }

/-- `is_query_separator`: it steps over the separator. -/
def isQuerySeparator (p : MyParser) : Option MyParser :=
  match ansiSyntaxMarkers.querySep.find? (parserCompare query p ·) with
  | some sep => some (getCtype cs query { p with pos := p.pos + sep.length })
  | none => none

/-- What `tokenize` does behind the blanks of an iteration. -/
def tokenizeChar (p : MyParser) : MyParser :=
  match isQuerySeparator cs query p with
  | some next => addToken query (skipSpaces cs query next)
  | none =>
    let p := { p with lastChar := some p.pos }
    match isQuote query p with
    | some quote => stepChar cs query (addToken query (openQuote quote p))
    | none =>
      let (comment, p) := isComment query p
      if comment then skipComment cs query p
      else if isParamMarker query p then stepChar cs query (addParameter p)
      else stepChar cs query p

/-- One iteration of the loop of `tokenize`. -/
def tokenizeIteration (p : MyParser) : MyParser :=
  if p.quote.isSome then
    let (closingQuote, p) := findClosingQuote cs query none p
    { p with lastChar := closingQuote, quote := none }
  else if isSpace p then
    let p := skipSpaces cs query (stepChar cs query p)
    if endNotReached query p then tokenizeChar cs query (addToken query p) else p
  else tokenizeChar cs query p

theorem le_skipSpaces_pos (p : MyParser) : p.pos ≤ (skipSpaces cs query p).pos := by
  fun_induction skipSpaces cs query p with
  | case1 p _ ih => exact (lt_stepChar_pos cs query p).le.trans ih
  | case2 p _ => exact le_rfl

theorem le_skipComment_pos (p : MyParser) : p.pos ≤ (skipComment cs query p).pos := by
  fun_induction skipComment cs query p with
  | case1 p _ ih => exact (lt_stepChar_pos cs query p).le.trans ih
  | case2 p _ => exact le_rfl

theorem le_findClosingQuote_pos (closingQuote : Option ℕ) (p : MyParser) :
    p.pos ≤ (findClosingQuote cs query closingQuote p).2.pos := by
  fun_induction findClosingQuote cs query closingQuote p with
  | case1 closingQuote p _ _ ih =>
    have hfirst := lt_stepChar_pos cs query p
    have hsecond := lt_stepChar_pos cs query (stepChar cs query p)
    omega
  | case2 closingQuote p _ _ _ next quote _ ih =>
    have hfirst := lt_stepChar_pos cs query p
    have hsecond := lt_stepChar_pos cs query (openQuote quote next)
    have hnext : (openQuote quote next).pos = (stepChar cs query p).pos := getCtype_pos cs query _
    omega
  | case3 closingQuote p _ _ _ next _ =>
    have hfirst := lt_stepChar_pos cs query p
    have hnext : next.pos = (stepChar cs query p).pos := getCtype_pos cs query _
    show p.pos ≤ next.pos
    omega
  | case4 closingQuote p _ _ _ ih => exact (lt_stepChar_pos cs query p).le.trans ih
  | case5 closingQuote p _ => exact le_rfl

theorem lt_findClosingQuote_pos {closingQuote : Option ℕ} {p : MyParser}
    (h : endNotReached query p) : p.pos < (findClosingQuote cs query closingQuote p).2.pos := by
  have hfirst := lt_stepChar_pos cs query p
  rw [findClosingQuote, dif_pos h]
  split_ifs with hescape hclosing
  · have hsecond := lt_stepChar_pos cs query (stepChar cs query p)
    have := le_findClosingQuote_pos cs query closingQuote (stepChar cs query (stepChar cs query p))
    omega
  · dsimp only
    split
    · next quote _ =>
      refine lt_of_lt_of_le ?_ (le_findClosingQuote_pos cs query _ _)
      apply hfirst.trans
      have hsecond := lt_stepChar_pos cs query
        (openQuote quote (getCtype cs query (stepChar cs query p)))
      simpa only [openQuote, getCtype_pos] using hsecond
    · simpa only [getCtype_pos] using hfirst
  · exact hfirst.trans_le (le_findClosingQuote_pos cs query _ _)

@[simp] theorem addToken_pos (p : MyParser) : (addToken query p).pos = p.pos := by
  unfold addToken
  split_ifs <;> rfl

@[simp] theorem isComment_pos (p : MyParser) : (isComment query p).2.pos = p.pos := by
  unfold isComment
  dsimp only
  split_ifs <;> rfl

/-- Only one first byte can be at the cursor. -/
theorem parserCompare_of_ne {p p' : MyParser} {a b : UInt8} {s t : List UInt8}
    (h : parserCompare query p (a :: s) = true) (hne : b ≠ a) (hpos : p'.pos = p.pos) :
    parserCompare query p' (b :: t) = false := by
  unfold parserCompare at *
  rw [hpos]
  cases htext : query.drop p.pos with
  | nil => simp [htext] at h
  | cons c rest =>
    simp only [htext, List.isPrefixOf, Bool.and_eq_true, beq_iff_eq] at h
    simp [List.isPrefixOf, ← h.1, hne]

/-- A comment is longer than its opening. -/
theorem lt_skipComment_pos {p : MyParser} (h : endNotReached query p)
    (hcomment : (isComment query p).1 = true) :
    p.pos < (skipComment cs query (isComment query p).2).pos := by
  have hlt := lt_stepChar_pos cs query (isComment query p).2
  rw [isComment_pos] at hlt
  apply lt_of_lt_of_le hlt
  rw [skipComment, dif_pos]
  · exact le_skipComment_pos cs query _
  · refine ⟨by simpa [endNotReached] using h, ?_⟩
    unfold isComment at hcomment ⊢
    dsimp only at hcomment ⊢
    split_ifs at hcomment ⊢ with hhash hdash hvar hopen
    · simp [ansiSyntaxMarkers, parserCompare_of_ne query hhash (show 0x0a ≠ 0x23 by decide)]
    · simp [ansiSyntaxMarkers, parserCompare_of_ne query hdash (show 0x0a ≠ 0x2d by decide)]
    · simp [ansiSyntaxMarkers, parserCompare_of_ne query hopen (show 0x2a ≠ 0x2f by decide)]

/-- What is done behind the blanks moves the cursor. -/
theorem lt_tokenizeChar_pos {p : MyParser} (h : endNotReached query p) :
    p.pos < (tokenizeChar cs query p).pos := by
  unfold tokenizeChar isQuerySeparator
  cases hsep : ansiSyntaxMarkers.querySep.find? (parserCompare query p ·) with
  | some sep =>
    have hpos : 0 < sep.length := by
      have hlen : ∀ sep ∈ ansiSyntaxMarkers.querySep, 0 < sep.length := by decide
      exact hlen sep (List.mem_of_find?_eq_some hsep)
    have hle := le_skipSpaces_pos cs query (getCtype cs query { p with pos := p.pos + sep.length })
    simp only [getCtype_pos] at hle
    simp only [addToken_pos]
    omega
  | none =>
    dsimp only
    split
    · next quote _ =>
      have hlt := lt_stepChar_pos cs query
        (addToken query (openQuote quote { p with lastChar := some p.pos }))
      simpa only [addToken_pos, openQuote] using hlt
    · split_ifs with hcomment hmarker
      · exact lt_skipComment_pos cs query (p := { p with lastChar := some p.pos }) h hcomment
      · refine lt_of_eq_of_lt ?_ (lt_stepChar_pos cs query _)
        simp only [addParameter, isComment_pos]
      · refine lt_of_eq_of_lt ?_ (lt_stepChar_pos cs query _)
        rw [isComment_pos]

theorem lt_tokenizeIteration_pos {p : MyParser} (h : endNotReached query p) :
    p.pos < (tokenizeIteration cs query p).pos := by
  unfold tokenizeIteration
  split_ifs with hquote hspace
  · exact lt_findClosingQuote_pos cs query h
  · have hstep := lt_stepChar_pos cs query p
    have hskip := le_skipSpaces_pos cs query (stepChar cs query p)
    dsimp only
    split_ifs with hmore
    · have hchar := lt_tokenizeChar_pos cs query
        (p := addToken query (skipSpaces cs query (stepChar cs query p)))
        (by simpa only [endNotReached, addToken_pos] using hmore)
      rw [addToken_pos] at hchar
      omega
    · omega
  · exact lt_tokenizeChar_pos cs query h

/-- The loop of `tokenize`. -/
def tokenizeLoop (p : MyParser) : MyParser :=
  if _hmore : endNotReached query p then tokenizeLoop (tokenizeIteration cs query p) else p
  termination_by query.length - p.pos
  decreasing_by
    have := lt_tokenizeIteration_pos cs query _hmore
    simp only [endNotReached, decide_eq_true_eq] at _hmore
    omega

/-- `tokenize`. -/
def tokenize : MyParser :=
  tokenizeLoop cs query (addToken query (skipSpaces cs query (initParser cs query)))

/-- `get_token`. -/
def getToken (token2 : List ℕ) (index : ℕ) : Option ℕ := token2[index]?

/-- `remove_braces`: the text of the query and the parser afterwards. -/
def removeBraces (p : MyParser) : List UInt8 × MyParser :=
  match getToken p.token2 0, p.lastChar with
  | some token, some lastChar =>
    if query[token]? = some ansiSyntaxMarkers.odbcEscapeOpen ∧
        query[lastChar]? = some ansiSyntaxMarkers.odbcEscapeClose then
      let query := (query.set token 0x20).set lastChar 0x20
      let p := getCtype cs query { p with pos := token }
      let tokens := if isSpace p then p.token2.drop 1 else p.token2
      -- the last token is the closing brace
      let tokens := if tokens.getLast? = some lastChar then tokens.dropLast else tokens
      (query, { p with token2 := tokens, lastChar := none })
    else (query, p)
  | _, _ => (query, p)

end Parser

/-- `QUERY_TYPE_ENUM`. -/
inductive QueryTypeEnum where
  | myqtSelect | myqtInsert | myqtUpdate | myqtCall | myqtShow | myqtUse | myqtCreateTable
  | myqtCreateProc | myqtCreateFunc | myqtDropProc | myqtDropFunc | myqtOptimize | myqtOther
  deriving DecidableEq

/-- `QUERY_TYPE_RESOLVING`; `null` is the null pointer. -/
inductive QueryTypeResolving where
  | null
  | rule (keyword : List Char) (posFrom posThru : ℕ) (queryType : QueryTypeEnum)
      (andRule orRule : QueryTypeResolving)

def funcRule : QueryTypeResolving :=
  .rule ['F', 'U', 'N', 'C', 'T', 'I', 'O', 'N'] 1 4 .myqtCreateFunc .null .null

def procRule : QueryTypeResolving :=
  .rule ['P', 'R', 'O', 'C', 'E', 'D', 'U', 'R', 'E'] 1 4 .myqtCreateProc .null funcRule

def dropFuncRule : QueryTypeResolving :=
  .rule ['F', 'U', 'N', 'C', 'T', 'I', 'O', 'N'] 1 4 .myqtDropFunc .null .null

def dropProcRule : QueryTypeResolving :=
  .rule ['P', 'R', 'O', 'C', 'E', 'D', 'U', 'R', 'E'] 1 4 .myqtDropProc .null dropFuncRule

def crtTableRule : QueryTypeResolving :=
  .rule ['T', 'A', 'B', 'L', 'E'] 1 2 .myqtCreateTable .null procRule

/-- `rule`. -/
def queryTypeRules : List QueryTypeResolving :=
  [.rule ['S', 'E', 'L', 'E', 'C', 'T'] 0 0 .myqtSelect .null .null,
    .rule ['C', 'A', 'L', 'L'] 0 0 .myqtCall .null .null,
    .rule ['I', 'N', 'S', 'E', 'R', 'T'] 0 0 .myqtInsert .null .null,
    .rule ['U', 'P', 'D', 'A', 'T', 'E'] 0 0 .myqtUpdate .null .null,
    .rule ['S', 'H', 'O', 'W'] 0 0 .myqtShow .null .null,
    .rule ['C', 'R', 'E', 'A', 'T', 'E'] 0 0 .myqtOther crtTableRule .null,
    .rule ['D', 'R', 'O', 'P'] 0 0 .myqtOther dropProcRule .null,
    .rule ['U', 'S', 'E'] 0 0 .myqtUse .null .null,
    .rule ['O', 'P', 'T', 'I', 'M', 'I', 'Z', 'E'] 0 0 .myqtOptimize .null .null]

/-- `toupper` of an ASCII byte. -/
def toupper (c : UInt8) : UInt8 := if 0x61 ≤ c ∧ c ≤ 0x7a then c - 0x20 else c

/-- `case_compare` of the text at a token with an upper-case keyword; the token may be
a null pointer. -/
def caseCompare (query : List UInt8) (pos : Option ℕ) (keyword : List Char) : Bool :=
  match pos with
  | some pos => (keyword.map fun c => UInt8.ofNat c.toNat).isPrefixOf ((query.drop pos).map toupper)
  | none => false

/-- `process_rule`: the type, if the rule succeeds. `token_count() - 1` is a `size_t`. -/
def processRule (query : List UInt8) (token2 : List ℕ) :
    QueryTypeResolving → Option QueryTypeEnum
  | .null => none
  | .rule keyword posFrom posThru queryType andRule orRule =>
    let last := min (if 0 < posThru then posThru else posFrom)
      (if token2.length = 0 then 2 ^ 64 - 1 else token2.length - 1)
    if (List.range' posFrom (last + 1 - posFrom)).any
        fun i => caseCompare query (getToken token2 i) keyword then
      match andRule with
      | .null => some queryType
      | .rule .. => processRule query token2 andRule
    else processRule query token2 orRule

/-- `detect_query_type`. -/
def detectQueryType (query : List UInt8) (token2 : List ℕ) : QueryTypeEnum :=
  (queryTypeRules.findSome? (processRule query token2)).getD .myqtOther

/-- `MY_PARSED_QUERY`. -/
structure MyParsedQuery where
  query : List UInt8
  token2 : List ℕ
  paramPos : List ℕ
  lastChar : Option ℕ
  queryType : QueryTypeEnum

/-- `parse`. -/
def parse (cs : Ctype) (query : List UInt8) : MyParsedQuery :=
  let (query, p) := removeBraces cs query (tokenize cs query)
  { query := query
    token2 := p.token2
    paramPos := p.paramPos
    lastChar := p.lastChar
    queryType := detectQueryType query p.token2 }

end MatrixOdbc.Driver
