import MatrixOdbc.Driver.ParamMarkers
import MatrixOdbc.Foundations.Transducer

/-!
# The reading of a query

What `tokenize` does, character by character and without its cursor: a transducer that puts
marks on the query where tokens and parameter markers begin and where the last character is
noted. The loops of `tokenize` are runs of it.
-/

namespace MatrixOdbc.Driver

open MysqlStrings MatrixOdbc.Foundations

/-- Where the reading is: in plain text, behind a blank or a separator, in a quoted text
(the flag tells whether a quoted text directly in front of it is closed), behind an escape,
behind a closing quote, or in a comment. -/
inductive ReadingState where
  | plain
  | blanks
  | quoted (quote : UInt8) (closed : Bool)
  | escaped (quote : UInt8) (closed : Bool)
  | closed
  | line
  | block
  deriving DecidableEq

/-- The reading is outside quotes and comments. -/
def ReadingState.outside : ReadingState → Bool
  | .plain | .blanks | .closed => true
  | _ => false

/-- A token or a parameter marker begins, the last character is noted, or it is forgotten in
a quoted text that is not closed. -/
inductive ReadingMark where
  | token | marker | last | unclosed
  deriving DecidableEq

section Reader

variable (cs : Ctype)

/-- The text begins with a spacing character. -/
def spaceAt (text : List UInt8) : Bool := (cs.ctype text).1 &&& MY_SPC ≠ 0

/-- The text begins with a control character. -/
def controlAt (text : List UInt8) : Bool := (cs.ctype text).1 &&& MY_CTR ≠ 0

/-- A character of plain text that is not a spacing character. -/
def readChar (c : UInt8) (rest : List UInt8) : ReadingState × ℕ × List ReadingMark :=
  match ansiSyntaxMarkers.querySep.find? (·.isPrefixOf (c :: rest)) with
  | some sep => (.blanks, sep.length - 1, [])
  | none =>
    if c ∈ ansiSyntaxMarkers.quote then (.quoted c false, 0, [.token, .last])
    else if ansiSyntaxMarkers.hashComment.isPrefixOf (c :: rest) ||
        ansiSyntaxMarkers.dashComment.isPrefixOf (c :: rest) then (.line, 0, [.last])
    else if ansiSyntaxMarkers.cVarOpenComment.isPrefixOf (c :: rest) then (.plain, 0, [.last])
    else if ansiSyntaxMarkers.cStyleOpenComment.isPrefixOf (c :: rest) then (.block, 0, [.last])
    else if c = ansiSyntaxMarkers.paramMarker then (.plain, 0, [.marker, .last])
    else (.plain, charLength cs (c :: rest) - 1, [.last])

/-- A character of plain text. -/
def readPlain (c : UInt8) (rest : List UInt8) : ReadingState × ℕ × List ReadingMark :=
  if spaceAt cs (c :: rest) then (.blanks, charLength cs (c :: rest) - 1, [])
  else readChar cs c rest

/-- The reading of a query. -/
def queryReader : Transducer ReadingState UInt8 ReadingMark where
  step
    | .plain, c, rest => readPlain cs c rest
    | .blanks, c, rest =>
      if spaceAt cs (c :: rest) || controlAt cs (c :: rest) then
        (.blanks, charLength cs (c :: rest) - 1, [])
      else
        let (next, skipped, marks) := readChar cs c rest
        (next, skipped, .token :: marks)
    | .quoted quote closed, c, rest =>
      let marks := if closed then [] else [.unclosed]
      if c = ansiSyntaxMarkers.escape then (.escaped quote closed, 0, marks)
      else if c = quote then (.closed, charLength cs (c :: rest) - 1, [.last])
      else (.quoted quote closed, charLength cs (c :: rest) - 1, marks)
    | .escaped quote closed, c, rest =>
      (.quoted quote closed, charLength cs (c :: rest) - 1, [])
    | .closed, c, rest =>
      if c ∈ ansiSyntaxMarkers.quote then (.quoted c true, 0, []) else readPlain cs c rest
    | .line, c, rest =>
      if ansiSyntaxMarkers.newLineEnd.isPrefixOf (c :: rest) then readPlain cs c rest
      else (.line, charLength cs (c :: rest) - 1, [])
    | .block, c, rest =>
      if ansiSyntaxMarkers.cStyleCloseComment.isPrefixOf (c :: rest) then readPlain cs c rest
      else (.block, charLength cs (c :: rest) - 1, [])

end Reader

/-- The offsets of a kind of mark. -/
def offsetsOf (kind : ReadingMark) (marks : List (ReadingMark × ℕ)) : List ℕ :=
  (marks.filter (·.1 = kind)).map (·.2)

/-- The last character that is noted. -/
def lastOf (last : Option ℕ) (marks : List (ReadingMark × ℕ)) : Option ℕ :=
  marks.foldl
    (fun last mark =>
      match mark.1 with
      | .last => some mark.2
      | .unclosed => none
      | _ => last)
    last

@[simp] theorem offsetsOf_append (kind : ReadingMark) (marks more : List (ReadingMark × ℕ)) :
    offsetsOf kind (marks ++ more) = offsetsOf kind marks ++ offsetsOf kind more := by
  simp [offsetsOf]

@[simp] theorem lastOf_append (last : Option ℕ) (marks more : List (ReadingMark × ℕ)) :
    lastOf last (marks ++ more) = lastOf (lastOf last marks) more := by
  simp [lastOf]

section Cursor

variable {cs : Ctype} {query : List UInt8} {p p' result : MyParser} {c : UInt8}
  {rest : List UInt8} {s next : ReadingState} {skipped : ℕ} {marks : List ReadingMark}

theorem CursorFresh.of_eq (h : CursorFresh cs query p) (hpos : p'.pos = p.pos)
    (hbytes : p'.bytesAtPos = p.bytesAtPos) (hctype : p'.ctype = p.ctype) : CursorFresh cs query p' := by
  intro hmore
  rw [hpos, hbytes, hctype]
  exact h (by simpa [endNotReached, hpos] using hmore)

theorem fresh_stepChar : CursorFresh cs query (stepChar cs query p) := fun h => stepChar_fresh h

theorem CursorFresh.isSpace_eq (h : CursorFresh cs query p) (htext : query.drop p.pos = c :: rest) :
    isSpace p = spaceAt cs (c :: rest) := by
  rw [isSpace, spaceAt, (h (endNotReached_of_drop htext)).1, htext]

theorem CursorFresh.isSplChar_eq (h : CursorFresh cs query p) (htext : query.drop p.pos = c :: rest) :
    isSplChar p = controlAt cs (c :: rest) := by
  rw [isSplChar, controlAt, (h (endNotReached_of_drop htext)).1, htext]

/-- The cursor is moved over a character. -/
theorem CursorFresh.drop_stepChar (h : CursorFresh cs query p) (htext : query.drop p.pos = c :: rest) :
    query.drop (stepChar cs query p).pos = rest.drop (charLength cs (c :: rest) - 1) ∧
      (stepChar cs query p).pos = p.pos + 1 + (charLength cs (c :: rest) - 1) := by
  have hlength : charLength cs (c :: rest) = if p.bytesAtPos = 0 then 1 else p.bytesAtPos := by
    rw [(h (endNotReached_of_drop htext)).2, htext, charLength]
  have hone : 1 ≤ charLength cs (c :: rest) := by
    rw [charLength]
    split_ifs <;> omega
  have hpos : (stepChar cs query p).pos = p.pos + 1 + (charLength cs (c :: rest) - 1) := by
    rw [stepChar_pos, ← hlength]
    omega
  refine ⟨?_, hpos⟩
  rw [hpos, ← List.drop_drop, drop_succ htext]

/-- What the reading of the rest of the query adds to the parser. -/
def Collects (cs : Ctype) (query : List UInt8) (s : ReadingState) (p result : MyParser) : Prop :=
  let marks := (queryReader cs).run s p.pos (query.drop p.pos)
  result.token2 = p.token2 ++ (offsetsOf .token marks).map uint ∧
    result.paramPos = p.paramPos ++ (offsetsOf .marker marks).map uint ∧
    result.lastChar = lastOf p.lastChar marks

/-- One place of the reading. -/
theorem Collects.step (h : Collects cs query next p' result)
    (htext : query.drop p.pos = c :: rest)
    (hstep : (queryReader cs).step s c rest = (next, skipped, marks))
    (hdrop : query.drop p'.pos = rest.drop skipped) (hpos : p'.pos = p.pos + 1 + skipped)
    (htokens : p'.token2 =
      p.token2 ++ (offsetsOf .token (marks.map fun mark => (mark, p.pos))).map uint)
    (hparams : p'.paramPos =
      p.paramPos ++ (offsetsOf .marker (marks.map fun mark => (mark, p.pos))).map uint)
    (hlast : p'.lastChar = lastOf p.lastChar (marks.map fun mark => (mark, p.pos))) :
    Collects cs query s p result := by
  obtain ⟨hresultTokens, hresultParams, hresultLast⟩ := h
  unfold Collects
  rw [htext, Transducer.run_cons hstep, ← hdrop, ← hpos]
  refine ⟨?_, ?_, ?_⟩
  · rw [hresultTokens, htokens, offsetsOf_append, List.map_append, List.append_assoc]
  · rw [hresultParams, hparams, offsetsOf_append, List.map_append, List.append_assoc]
  · rw [hresultLast, hlast, lastOf_append]

/-- The states differ by what they do at the place only. -/
theorem Collects.of_step_eq {s' : ReadingState} (h : Collects cs query s' p result)
    (hstep : ∀ c rest, query.drop p.pos = c :: rest →
      (queryReader cs).step s c rest = (queryReader cs).step s' c rest) :
    Collects cs query s p result := by
  unfold Collects at h ⊢
  cases htext : query.drop p.pos with
  | nil =>
    rw [htext] at h
    simpa using h
  | cons c rest =>
    rw [htext] at h
    rwa [Transducer.run_congr (hstep c rest htext)]

theorem collects_end (hend : ¬ endNotReached query p = true) : Collects cs query s p p := by
  unfold Collects
  rw [drop_eq_nil hend, Transducer.run_nil]
  exact ⟨by simp [offsetsOf], by simp [offsetsOf], rfl⟩

theorem fresh_skipSpaces (h : CursorFresh cs query p) : CursorFresh cs query (skipSpaces cs query p) := by
  fun_induction skipSpaces cs query p with
  | case1 p _ ih => exact ih fresh_stepChar
  | case2 p _ => exact h

/-- Behind skipped blanks, there is a character that is none. -/
theorem skipSpaces_stop (hmore : endNotReached query (skipSpaces cs query p) = true) :
    isSpace (skipSpaces cs query p) = false ∧ isSplChar (skipSpaces cs query p) = false := by
  fun_induction skipSpaces cs query p with
  | case1 p _ ih => exact ih hmore
  | case2 p hstop => simpa [hmore] using hstop

/-- A character that is stepped over without a mark. -/
theorem Collects.stepChar (h : Collects cs query next (stepChar cs query p) result)
    (hfresh : CursorFresh cs query p) (htext : query.drop p.pos = c :: rest)
    (hstep : (queryReader cs).step s c rest = (next, charLength cs (c :: rest) - 1, [])) :
    Collects cs query s p result := by
  obtain ⟨hdrop, hpos⟩ := hfresh.drop_stepChar htext
  apply h.step htext hstep hdrop hpos
  · simp [offsetsOf]
  · simp [offsetsOf]
  · simp [lastOf]

/-- Blanks are read without a mark. -/
theorem Collects.skipSpaces (h : Collects cs query .blanks (skipSpaces cs query p) result)
    (hfresh : CursorFresh cs query p) : Collects cs query .blanks p result := by
  fun_induction Driver.skipSpaces cs query p with
  | case1 p hmore ih =>
    obtain ⟨c, rest, htext⟩ := exists_drop hmore.1
    have hblank : (spaceAt cs (c :: rest) || controlAt cs (c :: rest)) = true := by
      rw [← hfresh.isSpace_eq htext, ← hfresh.isSplChar_eq htext]
      exact hmore.2
    apply (ih h fresh_stepChar).stepChar hfresh htext
    simp only [queryReader, hblank, if_true]
  | case2 p _ => exact h

/-- A new token at a character that is no blank. -/
theorem Collects.addToken (h : Collects cs query .plain (addToken query p) result)
    (hfresh : CursorFresh cs query p)
    (hstop : endNotReached query p = true → isSpace p = false ∧ isSplChar p = false) :
    Collects cs query .blanks p result := by
  by_cases hmore : endNotReached query p = true
  · obtain ⟨c, rest, htext⟩ := exists_drop hmore
    obtain ⟨hspace, hcontrol⟩ := hstop hmore
    rw [hfresh.isSpace_eq htext] at hspace
    rw [hfresh.isSplChar_eq htext] at hcontrol
    rcases hchar : readChar cs c rest with ⟨next, skipped, marks⟩
    have hplain : (queryReader cs).step .plain c rest = (next, skipped, marks) := by
      simp only [queryReader, readPlain, hspace, hchar]
      rfl
    have hblanks : (queryReader cs).step .blanks c rest = (next, skipped, .token :: marks) := by
      simp only [queryReader, hspace, hcontrol, hchar]
      rfl
    unfold Collects at h ⊢
    rw [addToken_pos, htext, Transducer.run_cons hplain] at h
    rw [htext, Transducer.run_cons hblanks]
    obtain ⟨htokens, hparams, hlast⟩ := h
    rw [Driver.addToken, if_pos hmore] at htokens hparams hlast
    refine ⟨?_, ?_, ?_⟩
    · rw [htokens]
      simp [offsetsOf]
    · rw [hparams]
      simp [offsetsOf]
    · rw [hlast]
      simp [lastOf]
  · unfold Collects at h ⊢
    rw [Driver.addToken, if_neg hmore, drop_eq_nil hmore] at h
    rw [drop_eq_nil hmore]
    simpa using h

theorem fresh_getCtype : CursorFresh cs query (getCtype cs query p) := by
  intro hmore
  have hp : endNotReached query p = true := by simpa [endNotReached] using hmore
  simp [getCtype, hp]

theorem fresh_findClosingQuote {closingQuote : Option ℕ} (h : CursorFresh cs query p) :
    CursorFresh cs query (findClosingQuote cs query closingQuote p).2 := by
  fun_induction findClosingQuote cs query closingQuote p with
  | case1 closingQuote p _ _ ih => exact ih fresh_stepChar
  | case2 closingQuote p _ _ _ next quote _ ih => exact ih fresh_stepChar
  | case3 closingQuote p _ _ _ next _ => exact fresh_getCtype
  | case4 closingQuote p _ _ _ ih => exact ih fresh_stepChar
  | case5 closingQuote p _ => exact h

/-- At the end there is nothing to collect. -/
theorem collects_of_nil (h : query.drop p.pos = []) : Collects cs query s p result ↔
    result.token2 = p.token2 ∧ result.paramPos = p.paramPos ∧ result.lastChar = p.lastChar := by
  unfold Collects
  rw [h, Transducer.run_nil]
  simp [offsetsOf, lastOf]

theorem drop_stepChar_nil (h : query.drop p.pos = []) :
    query.drop (Driver.stepChar cs query p).pos = [] := by
  rw [List.drop_eq_nil_iff] at h ⊢
  exact h.trans (lt_stepChar_pos cs query p).le

/-- The marks that a character of a quoted text adds to the parser. -/
theorem lastOf_quoted (closingQuote : Option ℕ) (offset : ℕ) :
    lastOf closingQuote
        ((if closingQuote.isSome then [] else [ReadingMark.unclosed]).map fun mark =>
          (mark, offset)) = closingQuote := by
  cases closingQuote <;> rfl

theorem offsetsOf_quoted (closed : Bool) (offset : ℕ) {kind : ReadingMark}
    (hkind : kind = .token ∨ kind = .marker) :
    offsetsOf kind
        ((if closed then [] else [ReadingMark.unclosed]).map fun mark => (mark, offset)) = [] := by
  obtain rfl | rfl := hkind <;> cases closed <;> rfl

/-- The parser behind a quoted text. -/
def closeQuote (closingQuote : Option ℕ) (p : MyParser) : MyParser :=
  { p with lastChar := closingQuote, quote := none }

/-- A character of a quoted text that does not close it. -/
theorem Collects.quotedStep {closingQuote : Option ℕ} {quote : UInt8}
    (h : Collects cs query next (closeQuote closingQuote p') result)
    (htext : query.drop p.pos = c :: rest)
    (hstep : (queryReader cs).step (.quoted quote closingQuote.isSome) c rest =
      (next, skipped, if closingQuote.isSome then [] else [.unclosed]))
    (hdrop : query.drop p'.pos = rest.drop skipped) (hpos : p'.pos = p.pos + 1 + skipped)
    (htokens : p'.token2 = p.token2) (hparams : p'.paramPos = p.paramPos) :
    Collects cs query (.quoted quote closingQuote.isSome) (closeQuote closingQuote p) result := by
  have htext' : query.drop (closeQuote closingQuote p).pos = c :: rest := htext
  apply h.step htext' hstep hdrop hpos
  · rw [offsetsOf_quoted _ _ (Or.inl rfl), List.map_nil, List.append_nil]
    exact htokens
  · rw [offsetsOf_quoted _ _ (Or.inr rfl), List.map_nil, List.append_nil]
    exact hparams
  · exact (lastOf_quoted closingQuote p.pos).symm

/-- The quote that closes a quoted text. -/
theorem Collects.closing {closingQuote : Option ℕ}
    (h : Collects cs query .closed (closeQuote (some p.pos) p') result)
    (hmem : c ∈ ansiSyntaxMarkers.quote) (htext : query.drop p.pos = c :: rest)
    (hdrop : query.drop p'.pos = rest) (hpos : p'.pos = p.pos + 1)
    (htokens : p'.token2 = p.token2) (hparams : p'.paramPos = p.paramPos) :
    Collects cs query (.quoted c closingQuote.isSome) (closeQuote closingQuote p) result := by
  have hescape : c ≠ ansiSyntaxMarkers.escape := by
    rintro rfl
    exact absurd hmem (by decide)
  have htext' : query.drop (closeQuote closingQuote p).pos = c :: rest := htext
  have hstep : (queryReader cs).step (.quoted c closingQuote.isSome) c rest =
      (.closed, 0, [.last]) := by
    have hall : ∀ b ∈ ansiSyntaxMarkers.quote, b < 0x80 := List.all_iff_forall_prop.mp (by decide)
    simp only [queryReader, hescape, if_false, if_true, charLength_ascii (hall c hmem)]
  apply h.step htext' hstep hdrop hpos
  · simp [closeQuote, offsetsOf, htokens]
  · simp [closeQuote, offsetsOf, hparams]
  · rfl

/-- `find_closing_quote` reads a quoted text. -/
theorem Collects.findClosingQuote {closingQuote : Option ℕ} {quote : UInt8}
    (hfresh : CursorFresh cs query p) (hquote : p.quote = some quote)
    (hmem : quote ∈ ansiSyntaxMarkers.quote)
    (h : Collects cs query .plain
      (closeQuote (Driver.findClosingQuote cs query closingQuote p).1
        (Driver.findClosingQuote cs query closingQuote p).2) result) :
    Collects cs query (.quoted quote closingQuote.isSome) (closeQuote closingQuote p) result := by
  have hall : ∀ b ∈ ansiSyntaxMarkers.quote, b < 0x80 ∧ b ≠ ansiSyntaxMarkers.escape :=
    List.all_iff_forall_prop.mp (by decide)
  fun_induction Driver.findClosingQuote cs query closingQuote p generalizing quote with
  | case1 closingQuote p hmore hescape ih =>
    obtain ⟨c, rest, htext⟩ := exists_drop hmore
    obtain rfl := (charIs_iff hfresh htext (by decide)).mp hescape
    have hbehind := ih fresh_stepChar (by rw [stepChar_quote, stepChar_quote, hquote]) hmem h
    obtain ⟨hdrop, hpos⟩ := hfresh.drop_stepChar htext
    rw [charLength_ascii (by decide)] at hdrop hpos
    have hescaped : Collects cs query (.escaped quote closingQuote.isSome)
        (closeQuote closingQuote (Driver.stepChar cs query p)) result := by
      cases hrest : query.drop (Driver.stepChar cs query p).pos with
      | nil =>
        have hend : query.drop (closeQuote closingQuote
            (Driver.stepChar cs query (Driver.stepChar cs query p))).pos = [] :=
          drop_stepChar_nil hrest
        have hend' : query.drop (closeQuote closingQuote (Driver.stepChar cs query p)).pos = [] :=
          hrest
        rw [collects_of_nil hend] at hbehind
        rw [collects_of_nil hend']
        simpa [closeQuote] using hbehind
      | cons d rest' =>
        obtain ⟨hdrop', hpos'⟩ := fresh_stepChar.drop_stepChar hrest
        have hrest' : query.drop (closeQuote closingQuote (Driver.stepChar cs query p)).pos =
            d :: rest' := hrest
        apply hbehind.step hrest' rfl hdrop' hpos'
        · simp [closeQuote, offsetsOf]
        · simp [closeQuote, offsetsOf]
        · rfl
    refine hescaped.quotedStep htext ?_ hdrop hpos ?_ ?_
    · simp [queryReader, ansiSyntaxMarkers]
    · simp
    · simp
  | case2 closingQuote p hmore _ hclosing next other hother =>
    rename_i ih
    obtain ⟨c, rest, htext⟩ := exists_drop hmore
    rw [isClosingQuote, hquote] at hclosing
    obtain rfl := (charIs_iff hfresh htext (hall quote hmem).1).mp hclosing
    obtain ⟨hdrop, hpos⟩ := hfresh.drop_stepChar htext
    rw [charLength_ascii (hall c hmem).1] at hdrop hpos
    split_ifs at hother with hbytes
    obtain ⟨d, rest', hd⟩ := exists_drop (getCtype_bytesAtPos hbytes)
    obtain ⟨rfl, hmemd⟩ := (isQuote_eq_some fresh_getCtype hd).mp hother
    have hopened : CursorFresh cs query (openQuote d next) := fresh_getCtype.of_eq rfl rfl rfl
    have hd' : query.drop (openQuote d next).pos = d :: rest' := hd
    obtain ⟨hdrop', hpos'⟩ := hopened.drop_stepChar hd'
    rw [charLength_ascii (hall d hmemd).1] at hdrop' hpos'
    have hbehind := ih fresh_stepChar (by rw [stepChar_quote]; rfl) hmemd h
    have hclosed : Collects cs query .closed (closeQuote (some p.pos) next) result := by
      have hd'' : query.drop (closeQuote (some p.pos) next).pos = d :: rest' := hd
      have hstep : (queryReader cs).step .closed d rest' = (.quoted d true, 0, []) :=
        if_pos hmemd
      apply hbehind.step hd'' hstep hdrop' hpos'
      · simp [closeQuote, openQuote, offsetsOf]
      · simp [closeQuote, openQuote, offsetsOf]
      · rfl
    exact hclosed.closing hmem htext (by rw [getCtype_pos]; exact hdrop)
      (by rw [getCtype_pos]; exact hpos) (by simp [next]) (by simp [next])
  | case3 closingQuote p hmore _ hclosing next =>
    rename_i hnone
    obtain ⟨c, rest, htext⟩ := exists_drop hmore
    rw [isClosingQuote, hquote] at hclosing
    obtain rfl := (charIs_iff hfresh htext (hall quote hmem).1).mp hclosing
    obtain ⟨hdrop, hpos⟩ := hfresh.drop_stepChar htext
    rw [charLength_ascii (hall c hmem).1] at hdrop hpos
    have hclosed : Collects cs query .closed (closeQuote (some p.pos) next) result := by
      apply h.of_step_eq
      intro d rest' hd
      have hd' : query.drop next.pos = d :: rest' := hd
      have hnot : d ∉ ansiSyntaxMarkers.quote := by
        intro hmemd
        have hbytes : next.bytesAtPos = 1 := by
          rw [(fresh_getCtype (endNotReached_of_drop hd')).2, hd', cs.ctype_ascii d rest' (hall d hmemd).1]
          rfl
        rw [dif_neg (by omega), isQuote_eq_none fresh_getCtype hd'] at hnone
        exact hnone hmemd
      simp only [queryReader, hnot, if_false]
    exact hclosed.closing hmem htext (by rw [getCtype_pos]; exact hdrop)
      (by rw [getCtype_pos]; exact hpos) (by simp [next]) (by simp [next])
  | case4 closingQuote p hmore hescape hclosing ih =>
    obtain ⟨c, rest, htext⟩ := exists_drop hmore
    obtain ⟨hdrop, hpos⟩ := hfresh.drop_stepChar htext
    have hbehind := ih fresh_stepChar (by rw [stepChar_quote, hquote]) hmem h
    refine hbehind.quotedStep htext ?_ hdrop hpos ?_ ?_
    · have hc₁ : c ≠ ansiSyntaxMarkers.escape := fun heq =>
        hescape ((charIs_iff hfresh htext (by decide)).mpr heq)
      have hc₂ : c ≠ quote := fun heq => hclosing (by
        rw [isClosingQuote, hquote]
        exact (charIs_iff hfresh htext (hall quote hmem).1).mpr heq)
      simp [queryReader, hc₁, hc₂]
    · simp
    · simp
  | case5 closingQuote p hend =>
    have hnil : query.drop (closeQuote closingQuote p).pos = [] := drop_eq_nil hend
    rw [collects_of_nil hnil] at h ⊢
    exact h

theorem fresh_skipComment (h : CursorFresh cs query p) : CursorFresh cs query (skipComment cs query p) := by
  fun_induction skipComment cs query p with
  | case1 p _ ih => exact ih fresh_stepChar
  | case2 p _ => exact h

/-- A comment up to the end of the line. -/
theorem Collects.skipComment_line (hfresh : CursorFresh cs query p)
    (hline : (p.hashComment || p.dashComment) = true) (hblock : p.cStyleComment = false)
    (h : Collects cs query .plain (skipComment cs query p) result) :
    Collects cs query .line p result := by
  fun_induction skipComment cs query p with
  | case1 p hmore ih =>
    obtain ⟨c, rest, htext⟩ := exists_drop hmore.1
    rw [line_goes_on hline hblock, Bool.not_eq_true', parserCompare_eq htext] at hmore
    refine (ih fresh_stepChar (by simpa using hline) (by simpa using hblock) h).stepChar hfresh
      htext ?_
    simp only [queryReader, hmore.2]
    rfl
  | case2 p hstop =>
    apply h.of_step_eq
    intro c rest htext
    rw [line_goes_on hline hblock, parserCompare_eq htext] at hstop
    have hnewline : ansiSyntaxMarkers.newLineEnd.isPrefixOf (c :: rest) = true := by
      simpa [endNotReached_of_drop htext] using hstop
    exact if_pos hnewline

/-- A comment up to its end. -/
theorem Collects.skipComment_block (hfresh : CursorFresh cs query p)
    (hline : (p.hashComment || p.dashComment) = false) (hblock : p.cStyleComment = true)
    (h : Collects cs query .plain (skipComment cs query p) result) :
    Collects cs query .block p result := by
  obtain ⟨hhash, hdash⟩ := Bool.or_eq_false_iff.mp hline
  fun_induction skipComment cs query p with
  | case1 p hmore ih =>
    obtain ⟨c, rest, htext⟩ := exists_drop hmore.1
    simp only [hhash, hdash, hblock, parserCompare_eq htext, Bool.false_and, Bool.true_and,
      Bool.false_or, Bool.not_eq_true'] at hmore
    refine (ih fresh_stepChar (by simpa using hline) (by simpa using hblock) h (by simpa using hhash)
      (by simpa using hdash)).stepChar hfresh htext ?_
    simp only [queryReader, hmore.2]
    rfl
  | case2 p hstop =>
    apply h.of_step_eq
    intro c rest htext
    have hclose : ansiSyntaxMarkers.cStyleCloseComment.isPrefixOf (c :: rest) = true := by
      simpa [hhash, hdash, hblock, endNotReached_of_drop htext, parserCompare_eq htext] using hstop
    exact if_pos hclose

/-- The state of the reading between two iterations. -/
def stateOf (p : MyParser) : ReadingState :=
  match p.quote with
  | some quote => .quoted quote false
  | none => .plain

theorem fresh_addToken (h : CursorFresh cs query p) : CursorFresh cs query (addToken query p) :=
  h.of_eq (addToken_pos query p) addToken_fields.1 addToken_fields.2.1

theorem fresh_isComment (h : CursorFresh cs query p) : CursorFresh cs query (isComment query p).2 :=
  h.of_eq (isComment_pos query p) isComment_fields.1 isComment_fields.2.1

theorem fresh_tokenizeChar (h : CursorFresh cs query p) : CursorFresh cs query (tokenizeChar cs query p) := by
  have hlast : CursorFresh cs query { p with lastChar := some p.pos } := h.of_eq rfl rfl rfl
  unfold tokenizeChar isQuerySeparator
  split
  · rename_i next hsep
    split at hsep
    · obtain rfl := Option.some.inj hsep
      exact fresh_addToken (fresh_skipSpaces fresh_getCtype)
    · exact absurd hsep (by simp)
  · dsimp only
    split
    · exact fresh_stepChar
    · split_ifs
      · exact fresh_skipComment (fresh_isComment hlast)
      · exact fresh_stepChar
      · exact fresh_stepChar

theorem skipSpaces_quote : (skipSpaces cs query p).quote = p.quote := by
  fun_induction skipSpaces cs query p with
  | case1 p _ ih => rw [ih, stepChar_quote]
  | case2 p _ => rfl

theorem skipComment_quote : (skipComment cs query p).quote = p.quote := by
  fun_induction skipComment cs query p with
  | case1 p _ ih => rw [ih, stepChar_quote]
  | case2 p _ => rfl

theorem stateOf_none (h : p.quote = none) : stateOf p = .plain := by
  rw [stateOf, h]

/-- The separator at the cursor. -/
theorem querySep_find (htext : query.drop p.pos = c :: rest) :
    ansiSyntaxMarkers.querySep.find? (parserCompare query p ·) =
      ansiSyntaxMarkers.querySep.find? (·.isPrefixOf (c :: rest)) := by
  congr 1
  funext sep
  exact parserCompare_eq htext sep

/-- A separator, and the blanks behind it. -/
theorem Collects.separator {sep : List UInt8} (htext : query.drop p.pos = c :: rest)
    (hquote : p.quote = none)
    (hsep : ansiSyntaxMarkers.querySep.find? (·.isPrefixOf (c :: rest)) = some sep)
    (hstep : (queryReader cs).step s c rest = readChar cs c rest)
    (h : Collects cs query (stateOf (tokenizeChar cs query p)) (tokenizeChar cs query p) result) :
    Collects cs query s p result := by
  have hall : ∀ sep ∈ ansiSyntaxMarkers.querySep, 0 < sep.length := by decide
  have hlength := hall sep (List.mem_of_find?_eq_some hsep)
  have hchar : readChar cs c rest = (.blanks, sep.length - 1, []) := by
    rw [readChar, hsep]
  have hrun : tokenizeChar cs query p = Driver.addToken query (Driver.skipSpaces cs query
      (getCtype cs query { p with pos := p.pos + sep.length })) := by
    rw [Driver.tokenizeChar, isQuerySeparator, querySep_find htext, hsep]
  rw [hrun, stateOf_none (by rw [addToken_fields.2.2.1, skipSpaces_quote, getCtype_quote, hquote])]
    at h
  have hblanks := (h.addToken (fresh_skipSpaces fresh_getCtype) skipSpaces_stop).skipSpaces
    fresh_getCtype
  apply hblanks.step htext (hstep.trans hchar)
  · rw [getCtype_pos]
    show query.drop (p.pos + sep.length) = _
    rw [← List.drop_drop, htext]
    obtain ⟨n, hn⟩ := Nat.exists_eq_add_of_lt hlength
    rw [hn]
    simp
  · rw [getCtype_pos]
    show p.pos + sep.length = _
    omega
  · simp [offsetsOf]
  · simp [offsetsOf]
  · simp [lastOf]

theorem addToken_lastChar : (addToken query p).lastChar = p.lastChar := by
  unfold addToken
  split_ifs <;> rfl

theorem isComment_kept : (isComment query p).2.token2 = p.token2 ∧
    (isComment query p).2.lastChar = p.lastChar := by
  unfold isComment
  dsimp only
  split_ifs <;> exact ⟨rfl, rfl⟩

/-- A comment is longer than its first character. -/
theorem skipComment_isComment (hmore : endNotReached query p = true)
    (hcomment : (isComment query p).1 = true) :
    skipComment cs query (isComment query p).2 =
      skipComment cs query (stepChar cs query (isComment query p).2) := by
  obtain ⟨c, rest, htext⟩ := exists_drop hmore
  have htext' : query.drop (isComment query p).2.pos = c :: rest := by rw [isComment_pos, htext]
  rw [skipComment, dif_pos]
  refine ⟨endNotReached_of_drop htext', ?_⟩
  rw [parserCompare_eq htext', parserCompare_eq htext']
  obtain ⟨hline, hflags, hblock⟩ | ⟨-, -, hopen, hhash, hdash, hblock⟩ :=
    isComment_true htext hcomment
  · rw [line_goes_on hflags hblock]
    simp only [sqlLexicon, List.any_cons, List.any_nil, List.isPrefixOf, Bool.or_eq_true,
      Bool.and_eq_true, beq_iff_eq] at hline
    have hc : c ≠ 0x0a := by
      rintro rfl
      simp at hline
    simp [ansiSyntaxMarkers, List.isPrefixOf, Ne.symm hc]
  · simp only [sqlLexicon, List.isPrefixOf, Bool.and_eq_true, beq_iff_eq] at hopen
    simp [hhash, hdash, hblock, ansiSyntaxMarkers, List.isPrefixOf, ← hopen.1]

theorem lineOpens_eq (text : List UInt8) :
    sqlLexicon.lineOpens.any (·.isPrefixOf text) =
      (ansiSyntaxMarkers.hashComment.isPrefixOf text ||
        ansiSyntaxMarkers.dashComment.isPrefixOf text) := by
  simp [sqlLexicon, ansiSyntaxMarkers]

/-- What `tokenize` does behind the blanks is the reading of a character. -/
theorem Collects.tokenizeChar (hfresh : CursorFresh cs query p) (htext : query.drop p.pos = c :: rest)
    (hquote : p.quote = none)
    (hstep : (queryReader cs).step s c rest = readChar cs c rest)
    (h : Collects cs query (stateOf (tokenizeChar cs query p)) (tokenizeChar cs query p) result) :
    Collects cs query s p result := by
  have hmore := endNotReached_of_drop htext
  have hnoted : CursorFresh cs query { p with lastChar := some p.pos } := hfresh.of_eq rfl rfl rfl
  have htext' : query.drop { p with lastChar := some p.pos }.pos = c :: rest := htext
  cases hsep : ansiSyntaxMarkers.querySep.find? (·.isPrefixOf (c :: rest)) with
  | some sep => exact h.separator htext hquote hsep hstep
  | none =>
    have hall : ∀ b ∈ ansiSyntaxMarkers.quote, b < 0x80 := List.all_iff_forall_prop.mp (by decide)
    unfold Driver.tokenizeChar isQuerySeparator at h
    rw [querySep_find htext, hsep] at h
    dsimp only at h
    rw [readChar, hsep] at hstep
    dsimp only at hstep
    cases hisQuote : isQuote query { p with lastChar := some p.pos } with
    | some quote =>
      obtain ⟨rfl, hmem⟩ := (isQuote_eq_some hnoted htext').mp hisQuote
      rw [hisQuote] at h
      dsimp only at h
      have hopened : CursorFresh cs query
          (Driver.addToken query (openQuote c { p with lastChar := some p.pos })) :=
        fresh_addToken (hnoted.of_eq rfl rfl rfl)
      have htoken : query.drop
          (Driver.addToken query (openQuote c { p with lastChar := some p.pos })).pos =
            c :: rest := by
        rw [addToken_pos]
        exact htext
      obtain ⟨hdrop, hpos⟩ := hopened.drop_stepChar htoken
      rw [charLength_ascii (hall c hmem)] at hdrop hpos
      rw [addToken_pos] at hpos
      have hstate : stateOf (Driver.stepChar cs query (Driver.addToken query
          (openQuote c { p with lastChar := some p.pos }))) = .quoted c false := by
        rw [stateOf, stepChar_quote, addToken_fields.2.2.1]
        rfl
      rw [hstate] at h
      apply h.step htext (hstep.trans (if_pos hmem)) hdrop hpos
      · have hopen : endNotReached query (openQuote c { p with lastChar := some p.pos }) = true :=
          hmore
        rw [stepChar_token2, Driver.addToken, if_pos hopen]
        rfl
      · rw [stepChar_paramPos, addToken_fields.2.2.2]
        simp [openQuote, offsetsOf]
      · rw [stepChar_lastChar, addToken_lastChar]
        rfl
    | none =>
      have hnotMem : c ∉ ansiSyntaxMarkers.quote := (isQuote_eq_none hnoted htext').mp hisQuote
      rw [hisQuote] at h
      rw [if_neg hnotMem] at hstep
      dsimp only at h
      -- The parser behind `is_comment` stands at the same character.
      have hfresh' : CursorFresh cs query (isComment query { p with lastChar := some p.pos }).2 :=
        fresh_isComment hnoted
      have htext'' : query.drop (isComment query { p with lastChar := some p.pos }).2.pos =
          c :: rest := by
        rw [isComment_pos]
        exact htext
      have hnone : (isComment query { p with lastChar := some p.pos }).2.quote = none := by
        rw [isComment_fields.2.2.1]
        exact hquote
      obtain ⟨hdrop, hpos⟩ := hfresh'.drop_stepChar htext''
      rw [isComment_pos] at hpos
      cases hcomment : (isComment query { p with lastChar := some p.pos }).1 with
      | true =>
        rw [hcomment, if_pos rfl, stateOf_none (by rw [skipComment_quote, hnone]),
          skipComment_isComment (endNotReached_of_drop htext') hcomment] at h
        obtain ⟨hlines, hflags, hblock⟩ | ⟨hlines, htransparent, hopen, hhash, hdash, hblock⟩ :=
          isComment_true htext' hcomment
        · have hascii : c < 0x80 := by
            simp only [sqlLexicon, List.any_cons, List.any_nil, List.isPrefixOf, Bool.or_eq_true,
              Bool.and_eq_true, beq_iff_eq] at hlines
            rcases hlines with ⟨rfl, -⟩ | ⟨rfl, -⟩ | hfalse
            · decide
            · decide
            · exact absurd hfalse (by simp)
          rw [charLength_ascii hascii] at hdrop hpos
          rw [← lineOpens_eq, hlines, if_pos rfl] at hstep
          have hcomment' := h.skipComment_line fresh_stepChar (by simpa using hflags)
            (by simpa using hblock)
          apply hcomment'.step htext hstep hdrop hpos
          · simp [isComment_kept, offsetsOf]
          · simp [offsetsOf]
          · simp [isComment_kept, lastOf]
        · have hascii : c < 0x80 := by
            simp only [sqlLexicon, List.isPrefixOf, Bool.and_eq_true, beq_iff_eq] at hopen
            rw [← hopen.1]
            decide
          rw [charLength_ascii hascii] at hdrop hpos
          have htransparent' : ansiSyntaxMarkers.cVarOpenComment.isPrefixOf (c :: rest) = false :=
            htransparent
          have hopen' : ansiSyntaxMarkers.cStyleOpenComment.isPrefixOf (c :: rest) = true := hopen
          rw [← lineOpens_eq, hlines, if_neg Bool.false_ne_true, htransparent',
            if_neg Bool.false_ne_true, hopen', if_pos rfl] at hstep
          have hcomment' := h.skipComment_block fresh_stepChar
            (by simp [hhash, hdash]) (by simpa using hblock)
          apply hcomment'.step htext hstep hdrop hpos
          · simp [isComment_kept, offsetsOf]
          · simp [offsetsOf]
          · simp [isComment_kept, lastOf]
      | false =>
        rw [hcomment, if_neg Bool.false_ne_true] at h
        obtain ⟨hlines, hopen⟩ := isComment_false htext' hcomment
        rw [← lineOpens_eq, hlines, if_neg Bool.false_ne_true] at hstep
        by_cases hmarker : c = ansiSyntaxMarkers.paramMarker
        · have hparam : isParamMarker query
              (isComment query { p with lastChar := some p.pos }).2 = true :=
            (charIs_iff hfresh' htext'' (by decide)).mpr hmarker
          rw [hparam, if_pos rfl, stateOf_none (by rw [stepChar_quote]; exact hnone)] at h
          have hadded : CursorFresh cs query
              (addParameter (isComment query { p with lastChar := some p.pos }).2) :=
            hfresh'.of_eq rfl rfl rfl
          obtain ⟨hdrop', hpos'⟩ := hadded.drop_stepChar htext''
          have hascii : c < 0x80 := by
            rw [hmarker]
            decide
          rw [charLength_ascii hascii] at hdrop' hpos'
          have hposition : (addParameter
              (isComment query { p with lastChar := some p.pos }).2).pos = p.pos :=
            isComment_pos query _
          rw [hposition] at hpos'
          have hchar : readChar cs c rest = (.plain, 0, [.marker, .last]) := by
            rw [hmarker]
            simp [readChar, ansiSyntaxMarkers, List.isPrefixOf]
          rw [readChar, hsep] at hchar
          dsimp only at hchar
          rw [if_neg hnotMem, ← lineOpens_eq, hlines, if_neg Bool.false_ne_true] at hchar
          apply h.step htext (hstep.trans hchar) hdrop' hpos'
          · simp [addParameter, isComment_kept, offsetsOf]
          · simp [addParameter, isComment_fields, offsetsOf]
          · simp [addParameter, isComment_kept, lastOf]
        · have hparam : isParamMarker query
              (isComment query { p with lastChar := some p.pos }).2 = false := by
            rw [← Bool.not_eq_true]
            exact fun hparam => hmarker ((charIs_iff hfresh' htext'' (by decide)).mp hparam)
          rw [hparam, if_neg Bool.false_ne_true,
            stateOf_none (by rw [stepChar_quote]; exact hnone)] at h
          have hother : (queryReader cs).step s c rest =
              (.plain, charLength cs (c :: rest) - 1, [.last]) := by
            rw [hstep, if_neg hmarker]
            split_ifs with hvar hstyle
            · simp only [ansiSyntaxMarkers, List.isPrefixOf, Bool.and_eq_true, beq_iff_eq] at hvar
              rw [← hvar.1, charLength_ascii (by decide)]
            · obtain htransparent | hblock := hopen
              · exact absurd htransparent hvar
              · exact absurd hstyle (by rw [Bool.not_eq_true]; exact hblock)
            · rfl
          apply h.step htext hother hdrop hpos
          · simp [isComment_kept, offsetsOf]
          · simp [isComment_fields, offsetsOf]
          · simp [isComment_kept, lastOf]

/-- The quote of a quoted text is one of the three. -/
def QuoteOk (p : MyParser) : Prop := ∀ quote, p.quote = some quote → quote ∈ ansiSyntaxMarkers.quote

theorem quoteOk_tokenizeChar (h : p.quote = none) : QuoteOk (tokenizeChar cs query p) := by
  unfold tokenizeChar isQuerySeparator
  intro quote
  split
  · rename_i next hsep
    split at hsep
    · obtain rfl := Option.some.inj hsep
      rw [addToken_fields.2.2.1, skipSpaces_quote, getCtype_quote]
      intro hquote
      exact absurd (h.symm.trans hquote) (by simp)
    · exact absurd hsep (by simp)
  · dsimp only
    split
    · rename_i other hother
      rw [stepChar_quote, addToken_fields.2.2.1]
      intro hquote
      obtain rfl : other = quote := Option.some.inj hquote
      exact List.mem_of_find?_eq_some hother
    · have hnone : (isComment query { p with lastChar := some p.pos }).2.quote = none := by
        rw [isComment_fields.2.2.1]
        exact h
      split_ifs
      · rw [skipComment_quote, hnone]
        simp
      · rw [stepChar_quote]
        intro hquote
        exact absurd (hnone.symm.trans hquote) (by simp)
      · rw [stepChar_quote, hnone]
        simp

/-- A quoted text forgets the last character in front of it. -/
theorem Collects.of_quoted {quote : UInt8} (hmore : endNotReached query p = true)
    (h : Collects cs query (.quoted quote false) (closeQuote none p) result) :
    Collects cs query (.quoted quote false) p result := by
  obtain ⟨c, rest, htext⟩ := exists_drop hmore
  have htext' : query.drop (closeQuote none p).pos = c :: rest := htext
  obtain ⟨htokens, hparams, hlast⟩ := h
  refine ⟨htokens, hparams, ?_⟩
  rw [hlast, htext', htext, Transducer.run, Transducer.run, lastOf_append, lastOf_append]
  congr 1
  simp only [queryReader, Bool.false_eq_true, if_false]
  split_ifs <;> rfl

/-- The loop of `tokenize` is a run of the reading. -/
theorem collects_tokenizeLoop (hfresh : CursorFresh cs query p) (hquote : QuoteOk p) :
    Collects cs query (stateOf p) p (tokenizeLoop cs query p) := by
  fun_induction tokenizeLoop cs query p with
  | case1 p hmore ih =>
    obtain ⟨c, rest, htext⟩ := exists_drop hmore
    cases hstate : p.quote with
    | some quote =>
      have hiteration : tokenizeIteration cs query p =
          closeQuote (findClosingQuote cs query none p).1 (findClosingQuote cs query none p).2 := by
        rw [tokenizeIteration, if_pos (by rw [hstate]; rfl)]
        rfl
      rw [hiteration] at ih ⊢
      have hclosed : QuoteOk (closeQuote (findClosingQuote cs query none p).1
          (findClosingQuote cs query none p).2) := by
        intro quote hopen
        cases hopen
      have hbehind := ih ((fresh_findClosingQuote hfresh).of_eq rfl rfl rfl) hclosed
      rw [stateOf, hstate]
      exact (Collects.findClosingQuote hfresh hstate (hquote quote hstate) hbehind).of_quoted hmore
    | none =>
      rw [stateOf_none hstate]
      have hiteration : tokenizeIteration cs query p =
          if isSpace p then
            if endNotReached query (skipSpaces cs query (stepChar cs query p)) then
              tokenizeChar cs query (addToken query (skipSpaces cs query (stepChar cs query p)))
            else skipSpaces cs query (stepChar cs query p)
          else tokenizeChar cs query p := by
        rw [tokenizeIteration, if_neg (by rw [hstate]; simp)]
      rw [hiteration] at ih ⊢
      have hspaceAt := hfresh.isSpace_eq htext
      by_cases hspace : isSpace p = true
      · rw [if_pos hspace] at ih ⊢
        have hstep : (queryReader cs).step .plain c rest =
            (.blanks, charLength cs (c :: rest) - 1, []) := if_pos (hspaceAt ▸ hspace)
        have hskipped : (skipSpaces cs query (stepChar cs query p)).quote = none := by
          rw [skipSpaces_quote, stepChar_quote, hstate]
        have hfresh' : CursorFresh cs query (skipSpaces cs query (stepChar cs query p)) :=
          fresh_skipSpaces fresh_stepChar
        have hblanks : ∀ result,
            Collects cs query .blanks (skipSpaces cs query (stepChar cs query p)) result →
              Collects cs query .plain p result := fun result h =>
          (h.skipSpaces fresh_stepChar).stepChar hfresh htext hstep
        apply hblanks
        by_cases hend : endNotReached query (skipSpaces cs query (stepChar cs query p)) = true
        · rw [if_pos hend] at ih ⊢
          obtain ⟨d, rest', hd⟩ := exists_drop hend
          have htoken : query.drop
              (addToken query (skipSpaces cs query (stepChar cs query p))).pos = d :: rest' := by
            rw [addToken_pos]
            exact hd
          have hnone : (addToken query (skipSpaces cs query (stepChar cs query p))).quote = none := by
            rw [addToken_fields.2.2.1]
            exact hskipped
          have hplain : (queryReader cs).step .plain d rest' = readChar cs d rest' := by
            have hnospace := (skipSpaces_stop hend).1
            rw [hfresh'.isSpace_eq hd] at hnospace
            exact if_neg (by rw [hnospace]; simp)
          have hbehind := ih (fresh_tokenizeChar (fresh_addToken hfresh'))
            (quoteOk_tokenizeChar hnone)
          exact (hbehind.tokenizeChar (fresh_addToken hfresh') htoken hnone hplain).addToken hfresh'
            skipSpaces_stop
        · rw [if_neg hend] at ih ⊢
          have hbehind := ih hfresh' (by intro quote h; exact absurd (hskipped.symm.trans h) (by simp))
          rw [collects_of_nil (drop_eq_nil hend)] at hbehind ⊢
          exact hbehind
      · rw [if_neg hspace] at ih ⊢
        have hplain : (queryReader cs).step .plain c rest = readChar cs c rest :=
          if_neg (hspaceAt ▸ hspace)
        exact (ih (fresh_tokenizeChar hfresh) (quoteOk_tokenizeChar hstate)).tokenizeChar hfresh
          htext hstate hplain
  | case2 p hend => exact collects_end hend

end Cursor

/-- The marks of a query. -/
def readingOf (cs : Ctype) (query : List UInt8) : List (ReadingMark × ℕ) :=
  (queryReader cs).run .blanks 0 query

/-- `tokenize` puts down the marks of the reading. -/
theorem tokenize_reading (cs : Ctype) (query : List UInt8) :
    (tokenize cs query).token2 = (offsetsOf .token (readingOf cs query)).map uint ∧
      (tokenize cs query).paramPos = (offsetsOf .marker (readingOf cs query)).map uint ∧
      (tokenize cs query).lastChar = lastOf none (readingOf cs query) := by
  have hinit : CursorFresh cs query (initParser cs query) := fresh_getCtype
  have hquote : (addToken query (skipSpaces cs query (initParser cs query))).quote = none := by
    rw [addToken_fields.2.2.1, skipSpaces_quote, initParser, getCtype_quote]
  have hloop := collects_tokenizeLoop (fresh_addToken (fresh_skipSpaces hinit))
    (by intro quote h; exact absurd (hquote.symm.trans h) (by simp))
  rw [stateOf_none hquote] at hloop
  have hblanks := (hloop.addToken (fresh_skipSpaces hinit) skipSpaces_stop).skipSpaces hinit
  unfold Collects at hblanks
  simpa [tokenize, initParser, readingOf] using hblanks

end MatrixOdbc.Driver
