import Mathlib.Data.List.TakeWhile
import MatrixOdbc.Driver.EnumSize

/-!
# Splitting a list of parameters

`proc_param_tokenize` and `proc_param_next_token` of `driver/utility.cc`. The one flag for
brackets and the one for quotes follow single and double quotes only: a name in backquotes is
read like any other text, a backslash means nothing, and the first bracket that closes closes
all of them.
-/

namespace MatrixOdbc.Driver

open QuotedText

/-- `bracket_open` and `quote_symbol`. -/
structure ParamScan where
  bracketOpen : Bool
  quoteSymbol : UInt8

/-- The scan in front of a parameter. -/
def ParamScan.start : ParamScan := ⟨false, 0⟩

/-- One round of the loop, and whether the byte is replaced by a zero. -/
def ParamScan.step (s : ParamScan) (c : UInt8) : ParamScan × Bool :=
  if s.quoteSymbol = 0 then
    if s.bracketOpen = false ∧ c = 0x2c then (s, true)
    else if c = 0x28 then ({ s with bracketOpen := true }, false)
    else if c = 0x29 then ({ s with bracketOpen := false }, false)
    else if c = 0x22 ∨ c = 0x27 then ({ s with quoteSymbol := c }, false)
    else (s, false)
  else if c = s.quoteSymbol then ({ s with quoteSymbol := 0 }, false)
  else (s, false)

/-- The loop: the text as it is afterwards, and the number of cuts. -/
def cutParams : ParamScan → List UInt8 → List UInt8 × ℕ
  | _, [] => ([], 0)
  | s, c :: str =>
    let r := s.step c
    let tail := cutParams r.1 str
    if r.2 then (0 :: tail.1, tail.2 + 1) else (c :: tail.1, tail.2)

/-- `proc_param_tokenize`: the text as it is afterwards, and `*params_num`. -/
def procParamTokenize (str : List UInt8) : List UInt8 × ℕ :=
  let rest := str.dropWhile isspaceByte
  let paramsNum := if rest = [] ∨ rest.head? = some 0x29 then 0 else 1
  let cut := cutParams .start rest
  (str.takeWhile isspaceByte ++ cut.1, paramsNum + cut.2)

/-- The string at a place of the memory. -/
def tokenAt (mem : List UInt8) (str : ℕ) : List UInt8 := (mem.drop str).takeWhile (· ≠ 0)

/-- `proc_param_next_token`, with places in the memory for pointers. -/
def procParamNextToken (mem : List UInt8) (str strEnd : ℕ) : Option ℕ :=
  if str + (tokenAt mem str).length + 1 < strEnd then some (str + (tokenAt mem str).length + 1)
  else none

/-- The next string is inside, and further on. -/
theorem procParamNextToken_lt {mem : List UInt8} {str strEnd next : ℕ}
    (h : procParamNextToken mem str strEnd = some next) : str < next ∧ next < strEnd := by
  rw [procParamNextToken] at h
  split_ifs at h with hlt
  obtain rfl := Option.some_inj.mp h
  exact ⟨by omega, hlt⟩

/-- The loop of `procedure_columns_no_i_s` over the strings, each with its place. -/
def walkTokens (mem : List UInt8) (strEnd str : ℕ) : List (ℕ × List UInt8) :=
  (str, tokenAt mem str) ::
    match _h : procParamNextToken mem str strEnd with
    | none => []
    | some next => walkTokens mem strEnd next
termination_by strEnd - str
decreasing_by
  have hlt := procParamNextToken_lt _h
  omega

/-- How the server reads a name in backquotes. -/
def nameDialect : Dialect UInt8 where
  multi _ := 0
  quote := 0x60
  escape := none
  unescape c := [c]
  allowed c := c ≠ 0

/-- The parts of a parameter: names in backquotes, texts in quotes, brackets, commas, and bytes
that mean nothing of their own. -/
inductive ParamToken where
  | byte (c : UInt8)
  | comma
  | opening
  | closing
  | name (body : List UInt8)
  | text (quote : UInt8) (body : List UInt8)

namespace ParamToken

/-- How a part is written. -/
def chars : ParamToken → List UInt8
  | byte c => [c]
  | comma => [0x2c]
  | opening => [0x28]
  | closing => [0x29]
  | name body => 0x60 :: (body ++ [0x60])
  | text quote body => quote :: (body ++ [quote])

/-- The server reads the part as what it is. -/
def Valid : ParamToken → Prop
  | byte c => c ∉ [0x22, 0x27, 0x28, 0x29, 0x2c, 0x60]
  | name body => ∃ value, Reads nameDialect (body ++ [0x60]) value []
  | text quote body => (quote = 0x22 ∨ quote = 0x27) ∧
      ∃ value, Reads (enumDialect quote) (body ++ [quote]) value []
  | _ => True

/-- The brackets fit, and commas are inside of them. -/
def Balanced : ℕ → List ParamToken → Prop
  | depth, [] => depth = 0
  | depth, opening :: tokens => Balanced (depth + 1) tokens
  | depth, closing :: tokens => 0 < depth ∧ Balanced (depth - 1) tokens
  | depth, comma :: tokens => 0 < depth ∧ Balanced depth tokens
  | depth, _ :: tokens => Balanced depth tokens

end ParamToken

/-- A parameter of a stored procedure. -/
structure ProcParam where
  tokens : List ParamToken
  valid : ∀ t ∈ tokens, t.Valid
  balanced : ParamToken.Balanced 0 tokens
  nonzero : 0 ∉ tokens.flatMap ParamToken.chars
  nonblank : ∃ c ∈ tokens.flatMap ParamToken.chars, isspaceByte c = false

/-- The text of a parameter. -/
def ProcParam.text (p : ProcParam) : List UInt8 := p.tokens.flatMap ParamToken.chars

/-- Texts with a byte between them. -/
def joinWith (sep : UInt8) : List (List UInt8) → List UInt8
  | [] => []
  | p :: ps => p ++ ps.flatMap (sep :: ·)

/-- A list of parameters, or blanks if there is none, the length of which is an `int`. -/
structure ParamList where
  params : List ProcParam
  blanks : List UInt8
  blank : ∀ c ∈ blanks, isspaceByte c = true
  length_lt : (joinWith 0x2c (params.map ProcParam.text)).length < 2 ^ 31 ∧ blanks.length < 2 ^ 31

/-- The text of the list. -/
def ParamList.text (l : ParamList) : List UInt8 :=
  if l.params = [] then l.blanks else joinWith 0x2c (l.params.map ProcParam.text)

/-- The text is cut between the parameters and nowhere else, they are counted, and each of
them is visited once, inside of the text. -/
structure ParamList.Tokenized (l : ParamList) : Prop where
  cut : l.params ≠ [] → (procParamTokenize l.text).1 = joinWith 0 (l.params.map ProcParam.text)
  count : (procParamTokenize l.text).2 = l.params.length
  visited : l.params ≠ [] →
    (walkTokens ((procParamTokenize l.text).1 ++ [0]) l.text.length 0).map Prod.snd =
      l.params.map ProcParam.text
  inside : l.params ≠ [] →
    ∀ v ∈ walkTokens ((procParamTokenize l.text).1 ++ [0]) l.text.length 0,
      v.1 + v.2.length ≤ l.text.length

/-- Text between brackets, where quotes end at the next one. -/
inductive InBrackets : List UInt8 → Prop where
  | nil : InBrackets []
  | byte {c : UInt8} {s : List UInt8} : c ∉ [0x22, 0x27, 0x29] → InBrackets s → InBrackets (c :: s)
  | quoted {q : UInt8} {body s : List UInt8} : q ∈ [0x22, 0x27] → q ∉ body → InBrackets s →
      InBrackets (q :: (body ++ q :: s))

/-- Text with commas in brackets and quotes only, where quotes end at the next one and brackets
at the first one that closes. -/
inductive Neutral : List UInt8 → Prop where
  | nil : Neutral []
  | byte {c : UInt8} {s : List UInt8} : c ∉ [0x22, 0x27, 0x28, 0x2c] → Neutral s → Neutral (c :: s)
  | quoted {q : UInt8} {body s : List UInt8} : q ∈ [0x22, 0x27] → q ∉ body → Neutral s →
      Neutral (q :: (body ++ q :: s))
  | bracketed {body s : List UInt8} : InBrackets body → Neutral s →
      Neutral (0x28 :: (body ++ 0x29 :: s))

/-- Nothing, or a quote that does not end. -/
def OpenQuote (s : List UInt8) : Prop := s = [] ∨ ∃ q body, s = q :: body ∧ q ∈ [0x22, 0x27] ∧ q ∉ body

/-- Such a text, up to a quote or a bracket that does not end. -/
def Uncut (s : List UInt8) : Prop :=
  ∃ front rest, s = front ++ rest ∧ Neutral front ∧
    (OpenQuote rest ∨ ∃ body t, rest = 0x28 :: (body ++ t) ∧ InBrackets body ∧ OpenQuote t)

/-- The state behind a text, if nothing in it is cut. -/
def ParamScan.run : ParamScan → List UInt8 → Option ParamScan
  | s, [] => some s
  | s, c :: text => if (s.step c).2 then none else (s.step c).1.run text

variable {s s' : ParamScan} {text xs ys body rest : List UInt8} {q c : UInt8} {b : Bool}

namespace ParamScan

/-- Two texts, one behind the other. -/
theorem run_append : s.run (xs ++ ys) = (s.run xs).bind fun s' => s'.run ys := by
  induction xs generalizing s with
  | nil => rfl
  | cons c xs ih =>
    rw [List.cons_append, run, run]
    by_cases hcut : (s.step c).2 = true
    · rw [if_pos hcut, if_pos hcut, Option.bind_none]
    · rw [if_neg hcut, if_neg hcut, ih]

/-- Inside of quotes everything but the quote is skipped. -/
theorem run_inQuotes (hq : q ≠ 0) (hbody : q ∉ body) : run ⟨b, q⟩ body = some ⟨b, q⟩ := by
  induction body with
  | nil => rfl
  | cons c body ih =>
    rw [List.mem_cons, not_or] at hbody
    have hstep : step ⟨b, q⟩ c = (⟨b, q⟩, false) := by
      rw [step, if_neg hq, if_neg (Ne.symm hbody.1)]
    rw [run, hstep, if_neg Bool.false_ne_true, ih hbody.2]

/-- The quote that begins a text. -/
theorem step_open (hq : q ∈ [0x22, 0x27]) : step ⟨b, 0⟩ q = (⟨b, q⟩, false) := by
  rw [List.mem_cons, List.mem_singleton] at hq
  cases b <;> obtain rfl | rfl := hq <;> rfl

/-- The quote that ends it. -/
theorem step_close (hq : q ∈ [0x22, 0x27]) : step ⟨b, q⟩ q = (⟨b, 0⟩, false) := by
  rw [List.mem_cons, List.mem_singleton] at hq
  obtain rfl | rfl := hq <;> rfl

/-- Neither quote is the mark of the outside. -/
theorem quote_ne_zero (hq : q ∈ [0x22, 0x27]) : q ≠ 0 := by
  rw [List.mem_cons, List.mem_singleton] at hq
  obtain rfl | rfl := hq <;> decide

/-- A text between two quotes is skipped. -/
theorem run_quoted (hq : q ∈ [0x22, 0x27]) (hbody : q ∉ body) :
    run ⟨b, 0⟩ (q :: (body ++ q :: rest)) = run ⟨b, 0⟩ rest := by
  rw [run, step_open hq, if_neg Bool.false_ne_true, run_append,
    run_inQuotes (quote_ne_zero hq) hbody, Option.bind_some, run, step_close hq,
    if_neg Bool.false_ne_true]

/-- Other bytes in brackets mean nothing. -/
theorem step_inBrackets (hc : c ∉ [0x22, 0x27, 0x29]) : step ⟨true, 0⟩ c = (⟨true, 0⟩, false) := by
  simp only [List.mem_cons, List.not_mem_nil, or_false, not_or] at hc
  obtain ⟨hdouble, hsingle, hclose⟩ := hc
  rw [step, if_pos rfl, if_neg (by simp)]
  by_cases hopen : c = 0x28
  · rw [if_pos hopen]
  · rw [if_neg hopen, if_neg hclose, if_neg (not_or.mpr ⟨hdouble, hsingle⟩)]

/-- Other bytes outside of brackets mean nothing, and no more does a bracket that closes. -/
theorem step_outside (hc : c ∉ [0x22, 0x27, 0x28, 0x2c]) : start.step c = (start, false) := by
  simp only [List.mem_cons, List.not_mem_nil, or_false, not_or] at hc
  obtain ⟨hdouble, hsingle, hopen, hcomma⟩ := hc
  rw [step, start, if_pos rfl, if_neg (fun h => hcomma h.2), if_neg hopen]
  by_cases hclose : c = 0x29
  · rw [if_pos hclose]
  · rw [if_neg hclose, if_neg (not_or.mpr ⟨hdouble, hsingle⟩)]

/-- Text between brackets is skipped. -/
theorem run_brackets (h : InBrackets body) : run ⟨true, 0⟩ (body ++ rest) = run ⟨true, 0⟩ rest := by
  induction h with
  | nil => rfl
  | byte hc _ ih => rw [List.cons_append, run, step_inBrackets hc, if_neg Bool.false_ne_true, ih]
  | quoted hq hbody _ ih =>
    rw [List.cons_append, List.append_assoc, List.cons_append, run_quoted hq hbody, ih]

/-- Text of this form leaves the scan where it was. -/
theorem run_neutral (h : Neutral text) : start.run (text ++ rest) = start.run rest := by
  induction h with
  | nil => rfl
  | byte hc _ ih => rw [List.cons_append, run, step_outside hc, if_neg Bool.false_ne_true, ih]
  | quoted hq hbody _ ih =>
    rw [List.cons_append, List.append_assoc, List.cons_append, start, run_quoted hq hbody]
    exact ih
  | bracketed hbody _ ih =>
    rw [List.cons_append, List.append_assoc, List.cons_append, run]
    have hopen : start.step 0x28 = (⟨true, 0⟩, false) := rfl
    have hclose : step ⟨true, 0⟩ 0x29 = (start, false) := rfl
    rw [hopen, if_neg Bool.false_ne_true, run_brackets hbody, run, hclose,
      if_neg Bool.false_ne_true, ih]

/-- A quote that does not end cuts nothing. -/
theorem run_openQuote (h : OpenQuote text) : (run ⟨b, 0⟩ text).isSome = true := by
  obtain rfl | ⟨q, body, rfl, hq, hbody⟩ := h
  · rfl
  · rw [run, step_open hq, if_neg Bool.false_ne_true, run_inQuotes (quote_ne_zero hq) hbody]
    rfl

/-- In quotes, the text ends them or goes on. -/
theorem of_run_inQuotes (hq : q ∈ [0x22, 0x27]) (h : run ⟨b, q⟩ text = some s') :
    (∃ body rest, text = body ++ q :: rest ∧ q ∉ body ∧ run ⟨b, 0⟩ rest = some s') ∨
      q ∉ text ∧ s' = ⟨b, q⟩ := by
  by_cases hmem : q ∈ text
  · obtain ⟨body, rest, rfl, hbody⟩ := List.eq_append_cons_of_mem hmem
    rw [run_append, run_inQuotes (quote_ne_zero hq) hbody, Option.bind_some, run, step_close hq,
      if_neg Bool.false_ne_true] at h
    exact Or.inl ⟨body, rest, rfl, hbody, h⟩
  · rw [run_inQuotes (quote_ne_zero hq) hmem, Option.some_inj] at h
    exact Or.inr ⟨hmem, h.symm⟩

/-- In brackets, the text closes them or goes on, possibly in quotes. -/
theorem of_run_brackets (h : run ⟨true, 0⟩ text = some s') :
    (∃ body rest, text = body ++ 0x29 :: rest ∧ InBrackets body ∧ start.run rest = some s') ∨
      ∃ body t, text = body ++ t ∧ InBrackets body ∧ OpenQuote t ∧ s' ≠ start := by
  induction hn : text.length using Nat.strong_induction_on generalizing text with
  | _ n ih =>
    subst hn
    cases text with
    | nil =>
      obtain rfl := Option.some_inj.mp h
      refine Or.inr ⟨[], [], rfl, .nil, Or.inl rfl, fun hstart => ?_⟩
      exact Bool.noConfusion (congrArg bracketOpen hstart)
    | cons c text =>
      by_cases hclose : c = 0x29
      · subst hclose
        exact Or.inl ⟨[], text, rfl, .nil, h⟩
      by_cases hquote : c ∈ [0x22, 0x27]
      · rw [run, step_open hquote, if_neg Bool.false_ne_true] at h
        obtain ⟨body, rest, rfl, hbody, hrest⟩ | ⟨hopen, rfl⟩ := of_run_inQuotes hquote h
        · obtain ⟨inner, rest', rfl, hinner, htail⟩ | ⟨inner, t, rfl, hinner, ht, hne⟩ :=
            ih rest.length (by simp only [List.length_cons, List.length_append]; omega) hrest rfl
          · refine Or.inl ⟨c :: (body ++ c :: inner), rest', ?_, .quoted hquote hbody hinner, htail⟩
            simp
          · refine Or.inr ⟨c :: (body ++ c :: inner), t, ?_, .quoted hquote hbody hinner, ht, hne⟩
            simp
        · refine Or.inr ⟨[], c :: text, rfl, .nil, Or.inr ⟨c, text, rfl, hquote, hopen⟩, ?_⟩
          exact fun hstart => Bool.noConfusion (congrArg bracketOpen hstart)
      · have hc : c ∉ [0x22, 0x27, 0x29] := by
          simp only [List.mem_cons, List.not_mem_nil, or_false, not_or] at hquote ⊢
          exact ⟨hquote.1, hquote.2, hclose⟩
        rw [run, step_inBrackets hc, if_neg Bool.false_ne_true] at h
        obtain ⟨inner, rest, rfl, hinner, htail⟩ | ⟨inner, t, rfl, hinner, ht, hne⟩ :=
          ih text.length (Nat.lt_succ_self _) h rfl
        · exact Or.inl ⟨c :: inner, rest, rfl, .byte hc hinner, htail⟩
        · exact Or.inr ⟨c :: inner, t, rfl, .byte hc hinner, ht, hne⟩

/-- Outside, the text ends there or goes on in quotes or brackets. -/
theorem of_run_start (h : start.run text = some s') :
    (s' = start ∧ Neutral text) ∨ (s' ≠ start ∧ Uncut text) := by
  induction hn : text.length using Nat.strong_induction_on generalizing text with
  | _ n ih =>
    subst hn
    cases text with
    | nil => exact Or.inl ⟨(Option.some_inj.mp h).symm, .nil⟩
    | cons c text =>
      by_cases hquote : c ∈ [0x22, 0x27]
      · rw [run, start, step_open hquote, if_neg Bool.false_ne_true] at h
        obtain ⟨body, rest, rfl, hbody, hrest⟩ | ⟨hopen, rfl⟩ := of_run_inQuotes hquote h
        · obtain ⟨rfl, hneutral⟩ | ⟨hne, front, t, rfl, hneutral, ht⟩ :=
            ih rest.length (by simp only [List.length_cons, List.length_append]; omega) hrest rfl
          · exact Or.inl ⟨rfl, .quoted hquote hbody hneutral⟩
          · refine Or.inr ⟨hne, c :: (body ++ c :: front), t, ?_, .quoted hquote hbody hneutral, ht⟩
            simp
        · refine Or.inr ⟨fun hstart => ?_, [], c :: text, rfl, .nil,
            Or.inl (Or.inr ⟨c, text, rfl, hquote, hopen⟩)⟩
          exact quote_ne_zero hquote (congrArg quoteSymbol hstart)
      by_cases hbracket : c = 0x28
      · subst hbracket
        have hrun : run ⟨true, 0⟩ text = some s' := h
        obtain ⟨inner, rest, rfl, hinner, hrest⟩ | ⟨inner, t, rfl, hinner, ht, hne⟩ :=
          of_run_brackets hrun
        · obtain ⟨rfl, hneutral⟩ | ⟨hne, front, t, rfl, hneutral, ht⟩ :=
            ih rest.length (by simp only [List.length_cons, List.length_append]; omega) hrest rfl
          · exact Or.inl ⟨rfl, .bracketed hinner hneutral⟩
          · refine Or.inr ⟨hne, 0x28 :: (inner ++ 0x29 :: front), t, ?_,
              .bracketed hinner hneutral, ht⟩
            simp
        · exact Or.inr ⟨hne, [], _, rfl, .nil, Or.inr ⟨inner, t, rfl, hinner, ht⟩⟩
      by_cases hcomma : c = 0x2c
      · subst hcomma
        exact absurd h (Option.some_ne_none s').symm
      · have hc : c ∉ [0x22, 0x27, 0x28, 0x2c] := by
          simp only [List.mem_cons, List.not_mem_nil, or_false, not_or] at hquote ⊢
          exact ⟨hquote.1, hquote.2, hbracket, hcomma⟩
        rw [run, step_outside hc, if_neg Bool.false_ne_true] at h
        obtain ⟨rfl, hneutral⟩ | ⟨hne, front, t, rfl, hneutral, ht⟩ :=
          ih text.length (Nat.lt_succ_self _) h rfl
        · exact Or.inl ⟨rfl, .byte hc hneutral⟩
        · exact Or.inr ⟨hne, c :: front, t, rfl, .byte hc hneutral, ht⟩

/-- A text leaves the scan outside exactly if it is of this form. -/
theorem run_eq_start_iff : start.run text = some start ↔ Neutral text := by
  constructor
  · intro h
    obtain ⟨-, hneutral⟩ | ⟨hne, -⟩ := of_run_start h
    · exact hneutral
    · exact absurd rfl hne
  · intro h
    have hrun := @run_neutral _ [] h
    rwa [List.append_nil] at hrun

/-- A text is not cut exactly if it is of that form. -/
theorem run_isSome_iff : (start.run text).isSome = true ↔ Uncut text := by
  constructor
  · intro h
    obtain ⟨s', hs'⟩ := Option.isSome_iff_exists.mp h
    obtain ⟨-, hneutral⟩ | ⟨-, huncut⟩ := of_run_start hs'
    · exact ⟨text, [], (List.append_nil _).symm, hneutral, Or.inl (Or.inl rfl)⟩
    · exact huncut
  · rintro ⟨front, rest, rfl, hneutral, hquote | ⟨body, t, rfl, hbody, ht⟩⟩
    · rw [run_neutral hneutral]
      exact run_openQuote hquote
    · rw [run_neutral hneutral]
      have hopen : start.step 0x28 = (⟨true, 0⟩, false) := rfl
      rw [run, hopen, if_neg Bool.false_ne_true, run_brackets hbody]
      exact run_openQuote ht

end ParamScan

/-- What is not cut is copied. -/
theorem cutParams_append (h : s.run xs = some s') :
    cutParams s (xs ++ ys) = (xs ++ (cutParams s' ys).1, (cutParams s' ys).2) := by
  induction xs generalizing s with
  | nil =>
    obtain rfl := Option.some_inj.mp h
    rfl
  | cons c xs ih =>
    rw [ParamScan.run] at h
    split_ifs at h with hcut
    rw [List.cons_append, cutParams, if_neg hcut, ih h, List.cons_append]

/-- What is copied has not been cut. -/
theorem isSome_run_of_cutParams (hzero : 0 ∉ xs) (h : xs <+: (cutParams s (xs ++ ys)).1) :
    (s.run xs).isSome = true := by
  induction xs generalizing s with
  | nil => rfl
  | cons c xs ih =>
    rw [List.mem_cons, not_or] at hzero
    rw [List.cons_append, cutParams] at h
    rw [ParamScan.run]
    by_cases hcut : (s.step c).2 = true
    · rw [if_pos hcut, List.cons_prefix_cons] at h
      exact absurd h.1.symm hzero.1
    · rw [if_neg hcut, List.cons_prefix_cons] at h
      rw [if_neg hcut]
      exact ih hzero.2 h.2

/-- A comma is cut outside only. -/
theorem eq_start_of_step (h : (s.step 0x2c).2 = true) : s = .start := by
  obtain ⟨bracketOpen, quoteSymbol⟩ := s
  rw [ParamScan.step] at h
  by_cases hquote : quoteSymbol = 0
  · subst hquote
    cases bracketOpen with
    | false => rfl
    | true => exact absurd h Bool.false_ne_true
  · rw [if_neg hquote] at h
    split_ifs at h

variable {p p' : List UInt8} {ps : List (List UInt8)}

/-- The first text is followed by the others. -/
theorem joinWith_cons (sep : UInt8) (p p' : List UInt8) (ps : List (List UInt8)) :
    joinWith sep (p :: p' :: ps) = p ++ sep :: joinWith sep (p' :: ps) := rfl

/-- The byte between the texts does not matter for the length. -/
theorem length_joinWith (sep sep' : UInt8) (ps : List (List UInt8)) :
    (joinWith sep ps).length = (joinWith sep' ps).length := by
  cases ps with
  | nil => rfl
  | cons p ps =>
    rw [joinWith, joinWith, List.length_append, List.length_append, List.length_flatMap,
      List.length_flatMap]
    rfl

/-- The texts are cut from one another if all of them but the last one are neutral. -/
theorem cutParams_joinWith (hneutral : ∀ t ∈ (p :: ps).dropLast, Neutral t)
    (huncut : ∀ t ∈ (p :: ps).getLast?, Uncut t) :
    cutParams .start (joinWith 0x2c (p :: ps)) = (joinWith 0 (p :: ps), ps.length) := by
  induction ps generalizing p with
  | nil =>
    obtain ⟨s', hs'⟩ := Option.isSome_iff_exists.mp
      (ParamScan.run_isSome_iff.mpr (huncut p rfl))
    have hcut := @cutParams_append _ _ _ [] hs'
    simpa [joinWith, cutParams] using hcut
  | cons p' ps ih =>
    rw [List.dropLast_cons_cons] at hneutral
    have hrun := ParamScan.run_eq_start_iff.mpr (hneutral p List.mem_cons_self)
    have hcomma : ParamScan.start.step 0x2c = (.start, true) := rfl
    rw [joinWith_cons, joinWith_cons, cutParams_append hrun, cutParams, hcomma, if_pos rfl,
      ih (fun t ht => hneutral t (List.mem_cons_of_mem _ ht)) huncut, List.length_cons]

/-- Texts that are cut from one another are neutral, up to the last one. -/
theorem neutral_of_cutParams (hzero : ∀ t ∈ p :: ps, 0 ∉ t)
    (h : (cutParams .start (joinWith 0x2c (p :: ps))).1 = joinWith 0 (p :: ps)) :
    (∀ t ∈ (p :: ps).dropLast, Neutral t) ∧ ∀ t ∈ (p :: ps).getLast?, Uncut t := by
  induction ps generalizing p with
  | nil =>
    refine ⟨fun t ht => absurd ht List.not_mem_nil, fun t ht => ?_⟩
    obtain rfl := Option.some_inj.mp ht
    have hcopied : p <+: (cutParams .start (p ++ [])).1 := by
      have hp : joinWith 0 [p] = p ++ [] := rfl
      have hp' : joinWith 0x2c [p] = p ++ [] := rfl
      rw [hp, hp'] at h
      rw [h]
      exact List.prefix_append _ _
    exact ParamScan.run_isSome_iff.mp
      (isSome_run_of_cutParams (hzero p List.mem_cons_self) hcopied)
  | cons p' ps ih =>
    rw [joinWith_cons, joinWith_cons] at h
    have hcopied : p <+: (cutParams .start (p ++ 0x2c :: joinWith 0x2c (p' :: ps))).1 := by
      rw [h]
      exact List.prefix_append _ _
    obtain ⟨s', hs'⟩ := Option.isSome_iff_exists.mp
      (isSome_run_of_cutParams (hzero p List.mem_cons_self) hcopied)
    rw [cutParams_append hs', List.append_cancel_left_eq, cutParams] at h
    by_cases hcut : (s'.step 0x2c).2 = true
    · obtain rfl := eq_start_of_step hcut
      have hcomma : ParamScan.start.step 0x2c = (.start, true) := rfl
      rw [hcomma, if_pos rfl, List.cons_inj_right] at h
      obtain ⟨hneutral, huncut⟩ := ih (fun t ht => hzero t (List.mem_cons_of_mem _ ht)) h
      refine ⟨fun t ht => ?_, huncut⟩
      rw [List.dropLast_cons_cons, List.mem_cons] at ht
      obtain rfl | ht := ht
      · exact ParamScan.run_eq_start_iff.mp hs'
      · exact hneutral t ht
    · rw [if_neg hcut, List.cons.injEq] at h
      exact absurd h.1 (by decide)

/-- The string at a place ends at the next zero. -/
theorem tokenAt_append (before behind : List UInt8) (hp : 0 ∉ p) :
    tokenAt (before ++ (p ++ 0 :: behind)) before.length = p := by
  have hall : ∀ c ∈ p, decide (c ≠ 0) = true := by
    intro c hc
    rw [decide_eq_true_eq]
    rintro rfl
    exact hp hc
  rw [tokenAt, List.drop_left, List.takeWhile_append_of_pos hall]
  simp

/-- The last string. -/
theorem walkTokens_of_none {mem : List UInt8} {str strEnd : ℕ}
    (h : procParamNextToken mem str strEnd = none) :
    walkTokens mem strEnd str = [(str, tokenAt mem str)] := by
  rw [walkTokens]
  split
  · rfl
  · simp_all

/-- A string with another one behind it. -/
theorem walkTokens_of_some {mem : List UInt8} {str strEnd next : ℕ}
    (h : procParamNextToken mem str strEnd = some next) :
    walkTokens mem strEnd str = (str, tokenAt mem str) :: walkTokens mem strEnd next := by
  rw [walkTokens]
  split
  · simp_all
  · simp_all

/-- The walk visits the texts one after the other, and all of them are inside. -/
theorem walkTokens_joinWith (before : List UInt8) (hzero : ∀ t ∈ p :: ps, 0 ∉ t)
    (hne : ∀ t ∈ p :: ps, t ≠ []) :
    (walkTokens (before ++ (joinWith 0 (p :: ps) ++ [0]))
        (before.length + (joinWith 0 (p :: ps)).length) before.length).map Prod.snd = p :: ps ∧
      ∀ v ∈ walkTokens (before ++ (joinWith 0 (p :: ps) ++ [0]))
        (before.length + (joinWith 0 (p :: ps)).length) before.length,
        v.1 + v.2.length ≤ before.length + (joinWith 0 (p :: ps)).length := by
  induction ps generalizing before p with
  | nil =>
    have hjoin : joinWith 0 [p] = p := List.append_nil p
    have htoken := tokenAt_append before [] (hzero p List.mem_cons_self)
    have hnext : procParamNextToken (before ++ (p ++ [0])) before.length
        (before.length + p.length) = none := by
      rw [procParamNextToken, htoken, if_neg (by omega)]
    rw [hjoin, walkTokens_of_none hnext, htoken]
    refine ⟨rfl, fun v hv => ?_⟩
    obtain rfl := List.mem_singleton.mp hv
    exact le_rfl
  | cons p' ps ih =>
    obtain ⟨hvisited, hinside⟩ := ih (before ++ (p ++ [0]))
      (fun t ht => hzero t (List.mem_cons_of_mem _ ht))
      (fun t ht => hne t (List.mem_cons_of_mem _ ht))
    have hmem : before ++ (p ++ [0]) ++ (joinWith 0 (p' :: ps) ++ [0]) =
        before ++ (p ++ 0 :: (joinWith 0 (p' :: ps) ++ [0])) := by
      simp
    have hplace : (before ++ (p ++ [0])).length = before.length + p.length + 1 := by
      simp only [List.length_append, List.length_cons, List.length_nil]
      omega
    have hend : before.length + (joinWith 0 (p :: p' :: ps)).length =
        before.length + p.length + 1 + (joinWith 0 (p' :: ps)).length := by
      rw [joinWith_cons, List.length_append, List.length_cons]
      omega
    have hpos : 0 < (joinWith 0 (p' :: ps)).length := by
      have hp' := List.length_pos_of_ne_nil (hne p' (by simp))
      rw [joinWith, List.length_append]
      omega
    rw [hmem, hplace] at hvisited hinside
    have htoken := tokenAt_append before (joinWith 0 (p' :: ps) ++ [0]) (hzero p List.mem_cons_self)
    have hnext : procParamNextToken (before ++ (p ++ 0 :: (joinWith 0 (p' :: ps) ++ [0])))
        before.length (before.length + p.length + 1 + (joinWith 0 (p' :: ps)).length) =
          some (before.length + p.length + 1) := by
      rw [procParamNextToken, htoken, if_pos (by omega)]
    rw [hend, joinWith_cons, List.append_assoc, List.cons_append, walkTokens_of_some hnext, htoken]
    refine ⟨by rw [List.map_cons, hvisited], fun v hv => ?_⟩
    obtain rfl | hv := List.mem_cons.mp hv
    · dsimp only
      omega
    · exact hinside v hv

/-- A text that is not blank is not empty. -/
theorem ProcParam.text_ne_nil (p : ProcParam) : p.text ≠ [] := by
  obtain ⟨c, hc, -⟩ := p.nonblank
  exact List.ne_nil_of_mem hc

/-- A parameter does not begin with a bracket that closes. -/
theorem ParamToken.head_dropWhile_ne {tokens : List ParamToken} (hvalid : ∀ t ∈ tokens, t.Valid)
    (hbalanced : Balanced 0 tokens) :
    ((tokens.flatMap chars).dropWhile isspaceByte).head? ≠ some 0x29 := by
  induction tokens with
  | nil => simp
  | cons t tokens ih =>
    have htail := fun t ht => hvalid t (List.mem_cons_of_mem _ ht)
    have hhead := hvalid t List.mem_cons_self
    cases t with
    | byte c =>
      rw [List.flatMap_cons, chars, List.singleton_append, List.dropWhile_cons]
      split_ifs with hblank
      · exact ih htail hbalanced
      · rw [List.head?_cons]
        rintro h
        obtain rfl := Option.some_inj.mp h
        exact hhead (by decide)
    | comma => exact absurd hbalanced.1 (Nat.lt_irrefl 0)
    | closing => exact absurd hbalanced.1 (Nat.lt_irrefl 0)
    | opening => exact fun h => absurd (Option.some_inj.mp h) (by decide)
    | name body => exact fun h => absurd (Option.some_inj.mp h) (by decide)
    | text quote body =>
      rw [List.flatMap_cons, chars, List.cons_append, List.dropWhile_cons]
      have hquote : isspaceByte quote = false := by
        obtain rfl | rfl := hhead.1 <;> rfl
      rw [hquote, if_neg Bool.false_ne_true, List.head?_cons]
      intro h
      obtain rfl := Option.some_inj.mp h
      exact absurd hhead.1 (by decide)

/-- Blanks mean nothing. -/
theorem neutral_of_blank (h : ∀ c ∈ text, isspaceByte c = true) : Neutral text := by
  induction text with
  | nil => exact .nil
  | cons c text ih =>
    refine .byte (fun hc => ?_) (ih fun d hd => h d (List.mem_cons_of_mem _ hd))
    have hspace := h c List.mem_cons_self
    revert hspace
    simp only [List.mem_cons, List.not_mem_nil, or_false] at hc
    obtain rfl | rfl | rfl | rfl := hc <;> decide

/-- Blanks in front of the list are not cut. -/
theorem cutParams_dropWhile (str : List UInt8) :
    cutParams .start str = (str.takeWhile isspaceByte ++
      (cutParams .start (str.dropWhile isspaceByte)).1,
      (cutParams .start (str.dropWhile isspaceByte)).2) := by
  have hblank := neutral_of_blank fun c (hc : c ∈ str.takeWhile isspaceByte) =>
    List.mem_takeWhile_imp hc
  have hcut := @cutParams_append _ _ _ (str.dropWhile isspaceByte)
    (ParamScan.run_eq_start_iff.mpr hblank)
  rwa [List.takeWhile_append_dropWhile] at hcut

/-- The text behind the loop. -/
theorem procParamTokenize_fst (str : List UInt8) :
    (procParamTokenize str).1 = (cutParams .start str).1 := by
  rw [cutParams_dropWhile]
  rfl

/-- If there is a parameter, it is counted before the loop. -/
theorem ProcParam.procParamTokenize_snd (p : ProcParam) (behind : List UInt8) :
    (procParamTokenize (p.text ++ behind)).2 = 1 + (cutParams .start (p.text ++ behind)).2 := by
  obtain ⟨c, hc, hblank⟩ := p.nonblank
  have hne : p.text.dropWhile isspaceByte ≠ [] := by
    intro hnil
    have hall := List.dropWhile_eq_nil_iff.mp hnil c hc
    rw [hblank] at hall
    exact Bool.false_ne_true hall
  have hhead : (p.text.dropWhile isspaceByte).head? ≠ some 0x29 :=
    ParamToken.head_dropWhile_ne p.valid p.balanced
  have hdrop : (p.text ++ behind).dropWhile isspaceByte =
      p.text.dropWhile isspaceByte ++ behind := by
    rw [List.dropWhile_append, List.isEmpty_eq_false_iff.mpr hne, if_neg Bool.false_ne_true]
  have hhead' : (p.text.dropWhile isspaceByte ++ behind).head? ≠ some 0x29 := by
    rwa [List.head?_append_of_ne_nil _ hne]
  have hne' : p.text.dropWhile isspaceByte ++ behind ≠ [] := List.append_ne_nil_of_left_ne_nil hne _
  rw [cutParams_dropWhile, procParamTokenize, hdrop, if_neg (not_or.mpr ⟨hne', hhead'⟩)]

/-- A list is split as it should be exactly if every parameter but the last one has its commas in
brackets and quotes as the loop sees them, and the last one is not cut. -/
theorem ParamList.tokenized_iff (l : ParamList) :
    l.Tokenized ↔ (∀ p ∈ l.params.dropLast, Neutral p.text) ∧
      ∀ p ∈ l.params.getLast?, Uncut p.text := by
  obtain ⟨params, blanks, hblank, hlength⟩ := l
  cases params with
  | nil =>
    refine iff_of_true ⟨fun h => absurd rfl h, ?_, fun h => absurd rfl h, fun h => absurd rfl h⟩
      ⟨fun p hp => absurd hp List.not_mem_nil, fun p hp => absurd hp (by simp)⟩
    have hdrop : blanks.dropWhile isspaceByte = [] := List.dropWhile_eq_nil_iff.mpr hblank
    rw [text, if_pos rfl, procParamTokenize, hdrop]
    rfl
  | cons p params =>
    have htext : text ⟨p :: params, blanks, hblank, hlength⟩ =
        joinWith 0x2c (p.text :: params.map ProcParam.text) := if_neg (List.cons_ne_nil _ _)
    have hzero : ∀ t ∈ p.text :: params.map ProcParam.text, 0 ∉ t := by
      intro t ht
      obtain ⟨p', -, rfl⟩ := List.mem_map.mp (List.map_cons .. ▸ ht)
      exact p'.nonzero
    have hne : ∀ t ∈ p.text :: params.map ProcParam.text, t ≠ [] := by
      intro t ht
      obtain ⟨p', -, rfl⟩ := List.mem_map.mp (List.map_cons .. ▸ ht)
      exact p'.text_ne_nil
    constructor
    · intro h
      have hcut := h.cut (List.cons_ne_nil _ _)
      rw [htext, procParamTokenize_fst] at hcut
      obtain ⟨hneutral, huncut⟩ := neutral_of_cutParams hzero hcut
      rw [← List.map_cons] at hneutral huncut
      rw [← List.map_dropLast] at hneutral
      rw [List.getLast?_map] at huncut
      exact ⟨fun p' hp' => hneutral _ (List.mem_map_of_mem hp'),
        fun p' hp' => huncut _ (Option.mem_map_of_mem _ hp')⟩
    · rintro ⟨hneutral, huncut⟩
      have hcut := @cutParams_joinWith p.text (params.map ProcParam.text)
        (by
          rw [← List.map_cons, ← List.map_dropLast]
          intro t ht
          obtain ⟨p', hp', rfl⟩ := List.mem_map.mp ht
          exact hneutral p' hp')
        (by
          rw [← List.map_cons, List.getLast?_map]
          intro t ht
          obtain ⟨p', hp', rfl⟩ := Option.mem_map.mp ht
          exact huncut p' hp')
      have hmem : (procParamTokenize (text ⟨p :: params, blanks, hblank, hlength⟩)).1 =
          joinWith 0 (p.text :: params.map ProcParam.text) := by
        rw [htext, procParamTokenize_fst, hcut]
      have hlen : (text ⟨p :: params, blanks, hblank, hlength⟩).length =
          (joinWith 0 (p.text :: params.map ProcParam.text)).length := by
        rw [htext, length_joinWith 0x2c 0]
      obtain ⟨hvisited, hinside⟩ := walkTokens_joinWith [] hzero hne
      rw [List.nil_append, List.length_nil, Nat.zero_add] at hvisited hinside
      refine ⟨fun _ => hmem, ?_, fun _ => ?_, fun _ => ?_⟩
      · have hsplit := p.procParamTokenize_snd ((params.map ProcParam.text).flatMap (0x2c :: ·))
        rw [htext]
        rw [joinWith] at hcut ⊢
        rw [hsplit, hcut, List.length_map, List.length_cons, Nat.add_comm]
      · rw [hmem, hlen]
        exact hvisited
      · rw [hmem, hlen]
        exact hinside

/-- A list with a wrong number of parameters is not split as it should be. -/
theorem ParamList.exists_not_tokenized {params : List ProcParam} (hne : params ≠ [])
    (htext : joinWith 0x2c (params.map ProcParam.text) = text) (hlength : text.length < 2 ^ 31)
    (hcount : (procParamTokenize text).2 ≠ params.length) :
    ∃ l : ParamList, l.params = params ∧ l.text = text ∧ ¬ l.Tokenized := by
  have hl : ParamList.text ⟨params, [], by simp, by rw [htext]; simpa using hlength⟩ = text := by
    rw [ParamList.text, if_neg hne, htext]
  refine ⟨_, rfl, hl, fun h => hcount ?_⟩
  rw [← hl]
  exact h.count

/-- A parameter is cut at a comma of its name, and parameters are not cut from one another for a quote
in a name, or for a quote behind a backslash. -/
theorem paramList_failures :
    (∃ l : ParamList, l.params.length = 1 ∧ l.text = [0x60, 0x61, 0x2c, 0x60] ∧ ¬ l.Tokenized) ∧
    (∃ l : ParamList, l.params.length = 2 ∧ l.text = [0x60, 0x27, 0x60, 0x2c, 0x61] ∧
      ¬ l.Tokenized) ∧
    ∃ l : ParamList, l.params.length = 2 ∧ l.text = [0x27, 0x5c, 0x27, 0x27, 0x2c, 0x61] ∧
      ¬ l.Tokenized := by
  have hallowed : ∀ c, c ≠ 0 → nameDialect.allowed c := fun c hc => hc
  have hname : Reads nameDialect ([0x61, 0x2c] ++ [0x60]) [0x61, 0x2c] [] :=
    .plain rfl (by decide) (by decide) (hallowed _ (by decide))
      (.plain rfl (by decide) (by decide) (hallowed _ (by decide)) (.close rfl (by decide)))
  have hquote : Reads nameDialect ([0x27] ++ [0x60]) [0x27] [] :=
    .plain rfl (by decide) (by decide) (hallowed _ (by decide)) (.close rfl (by decide))
  have hescaped : Reads (enumDialect 0x27) ([0x5c, 0x27] ++ [0x27]) [0x27] [] :=
    .escaped rfl (by decide) rfl (.close rfl (by decide))
  have hone : ∀ t : ParamToken, t.Valid → ParamToken.Balanced 0 [t] → 0 ∉ t.chars →
      (∃ c ∈ t.chars, isspaceByte c = false) → ∃ p : ProcParam, p.text = t.chars := by
    intro t hvalid hbalanced hzero hblank
    refine ⟨⟨[t], ?_, hbalanced, ?_, ?_⟩, List.append_nil _⟩
    · intro t' ht'
      obtain rfl := List.mem_singleton.mp ht'
      exact hvalid
    · rwa [List.flatMap_singleton]
    · rwa [List.flatMap_singleton]
  obtain ⟨p₁, hp₁⟩ := hone (.name [0x61, 0x2c]) ⟨_, hname⟩ rfl (by decide) (by decide)
  obtain ⟨p₂, hp₂⟩ := hone (.name [0x27]) ⟨_, hquote⟩ rfl (by decide) (by decide)
  obtain ⟨p₃, hp₃⟩ := hone (.text 0x27 [0x5c, 0x27]) ⟨Or.inr rfl, _, hescaped⟩ rfl (by decide)
    (by decide)
  obtain ⟨p₄, hp₄⟩ := hone (.byte 0x61) (by decide : (0x61 : UInt8) ∉ _) rfl (by decide) (by decide)
  refine ⟨?_, ?_, ?_⟩
  · obtain ⟨l, hl, htext, hnot⟩ := @ParamList.exists_not_tokenized [0x60, 0x61, 0x2c, 0x60] [p₁]
      (by simp) (by simp [joinWith, hp₁, ParamToken.chars])
      (by decide) (by simp only [List.length_singleton]; decide)
    exact ⟨l, by rw [hl]; rfl, htext, hnot⟩
  · obtain ⟨l, hl, htext, hnot⟩ := @ParamList.exists_not_tokenized
      [0x60, 0x27, 0x60, 0x2c, 0x61] [p₂, p₄] (by simp)
      (by simp [joinWith, hp₂, hp₄, ParamToken.chars]) (by decide)
      (by simp only [List.length_cons, List.length_nil]; decide)
    exact ⟨l, by rw [hl]; rfl, htext, hnot⟩
  · obtain ⟨l, hl, htext, hnot⟩ := @ParamList.exists_not_tokenized
      [0x27, 0x5c, 0x27, 0x27, 0x2c, 0x61] [p₃, p₄] (by simp)
      (by simp [joinWith, hp₃, hp₄, ParamToken.chars]) (by decide)
      (by simp only [List.length_cons, List.length_nil]; decide)
    exact ⟨l, by rw [hl]; rfl, htext, hnot⟩

end MatrixOdbc.Driver
