import MatrixOdbc.Driver.BraceTransparency
import MatrixOdbc.Driver.DateTime
import MatrixOdbc.Driver.Positioned
import MatrixOdbc.Driver.TableType

/-!
# Texts in fixed buffers

`proc_get_param_type`, `proc_get_param_name` and `proc_get_param_dbtype` of `driver/utility.cc`
with the buffers of `procedure_columns_no_i_s`, and the text for a cursor that does not exist
from `check_if_positioned_cursor_exists` of `driver/cursor.cc`. The copies are limited by the
length of what is copied, not by the buffers. A memory is the list of the bytes that may be
read, and a step that leaves it or a buffer has no result.
-/

namespace MatrixOdbc.Driver

open DateTime

/-- `SQL_PARAM_INPUT`, `SQL_PARAM_INPUT_OUTPUT` and `SQL_PARAM_OUTPUT`. -/
inductive ParamMode where
  | input | inputOutput | output

/-- The loop over blanks, with the length that is left. -/
def skipLeading : List UInt8 → ℤ → Option (List UInt8 × ℤ)
  | [], _ => none
  | c :: proc, len =>
    if isspaceByte c then
      if len = 0 then some (c :: proc, len - 1) else skipLeading proc (len - 1)
    else some (c :: proc, len)

/-- The test for a word, which is not made if the text is shorter. -/
def isMode (proc : List UInt8) (len : ℤ) (word : List UInt8) : Option Bool :=
  if len < word.length then some false
  else (myodbcCasecmp proc word word.length).map fun r => r = 0

/-- `proc_get_param_type`: the place behind the mode, and `*ptype`. -/
def procGetParamType (proc : List UInt8) (len : ℤ) : Option (List UInt8 × ParamMode) :=
  (skipLeading proc len).bind fun s =>
    (isMode s.1 s.2 (sqlText "INOUT ")).bind fun inout =>
      if inout then some (s.1.drop 6, .inputOutput)
      else (isMode s.1 s.2 (sqlText "OUT ")).bind fun out =>
        if out then some (s.1.drop 4, .output)
        else (isMode s.1 s.2 (sqlText "IN ")).map fun inp =>
          (if inp then s.1.drop 3 else s.1, .input)

/-- The loop that copies a name, into a buffer of `NAME_LEN` bytes. -/
def copyName (quote : UInt8) : List UInt8 → ℤ → List UInt8 → Option (List UInt8 × List UInt8)
  | [], len, cname => if len = 0 then some ([], cname) else none
  | c :: proc, len, cname =>
    if len = 0 then some (c :: proc, cname)
    else if if quote ≠ 0 then c ≠ quote else isspaceByte c = false then
      if cname.length < NAME_LEN then copyName quote proc (len - 1) (cname ++ [c]) else none
    else some (c :: proc, cname)

/-- `proc_get_param_name`: the place behind the name, and the name. -/
def procGetParamName (proc : List UInt8) (len : ℤ) : Option (List UInt8 × List UInt8) :=
  (skipLeading proc len).bind fun s =>
    match s.1 with
    | [] => none
    | c :: rest =>
      if c = 0x60 ∨ c = 0x22 then (copyName c rest s.2 []).map fun r => (r.1.drop 1, r.2)
      else copyName 0 (c :: rest) s.2 []

/-- The size of `param_dbtype`. -/
def dbtypeSize : ℕ := 1024

/-- The loop that copies a type. -/
def copyType : List UInt8 → ℤ → List UInt8 → Option (List UInt8 × List UInt8)
  | [], _, _ => none
  | c :: proc, len, ptype =>
    if c = 0 ∨ len = 0 then some (c :: proc, ptype)
    else if ptype.length < dbtypeSize then copyType proc (len - 1) (ptype ++ [c]) else none

/-- `tolower` of an ASCII byte. -/
def tolower (c : UInt8) : UInt8 := if 0x41 ≤ c ∧ c ≤ 0x5a then c + 0x20 else c

/-- What is in front of a text where `strstr` finds it, or everything. -/
def untilText (text : List UInt8) : List UInt8 → List UInt8
  | [] => []
  | c :: s => if text.isPrefixOf (c :: s) then [] else c :: untilText text s

/-- The loop that trims backwards; in front of the buffer there is nothing to be read. -/
def trimBack : List UInt8 → Option (List UInt8)
  | [] => none
  | c :: s => if isspaceByte c then trimBack s else some (c :: s)

/-- `proc_get_param_dbtype`: the place behind the type, and the type. `myodbc_strlwr` looks for the
terminator in the buffer, which is filled with zeros at first. -/
def procGetParamDbtype (proc : List UInt8) (len : ℤ) : Option (List UInt8 × List UInt8) :=
  (skipLeading proc len).bind fun s =>
    (copyType s.1 s.2 []).bind fun r =>
      if r.2.length < dbtypeSize then
        (trimBack (untilText (sqlText " charset ") (r.2.map tolower)).reverse).map fun t =>
          (r.1, t.reverse)
      else none

/-- The three calls of `procedure_columns_no_i_s` for one parameter. -/
def paramCopies (text : List UInt8) : Option (ParamMode × List UInt8 × List UInt8) :=
  (strlen (text ++ [0])).bind fun len =>
    (procGetParamType (text ++ [0]) len).bind fun mode =>
      (strlen mode.1).bind fun len =>
        (procGetParamName mode.1 len).bind fun name =>
          (strlen name.1).bind fun len =>
            (procGetParamDbtype name.1 len).map fun dbtype => (mode.2, name.2, dbtype.2)

/-- `strxmov` to a buffer. -/
def strxmov (size : ℕ) (texts : List (List UInt8)) : Option (List UInt8) :=
  if texts.flatten.length + 1 ≤ size then some texts.flatten else none

/-- The text that `check_if_positioned_cursor_exists` builds for a cursor, if it has to. -/
def cursorError (stmtList : List CursorStmt) (pq : ParsedQuery) : Option (Option (List UInt8)) :=
  match pq.getCursorName, checkIfPositionedCursorExists stmtList pq with
  | some name, some c =>
    if c.found then some none
    else (strxmov 200 [sqlText "Cursor '", cString pq.query name,
      sqlText "' does not exist or does not have a result set."]).map some
  | _, _ => some none

/-- The text of a parameter, the length of which is an `int`. -/
structure ProcParamText where
  chars : List UInt8
  nonzero : 0 ∉ chars
  length_lt : chars.length < 2 ^ 31

/-- What is behind the mode of a parameter. -/
def behindMode (s : List UInt8) : List UInt8 :=
  if StartsWith (s.dropWhile isspaceByte) (sqlText "INOUT ") then (s.dropWhile isspaceByte).drop 6
  else if StartsWith (s.dropWhile isspaceByte) (sqlText "OUT ") then
    (s.dropWhile isspaceByte).drop 4
  else if StartsWith (s.dropWhile isspaceByte) (sqlText "IN ") then (s.dropWhile isspaceByte).drop 3
  else s.dropWhile isspaceByte

/-- The text begins with a name, behind blanks: it is quoted and the quote ends, or it is plain and
goes on to the next blank. -/
inductive NameAndRest : List UInt8 → List UInt8 → List UInt8 → Prop where
  | quoted {blanks name rest : List UInt8} {q : UInt8} : (∀ c ∈ blanks, isspaceByte c = true) →
      q ∈ [0x22, 0x60] → q ∉ name → NameAndRest (blanks ++ q :: (name ++ q :: rest)) name rest
  | plain {blanks name rest : List UInt8} : (∀ c ∈ blanks, isspaceByte c = true) →
      (∀ c ∈ name, isspaceByte c = false) → (∀ c ∈ name.head?, c ∉ [0x22, 0x60]) →
      (∀ c ∈ rest.head?, isspaceByte c = true) → (name = [] → rest = []) →
      NameAndRest (blanks ++ (name ++ rest)) name rest

/-- The parts of a parameter fit the buffers: a quote of the name ends, there is a type, and both
are short enough. -/
def ProcParamText.Fits (t : ProcParamText) : Prop :=
  ∃ name rest, NameAndRest (behindMode t.chars) name rest ∧ name.length ≤ NAME_LEN ∧
    rest.dropWhile isspaceByte ≠ [] ∧ (rest.dropWhile isspaceByte).length < dbtypeSize

variable {s t xs ys name rest cname ptype : List UInt8} {c q : UInt8} {len : ℤ}

/-- The length of a string. -/
theorem strlen_append (hs : 0 ∉ s) : strlen (s ++ 0 :: ys) = some s.length := by
  induction s with
  | nil => rfl
  | cons c s ih =>
    rw [List.mem_cons, not_or] at hs
    rw [List.cons_append, strlen, if_neg (Ne.symm hs.1), ih hs.2]
    rfl

/-- Blanks are skipped, and the length is that of the rest. -/
theorem skipLeading_eq (s : List UInt8) : skipLeading (s ++ [0]) s.length =
    some (s.dropWhile isspaceByte ++ [0], ((s.dropWhile isspaceByte).length : ℤ)) := by
  induction s with
  | nil => rfl
  | cons c s ih =>
    rw [List.cons_append, skipLeading, List.dropWhile_cons, List.length_cons]
    split_ifs with hblank hzero
    · omega
    · have hlen : ((s.length + 1 : ℕ) : ℤ) - 1 = s.length := by omega
      rw [hlen, ih]
    · rfl

/-- The word is found if the text begins with it. -/
theorem isMode_eq {word : List UInt8} (hword : 0 ∉ word) :
    isMode (s ++ [0]) s.length word = some (decide (StartsWith s word)) := by
  rw [isMode]
  split_ifs with hlen
  · have hnot : ¬ StartsWith s word := by
      intro h
      have hle := h.length_le
      rw [List.length_map, List.length_map] at hle
      omega
    rw [decide_eq_false hnot]
  · obtain ⟨r, hr, hzero⟩ := @myodbcCasecmp_eq s _ [] hword
    rw [List.append_nil] at hr
    rw [hr, Option.map_some, decide_eq_decide.mpr hzero]

/-- What begins with a text is not shorter. -/
theorem StartsWith.drop_append (h : StartsWith s t) : (s ++ ys).drop t.length = s.drop t.length ++ ys := by
  have hle := h.length_le
  rw [List.length_map, List.length_map] at hle
  exact List.drop_append_of_le_length hle

/-- The mode is skipped. -/
theorem procGetParamType_eq (s : List UInt8) : ∃ mode,
    procGetParamType (s ++ [0]) s.length = some (behindMode s ++ [0], mode) := by
  rw [procGetParamType, skipLeading_eq, Option.bind_some, isMode_eq (by decide), Option.bind_some,
    behindMode]
  by_cases hinout : StartsWith (s.dropWhile isspaceByte) (sqlText "INOUT ")
  · have hdrop : (s.dropWhile isspaceByte ++ [0]).drop 6 =
        (s.dropWhile isspaceByte).drop 6 ++ [0] := hinout.drop_append
    refine ⟨.inputOutput, ?_⟩
    rw [decide_eq_true hinout, if_pos rfl, if_pos hinout, hdrop]
  rw [decide_eq_false hinout, if_neg Bool.false_ne_true, if_neg hinout, isMode_eq (by decide),
    Option.bind_some]
  by_cases hout : StartsWith (s.dropWhile isspaceByte) (sqlText "OUT ")
  · have hdrop : (s.dropWhile isspaceByte ++ [0]).drop 4 =
        (s.dropWhile isspaceByte).drop 4 ++ [0] := hout.drop_append
    refine ⟨.output, ?_⟩
    rw [decide_eq_true hout, if_pos rfl, if_pos hout, hdrop]
  rw [decide_eq_false hout, if_neg Bool.false_ne_true, if_neg hout, isMode_eq (by decide),
    Option.map_some]
  by_cases hin : StartsWith (s.dropWhile isspaceByte) (sqlText "IN ")
  · have hdrop : (s.dropWhile isspaceByte ++ [0]).drop 3 =
        (s.dropWhile isspaceByte).drop 3 ++ [0] := hin.drop_append
    refine ⟨.input, ?_⟩
    rw [decide_eq_true hin, if_pos rfl, if_pos hin, hdrop]
  · exact ⟨.input, by rw [decide_eq_false hin, if_neg Bool.false_ne_true, if_neg hin]⟩

/-- Where the loop goes on it copies, as long as there is room. -/
theorem copyName_append (hgoes : ∀ c ∈ name, if q ≠ 0 then c ≠ q else isspaceByte c = false)
    (hlen : name.length ≤ len) (hroom : cname.length ≤ NAME_LEN) :
    copyName q (name ++ ys) len cname =
      if cname.length + name.length ≤ NAME_LEN then
        copyName q ys (len - name.length) (cname ++ name)
      else none := by
  induction name generalizing len cname with
  | nil => simp [hroom]
  | cons c name ih =>
    rw [List.length_cons] at hlen ⊢
    rw [List.cons_append, copyName, if_neg (by omega), if_pos (hgoes c List.mem_cons_self)]
    by_cases hfull : cname.length < NAME_LEN
    · have hlength : (cname ++ [c]).length = cname.length + 1 := by simp
      have hsum : cname.length + 1 + name.length = cname.length + (name.length + 1) := by omega
      have hleft : len - 1 - (name.length : ℤ) = len - ((name.length + 1 : ℕ) : ℤ) := by omega
      rw [if_pos hfull, ih (fun d hd => hgoes d (List.mem_cons_of_mem _ hd)) (by omega) (by omega),
        hlength, hsum, hleft, List.append_assoc, List.singleton_append]
    · rw [if_neg hfull, if_neg (by omega)]

/-- The quotes are not the mark for a name without quotes. -/
theorem nameQuote_ne_zero (hq : q ∈ [0x22, 0x60]) : q ≠ 0 := by
  rw [List.mem_cons, List.mem_singleton] at hq
  obtain rfl | rfl := hq <;> decide

/-- A quote of a name is no blank. -/
theorem isspaceByte_nameQuote (hq : q ∈ [0x22, 0x60]) : isspaceByte q = false := by
  rw [List.mem_cons, List.mem_singleton] at hq
  obtain rfl | rfl := hq <;> rfl

/-- Blanks in front of what is none. -/
theorem dropWhile_blanks (hxs : ∀ c ∈ xs, isspaceByte c = true)
    (hys : ∀ c ∈ ys.head?, isspaceByte c = false) : (xs ++ ys).dropWhile isspaceByte = ys := by
  rw [List.dropWhile_append_of_pos hxs]
  cases ys with
  | nil => rfl
  | cons c ys => rw [List.dropWhile_cons, hys c rfl, if_neg Bool.false_ne_true]

/-- The name is copied if there is room for it. -/
theorem procGetParamName_eq (h : NameAndRest s name rest) :
    procGetParamName (s ++ [0]) s.length =
      if name.length ≤ NAME_LEN then some (rest ++ [0], name) else none := by
  rw [procGetParamName, skipLeading_eq, Option.bind_some]
  cases h with
  | @quoted blanks _ _ q hblank hq hname =>
    have hhead : ∀ c ∈ (q :: (name ++ q :: rest)).head?, isspaceByte c = false := by
      intro c hc
      obtain rfl := Option.some_inj.mp hc
      exact isspaceByte_nameQuote hq
    have hgoes : ∀ c ∈ name, if q ≠ 0 then c ≠ q else isspaceByte c = false := by
      intro c hc
      rw [if_pos (nameQuote_ne_zero hq)]
      rintro rfl
      exact hname hc
    have hquote : q = 0x60 ∨ q = 0x22 := by
      rwa [List.mem_cons, List.mem_singleton, or_comm] at hq
    rw [dropWhile_blanks hblank hhead]
    simp only [List.cons_append, List.append_assoc, List.length_cons, List.length_append]
    rw [if_pos hquote, copyName_append hgoes (by omega) (Nat.zero_le _), List.length_nil,
      Nat.zero_add, List.nil_append]
    split_ifs with hfits
    · rw [copyName, if_neg (by omega), if_neg (by simp [nameQuote_ne_zero hq])]
      rfl
    · rfl
  | plain hblank hname hquote hrest hnil =>
    have hhead : ∀ c ∈ (name ++ rest).head?, isspaceByte c = false := by
      cases name with
      | nil => simp [hnil rfl]
      | cons d name =>
        intro c hc
        obtain rfl := Option.some_inj.mp hc
        exact hname _ List.mem_cons_self
    rw [dropWhile_blanks hblank hhead]
    have hgoes : ∀ c ∈ name, if (0 : UInt8) ≠ 0 then c ≠ 0 else isspaceByte c = false := by
      intro c hc
      rw [if_neg (by simp)]
      exact hname c hc
    have hcopy : copyName 0 (name ++ (rest ++ [0])) ((name ++ rest).length : ℤ) [] =
        if name.length ≤ NAME_LEN then some (rest ++ [0], name) else none := by
      rw [copyName_append hgoes (by rw [List.length_append]; omega) (Nat.zero_le _), List.length_nil,
        Nat.zero_add, List.nil_append]
      refine if_congr Iff.rfl ?_ rfl
      cases rest with
      | nil => simp [copyName]
      | cons d rest =>
        have hspace := hrest d rfl
        rw [List.cons_append, copyName, if_neg, if_neg]
        · simp [hspace]
        · rw [List.length_append, List.length_cons]
          omega
    cases name with
    | nil =>
      obtain rfl := hnil rfl
      rfl
    | cons d name =>
      have hnot : ¬ (d = 0x60 ∨ d = 0x22) := by
        have hmem := hquote d rfl
        rwa [List.mem_cons, List.mem_singleton, or_comm] at hmem
      rw [List.append_assoc, List.cons_append]
      dsimp only
      rw [if_neg hnot]
      exact hcopy

/-- A text begins with a name, or with a quote that does not end. -/
theorem exists_nameAndRest (s : List UInt8) : (∃ name rest, NameAndRest s name rest) ∨
    ∃ blanks q t, s = blanks ++ q :: t ∧ (∀ c ∈ blanks, isspaceByte c = true) ∧
      q ∈ [0x22, 0x60] ∧ q ∉ t := by
  have hblank : ∀ c ∈ s.takeWhile isspaceByte, isspaceByte c = true :=
    fun c hc => List.mem_takeWhile_imp hc
  have hsplit := List.takeWhile_append_dropWhile (p := isspaceByte) (l := s)
  cases htail : s.dropWhile isspaceByte with
  | nil =>
    rw [htail] at hsplit
    have hempty : NameAndRest (s.takeWhile isspaceByte ++ ([] ++ [])) [] [] :=
      .plain hblank (by simp) (by simp) (by simp) fun _ => rfl
    rw [List.append_nil, hsplit] at hempty
    exact Or.inl ⟨[], [], hempty⟩
  | cons q t =>
    rw [htail] at hsplit
    have hspace : isspaceByte q = false := by
      have hhead := List.head?_dropWhile_not isspaceByte s
      rw [htail] at hhead
      simpa using hhead
    by_cases hq : q ∈ [0x22, 0x60]
    · by_cases ht : q ∈ t
      · obtain ⟨name, rest, rfl, hname⟩ := List.eq_append_cons_of_mem ht
        refine Or.inl ⟨name, rest, ?_⟩
        rw [← hsplit]
        exact .quoted hblank hq hname
      · exact Or.inr ⟨_, q, t, hsplit.symm, hblank, hq, ht⟩
    · refine Or.inl ⟨(q :: t).takeWhile fun c => !isspaceByte c,
        (q :: t).dropWhile fun c => !isspaceByte c, ?_⟩
      have hname : ∀ c ∈ (q :: t).takeWhile fun c => !isspaceByte c, isspaceByte c = false := by
        intro c hc
        simpa using List.mem_takeWhile_imp hc
      have hcons : (q :: t).takeWhile (fun c => !isspaceByte c) =
          q :: t.takeWhile fun c => !isspaceByte c := by
        rw [List.takeWhile_cons, hspace]
        rfl
      have hwhole := List.takeWhile_append_dropWhile (p := fun c => !isspaceByte c) (l := q :: t)
      nth_rewrite 1 [← hsplit, ← hwhole]
      refine .plain hblank hname ?_ ?_ ?_
      · rw [hcons]
        intro c hc
        obtain rfl := Option.some_inj.mp hc
        exact hq
      · intro c hc
        have hhead := List.head?_dropWhile_not (fun c => !isspaceByte c) (q :: t)
        rw [hc] at hhead
        simpa using hhead
      · rw [hcons]
        exact fun h => absurd h (List.cons_ne_nil _ _)

/-- Behind a quote that does not end, the copy goes on behind the terminator. -/
theorem procGetParamName_open {blanks : List UInt8} (hblank : ∀ c ∈ blanks, isspaceByte c = true)
    (hq : q ∈ [0x22, 0x60]) (ht : q ∉ t) {r : List UInt8 × List UInt8}
    (h : procGetParamName (blanks ++ q :: t ++ [0]) (blanks ++ q :: t).length = some r) :
    r.1 = [] := by
  have hhead : ∀ c ∈ (q :: t).head?, isspaceByte c = false := by
    intro c hc
    obtain rfl := Option.some_inj.mp hc
    exact isspaceByte_nameQuote hq
  have hgoes : ∀ c ∈ t ++ [0], if q ≠ 0 then c ≠ q else isspaceByte c = false := by
    intro c hc
    rw [if_pos (nameQuote_ne_zero hq)]
    rintro rfl
    rw [List.mem_append, List.mem_singleton] at hc
    exact hc.elim ht (nameQuote_ne_zero hq)
  have hquote : q = 0x60 ∨ q = 0x22 := by
    rwa [List.mem_cons, List.mem_singleton, or_comm] at hq
  have hcopy := @copyName_append [] _ [] _ (q :: t).length hgoes
    (by simp) (Nat.zero_le _)
  rw [List.append_nil] at hcopy
  rw [procGetParamName, skipLeading_eq, Option.bind_some, dropWhile_blanks hblank hhead,
    List.cons_append] at h
  dsimp only at h
  rw [if_pos hquote, hcopy] at h
  split_ifs at h
  · rw [copyName, if_pos (by simp)] at h
    obtain rfl := Option.some_inj.mp h
    rfl
  · exact absurd h (by simp)

/-- The type is copied if there is room for it. -/
theorem copyType_eq (ht : 0 ∉ t) (hroom : ptype.length ≤ dbtypeSize) :
    copyType (t ++ [0]) t.length ptype =
      if ptype.length + t.length ≤ dbtypeSize then some ([0], ptype ++ t) else none := by
  induction t generalizing ptype with
  | nil => simp [copyType, hroom]
  | cons c t ih =>
    rw [List.mem_cons, not_or] at ht
    have hnot : ¬ (c = 0 ∨ ((c :: t).length : ℤ) = 0) := by
      rw [List.length_cons]
      rintro (rfl | hzero)
      · exact ht.1 rfl
      · omega
    have hleft : ((c :: t).length : ℤ) - 1 = t.length := by
      rw [List.length_cons]
      omega
    rw [List.cons_append, copyType, if_neg hnot, hleft, List.length_cons]
    by_cases hfull : ptype.length < dbtypeSize
    · have hlength : (ptype ++ [c]).length = ptype.length + 1 := by simp
      have hsum : ptype.length + 1 + t.length = ptype.length + (t.length + 1) := by omega
      rw [if_pos hfull, ih ht.2 (by omega), hlength, hsum, List.append_assoc, List.singleton_append]
    · rw [if_neg hfull, if_neg (by omega)]

/-- The trim stays in the buffer if there is something to stop at. -/
theorem trimBack_isSome (h : ∃ c ∈ s, isspaceByte c = false) : (trimBack s).isSome = true := by
  induction s with
  | nil =>
    obtain ⟨c, hc, -⟩ := h
    exact absurd hc List.not_mem_nil
  | cons c s ih =>
    rw [trimBack]
    split_ifs with hblank
    · obtain ⟨d, hd, hspace⟩ := h
      refine ih ⟨d, ?_, hspace⟩
      obtain rfl | hd := List.mem_cons.mp hd
      · rw [hblank] at hspace
        exact absurd hspace.symm Bool.false_ne_true
      · exact hd
    · rfl

/-- What is no blank is none in lower case. -/
theorem isspaceByte_tolower (h : isspaceByte c = false) : isspaceByte (tolower c) = false := by
  rw [tolower]
  split_ifs with hupper
  · have hge : 0x41 ≤ c.toNat := hupper.1
    have hle : c.toNat ≤ 0x5a := hupper.2
    have hadd : (c + 0x20).toNat = c.toNat + 0x20 := by
      rw [UInt8.toNat_add]
      exact Nat.mod_eq_of_lt (by change c.toNat + 32 < _; omega)
    rw [isspaceByte, Bool.or_eq_false_iff, decide_eq_false_iff_not, Bool.and_eq_false_iff,
      decide_eq_false_iff_not, decide_eq_false_iff_not]
    refine ⟨fun heq => ?_, Or.inr fun hsmall => ?_⟩
    · have hvalue := congrArg UInt8.toNat heq
      rw [hadd] at hvalue
      exact absurd hvalue (by change c.toNat + 32 ≠ 32; omega)
    · have hvalue : (c + 0x20).toNat ≤ 0x0d := hsmall
      omega
  · exact h

/-- The copy of a type stays in the buffer exactly if there is a type that is short enough. -/
theorem procGetParamDbtype_isSome_iff (hs : 0 ∉ s) :
    (procGetParamDbtype (s ++ [0]) s.length).isSome = true ↔
      s.dropWhile isspaceByte ≠ [] ∧ (s.dropWhile isspaceByte).length < dbtypeSize := by
  have hzero : 0 ∉ s.dropWhile isspaceByte := fun h => hs ((List.dropWhile_sublist _).subset h)
  rw [procGetParamDbtype, skipLeading_eq, Option.bind_some]
  dsimp only
  rw [copyType_eq hzero (Nat.zero_le _), List.length_nil, Nat.zero_add, List.nil_append]
  by_cases hlong : (s.dropWhile isspaceByte).length < dbtypeSize
  · rw [if_pos hlong.le, Option.bind_some, if_pos hlong, and_iff_left hlong, Option.isSome_map]
    cases htail : s.dropWhile isspaceByte with
    | nil => exact iff_of_false Bool.false_ne_true fun h => h rfl
    | cons c t =>
      refine iff_of_true ?_ (List.cons_ne_nil _ _)
      have hspace : isspaceByte c = false := by
        have hhead := List.head?_dropWhile_not isspaceByte s
        rw [htail] at hhead
        simpa using hhead
      have hlower := isspaceByte_tolower hspace
      have hfirst : (sqlText " charset ").isPrefixOf (tolower c :: t.map tolower) = false := by
        have hwords : sqlText " charset " = 0x20 :: sqlText "charset " := by decide
        have hne : (0x20 == tolower c) = false := by
          rw [beq_eq_false_iff_ne]
          intro heq
          rw [← heq] at hlower
          exact absurd hlower (by decide)
        rw [hwords, List.isPrefixOf_cons_cons, hne, Bool.false_and]
      refine trimBack_isSome ⟨tolower c, ?_, hlower⟩
      rw [List.map_cons, untilText, hfirst, if_neg Bool.false_ne_true, List.mem_reverse]
      exact List.mem_cons_self
  · refine iff_of_false ?_ fun h => hlong h.2
    split_ifs
    · rw [Option.bind_some, if_neg hlong]
      exact Bool.false_ne_true
    · exact Bool.false_ne_true

/-- What is behind the mode is a part of the parameter. -/
theorem behindMode_subset (s : List UInt8) : ∀ c ∈ behindMode s, c ∈ s := by
  have hdrop : ∀ n, ∀ c ∈ (s.dropWhile isspaceByte).drop n, c ∈ s :=
    fun n c hc => (List.dropWhile_sublist _).subset (List.mem_of_mem_drop hc)
  rw [behindMode]
  split_ifs
  · exact hdrop 6
  · exact hdrop 4
  · exact hdrop 3
  · exact hdrop 0

/-- The rest behind a name is a part of the text. -/
theorem NameAndRest.subset (h : NameAndRest s name rest) : ∀ c ∈ rest, c ∈ s := by
  intro c hc
  cases h with
  | quoted => simp [hc]
  | plain => simp [hc]

/-- The parts of a parameter stay in the text and in the buffers exactly if they fit. -/
theorem ProcParamText.paramCopies_isSome_iff (t : ProcParamText) :
    (paramCopies t.chars).isSome = true ↔ t.Fits := by
  obtain ⟨mode, hmode⟩ := procGetParamType_eq t.chars
  have hzero : 0 ∉ behindMode t.chars := fun h => t.nonzero (behindMode_subset _ _ h)
  rw [paramCopies, strlen_append t.nonzero, Option.bind_some, hmode, Option.bind_some,
    strlen_append hzero, Option.bind_some]
  have hnamed : ∀ name rest, NameAndRest (behindMode t.chars) name rest →
      (((procGetParamName (behindMode t.chars ++ [0]) (behindMode t.chars).length).bind fun name =>
        (strlen name.1).bind fun len =>
          (procGetParamDbtype name.1 len).map fun dbtype =>
            (mode, name.2, dbtype.2)).isSome = true ↔
        name.length ≤ NAME_LEN ∧ rest.dropWhile isspaceByte ≠ [] ∧
          (rest.dropWhile isspaceByte).length < dbtypeSize) := by
    intro name rest h
    have hrest : 0 ∉ rest := fun hmem => hzero (h.subset _ hmem)
    rw [procGetParamName_eq h]
    by_cases hname : name.length ≤ NAME_LEN
    · rw [if_pos hname, Option.bind_some, strlen_append hrest, Option.bind_some, Option.isSome_map,
        procGetParamDbtype_isSome_iff hrest, and_iff_right hname]
    · rw [if_neg hname]
      exact iff_of_false Bool.false_ne_true fun h => hname h.1
  obtain ⟨name, rest, h⟩ | ⟨blanks, q, s, hs, hblank, hq, hopen⟩ :=
    exists_nameAndRest (behindMode t.chars)
  · constructor
    · exact fun hsome => ⟨name, rest, h, (hnamed name rest h).mp hsome⟩
    · rintro ⟨name', rest', h', hfits⟩
      exact (hnamed name' rest' h').mpr hfits
  · have hnone : ((procGetParamName (behindMode t.chars ++ [0]) (behindMode t.chars).length).bind
        fun name => (strlen name.1).bind fun len =>
          (procGetParamDbtype name.1 len).map fun dbtype => (mode, name.2, dbtype.2)) = none := by
      rw [Option.bind_eq_none_iff]
      intro r hr
      rw [hs] at hr
      rw [procGetParamName_open hblank hq hopen hr]
      rfl
    have hfalse := Option.isSome_eq_false_iff.mpr (Option.isNone_iff_eq_none.mpr hnone)
    refine iff_of_false (fun h => Bool.false_ne_true (hfalse.symm.trans h)) ?_
    rintro ⟨name', rest', h', hfits⟩
    exact Bool.false_ne_true (hfalse.symm.trans ((hnamed name' rest' h').mpr hfits))

/-- A statement of the connection is the cursor that the query names. -/
def CursorExists (stmtList : List CursorStmt) (pq : ParsedQuery) (name : ℕ) : Prop :=
  ∃ stmt ∈ stmtList, stmt.hasResult = true ∧ stmt.name ≠ [] ∧
    strcaseEq stmt.name (cString pq.query name) = true

/-- The text of the error stays in its buffer exactly if the cursor exists, or its name is short
enough. -/
theorem cursorError_isSome_iff (stmtList : List CursorStmt) (pq : ParsedQuery) :
    (cursorError stmtList pq).isSome = true ↔ ∀ name, pq.getCursorName = some name →
      CursorExists stmtList pq name ∨ (cString pq.query name).length ≤ 144 := by
  rw [cursorError, checkIfPositionedCursorExists]
  cases hname : pq.getCursorName with
  | none => exact iff_of_true rfl fun name h => absurd h (by simp)
  | some name =>
    have hall : (∀ name', some name = some name' →
        CursorExists stmtList pq name' ∨ (cString pq.query name').length ≤ 144) ↔
          CursorExists stmtList pq name ∨ (cString pq.query name).length ≤ 144 := by
      constructor
      · exact fun h => h name rfl
      · rintro h name' heq
        obtain rfl := Option.some_inj.mp heq
        exact h
    rw [hall, Option.map_some]
    dsimp only
    cases hfind : stmtList.find? fun stmt =>
        stmt.hasResult && stmt.name ≠ [] && strcaseEq stmt.name (cString pq.query name) with
    | some stmt =>
      refine iff_of_true rfl (Or.inl ⟨stmt, List.mem_of_find?_eq_some hfind, ?_⟩)
      have hstmt := List.find?_some hfind
      simpa [and_assoc] using hstmt
    | none =>
      have hnot : ¬ CursorExists stmtList pq name := by
        rintro ⟨stmt, hmem, hresult, hne, heq⟩
        have hstmt := List.find?_eq_none.mp hfind stmt hmem
        simp [hresult, hne, heq] at hstmt
      have hlength : [sqlText "Cursor '", cString pq.query name,
          sqlText "' does not exist or does not have a result set."].flatten.length =
            (cString pq.query name).length + 55 := by
        have hfront : (sqlText "Cursor '").length = 8 := by decide
        have hbehind : (sqlText "' does not exist or does not have a result set.").length = 47 := by
          decide
        simp only [List.flatten_cons, List.flatten_nil, List.length_append, List.length_nil, hfront,
          hbehind]
        omega
      rw [or_iff_right hnot, if_neg Bool.false_ne_true, Option.isSome_map, strxmov, hlength]
      split_ifs with hfits
      · exact iff_of_true rfl (by omega)
      · exact iff_of_false Bool.false_ne_true (by omega)

/-- The copies stay in their buffers and in the texts exactly if the parts of the parameter fit,
and the cursor exists or has a short name. -/
theorem fixedBuffers_iff (t : ProcParamText) (stmtList : List CursorStmt) (pq : ParsedQuery) :
    ((paramCopies t.chars).isSome = true ↔ t.Fits) ∧
      ((cursorError stmtList pq).isSome = true ↔ ∀ name, pq.getCursorName = some name →
        CursorExists stmtList pq name ∨ (cString pq.query name).length ≤ 144) :=
  ⟨t.paramCopies_isSome_iff, cursorError_isSome_iff stmtList pq⟩

/-- A quote that does not end, a name without a type, a name of 193 bytes, a type of 1024 bytes, and
a cursor name of 145 bytes. -/
theorem fixedBuffers_failures :
    (∃ t : ProcParamText, t.chars = sqlText "`a int" ∧ paramCopies t.chars = none) ∧
    (∃ t : ProcParamText, t.chars = sqlText "a" ∧ paramCopies t.chars = none) ∧
    (∃ t : ProcParamText, t.chars = List.replicate 193 0x61 ++ sqlText " int" ∧
      paramCopies t.chars = none) ∧
    (∃ t : ProcParamText, t.chars = sqlText "a " ++ List.replicate 1024 0x62 ∧
      paramCopies t.chars = none) ∧
    cursorError [] (ParsedQuery.parse queryLatin1.toCtype (ParsedQuery.reset
      (sqlText "DELETE FROM t WHERE CURRENT OF " ++ List.replicate 145 0x63))) = none := by
  refine ⟨⟨⟨_, ?_, ?_⟩, rfl, ?_⟩, ⟨⟨_, ?_, ?_⟩, rfl, ?_⟩, ⟨⟨_, ?_, ?_⟩, rfl, ?_⟩,
    ⟨⟨_, ?_, ?_⟩, rfl, ?_⟩, ?_⟩
  iterate 4
    · decide +kernel
    · decide +kernel
    · exact Option.isNone_iff_eq_none.mp (by decide +kernel)
  · exact Option.isNone_iff_eq_none.mp (by decide +kernel)

end MatrixOdbc.Driver
