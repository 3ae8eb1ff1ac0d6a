import MatrixOdbc.Driver.WhereClause

/-!
# Which WHERE clauses have the values of the row

A term is followed from the name through the literal, then the terms are read one after
another. The buffer of the statement is empty between two terms; only the offset of a
hexadecimal literal is carried on.
-/

namespace MatrixOdbc.Driver

open MysqlStrings QuotedText

variable {cs : Charset} {m : EscapeMode} {c : UInt8} {s name rest after after' : List UInt8}

variable (rest) in
/-- A byte of a name begins a character with what is behind it only at the end of the name. -/
theorem mbLen_name_iff (hmb : mbLen cs (c :: s) = 0) :
    mbLen cs (c :: s ++ 0x60 :: rest) = 0 ↔ (s = [] → mbLen cs [c, 0x60] = 0) := by
  constructor
  · rintro htext rfl
    by_contra hne
    have hle : mbLen cs [c, 0x60] ≤ 2 := mbLen_le cs _
    have := mbLen_eq_of_take (c :: [] ++ 0x60 :: rest) hne (by
      have hsplit : c :: [] ++ 0x60 :: rest = [c, 0x60] ++ rest := rfl
      rw [hsplit, List.take_append_of_le_length hle])
    omega
  · intro hend
    by_contra hne
    generalize hk : mbLen cs (c :: s ++ 0x60 :: rest) = k at hne
    have hne' : mbLen cs (c :: s ++ 0x60 :: rest) ≠ 0 := by rwa [hk]
    by_cases hfit : k ≤ (c :: s).length
    · have := mbLen_eq_of_take (c :: s) hne' (by
        rw [hk, List.take_append_of_le_length hfit])
      omega
    · have hmem : (0x60 : UInt8) ∈ (c :: s ++ 0x60 :: rest).take k := by
        have hsplit : c :: s ++ 0x60 :: rest = (c :: s ++ [0x60]) ++ rest := by simp
        rw [hsplit, List.take_append]
        apply List.mem_append_left _
        rw [List.take_of_length_le (by simp at hfit ⊢; omega)]
        simp
      have htwo := mbLen_quoting (hk.symm ▸ hmem) (by decide)
      rw [List.length_cons] at hfit
      have hnil : s = [] := List.length_eq_zero_iff.mp (by omega)
      subst hnil
      have := mbLen_eq_of_take [c, 0x60] hne' (by rw [htwo]; rfl)
      rw [hend rfl] at this
      omega

theorem plainName_iff : PlainName cs s ↔ PlainAt cs s ∧ PlainName cs (advance cs s) := by
  constructor
  · exact fun h => ⟨h 0, fun n => h (n + 1)⟩
  · rintro ⟨hfirst, hrest⟩ n
    cases n with
    | zero => exact hfirst
    | succ n => exact hrest n

theorem plainName_nil : PlainName cs [] := by
  intro n
  have hnil : (advance cs)^[n] [] = [] := by
    induction n with
    | zero => rfl
    | succ n ih => rw [Function.iterate_succ_apply, advance_nil, ih]
  rw [hnil]
  trivial

/-- A name between backquotes is read as itself exactly when it is plain. -/
theorem reads_name_iff (hid : m.escapeId = true) (hrest : rest.head? ≠ some 0x60) :
    QuotedText.Reads (mysqlDialect cs m) (name ++ 0x60 :: rest) name after ↔
      PlainName cs name ∧ after = rest := by
  have hquote : (mysqlDialect cs m).quote = 0x60 := by simp [mysqlDialect, EscapeMode.doubleChar, hid]
  have hescape : (mysqlDialect cs m).escape = none := by
    simp [mysqlDialect, EscapeMode.useBackslash, hid]
  have hmulti (t : List UInt8) : (mysqlDialect cs m).multi ((mysqlDialect cs m).quote :: t) = 0 :=
    mbLen_ascii (doubleChar_ascii m)
  have hhead : rest.head? ≠ some (mysqlDialect cs m).quote := by rwa [hquote]
  induction name using escapeText.induct cs with
  | case1 =>
    have hclose : QuotedText.Reads (mysqlDialect cs m) ((mysqlDialect cs m).quote :: rest) [] after ↔ _ :=
      reads_close_iff (hmulti rest) hhead
    rw [hquote] at hclose
    rw [List.nil_append, hclose]
    simp [plainName_nil]
  | case2 c s ih =>
    rw [plainName_iff]
    by_cases hmb : mbLen cs (c :: s) = 0
    · rw [advance_of_mbLen_eq_zero hmb] at ih ⊢
      by_cases hc : c = 0x60
      · have hnot : ¬ QuotedText.Reads (mysqlDialect cs m) ((mysqlDialect cs m).quote :: s ++
            (mysqlDialect cs m).quote :: rest) ((mysqlDialect cs m).quote :: s) after :=
          not_reads_quote_cons (mbLen_le cs) hescape hmulti hhead
        rw [hquote] at hnot
        subst hc
        exact iff_of_false hnot fun h => (h.1.1 hmb).1 rfl
      · have hraw := mbLen_name_iff rest hmb
        by_cases htext : mbLen cs (c :: s ++ 0x60 :: rest) = 0
        · have hplain : (mysqlDialect cs m).escape ≠ some c := by simp [hescape]
          rw [List.cons_append] at htext ⊢
          rw [reads_plain_iff htext (by rwa [hquote]) hplain]
          constructor
          · rintro ⟨hallowed, value, heq, htail⟩
            obtain rfl := (List.cons.inj heq).2
            obtain ⟨hs, hafter⟩ := ih.mp htail
            exact ⟨⟨fun _ => ⟨hc, hallowed hid, hraw.mp htext⟩, hs⟩, hafter⟩
          · rintro ⟨⟨hfirst, hs⟩, hafter⟩
            exact ⟨fun _ => (hfirst hmb).2.1, s, rfl, ih.mpr ⟨hs, hafter⟩⟩
        · -- the closing quote is taken for the end of a character
          refine iff_of_false ?_ fun h => htext (hraw.mpr (h.1.1 hmb).2.2)
          rw [reads_multi_iff htext]
          rintro ⟨value, heq, -⟩
          have hlen : ((c :: s ++ 0x60 :: rest).take (mbLen cs (c :: s ++ 0x60 :: rest))).length =
              mbLen cs (c :: s ++ 0x60 :: rest) := by
            rw [List.length_take, Nat.min_eq_left (mbLen_le cs _)]
          have htake := congrArg (List.take (mbLen cs (c :: s ++ 0x60 :: rest))) heq
          have hfirst : (mysqlDialect cs m).multi (c :: s ++ 0x60 :: rest) =
              mbLen cs (c :: s ++ 0x60 :: rest) := rfl
          rw [hfirst, List.take_left' hlen] at htake
          exact htext ((mbLen_eq_of_take _ htext htake).symm.trans hmb)
    · have hlen : ((c :: s).take (mbLen cs (c :: s))).length = mbLen cs (c :: s) := by
        rw [List.length_take, Nat.min_eq_left (mbLen_le cs _)]
      have hsplit : (c :: s).take (mbLen cs (c :: s)) ++ advance cs (c :: s) = c :: s := by
        rw [advance_of_mbLen_ne_zero hmb, List.take_append_drop]
      have htext : c :: s ++ 0x60 :: rest =
          (c :: s).take (mbLen cs (c :: s)) ++ (advance cs (c :: s) ++ 0x60 :: rest) := by
        rw [← List.append_assoc, hsplit]
      have hmb' : (mysqlDialect cs m).multi (c :: s ++ 0x60 :: rest) = mbLen cs (c :: s) := by
        rw [htext]
        exact mbLen_take hmb
      rw [reads_multi_iff (by rwa [hmb']), hmb']
      conv_lhs => rw [htext, List.take_left' hlen, List.drop_left' hlen]
      constructor
      · rintro ⟨value, heq, htail⟩
        obtain rfl := List.append_cancel_left (hsplit.trans heq)
        exact ⟨⟨fun hzero => absurd hzero hmb, (ih.mp htail).1⟩, (ih.mp htail).2⟩
      · exact fun h => ⟨_, hsplit.symm, ih.mpr ⟨h.1.2, h.2⟩⟩

/-- What a C string keeps of a value either goes on behind it or breaks off at its NUL. -/
theorem cStringOf_append (bytes behind : List UInt8) :
    bytes <+: cStringOf (bytes ++ behind) ∨ cStringOf (bytes ++ behind) ++ [0] <+: bytes := by
  unfold cStringOf
  induction bytes with
  | nil => exact Or.inl (List.nil_prefix)
  | cons c bytes ih =>
    by_cases hc : c = 0
    · subst hc
      exact Or.inr ⟨bytes, by simp⟩
    · rw [List.cons_append, List.takeWhile_cons_of_pos (by simpa using hc), List.cons_append,
        List.prefix_cons_inj, List.prefix_cons_inj]
      exact ih

/-- A text without a NUL is a C string. -/
theorem cStringOf_of_ne_zero (h : ∀ c ∈ s, c ≠ 0) : cStringOf s = s :=
  List.takeWhile_eq_self_iff.mpr fun c hc => by simpa using h c hc

theorem ne_zero_of_isNumber (h : isNumber s = true) : ∀ c ∈ s, c ≠ 0 := by
  rintro c hc rfl
  exact absurd (isNumberByte_of_isNumber h 0 hc) (by decide)

theorem type_of_switchCase_float {opts : TypeOptions} {field : FieldInfo}
    (h : (getSqlDataType opts field).switchCase = .float) :
    field.type = .float ∨ field.type = .double := by
  unfold getSqlDataType at h
  cases htype : field.type <;> rw [htype] at h <;>
    first
    | exact Or.inl rfl
    | exact Or.inr rfl
    | cases h
    | (dsimp only at h; split_ifs at h <;> cases h)

theorem type_of_switchCase_time {opts : TypeOptions} {field : FieldInfo}
    (h : (getSqlDataType opts field).switchCase = .time) : field.type = .time := by
  unfold getSqlDataType at h
  cases htype : field.type <;> rw [htype] at h <;>
    first
    | rfl
    | cases h
    | (dsimp only at h; split_ifs at h <;> cases h)

variable {call : WhereCall} {column : CurrentColumn} {text : List UInt8} {v : RowValue}

/-- The text of a value is the value's, or a conversion, or the memory behind its pointer. -/
theorem getString_eq_some (hvalue : column.value = some v)
    (htext : call.getString column = some text) :
    text = v.bytes ∨ text = v.converted ∨
      (text = v.bytes ++ v.behind ∧ column.field.type ≠ .time) := by
  rw [WhereCall.getString, hvalue, Option.bind_some] at htext
  cases hssps : call.sspsUsed with
  | false =>
    rw [hssps] at htext
    exact Or.inl (Option.some.inj htext).symm
  | true =>
    simp only [hssps, Bool.not_true, if_neg Bool.false_ne_true] at htext
    cases htype : column.field.type <;> simp only [allocateBufferForField, htype] at htext <;>
      (try split_ifs at htext) <;> simp_all

/-- What is written is the value, or clean, or comparable with it. -/
theorem cStringOf_getString (hvalue : column.value = some v)
    (htext : call.getString column = some text) :
    Clean call.env.cs call.env.literalMode (cStringOf text) ∨
      v.bytes <+: cStringOf text ∨ cStringOf text ++ [0] <+: v.bytes := by
  rcases getString_eq_some hvalue htext with rfl | rfl | ⟨rfl, -⟩
  · have h := cStringOf_append v.bytes []
    rw [List.append_nil] at h
    exact Or.inr h
  · rw [cStringOf_of_ne_zero fun c hc => (v.converted_ascii c hc).2]
    exact Or.inl (clean_of_ascii rfl rfl fun c hc => (v.converted_ascii c hc).1)
  · exact Or.inr (cStringOf_append v.bytes v.behind)

/-- Numbers are given by their text. -/
theorem cStringOf_getString_float (hvalue : column.value = some v)
    (htext : call.getString column = some text)
    (hcase : (getSqlDataType call.types column.field).switchCase = .float) :
    cStringOf text = v.bytes ∧ isNumber (cStringOf text) = true := by
  have htype := type_of_switchCase_float hcase
  obtain ⟨hnumber, hbehind⟩ := column.isNumber_bytes htype v hvalue
  have hconverted := column.converted_eq (Or.inr htype) v hvalue
  have heq : text = v.bytes := by
    rcases getString_eq_some hvalue htext with rfl | rfl | ⟨rfl, -⟩
    · rfl
    · exact hconverted
    · rw [hbehind, List.append_nil]
  rw [heq, cStringOf_of_ne_zero (ne_zero_of_isNumber hnumber)]
  exact ⟨rfl, hnumber⟩

/-- Times are given by their text. -/
theorem cStringOf_getString_time (hvalue : column.value = some v)
    (htext : call.getString column = some text)
    (hcase : (getSqlDataType call.types column.field).switchCase = .time) :
    cStringOf text = v.bytes := by
  have htype := type_of_switchCase_time hcase
  have hconverted := column.converted_eq (Or.inl htype) v hvalue
  have heq : text = v.converted := by
    rcases getString_eq_some hvalue htext with rfl | rfl | ⟨-, hne⟩
    · exact hconverted.symm
    · rfl
    · exact absurd htype hne
  rw [heq, cStringOf_of_ne_zero fun c hc => (v.converted_ascii c hc).2, hconverted]

variable {env : ParamEnv} {term : Term} {offset : Option ℕ} {str t : List UInt8}

/-- A term is read from a quoted name on. -/
theorem readsTerm_quotedName_iff (hhead : t.head? ≠ some 0x60) :
    ReadsTerm env term (quotedName term.name ++ t) rest ↔
      PlainName env.cs term.name ∧
        match term.value with
        | none => t = isNullText ++ rest
        | some value => ∃ literal, t = 0x3d :: literal ∧
            ReadsLiteral env.cs env.literalMode literal value rest := by
  have hname (after : List UInt8) :
      QuotedText.Reads (mysqlDialect env.cs env.identifierMode) (term.name ++ 0x60 :: t) term.name after ↔ _ :=
    reads_name_iff rfl hhead
  have htext : quotedName term.name ++ t = 0x60 :: (term.name ++ 0x60 :: t) := by simp [quotedName]
  unfold ReadsTerm
  rw [htext]
  constructor
  · rintro ⟨name, after, heq, hread, hrest⟩
    rw [← (List.cons.inj heq).2] at hread
    obtain ⟨hplain, rfl⟩ := (hname after).mp hread
    exact ⟨hplain, hrest⟩
  · rintro ⟨hplain, hrest⟩
    exact ⟨_, t, rfl, (hname t).mpr ⟨hplain, rfl⟩, hrest⟩

/-- `insert_param` succeeds only where its pointers lead to the value. -/
theorem insertParam_eq_ok {sqlType : SqlType} {st st' : ParamBuffer}
    (h : insertParam env sqlType s st = .ok st') :
    env.bindOffset = 0 ∧ insertText env sqlType true s st = .ok st' := by
  unfold insertParam at h
  split_ifs at h with hoffset
  exact ⟨not_not.mp hoffset, h⟩

/-- What `insert_field_std` adds for a column, and when it is read as its term. -/
theorem insertField_ok {p : List UInt8 × ParamBuffer}
    (hok : call.insertField column (str ++ quotedName column.orgName ++ [0x3d]) ⟨[], offset⟩ =
      .ok p) :
    ∃ piece, p = (str ++ piece ++ andText, ⟨[], columnOffset call offset column⟩) ∧
      ∀ after rest, after.head? = some 0x20 →
        (ReadsTerm call.env column.term (piece ++ after) rest ↔
          SoundColumn call offset column ∧ rest = after) := by
  unfold WhereCall.insertField at hok
  cases htext : call.getString column with
  | none =>
    rw [htext] at hok
    obtain rfl := Except.ok.inj hok
    refine ⟨quotedName column.orgName ++ isNullText, ?_, fun after rest hafter => ?_⟩
    · simp [columnOffset, htext]
    · have hread : ReadsTerm call.env column.term (quotedName column.term.name ++
          (isNullText ++ after)) rest ↔ _ := readsTerm_quotedName_iff (by simp [isNullText])
      rw [CurrentColumn.term] at hread ⊢
      rw [List.append_assoc, hread, SoundColumn, htext]
      cases hvalue : column.value with
      | none =>
        simp only [CurrentColumn.bytes, hvalue, Option.map_none, List.append_cancel_left_eq,
          Option.mem_def, reduceCtorEq, false_implies, implies_true, and_true]
        rw [eq_comm (a := after)]
      | some v =>
        -- there is a value, but no buffer for it
        apply iff_of_false
        · simp [CurrentColumn.bytes, hvalue, isNullText]
        · rintro ⟨⟨-, hsound⟩, -⟩
          obtain ⟨-, text, hnone, -⟩ := hsound v rfl
          cases hnone
  | some text =>
    obtain ⟨v, hvalue⟩ : ∃ v, column.value = some v := by
      cases hvalue : column.value with
      | none => simp [WhereCall.getString, hvalue] at htext
      | some v => exact ⟨v, rfl⟩
    rw [htext] at hok
    dsimp only at hok
    cases hinsert : insertParam call.env (getSqlDataType call.types column.field) (cStringOf text)
      ⟨[], offset⟩ with
    | error =>
      rw [hinsert] at hok
      cases hok
    | ok st' =>
      rw [hinsert] at hok
      obtain rfl := Except.ok.inj hok
      obtain ⟨hoffset, hinsert⟩ := insertParam_eq_ok hinsert
      have hliteral (after rest : List UInt8) (hafter : after.head? = some 0x20) :
          (ReadsLiteral call.env.cs call.env.literalMode (st'.buf ++ after) v.bytes rest ↔ _) ∧ _ :=
        readsLiteral_insertText_iff hinsert hafter (cStringOf_getString hvalue htext)
          (cStringOf_getString_float hvalue htext) (cStringOf_getString_time hvalue htext)
      have hsrcOffset := (hliteral [0x20] [] rfl).2
      refine ⟨quotedName column.orgName ++ 0x3d :: st'.buf, ?_, fun after rest hafter => ?_⟩
      · simp [ParamBuffer.add, columnOffset, htext, hsrcOffset]
      · have hread : ReadsTerm call.env column.term (quotedName column.term.name ++
            (0x3d :: st'.buf ++ after)) rest ↔ _ := readsTerm_quotedName_iff (by simp)
        rw [CurrentColumn.term] at hread ⊢
        rw [List.append_assoc, hread]
        simp only [CurrentColumn.bytes, hvalue, Option.map_some]
        constructor
        · rintro ⟨hplain, literal, heq, hread⟩
          rw [← (List.cons.inj heq).2] at hread
          obtain ⟨hsound, hrest⟩ := (hliteral after rest hafter).1.mp hread
          refine ⟨⟨hplain, fun v' hv' => ?_⟩, hrest⟩
          obtain rfl := Option.some.inj (hvalue.symm.trans hv')
          exact ⟨hoffset, text, htext, hsound⟩
        · rintro ⟨⟨hplain, hsound⟩, hrest⟩
          obtain ⟨-, text', htext', hsound⟩ := hsound v hvalue
          obtain rfl := Option.some.inj (htext.symm.trans htext')
          exact ⟨hplain, _, rfl, (hliteral after rest hafter).1.mpr ⟨hsound, hrest⟩⟩

variable (str) in
/-- A sound term makes no use of memory without a defined result. -/
theorem insertField_ne_undefined (h : SoundColumn call offset column) :
    call.insertField column str ⟨[], offset⟩ ≠ .error .undefined := by
  unfold WhereCall.insertField
  cases htext : call.getString column with
  | none => exact nofun
  | some text =>
    obtain ⟨v, hvalue⟩ : ∃ v, column.value = some v := by
      cases hvalue : column.value with
      | none => simp [WhereCall.getString, hvalue] at htext
      | some v => exact ⟨v, rfl⟩
    obtain ⟨hoffset, text', htext', hsound⟩ := h.2 v hvalue
    obtain rfl := Option.some.inj (htext.symm.trans htext')
    have hne := insertText_ne_undefined rfl hsound
    dsimp only
    rw [insertParam, if_neg (by simp [hoffset])]
    cases hinsert : insertText call.env (getSqlDataType call.types column.field) true (cStringOf text)
      ⟨[], offset⟩ with
    | error failure =>
      intro heq
      apply hne
      cases heq
      exact hinsert
    | ok st' => exact nofun

/-- The columns are inserted one after another. -/
def insertColumns (call : WhereCall) : List CurrentColumn → List UInt8 → ParamBuffer →
    Except Failure (List UInt8 × ParamBuffer)
  | [], str, st => pure (str, st)
  | column :: columns, str, st => do
    let p ← call.insertField column (str ++ quotedName column.orgName ++ [0x3d]) st
    insertColumns call columns p.1 p.2

variable {columns used : List CurrentColumn} {pkcol : List (List UInt8)} {st : ParamBuffer}

variable (call pkcol columns) in
/-- The loop over the result set inserts the columns of the key. -/
theorem insertPkLoop_eq (str : List UInt8) (st : ParamBuffer) (pkCount : ℕ) :
    call.insertPkLoop pkcol columns str st pkCount =
      (insertColumns call (columns.filter (WhereCall.inKey pkcol)) str st).map fun p =>
        (p.1, p.2, pkCount + (columns.filter (WhereCall.inKey pkcol)).length) := by
  induction columns generalizing str st pkCount with
  | nil => rfl
  | cons column columns ih =>
    rw [WhereCall.insertPkLoop]
    by_cases hkey : WhereCall.inKey pkcol column = true
    · rw [if_pos hkey, List.filter_cons_of_pos hkey, insertColumns]
      cases hinsert : call.insertField column (str ++ quotedName column.orgName ++ [0x3d]) st with
      | error => rfl
      | ok p =>
        apply (ih p.1 p.2 (pkCount + 1)).trans
        simp only [List.length_cons, Nat.add_assoc, Nat.add_comm 1]
        rfl
    · rw [if_neg hkey, List.filter_cons_of_neg hkey]
      exact ih str st pkCount

variable (call columns) in
/-- The loop over the table inserts its columns, unless it fails with an error. -/
theorem appendAllLoop_eq (tableFields : List TableField) (str : List UInt8) (st : ParamBuffer) :
    (∃ sqlstate message, call.appendAllLoop columns tableFields str st =
      .error (.error sqlstate message)) ∨
    call.appendAllLoop columns tableFields str st =
      insertColumns call (tableFields.filterMap (WhereCall.findColumn columns)) str st := by
  induction tableFields generalizing str st with
  | nil => exact Or.inr rfl
  | cons tableField tableFields ih =>
    rw [WhereCall.appendAllLoop]
    split_ifs with htype
    · exact Or.inl ⟨_, _, rfl⟩
    · cases hfind : WhereCall.findColumn columns tableField with
      | none => exact Or.inl ⟨_, _, rfl⟩
      | some column =>
        have hname : column.orgName = tableField.name := by simpa using List.find?_some hfind
        rw [List.filterMap_cons_some hfind, insertColumns, hname]
        dsimp only
        cases hinsert : call.insertField column (str ++ quotedName tableField.name ++ [0x3d]) st with
        | error => exact Or.inr rfl
        | ok p => exact ih p.1 p.2

/-- Sound terms make no use of memory without a defined result. -/
theorem insertColumns_ne_undefined (h : SoundColumns call offset used) :
    insertColumns call used str ⟨[], offset⟩ ≠ .error .undefined := by
  induction used generalizing str offset with
  | nil => exact nofun
  | cons column used ih =>
    rw [insertColumns]
    have hne := insertField_ne_undefined (str ++ quotedName column.orgName ++ [0x3d]) h.1
    cases hinsert : call.insertField column (str ++ quotedName column.orgName ++ [0x3d])
      ⟨[], offset⟩ with
    | error failure =>
      rw [hinsert] at hne
      intro heq
      apply hne
      cases heq
      rfl
    | ok p =>
      obtain ⟨piece, rfl, -⟩ := insertField_ok hinsert
      exact ih h.2

/-- What the columns add ends in an ` AND `, and the conjunction in front of it is read with
the values of the row exactly when all terms are sound. -/
theorem insertColumns_ok {p : List UInt8 × ParamBuffer} (hne : used ≠ [])
    (hok : insertColumns call used str ⟨[], offset⟩ = .ok p) :
    ∃ body, p.1 = str ++ body ++ andText ∧ ∀ tail, tail.head? = some 0x20 →
      (ReadsConjunction call.env tail (used.map CurrentColumn.term) (body ++ tail) ↔
        SoundColumns call offset used) := by
  induction used generalizing str offset with
  | nil => exact absurd rfl hne
  | cons column used ih =>
    rw [insertColumns] at hok
    cases hinsert : call.insertField column (str ++ quotedName column.orgName ++ [0x3d])
      ⟨[], offset⟩ with
    | error =>
      rw [hinsert] at hok
      cases hok
    | ok q =>
      rw [hinsert] at hok
      obtain ⟨piece, rfl, hread⟩ := insertField_ok hinsert
      cases used with
      | nil =>
        obtain rfl := Except.ok.inj hok
        refine ⟨piece, rfl, fun tail htail => ?_⟩
        rw [List.map_singleton, ReadsConjunction, hread tail tail htail, SoundColumns, SoundColumns]
        simp
      | cons column' used =>
        obtain ⟨body, hbody, hrest⟩ := ih (List.cons_ne_nil _ _) hok
        refine ⟨piece ++ andText ++ body, by simp [hbody], fun tail htail => ?_⟩
        rw [SoundColumns, ← hrest tail htail, List.map_cons, List.map_cons, ReadsConjunction,
          ← List.map_cons]
        have hpiece (text' : List UInt8) := hread (andText ++ (body ++ tail)) (andText ++ text') rfl
        simp only [List.append_assoc, hpiece, List.append_cancel_left_eq]
        constructor
        · rintro ⟨text', ⟨hsound, rfl⟩, hconjunction⟩
          exact ⟨hsound, hconjunction⟩
        · rintro ⟨hsound, hconjunction⟩
          exact ⟨_, ⟨hsound, rfl⟩, hconjunction⟩

/-- A key that can be used has a column. -/
theorem pkcol_ne_nil (h : (call.checkKey columns).1 = true) :
    (call.checkKey columns).2.pkcol.length ≠ 0 := by
  unfold WhereCall.checkKey checkIfUsableUniqueKeyExists at *
  split_ifs at * with hvalidated
  · simpa using h
  · cases hlisting : call.listing with
    | none => simp [hlisting] at h
    | some rows =>
      simp only [hlisting, decide_eq_true_eq] at h
      exact Nat.ne_of_gt h

/-- A clause that is built has a term. -/
theorem usedColumns_ne_nil {p : List UInt8 × ParamBuffer}
    (hok : call.insertTerms columns str st = .ok p) : call.usedColumns columns ≠ [] := by
  unfold WhereCall.insertTerms at hok
  unfold WhereCall.usedColumns
  split_ifs at hok ⊢ with hkey
  · unfold WhereCall.insertPkFields at hok
    rw [insertPkLoop_eq] at hok
    cases hinsert : insertColumns call (columns.filter
      (WhereCall.inKey (call.checkKey columns).2.pkcol)) str st with
    | error =>
      rw [hinsert] at hok
      cases hok
    | ok q =>
      rw [hinsert] at hok
      intro hnil
      have hcount : 0 + (columns.filter (WhereCall.inKey (call.checkKey columns).2.pkcol)).length ≠
          (call.checkKey columns).2.pkcol.length := by
        rw [hnil]
        exact (pkcol_ne_nil hkey).symm
      have herror := hok.symm.trans (if_pos hcount)
      cases herror
  · unfold WhereCall.appendAllFields at hok
    cases hfields : (call.findUsedTable columns).bind call.tableFields with
    | none =>
      rw [hfields] at hok
      cases hok
    | some tableFields =>
      obtain ⟨table, -, htable⟩ := Option.bind_eq_some_iff.mp hfields
      rw [hfields] at hok
      cases tableFields with
      | nil => exact absurd htable (call.tableFields_ne_nil table)
      | cons tableField tableFields =>
        cases hfind : WhereCall.findColumn columns tableField with
        | some column =>
          rw [Option.getD_some, List.filterMap_cons_some hfind]
          exact List.cons_ne_nil _ _
        | none =>
          dsimp only at hok
          split_ifs at hok
          · cases hok
          · rw [WhereCall.appendAllLoop, hfind] at hok
            split_ifs at hok
            cases hok

variable (call columns) in
/-- The terms are those of the used columns, unless the call fails with an error. -/
theorem insertTerms_eq (str : List UInt8) (offset : Option ℕ) :
    (∃ sqlstate message, call.insertTerms columns str ⟨[], offset⟩ =
      .error (.error sqlstate message)) ∨
    call.insertTerms columns str ⟨[], offset⟩ =
      insertColumns call (call.usedColumns columns) str ⟨[], offset⟩ := by
  unfold WhereCall.insertTerms WhereCall.usedColumns
  split_ifs with hkey
  · unfold WhereCall.insertPkFields
    rw [insertPkLoop_eq]
    cases hinsert : insertColumns call (columns.filter
      (WhereCall.inKey (call.checkKey columns).2.pkcol)) str ⟨[], offset⟩ with
    | error failure => exact Or.inr rfl
    | ok p =>
      by_cases hcount : 0 + (columns.filter (WhereCall.inKey (call.checkKey columns).2.pkcol)).length ≠
          (call.checkKey columns).2.pkcol.length
      · exact Or.inl ⟨_, _, if_pos hcount⟩
      · exact Or.inr (if_neg hcount)
  · unfold WhereCall.appendAllFields
    cases hfields : (call.findUsedTable columns).bind call.tableFields with
    | none => exact Or.inl ⟨_, _, rfl⟩
    | some tableFields =>
      dsimp only
      split_ifs with hlength
      · exact Or.inl ⟨_, _, rfl⟩
      · rcases appendAllLoop_eq call columns tableFields str ⟨[], offset⟩ with
          ⟨sqlstate, message, herror⟩ | heq
        · rw [herror]
          exact Or.inl ⟨_, _, rfl⟩
        · rw [heq, Option.getD_some]
          cases hinsert : insertColumns call (tableFields.filterMap (WhereCall.findColumn columns))
            str ⟨[], offset⟩ with
          | ok p => exact Or.inr rfl
          | error failure =>
            cases failure with
            | error => exact Or.inl ⟨_, _, rfl⟩
            | undefined => exact Or.inr rfl

/-- The clause is the terms and the limit. -/
theorem buildWhereClause_ok {p : List UInt8 × ParamBuffer} (hrow : call.columns = some columns)
    (hok : call.insertTerms columns (str ++ whereText) ⟨[], offset⟩ = .ok p) :
    ∃ text st', call.buildWhereClause str ⟨[], offset⟩ =
        .ok (some (str ++ whereText ++ text, st')) ∧
      (ReadsConjunction call.env call.limitText
          ((call.usedColumns columns).map CurrentColumn.term) text ↔
        SoundColumns call offset (call.usedColumns columns)) := by
  have hne := usedColumns_ne_nil hok
  have hinsert : insertColumns call (call.usedColumns columns) (str ++ whereText) ⟨[], offset⟩ =
      .ok p := by
    rcases insertTerms_eq call columns (str ++ whereText) offset with
      ⟨sqlstate, message, herror⟩ | heq
    · rw [herror] at hok
      cases hok
    · rw [← heq, hok]
  obtain ⟨body, hbody, hread⟩ := insertColumns_ok hne hinsert
  have hlen : p.1.length = (str ++ whereText ++ body).length + 5 := by
    rw [hbody, List.length_append]
    rfl
  have hcut : (if 5 < p.1.length then p.1.take (p.1.length - 5) else p.1) =
      str ++ whereText ++ body := by
    have hlong : 5 < p.1.length := by
      rw [hlen, List.length_append, List.length_append]
      have : whereText.length = 7 := rfl
      omega
    rw [if_pos hlong, hlen, Nat.add_sub_cancel, hbody, List.take_left]
  refine ⟨body ++ call.limitText, p.2, ?_, hread _ rfl⟩
  unfold WhereCall.buildWhereClause
  rw [hrow]
  dsimp only
  rw [hok, ← List.append_assoc, ← hcut]
  rfl

/-- A clause that is built and faithful has sound terms only. -/
theorem soundColumns_of_buildsFaithful {p : List UInt8 × ParamBuffer}
    (hrow : call.columns = some columns)
    (hok : call.insertTerms columns (str ++ whereText) ⟨[], offset⟩ = .ok p)
    (h : call.BuildsFaithful str offset) : SoundColumns call offset (call.usedColumns columns) := by
  obtain ⟨text, st', hbuild, hread⟩ := buildWhereClause_ok hrow hok
  rw [WhereCall.BuildsFaithful, hbuild] at h
  obtain ⟨terms, text', htext, hconjunction, rfl, -⟩ := h _ rfl columns hrow
  rw [← hread]
  rwa [List.append_cancel_left htext]

/-- A connection in `latin1` with the default options. -/
def latin1Env : ParamEnv where
  cs := charset8bit
  noBackslashEscapes := false
  charIsSigned := true
  thousandsSep := [0x2c]
  decimalPoint := [0x2e]
  noLocale := false
  noDateOverflow := false
  opts := ⟨0, true⟩
  bindOffset := 0
  isdigit_thousandsSep := by simp [isdigit]

/-- A stored `VARBINARY` or `VARCHAR` column. -/
def varColumn (name : List UInt8) (binary : Bool) (value : Option (List UInt8)) : CurrentColumn where
  field := ⟨⟨.varString, 30⟩, binary, false, true, false⟩
  orgName := name
  orgTable := [0x74]
  value := value.map fun bytes => ⟨bytes, [], [], by simp⟩
  converted_eq := by simp
  isNumber_bytes := by simp

/-- A positioned call on a table without keys, with all columns in the result set. -/
def keylessCall (columns : List CurrentColumn) (hcolumns : columns ≠ []) : WhereCall where
  env := latin1Env
  types := ⟨false, false, false, true, false⟩
  sspsUsed := false
  nativeFloatingPoint := false
  columns := some columns
  irow := 1
  arraySize := 1
  listing := some []
  cursor := ⟨false, []⟩
  tableName := []
  tableFields _ := some (columns.map fun column => ⟨column.orgName, column.field.type⟩)
  tableFields_ne_nil _ := by simpa using hcolumns

/-- The row of `O'\` and a `NULL`. -/
def quoteRow : List CurrentColumn :=
  [varColumn [0x61] false (some [0x4f, 0x27, 0x5c]), varColumn [0x62] true none]

end MatrixOdbc.Driver
