import MatrixOdbc.Driver.BoundParam
import MatrixOdbc.Driver.Literal

/-!
# The two paths of a parameter

What `insert_param` puts into a bind and what it writes as a literal, compared as values of
SQL. A literal is taken as followed by a blank. A binary string and a string of characters are
told apart at the character types only, and there unless all of their bytes are ASCII: such
bytes are the same characters in every character set.
-/

namespace MatrixOdbc.Driver

open MysqlStrings QuotedText

/-- A value, a number by its text. -/
inductive SqlValue where
  | null
  | default
  | string (binary : Bool) (bytes : List UInt8)
  | number (text : List UInt8)

/-- The value of a bind with such a value. -/
def BindValue.denotes : BindValue → SqlValue
  | text bytes => .string false bytes
  | blob bytes => .string true bytes
  | tiny byte => .number (Decimal.text byte.toNat)

/-- The value that has been put into a bind, if any. -/
def BindEffect.denotes : BindEffect → Option SqlValue
  | null => some .null
  | value v => some v.denotes
  | untouched => none

/-- The end of a number: an exponent, if there is one, and blanks. -/
def isNumberEnd : List UInt8 → Bool
  | [] => true
  | c :: s =>
    if c = 0x65 ∨ c = 0x45 then
      let s := if s.head? = some 0x2d ∨ s.head? = some 0x2b then s.tail else s
      !(s.takeWhile isdigit).isEmpty && (s.dropWhile isdigit).all (· == 0x20)
    else (c :: s).all (· == 0x20)

/-- A number as the server reads one, with a sign or without, and with blanks around it. -/
def isNumeral (s : List UInt8) : Bool :=
  let s := s.dropWhile (· == 0x20)
  let s := if s.head? = some 0x2d ∨ s.head? = some 0x2b then s.tail else s
  let whole := s.takeWhile isdigit
  let s := s.dropWhile isdigit
  if s.head? = some 0x2e then
    !(whole ++ s.tail.takeWhile isdigit).isEmpty && isNumberEnd (s.tail.dropWhile isdigit)
  else !whole.isEmpty && isNumberEnd s

/-- The words of the escapes for dates and times: `d`, `t` and `ts`. -/
def escapeWords : List (List UInt8) := [[0x64], [0x74], [0x74, 0x73]]

variable (env : ParamEnv)

/-- An escape for a date or a time, as in `{d '2020-01-01'}`, is read as the text in it. -/
def ReadsEscape (s value : List UInt8) : Prop :=
  ∃ before word between text behind last : List UInt8, word ∈ escapeWords ∧
    (∀ c ∈ before ++ between ++ behind ++ last, c = 0x20) ∧
    s = 0x7b :: before ++ word ++ between ++ 0x27 :: text ∧
    QuotedText.Reads (mysqlDialect env.cs env.literalMode) text value (behind ++ 0x7d :: last)

/-- The value of a literal. -/
def Denotes (s : List UInt8) : SqlValue → Prop
  | .null => s = BoundParam.nullText
  | .default => s = BoundParam.defaultText
  | .string false bytes =>
    (s.head? = some 0x27 ∧ ReadsLiteral env.cs env.literalMode (s ++ [0x20]) bytes [0x20]) ∨
      ReadsEscape env s bytes
  | .string true bytes =>
    binaryIntroducer <+: s ∧ ReadsLiteral env.cs env.literalMode (s ++ [0x20]) bytes [0x20]
  | .number text => s = text ∧ isNumeral s = true

/-- A value of a bind and a value of a literal are the same one for a type. -/
def SameAt (case : SqlTypeCase) : SqlValue → SqlValue → Prop
  | .null, .null => True
  | .default, .default => True
  | .string binary bytes, .string binary' bytes' =>
    bytes = bytes' ∧ (case = .character → binary = binary' ∨ ∀ c ∈ bytes, c < 0x80)
  | .string _ bytes, .number text => bytes = text
  | .number text, .number text' => text = text'
  | _, _ => False

/-- The literal has the value for a type. -/
def HasValue (case : SqlTypeCase) (s : List UInt8) (value : SqlValue) : Prop :=
  ∃ literal, Denotes env s literal ∧ SameAt case value literal

/-- The bind and the text that has been written behind `before` have the same value. -/
def SameWritten (case : SqlTypeCase) (before : List UInt8) (server client : Written) : Prop :=
  ∃ value s, server.effect.denotes = some value ∧ client.st.buf = before ++ s ∧
    HasValue env case s value

/-- Both paths end with the same error, or with the same value. -/
def SameOutcome (case : SqlTypeCase) (before : List UInt8) :
    Except Failure Written → Except Failure Written → Prop
  | .error (.error sqlstate message), .error (.error sqlstate' message') =>
    sqlstate = sqlstate' ∧ message = message'
  | .ok server, .ok client => SameWritten env case before server client
  | _, _ => False

/-- The two paths of `insert_param` agree on a parameter. -/
def BoundParam.PathsCoincide (p : BoundParam) (env : PathEnv) (st : ParamBuffer) : Prop :=
  SameOutcome env.toParamEnv p.sqlType.switchCase st.buf
    ((p.insertBoundParam env true st).map Prod.fst) ((p.insertBoundParam env false st).map Prod.fst)

/-- The escape is read as the text that is bound. -/
def EscapeAlike (env : PathEnv) (text : List UInt8) : Prop :=
  match getDateTimeSubstr text with
  | some date => ReadsEscape env.toParamEnv text date
  | none => env.bufferAllocated = true ∧ ReadsEscape env.toParamEnv text []

namespace BoundParam

/-- The text is bound as a string, it has no quotes of an interval, and the escaping does not
change it. -/
def PlainText (p : BoundParam) (env : PathEnv) (text : List UInt8) : Prop :=
  env.setposOp = 0 ∧ p.value.isHourInterval = false ∧ Clean env.cs env.literalMode text

/-- A text that is written as it is. -/
def RawText (p : BoundParam) (text : List UInt8) : Prop :=
  p.value.isHourInterval = true ∨ isNumeral text = true

/-- The text for a literal. -/
def literalData (p : BoundParam) (data : ParamText) : ParamText :=
  if p.value.isHourInterval then .printed (inQuotes data.text) else data

/-- When a text means the same in a bind and in a literal, by the case of its type. -/
def TextAlike (p : BoundParam) (env : PathEnv) (offset : Option ℕ) (data : ParamText) : Prop :=
  match p.sqlType.switchCase with
  | .date =>
    if data.memory.head? = some 0x7b then EscapeAlike env data.text
    else if checkDateOverflow env.toParamEnv data.text = .ok () then p.PlainText env data.text
    else checkDateOverflow env.toParamEnv data.text ≠ .error .undefined
  | .timestamp =>
    if data.memory.head? = some 0x7b then EscapeAlike env data.text
    else p.PlainText env data.text
  | .binary =>
    if env.noBackslashEscapes then
      env.setposOp = 0 ∧ HexWhole env.opts offset (p.literalData data).text data.text
    else p.PlainText env data.text
  | .character =>
    if p.bindsBlob env then p.value.isHourInterval = false ∧ ∀ c ∈ data.text, c < 0x80
    else p.PlainText env data.text
  | .interval => p.value.isHourInterval = true
  | .time => p.timeOf data ≠ .error .undefined
  | .bit =>
    p.value.convert = false ∧ p.value.isHourInterval = false ∧
      ∃ n, atoi data.memory = some n ∧ data.memory.head? = some (if n ≠ 0 then 0x31 else 0x30)
  | .float =>
    if p.value.convert then
      (numberText env.toParamEnv data.text).length ≤ sizeofBuff ∧
        isNumeral (numberText env.toParamEnv data.text) = true
    else p.RawText data.text
  | .numeric => if p.value.convert then p.PlainText env data.text else p.RawText data.text

/-- When a parameter means the same in a bind and in a literal: it is NULL, or it is refused
with an error, or its text means the same. -/
def WrittenAlike (p : BoundParam) (env : PathEnv) (offset : Option ℕ) : Prop :=
  match p.taken with
  | .error failure => failure ≠ .undefined
  | .ok .null => True
  | .ok .default => False
  | .ok (.value length) =>
    match p.conversionRefused with
    | some _ => True
    | none =>
      match convertCType2str env true p.value length with
      | .error failure => failure ≠ .undefined
      | .ok data => p.TextAlike env offset data

end BoundParam

variable {env : ParamEnv} {case : SqlTypeCase} {s t value rest bytes : List UInt8} {c : UInt8}

theorem length_unescapeByte_le (c : UInt8) : (unescapeByte c).length ≤ 2 := by
  unfold unescapeByte
  split_ifs <;> simp

/-- A number begins with a sign, a digit, a dot or a blank. -/
theorem isNumeral_cons_false (h : isNumberByte c = false) (hblank : c ≠ 0x20) :
    isNumeral (c :: s) = false := by
  simp only [isNumberByte, Bool.or_eq_false_iff, beq_eq_false_iff_ne] at h
  obtain ⟨⟨⟨⟨hdigit, hminus⟩, hplus⟩, hdot⟩, -⟩ := h
  simp [isNumeral, hdigit, hminus, hplus, hdot, hblank]

/-- A literal that begins with a quote or with the introducer is longer than its value. -/
theorem length_lt_of_readsLiteral {cs : Charset} {m : EscapeMode}
    (h : ReadsLiteral cs m (c :: t) value rest) (hc : isNumberByte c = false) :
    value.length + rest.length < (c :: t).length := by
  generalize hwhole : c :: t = whole at h
  cases h with
  | quoted hread =>
    have := hread.length_lt length_unescapeByte_le
    rw [List.length_cons]
    omega
  | binary hread =>
    have := hread.length_lt length_unescapeByte_le
    simp only [List.length_append, List.length_cons]
    omega
  | @hex value rest hne =>
    have hhex : (hexText value).length = value.length * 2 := by
      simp [hexText, List.length_flatMap, List.map_const', List.sum_replicate]
    simp only [List.length_append, hhex, binaryIntroducer, hexPrefix, List.length_cons]
    omega
  | number hnumber =>
    rw [← hwhole, not_isNumber_takeWhile hc] at hnumber
    exact absurd hnumber Bool.false_ne_true

/-- An escape is longer than its text. -/
theorem ReadsEscape.length_lt (h : ReadsEscape env s value) : value.length < s.length := by
  obtain ⟨before, word, between, text, behind, last, -, -, rfl, hread⟩ := h
  have := hread.length_lt length_unescapeByte_le
  simp only [List.length_append, List.length_cons] at *
  omega

/-- An escape begins with a brace. -/
theorem ReadsEscape.head?_eq (h : ReadsEscape env s value) : s.head? = some 0x7b := by
  obtain ⟨before, word, between, text, behind, last, -, -, rfl, -⟩ := h
  rfl

/-- A string is shorter than its literal. -/
theorem Denotes.length_lt {binary : Bool} (h : Denotes env s (.string binary bytes)) :
    bytes.length < s.length := by
  have hliteral (hc : ∃ c t, s = c :: t ∧ isNumberByte c = false)
      (hread : ReadsLiteral env.cs env.literalMode (s ++ [0x20]) bytes [0x20]) :
      bytes.length < s.length := by
    obtain ⟨c, t, rfl, hc⟩ := hc
    have := length_lt_of_readsLiteral (t := t ++ [0x20]) hread hc
    simp only [List.length_cons, List.length_append, List.length_nil] at *
    omega
  cases binary with
  | false =>
    obtain ⟨hhead, hread⟩ | hescape := h
    · cases s with
      | nil => cases hhead
      | cons c t =>
        obtain rfl := Option.some.inj hhead
        exact hliteral ⟨_, _, rfl, by decide⟩ hread
    · exact hescape.length_lt
  | true =>
    obtain ⟨⟨t, rfl⟩, hread⟩ := h
    exact hliteral ⟨_, _, rfl, by decide⟩ hread

/-- A text that is written as it is has itself as its value exactly when it is a number. -/
theorem hasValue_raw_iff {binary : Bool} :
    HasValue env case s (.string binary s) ↔ isNumeral s = true := by
  constructor
  · rintro ⟨literal, hdenotes, hsame⟩
    cases literal with
    | null => exact absurd hsame id
    | default => exact absurd hsame id
    | string binary' bytes =>
      obtain rfl := hsame.1
      exact absurd hdenotes.length_lt (Nat.lt_irrefl _)
    | number text => exact hdenotes.2
  · exact fun h => ⟨.number s, ⟨rfl, h⟩, rfl⟩

/-- A text of which only a string can be read, the kind of which is known. -/
theorem hasValue_string_iff (binary : Bool) (hnull : s ≠ BoundParam.nullText)
    (hdefault : s ≠ BoundParam.defaultText) (hnumber : isNumeral s = false)
    (hother : ∀ bytes, ¬ Denotes env s (.string (!binary) bytes)) (binary' : Bool) :
    HasValue env case s (.string binary' bytes) ↔
      Denotes env s (.string binary bytes) ∧
        (case = .character → binary' = binary ∨ ∀ c ∈ bytes, c < 0x80) := by
  constructor
  · rintro ⟨literal, hdenotes, hsame⟩
    cases literal with
    | null => exact absurd hdenotes hnull
    | default => exact absurd hdenotes hdefault
    | string binary'' bytes' =>
      obtain ⟨rfl, hcase⟩ := hsame
      obtain rfl | hne := eq_or_ne binary'' binary
      · exact ⟨hdenotes, hcase⟩
      · rw [Bool.eq_not_of_ne hne] at hdenotes
        exact absurd hdenotes (hother bytes)
    | number text =>
      exact absurd (hnumber ▸ hdenotes.2) Bool.false_ne_true
  · rintro ⟨hdenotes, hcase⟩
    exact ⟨.string binary bytes, hdenotes, rfl, hcase⟩

variable (env case t bytes) in
/-- A text in quotes. -/
theorem hasValue_quoted_iff (binary : Bool) :
    HasValue env case (0x27 :: t) (.string binary bytes) ↔
      ReadsLiteral env.cs env.literalMode (0x27 :: t ++ [0x20]) bytes [0x20] ∧
        (case = .character → binary = false ∨ ∀ c ∈ bytes, c < 0x80) := by
  have hno (bytes' : List UInt8) : ¬ ReadsEscape env (0x27 :: t) bytes' := fun h => by
    simpa using h.head?_eq
  rw [hasValue_string_iff false (by simp [BoundParam.nullText])
    (by simp [BoundParam.defaultText]) (isNumeral_cons_false (by decide) (by decide))
    (fun _ h => by simpa [binaryIntroducer] using h.1)]
  simp [Denotes, hno]

variable (env case t bytes) in
/-- A text with the introducer. -/
theorem hasValue_introduced_iff (binary : Bool) :
    HasValue env case (binaryIntroducer ++ t) (.string binary bytes) ↔
      ReadsLiteral env.cs env.literalMode (binaryIntroducer ++ t ++ [0x20]) bytes [0x20] ∧
        (case = .character → binary = true ∨ ∀ c ∈ bytes, c < 0x80) := by
  have hno (bytes' : List UInt8) : ¬ Denotes env (binaryIntroducer ++ t) (.string false bytes') := by
    rintro (⟨hhead, -⟩ | hescape)
    · simp [binaryIntroducer] at hhead
    · simpa [binaryIntroducer] using hescape.head?_eq
  have hnumber : isNumeral (binaryIntroducer ++ t) = false :=
    isNumeral_cons_false (by decide) (by decide)
  rw [hasValue_string_iff true (by simp [BoundParam.nullText, binaryIntroducer])
    (by simp [BoundParam.defaultText, binaryIntroducer]) hnumber (fun bytes' => hno bytes')]
  simp [Denotes]

/-- A text that begins with a brace, or no text at all, can only be an escape. -/
theorem hasValue_brace_iff (h : s = [] ∨ s.head? = some 0x7b) (hcase : case ≠ .character)
    (binary : Bool) :
    HasValue env case s (.string binary bytes) ↔ ReadsEscape env s bytes := by
  have hhead (c : UInt8) (hc : c ≠ 0x7b) : s.head? ≠ some c := by
    obtain rfl | h := h
    · simp
    · rw [h]
      exact fun heq => hc (Option.some.inj heq).symm
  have hnumber : isNumeral s = false := by
    cases s with
    | nil => decide
    | cons c s =>
      obtain rfl : c = 0x7b := by simpa using h
      exact isNumeral_cons_false (by decide) (by decide)
  rw [hasValue_string_iff false (fun heq => hhead 0x4e (by decide) (by rw [heq]; rfl))
    (fun heq => hhead 0x44 (by decide) (by rw [heq]; rfl)) hnumber]
  · simp [Denotes, hhead 0x27 (by decide), hcase]
  · rintro bytes' ⟨⟨t, rfl⟩, -⟩
    exact hhead 0x5f (by decide) rfl

/-- A text of digits and colons, as an interval has it. -/
def IsIntervalText (s : List UInt8) : Prop := s ≠ [] ∧ ∀ c ∈ s, isdigit c = true ∨ c = 0x3a

theorem isdigit_of_isDigit (h : Decimal.IsDigit c) : isdigit c = true := by
  unfold Decimal.IsDigit at h
  simp only [isdigit, Bool.and_eq_true, decide_eq_true_eq, UInt8.le_iff_toNat_le]
  exact h

theorem mem_zeroPadded {width n : ℕ} (h : c ∈ zeroPadded width n) : isdigit c = true := by
  rw [zeroPadded, if_neg (by omega)] at h
  obtain hzero | htext := List.mem_append.mp h
  · rw [List.eq_of_mem_replicate hzero]
    decide
  · exact isdigit_of_isDigit (Decimal.isDigit_text htext)

/-- A time is written with digits and colons. -/
theorem mem_timeText (time : CTime) (h : c ∈ time.text) : isdigit c = true ∨ c = 0x3a := by
  simp only [CTime.text, List.cons_append, List.append_assoc, List.mem_append, List.mem_cons] at h
  obtain h | rfl | h | rfl | h := h
  · exact Or.inl (mem_zeroPadded h)
  · exact Or.inr rfl
  · exact Or.inl (mem_zeroPadded h)
  · exact Or.inr rfl
  · exact Or.inl (mem_zeroPadded h)

theorem isIntervalText_intervalText (hour minute second : ℕ) :
    IsIntervalText (intervalText hour minute second) := by
  refine ⟨by simp [intervalText], fun c h => ?_⟩
  simp only [intervalText, List.cons_append, List.append_assoc, List.mem_append,
    List.mem_cons] at h
  obtain h | rfl | h | rfl | h := h
  · exact Or.inl (isdigit_of_isDigit (Decimal.isDigit_text h))
  · exact Or.inr rfl
  · exact Or.inl (mem_zeroPadded h)
  · exact Or.inr rfl
  · exact Or.inl (mem_zeroPadded h)

theorem text_printed (s : List UInt8) : (ParamText.printed s).text = s := by
  simp [ParamText.printed, ParamText.text]

/-- The text of an interval. -/
theorem convertCType2str_interval {penv : PathEnv} {v : CValue} {length : ℤ} {data : ParamText}
    (h : convertCType2str penv true v length = .ok data) (hv : v.isHourInterval = true) :
    ∃ s, data = .printed s ∧ IsIntervalText s := by
  cases v <;> try exact absurd hv Bool.false_ne_true
  all_goals
    obtain rfl := Except.ok.inj h
    exact ⟨_, rfl, isIntervalText_intervalText _ _ _⟩

/-- Only an interval has another text without a bind. -/
theorem convertCType2str_same {v : CValue} (penv : PathEnv) (length : ℤ)
    (hv : v.isHourInterval = false) :
    convertCType2str penv false v length = convertCType2str penv true v length := by
  cases v with
  | SQL_C_NUMERIC number => cases number <;> rfl
  | SQL_C_INTERVAL_HOUR_TO_MINUTE | SQL_C_INTERVAL_HOUR_TO_SECOND =>
    exact absurd hv Bool.true_eq_false.mp
  | _ => rfl

/-- Without a bind an interval has quotes. -/
theorem convertCType2str_literal (p : BoundParam) (penv : PathEnv) (length : ℤ) :
    convertCType2str penv false p.value length =
      (convertCType2str penv true p.value length).map p.literalData := by
  unfold BoundParam.literalData
  cases hv : p.value.isHourInterval with
  | true =>
    cases hvalue : p.value <;> rw [hvalue] at hv <;> try exact absurd hv Bool.false_ne_true
    all_goals simp [convertCType2str, Except.map, text_printed]
  | false =>
    rw [convertCType2str_same penv length hv]
    cases convertCType2str penv true p.value length <;> rfl

/-- A text without a dot has no fraction. -/
theorem getFractionalPart_eq_none (hdot : 0x2e ∉ t) : getFractionalPart t = (none, 0) := by
  have hrest : t.dropWhile (· ≠ 0x2e) = [] := by
    rw [List.dropWhile_eq_nil_iff]
    intro c hc
    rw [decide_eq_true_eq]
    rintro rfl
    exact hdot hc
  rw [getFractionalPart, hrest]

/-- A byte that is no digit ends the number in front of it. -/
theorem digitRuns_append_singleton (hc : isdigit c = false) (run : Option ℕ) :
    digitRuns run (s ++ [c]) = digitRuns run s := by
  induction s generalizing run with
  | nil => simp [digitRuns, hc]
  | cons c' s ih =>
    simp only [List.cons_append, digitRuns, ih]

namespace IsIntervalText

variable (h : IsIntervalText s)
include h

theorem ascii : ∀ c ∈ s, c < 0x80 := fun c hc => ascii_of_digit (h.2 c hc)

theorem notMem_dot : 0x2e ∉ s := fun hmem => by
  have := h.2 _ hmem
  revert this
  decide

theorem head?_ne_brace : s.head? ≠ some 0x7b := by
  intro hhead
  have := h.2 _ (List.mem_of_mem_head? hhead)
  revert this
  decide

/-- The quotes take no part in a date. -/
theorem strToTs_inQuotes : strToTs (inQuotes s) = strToTs s := by
  have hdot : 0x2e ∉ inQuotes s := by simp [inQuotes, h.notMem_dot]
  have hfilter : (inQuotes s).filter isdigit = s.filter isdigit := by
    rw [inQuotes, List.filter_append, List.filter_cons_of_neg (by decide)]
    simp [show isdigit 0x27 = false from by decide]
  simp only [strToTs, getFractionalPart_eq_none hdot, getFractionalPart_eq_none h.notMem_dot,
    Option.getD_none, List.take_length, hfilter]

/-- The quotes take no part in a time. -/
theorem timeText_inQuotes : timeText (inQuotes s) = timeText s := by
  have hdot : 0x2e ∉ inQuotes s := by simp [inQuotes, h.notMem_dot]
  have hruns : digitRuns none (inQuotes s) = digitRuns none s := by
    rw [inQuotes, digitRuns_append_singleton (by decide), digitRuns, if_neg (by decide)]
    rfl
  have htime : strToTimeAsLong (inQuotes s) = strToTimeAsLong s := by
    rw [strToTimeAsLong, if_neg (by simp [inQuotes]), strToTimeAsLong, if_neg h.1, hruns]
  simp only [timeText, getFractionalPart_eq_none hdot, getFractionalPart_eq_none h.notMem_dot,
    htime]

end IsIntervalText

variable {p : BoundParam} {penv : PathEnv} {data : ParamText} {st : ParamBuffer}

/-- A value in the bind and a text in the buffer. -/
theorem sameWritten_literal_iff {v : BindValue} {st' : ParamBuffer} :
    SameWritten env case st.buf ⟨.value v, st'⟩ (.literal s st) ↔ HasValue env case s v.denotes := by
  constructor
  · rintro ⟨value, s', hvalue, hbuf, hhas⟩
    obtain rfl := Option.some.inj hvalue
    rwa [List.append_cancel_left hbuf]
  · exact fun h => ⟨_, s, rfl, rfl, h⟩

/-- Nothing has been put into the bind. -/
theorem not_sameWritten_untouched {before : List UInt8} {client : Written} :
    ¬ SameWritten env case before ⟨.untouched, st⟩ client := by
  rintro ⟨value, s', hvalue, -⟩
  cases hvalue

/-- Equal errors agree unless the result is undefined. -/
theorem sameOutcome_error_iff {before : List UInt8} {failure : Failure} :
    SameOutcome env case before (.error failure) (.error failure) ↔ failure ≠ .undefined := by
  cases failure with
  | error => simp [SameOutcome]
  | undefined => simp [SameOutcome]

/-- `put_param_value` on both paths. -/
theorem sameOutcome_putParamValue_iff :
    SameOutcome env case st.buf (.ok (putParamValue true s st)) (.ok (putParamValue false t st)) ↔
      HasValue env case t (.string false s) :=
  sameWritten_literal_iff

/-- The text of a value in a literal without the introducer. -/
def quotedLiteral (env : ParamEnv) (s : List UInt8) : List UInt8 :=
  0x27 :: (escapeText env.cs env.literalMode s ++ [0x27])

theorem putQuoted_cases (env : ParamEnv) (sqlType : SqlType) (s : List UInt8) (st : ParamBuffer) :
    (∃ st', putQuoted env sqlType s st = .ok st') ∨
      putQuoted env sqlType s st = .error .undefined := by
  unfold putQuoted
  split
  · cases hout : (copyBinhexResult env.opts st.srcOffset s).1 with
    | none => exact Or.inr (by simp only [hout])
    | some text =>
      simp only [hout]
      exact Or.inl ⟨_, rfl⟩
  · split
    · exact Or.inl ⟨_, rfl⟩
    · exact Or.inr rfl

/-- The end of `insert_param` binds a string unless the rows of a set are changed. -/
theorem sameOutcome_putLast_iff {before : List UInt8} {sqlType : SqlType}
    {client : Except Failure Written} :
    SameOutcome env case before (putLast penv true sqlType s st) client ↔
      penv.setposOp = 0 ∧ SameOutcome env case before (.ok (.bound s st)) client := by
  by_cases hop : penv.setposOp = 0
  · simp [putLast, hop]
  · simp only [putLast, Bool.true_and, beq_iff_eq, hop, if_false, false_and, iff_false]
    obtain ⟨st', hput⟩ | hput := putQuoted_cases penv.toParamEnv sqlType s st
    · rw [hput]
      cases client with
      | error => exact id
      | ok client => exact not_sameWritten_untouched
    · rw [hput]
      cases client <;> exact id

/-- A quoted text is written where the type has no hexadecimal literals. -/
theorem putLast_quoted {sqlType : SqlType}
    (h : ¬ (penv.noBackslashEscapes = true ∧ sqlType.switchCase = .binary)) :
    putLast penv false sqlType s st = .ok (.literal (quotedLiteral penv.toParamEnv s) st) := by
  rw [putLast, if_neg (by simp), putQuoted_quoted st h]
  rfl

variable (env) in
/-- The text of an interval is read with its quotes, any other text as itself where the
escaping does not change it. -/
theorem readsLiteral_quotedLiteral_iff
    (hinterval : p.value.isHourInterval = true → IsIntervalText data.text) :
    ReadsLiteral env.cs env.literalMode
        (quotedLiteral env (p.literalData data).text ++ [0x20]) data.text [0x20] ↔
      p.value.isHourInterval = false ∧ Clean env.cs env.literalMode data.text := by
  have hblank : [(0x20 : UInt8)].head? = some 0x20 := rfl
  unfold BoundParam.literalData
  cases hv : p.value.isHourInterval with
  | true =>
    have hclean : Clean env.cs env.literalMode (inQuotes data.text) := by
      refine clean_of_ascii rfl rfl fun c hc => ?_
      obtain rfl | hc | rfl : c = 0x27 ∨ c ∈ data.text ∨ c = 0x27 := by simpa [inQuotes] using hc
      · decide
      · exact (hinterval hv).ascii c hc
      · decide
    rw [if_pos rfl, text_printed]
    refine iff_of_false (fun h => ?_) (fun h => Bool.noConfusion h.1)
    have hread := (readsLiteral_escapeText_iff data.text [0x20] hblank (Or.inl hclean)).mp h
    have hsame := congrArg List.length hread.1
    simp only [inQuotes, List.length_append, List.length_cons, List.length_nil] at hsame
    omega
  | false =>
    rw [if_neg Bool.false_ne_true]
    exact (readsLiteral_escapeText_iff data.text [0x20] hblank
      (Or.inr (Or.inl (List.prefix_refl _)))).trans (by simp)

/-- A text with or without the introducer is read alike. -/
theorem readsLiteral_introduced_iff :
    ReadsLiteral env.cs env.literalMode (binaryIntroducer ++ quotedLiteral env s ++ [0x20])
        value rest ↔
      ReadsLiteral env.cs env.literalMode (quotedLiteral env s ++ [0x20]) value rest := by
  rw [quotedLiteral, List.append_assoc, List.cons_append, readsLiteral_binary_iff,
    readsLiteral_quoted_iff]

/-- A plain text on both paths. -/
theorem sameOutcome_putLast_plain_iff {sqlType : SqlType}
    (hinterval : p.value.isHourInterval = true → IsIntervalText data.text)
    (hmode : ¬ (penv.noBackslashEscapes = true ∧ sqlType.switchCase = .binary)) :
    SameOutcome penv.toParamEnv case st.buf (putLast penv true sqlType data.text st)
        (putLast penv false sqlType (p.literalData data).text st) ↔
      p.PlainText penv data.text := by
  rw [sameOutcome_putLast_iff, putLast_quoted hmode]
  have hread := readsLiteral_quotedLiteral_iff penv.toParamEnv hinterval
  refine and_congr_right fun _ => sameWritten_literal_iff.trans ?_
  exact ((hasValue_quoted_iff _ case _ _ false).trans (and_iff_left fun _ => Or.inl rfl)).trans hread

/-- A plain text with the introducer on both paths. -/
theorem sameOutcome_putIntroduced_iff {sqlType : SqlType} (hcase : case ≠ .character)
    (hinterval : p.value.isHourInterval = true → IsIntervalText data.text)
    (hmode : ¬ (penv.noBackslashEscapes = true ∧ sqlType.switchCase = .binary)) :
    SameOutcome penv.toParamEnv case st.buf (putIntroduced penv true sqlType data.text st)
        (putIntroduced penv false sqlType (p.literalData data).text st) ↔
      p.PlainText penv data.text := by
  rw [putIntroduced, putIntroduced, if_pos rfl, if_neg Bool.false_ne_true,
    sameOutcome_putLast_iff, putLast_quoted hmode]
  have hread := readsLiteral_quotedLiteral_iff penv.toParamEnv hinterval
  have hbuffer : Written.literal (quotedLiteral penv.toParamEnv (p.literalData data).text)
      (st.add binaryIntroducer) = .literal
        (binaryIntroducer ++ quotedLiteral penv.toParamEnv (p.literalData data).text) st := by
    simp [Written.literal, ParamBuffer.add]
  rw [hbuffer]
  refine and_congr_right fun _ => sameWritten_literal_iff.trans ?_
  apply (hasValue_introduced_iff _ case _ _ false).trans
  rw [readsLiteral_introduced_iff, hread]
  simp [hcase]

/-- A binary type without backslash escapes has a hexadecimal literal. -/
theorem sameOutcome_putIntroduced_hex_iff {sqlType : SqlType} (hmode : penv.noBackslashEscapes = true)
    (hbinary : sqlType.switchCase = .binary) :
    SameOutcome penv.toParamEnv .binary st.buf (putIntroduced penv true sqlType s st)
        (putIntroduced penv false sqlType t st) ↔
      penv.setposOp = 0 ∧ HexWhole penv.opts st.srcOffset t s := by
  rw [putIntroduced, putIntroduced, if_pos rfl, if_neg Bool.false_ne_true,
    sameOutcome_putLast_iff]
  refine and_congr_right fun _ => ?_
  have hhex : (penv.noBackslashEscapes && isBinarySqlType sqlType) = true := by
    rw [hmode, isBinarySqlType_iff.mpr hbinary]
    rfl
  rw [putLast, if_neg (by simp), putQuoted, if_pos hhex]
  cases htext : (copyBinhexResult penv.opts st.srcOffset t).1 with
  | none =>
    simp only [ParamBuffer.add, htext, Except.map]
    refine iff_of_false id fun hwhole => ?_
    rw [copyBinhexResult_fst, if_neg (by simp [hwhole.2.2.1])] at htext
    split_ifs at htext with hlong
    rw [hwhole.1] at hlong
    exact absurd (hwhole.2.2.2 hlong.1) (Nat.not_le.mpr hlong.2)
  | some text =>
    simp only [ParamBuffer.add, htext, Except.map]
    have hread : ReadsLiteral penv.cs penv.literalMode
        (binaryIntroducer ++ (hexPrefix ++ text) ++ [0x20]) s [0x20] ↔
          HexWhole penv.opts st.srcOffset t s := by
      rw [← List.append_assoc binaryIntroducer, readsLiteral_copyBinhexResult_iff rfl htext]
      exact and_iff_left rfl
    have hvalue := (hasValue_introduced_iff penv.toParamEnv .binary (hexPrefix ++ text) s
      false).trans (and_iff_left fun heq => by cases heq)
    rw [← hread, ← hvalue]
    constructor
    · rintro ⟨value, s', hvalue', hbuf, hhas⟩
      obtain rfl := Option.some.inj hvalue'
      simp only [List.append_assoc] at hbuf
      rwa [← List.append_cancel_left hbuf] at hhas
    · exact fun h => ⟨_, _, rfl, by simp only [List.append_assoc], h⟩

/-- A text that begins with a brace. -/
theorem sameOutcome_putBrace_iff (hcase : case ≠ .character) (h : s = [] ∨ s.head? = some 0x7b) :
    SameOutcome penv.toParamEnv case st.buf (.ok (putBrace penv true s st))
        (.ok (putBrace penv false s st)) ↔
      EscapeAlike penv s := by
  rw [putBrace, putBrace, if_pos rfl, if_neg Bool.false_ne_true, EscapeAlike]
  cases hdate : getDateTimeSubstr s with
  | some date => exact sameWritten_literal_iff.trans (hasValue_brace_iff h hcase false)
  | none =>
    cases hbuffer : penv.bufferAllocated with
    | true =>
      exact (sameWritten_literal_iff.trans (hasValue_brace_iff h hcase false)).trans
        (and_iff_right rfl).symm
    | false => exact iff_of_false not_sameWritten_untouched fun h => Bool.noConfusion h.1

/-- A text in quotes without anything to escape. -/
theorem hasValue_inQuotes (hs : ∀ c ∈ s, isdigit c = true ∨ c = 0x3a) :
    HasValue env case (inQuotes s) (.string false s) := by
  have hclean : Clean env.cs env.literalMode s :=
    clean_of_ascii rfl rfl fun c hc => ascii_of_digit (hs c hc)
  have hblank : [(0x20 : UInt8)].head? = some 0x20 := rfl
  have hread := (readsLiteral_escapeText_iff s [0x20] hblank (Or.inl hclean)).mpr
    ⟨rfl, hclean, rfl⟩
  rw [escapeText_of_digits hs] at hread
  rw [inQuotes, List.cons_append, hasValue_quoted_iff]
  exact ⟨hread, fun _ => Or.inl rfl⟩

/-- A time is written with digits and colons. -/
theorem mem_timeOf {time : List UInt8} (h : p.timeOf data = .ok time) :
    ∀ c ∈ time, isdigit c = true ∨ c = 0x3a := by
  have hclock (h : timeText data.text = .ok time) : ∀ c ∈ time, isdigit c = true ∨ c = 0x3a := by
    unfold timeText at h
    split_ifs at h
    split at h
    · cases h
    · split_ifs at h with hhours
      obtain rfl := Except.ok.inj h
      exact (isClock_clockText (Nat.le_of_not_lt hhours)).digits
  unfold BoundParam.timeOf at h
  split at h
  · unfold CTimestamp.timeText at h
    split_ifs at h
    obtain rfl := Except.ok.inj h
    exact fun c hc => mem_timeText _ hc
  · exact hclock h

/-- A bit and the first byte of a text. -/
theorem hasValue_bit_iff {n : ℤ} :
    HasValue env .bit s (BindValue.tiny (if n ≠ 0 then 1 else 0)).denotes ↔
      s = [if n ≠ 0 then 0x31 else 0x30] := by
  have htext : (BindValue.tiny (if n ≠ 0 then 1 else 0)).denotes =
      .number [if n ≠ 0 then 0x31 else 0x30] := by
    split_ifs <;> exact congrArg SqlValue.number (by decide)
  rw [htext]
  constructor
  · rintro ⟨literal, hdenotes, hsame⟩
    cases literal with
    | number text => exact hdenotes.1.trans hsame.symm
    | null => exact absurd hsame id
    | default => exact absurd hsame id
    | string => exact absurd hsame id
  · rintro rfl
    exact ⟨.number _, ⟨rfl, by split_ifs <;> decide⟩, rfl⟩

/-- A value of an interval type is printed as the text of an interval. -/
def BoundParam.IntervalPrinted (p : BoundParam) (data : ParamText) : Prop :=
  p.value.isHourInterval = true → ∃ s, data = .printed s ∧ IsIntervalText s

namespace BoundParam.IntervalPrinted

variable (h : p.IntervalPrinted data)
include h

theorem isIntervalText (hv : p.value.isHourInterval = true) : IsIntervalText data.text := by
  obtain ⟨s, rfl, hs⟩ := h hv
  rwa [text_printed]

/-- No interval begins with a brace, with its quotes or without them. -/
theorem brace_iff : (p.literalData data).memory.head? = some 0x7b ↔
    data.memory.head? = some 0x7b := by
  unfold BoundParam.literalData
  split_ifs with hv
  · obtain ⟨s, rfl, hs⟩ := h hv
    apply iff_of_false (by simp [ParamText.printed, inQuotes])
    have hhead := hs.head?_ne_brace
    cases s with
    | nil => exact absurd rfl hs.1
    | cons c s => simpa [ParamText.printed] using hhead
  · rfl

theorem literalData_of_brace (hbrace : data.memory.head? = some 0x7b) :
    p.literalData data = data := by
  unfold BoundParam.literalData
  split_ifs with hv
  · obtain ⟨s, rfl, hs⟩ := h hv
    have hhead := hs.head?_ne_brace
    cases s with
    | nil => exact absurd rfl hs.1
    | cons c s => exact absurd (by simpa [ParamText.printed] using hbrace) hhead
  · rfl

/-- The quotes of an interval take no part in the check of a date. -/
theorem checkDateOverflow_eq : checkDateOverflow env (p.literalData data).text =
    checkDateOverflow env data.text := by
  unfold BoundParam.literalData
  split_ifs with hv
  · simp only [text_printed, checkDateOverflow, (h.isIntervalText hv).strToTs_inQuotes]
  · rfl

/-- The quotes of an interval take no part in the time that is written. -/
theorem timeOf_eq : p.timeOf (p.literalData data) = p.timeOf data := by
  unfold BoundParam.literalData
  split_ifs with hv
  · simp only [BoundParam.timeOf, text_printed, (h.isIntervalText hv).timeText_inQuotes]
  · rfl

/-- A date or a timestamp that begins with a brace. -/
theorem sameOutcome_brace_iff (hcase : case ≠ .character)
    (hbrace : data.memory.head? = some 0x7b) :
    SameOutcome penv.toParamEnv case st.buf (.ok (putBrace penv true data.text st))
        (.ok (putBrace penv false (p.literalData data).text st)) ↔
      EscapeAlike penv data.text := by
  rw [h.literalData_of_brace hbrace]
  apply sameOutcome_putBrace_iff hcase
  obtain ⟨rest, hmemory⟩ := List.head?_eq_some_iff.mp hbrace
  rw [ParamText.text, hmemory]
  cases data.length with
  | zero => exact Or.inl rfl
  | succ n => exact Or.inr rfl

/-- A text that is written as it is, or as an interval. -/
theorem sameOutcome_raw_iff :
    SameOutcome penv.toParamEnv case st.buf (.ok (putParamValue true data.text st))
        (.ok (putParamValue false (p.literalData data).text st)) ↔
      p.RawText data.text := by
  rw [sameOutcome_putParamValue_iff, BoundParam.RawText, BoundParam.literalData]
  cases hv : p.value.isHourInterval with
  | true =>
    rw [if_pos rfl, text_printed]
    exact iff_of_true (hasValue_inQuotes (h.isIntervalText hv).2) (Or.inl rfl)
  | false =>
    rw [if_neg Bool.false_ne_true, hasValue_raw_iff]
    simp

/-- A value of a character type. -/
theorem sameOutcome_character_iff {sqlType : SqlType} (hcase : sqlType.switchCase = .character) :
    SameOutcome penv.toParamEnv .character st.buf
        (if p.bindsBlob penv then .ok ⟨.value (.blob data.text), st⟩
          else putLast penv true sqlType data.text st)
        (putLast penv false sqlType (p.literalData data).text st) ↔
      if p.bindsBlob penv then p.value.isHourInterval = false ∧ ∀ c ∈ data.text, c < 0x80
      else p.PlainText penv data.text := by
  have hmode : ¬ (penv.noBackslashEscapes = true ∧ sqlType.switchCase = .binary) := by simp [hcase]
  split_ifs
  · rw [putLast_quoted hmode]
    apply sameWritten_literal_iff.trans
    apply (hasValue_quoted_iff _ _ _ _ true).trans
    have hread := readsLiteral_quotedLiteral_iff penv.toParamEnv h.isIntervalText
    rw [quotedLiteral] at hread
    rw [hread]
    constructor
    · exact fun h' => ⟨h'.1.1, (h'.2 rfl).resolve_left (by decide)⟩
    · exact fun h' => ⟨⟨h'.1, clean_of_ascii rfl rfl h'.2⟩, fun _ => Or.inr h'.2⟩
  · exact sameOutcome_putLast_plain_iff h.isIntervalText hmode

/-- A time of the day. -/
theorem sameOutcome_time_iff :
    SameOutcome penv.toParamEnv case st.buf
        ((p.timeOf data).map fun time => putParamValue true time st)
        ((p.timeOf (p.literalData data)).map fun time => putParamValue false (inQuotes time) st) ↔
      p.timeOf data ≠ .error .undefined := by
  rw [h.timeOf_eq]
  cases htime : p.timeOf data with
  | error failure => exact sameOutcome_error_iff.trans (by simp)
  | ok time =>
    refine iff_of_true (sameOutcome_putParamValue_iff.mpr ?_) (by simp)
    exact hasValue_inQuotes (mem_timeOf htime)

end BoundParam.IntervalPrinted

/-- A bit. -/
theorem sameOutcome_bit_iff :
    SameOutcome penv.toParamEnv .bit st.buf
        (match atoi data.memory with
          | none => .error .undefined
          | some n => .ok ⟨.value (.tiny (if n ≠ 0 then 1 else 0)), st⟩)
        (.ok (.literal (if p.value.convert then [] else (p.literalData data).memory.take 1) st)) ↔
      p.value.convert = false ∧ p.value.isHourInterval = false ∧
        ∃ n, atoi data.memory = some n ∧ data.memory.head? = some (if n ≠ 0 then 0x31 else 0x30) := by
  cases hatoi : atoi data.memory with
  | none =>
    apply iff_of_false id
    rintro ⟨-, -, n, hn, -⟩
    cases hn
  | some n =>
    refine sameWritten_literal_iff.trans (hasValue_bit_iff.trans ?_)
    have hquote : (0x27 : UInt8) ≠ if n ≠ 0 then 0x31 else 0x30 := by split_ifs <;> decide
    simp only [Option.some.injEq, exists_eq_left']
    generalize (if n ≠ 0 then (0x31 : UInt8) else 0x30) = b at hquote ⊢
    unfold BoundParam.literalData
    cases hconvert : p.value.convert with
    | true => simp
    | false =>
      cases hv : p.value.isHourInterval with
      | true => simp [ParamText.printed, inQuotes, hquote]
      | false => cases hmemory : data.memory <;> simp [hmemory]

/-- A floating-point number that the application has as a text. -/
theorem sameOutcome_float_iff :
    SameOutcome env case st.buf
        (if sizeofBuff < s.length then .error .undefined else .ok (putParamValue true s st))
        (if sizeofBuff < s.length then .error .undefined else .ok (putParamValue false s st)) ↔
      s.length ≤ sizeofBuff ∧ isNumeral s = true := by
  split_ifs with hlong
  · exact iff_of_false id fun h => absurd h.1 (Nat.not_le.mpr hlong)
  · rw [sameOutcome_putParamValue_iff, hasValue_raw_iff]
    exact (and_iff_right (Nat.le_of_not_lt hlong)).symm

/-- A text means the same on both paths exactly when it is written alike. -/
theorem sameOutcome_insertText_iff (h : p.IntervalPrinted data) :
    SameOutcome penv.toParamEnv p.sqlType.switchCase st.buf (p.insertText penv true data st)
        (p.insertText penv false (p.literalData data) st) ↔
      p.TextAlike penv st.srcOffset data := by
  have hconvert (hc : p.value.convert = true) : p.literalData data = data := by
    have hv : p.value.isHourInterval = false := by
      cases hvalue : p.value <;> rw [hvalue] at hc <;> first | rfl | exact absurd hc (nofun)
    rw [BoundParam.literalData, hv, if_neg Bool.false_ne_true]
  unfold BoundParam.insertText BoundParam.TextAlike
  cases hcase : p.sqlType.switchCase with
  | date =>
    have hmode : ¬ (penv.noBackslashEscapes = true ∧ p.sqlType.switchCase = .binary) := by
      simp [hcase]
    simp only [h.brace_iff, h.checkDateOverflow_eq]
    split_ifs with hbrace hcheck
    · exact h.sameOutcome_brace_iff (by decide) hbrace
    · rw [hcheck]
      exact sameOutcome_putIntroduced_iff (by decide) h.isIntervalText hmode
    · cases hfailure : checkDateOverflow penv.toParamEnv data.text with
      | ok => exact absurd hfailure hcheck
      | error failure => exact sameOutcome_error_iff.trans (by simp)
  | timestamp =>
    simp only [h.brace_iff]
    split_ifs with hbrace
    · exact h.sameOutcome_brace_iff (by decide) hbrace
    · exact sameOutcome_putIntroduced_iff (by decide) h.isIntervalText (by simp [hcase])
  | binary =>
    simp only
    split_ifs with hmode
    · exact sameOutcome_putIntroduced_hex_iff hmode hcase
    · exact sameOutcome_putIntroduced_iff (by decide) h.isIntervalText fun h' => hmode h'.1
  | character => exact h.sameOutcome_character_iff hcase
  | interval =>
    simp only
    cases hv : p.value.isHourInterval with
    | true =>
      rw [if_pos rfl, if_pos rfl]
      exact h.sameOutcome_raw_iff.trans (by simp [BoundParam.RawText, hv])
    | false => exact iff_of_false not_sameWritten_untouched Bool.false_ne_true
  | time => exact h.sameOutcome_time_iff
  | bit => exact sameOutcome_bit_iff
  | float =>
    simp only
    by_cases hc : p.value.convert = true
    · rw [hconvert hc, if_pos hc, if_pos hc, if_pos hc]
      exact sameOutcome_float_iff
    · rw [if_neg hc, if_neg hc, if_neg hc]
      exact h.sameOutcome_raw_iff
  | numeric =>
    simp only
    split_ifs with hc
    · exact sameOutcome_putLast_plain_iff h.isIntervalText (by simp [hcase])
    · exact h.sameOutcome_raw_iff

/-- The text of an interval type is that of an interval. -/
theorem intervalPrinted_convertCType2str {length : ℤ}
    (h : convertCType2str penv true p.value length = .ok data) : p.IntervalPrinted data :=
  convertCType2str_interval h

/-- `insert_param` of a value that is not refused. -/
theorem insertBoundParam_value {length : ℤ} (htaken : p.taken = .ok (.value length))
    (hrefused : p.conversionRefused = none) (server : Bool) :
    (p.insertBoundParam penv server st).map Prod.fst =
      convertCType2str penv server p.value length >>= fun data =>
        p.insertText penv server data st := by
  rw [BoundParam.insertBoundParam, htaken]
  change Except.map Prod.fst (match p.conversionRefused with | some message => _ | none => _) = _
  rw [hrefused]
  cases convertCType2str penv server p.value length with
  | error failure => rfl
  | ok data =>
    change Except.map Prod.fst (p.insertText penv server data st >>= _) = p.insertText penv server data st
    cases p.insertText penv server data st <;> rfl

/-- `NULL` on both paths. -/
theorem sameOutcome_null :
    SameOutcome env case st.buf (.ok ⟨.null, st⟩) (.ok (.literal BoundParam.nullText st)) :=
  ⟨.null, _, rfl, rfl, .null, rfl, trivial⟩

/-- `NULL` in a bind is not `DEFAULT` in a literal. -/
theorem not_sameOutcome_default :
    ¬ SameOutcome env case st.buf (.ok ⟨.null, st⟩) (.ok (.literal BoundParam.defaultText st)) := by
  rintro ⟨value, s, hvalue, hbuf, literal, hdenotes, hsame⟩
  obtain rfl := Option.some.inj hvalue
  obtain rfl := List.append_cancel_left hbuf
  cases literal with
  | null =>
    have htext : BoundParam.defaultText ≠ BoundParam.nullText := by decide
    exact absurd hdenotes htext
  | _ => exact absurd hsame id

/-- The two paths of `insert_param` give a parameter the same value, or the same error, exactly
when it is written alike. -/
theorem BoundParam.pathsCoincide_iff (p : BoundParam) (env : PathEnv) (st : ParamBuffer) :
    p.PathsCoincide env st ↔ p.WrittenAlike env st.srcOffset := by
  unfold BoundParam.PathsCoincide BoundParam.WrittenAlike
  cases htaken : p.taken with
  | error failure =>
    simp only [BoundParam.insertBoundParam, htaken]
    exact sameOutcome_error_iff
  | ok taken =>
    cases taken with
    | null =>
      simp only [BoundParam.insertBoundParam, htaken]
      exact iff_of_true sameOutcome_null trivial
    | default =>
      simp only [BoundParam.insertBoundParam, htaken]
      exact iff_of_false not_sameOutcome_default id
    | value length =>
      cases hrefused : p.conversionRefused with
      | some message =>
        simp only [BoundParam.insertBoundParam, htaken, hrefused]
        exact iff_of_true (sameOutcome_error_iff.mpr nofun) trivial
      | none =>
        rw [insertBoundParam_value htaken hrefused, insertBoundParam_value htaken hrefused,
          convertCType2str_literal]
        cases hserver : convertCType2str env true p.value length with
        | error failure =>
          simp only [hserver]
          exact sameOutcome_error_iff
        | ok data =>
          simp only [hserver]
          exact sameOutcome_insertText_iff (intervalPrinted_convertCType2str hserver)

/-- A comma is no digit. -/
theorem isdigit_comma : ∀ c ∈ [(0x2c : UInt8)], isdigit c = false := by simp [isdigit]

/-- A connection without options, with an 8-bit character set. -/
def plainPathEnv : PathEnv where
  cs := charset8bit
  noBackslashEscapes := false
  charIsSigned := true
  thousandsSep := [0x2c]
  decimalPoint := [0x2e]
  noLocale := false
  noDateOverflow := false
  opts := ⟨0, true⟩
  bindOffset := 0
  isdigit_thousandsSep := isdigit_comma
  utf8Charset := false
  utf8mb4Server := true
  minDateToZero := false
  setposOp := 0
  stack := List.replicate 128 0
  malloc n := some (List.replicate n 0)
  bufferAllocated := false

/-- The text `1` as a parameter of a type, with its length or with one that has a meaning of its
own. -/
def textOne (sqlType : SqlType) (octetLength : ℤ) : BoundParam where
  value := .SQL_C_CHAR [0x31, 0]
  bufferLength := 0
  octetLength := some octetLength
  indicator := some octetLength
  parLength := none
  atDataPtr := ⟨⟨0, 0, 0⟩, ⟨0, 0, 0⟩, 0⟩
  aprecType := .other
  iprecType := .other
  sqlType := sqlType

/-- The text `1` is bound as a bit, but nothing is written for it. A column that is to be ignored
is `NULL` in a bind and `DEFAULT` in a literal. -/
theorem textOne_not_pathsCoincide :
    ¬ (textOne .SQL_BIT 1).PathsCoincide plainPathEnv ⟨[], none⟩ ∧
      ¬ (textOne .SQL_INTEGER sqlColumnIgnore).PathsCoincide plainPathEnv ⟨[], none⟩ := by
  constructor
  · intro h
    have hwritten : SameOutcome plainPathEnv.toParamEnv .bit []
        (.ok ⟨.value (.tiny (if (1 : ℤ) ≠ 0 then 1 else 0)), ⟨[], none⟩⟩)
        (.ok (.literal [] ⟨[], none⟩)) := h
    exact absurd (hasValue_bit_iff.mp (sameWritten_literal_iff.mp hwritten)) nofun
  · exact not_sameOutcome_default

end MatrixOdbc.Driver
