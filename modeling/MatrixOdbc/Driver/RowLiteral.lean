import MatrixOdbc.Driver.RowIndependence

/-!
# The literal of a row

The literal of a row is to be defined, and to depend on the row only: neither on the rest of the
memory of the application nor on what the rows before it have left behind, in the local buffer of
`insert_param`, in memory that is allocated for a conversion, or in `getdata.src_offset`. For a row
that is read alone this is a matter of its value.
-/

namespace MatrixOdbc.Driver

open Util

/-- The connection with other contents of the local buffer and of allocated memory. -/
def ArrayEnv.withBuffers (env : ArrayEnv) (stack : List UInt8) (malloc : ℕ → Option (List UInt8)) :
    ArrayEnv :=
  { env with stack, malloc }

/-- The local buffer and what is allocated have their sizes. -/
structure ArrayEnv.Sized (env : ArrayEnv) : Prop where
  stack : env.stack.length = sizeofBuff
  malloc : ∀ n block, env.malloc n = some block → block.length = n

/-- The connection with every buffer full of a byte. -/
def ArrayEnv.filled (env : ArrayEnv) (b : UInt8) : ArrayEnv :=
  env.withBuffers (List.replicate sizeofBuff b)
    fun n => (env.malloc n).map fun _ => List.replicate n b

theorem ArrayEnv.sized_filled (env : ArrayEnv) (b : UInt8) : (env.filled b).Sized where
  stack := List.length_replicate
  malloc n block h := by
    obtain ⟨_, -, rfl⟩ := Option.map_eq_some_iff.mp h
    exact List.length_replicate

namespace ParamRecord

variable {rec : ParamRecord} {env : ArrayEnv} {mem mem' : List UInt8} {row : ℕ} {st : ParamBuffer}

/-- A memory has the same row as itself. -/
theorem sameRow_refl (rec : ParamRecord) (row : ℕ) (mem : List UInt8) : rec.SameRow row mem mem :=
  ⟨rfl, fun _ _ => rfl⟩

/-- The literal is defined and depends on the row only. -/
def RowLocal (rec : ParamRecord) (env : ArrayEnv) (mem : List UInt8) (row : ℕ)
    (st : ParamBuffer) : Prop :=
  ∃ literal ≠ Except.error Failure.undefined, ∀ mem' stack malloc offset,
    rec.SameRow row mem mem' → (env.withBuffers stack malloc).Sized →
    (∀ n, (malloc n).isSome = (env.malloc n).isSome) →
    rec.written (env.withBuffers stack malloc) mem' row ⟨st.buf, offset⟩ = literal

/-- A text whose length is not given has a terminator. -/
def Terminated (rec : ParamRecord) (mem : List UInt8) (row : ℕ) : Prop :=
  cellAt mem (rec.indicatorCell row) ≠ some sqlNullData →
    rec.givenLength mem row = none ∨ rec.givenLength mem row = some sqlNts →
    match rec.conciseType with
    | .SQL_C_CHAR | .SQL_C_BINARY => 0 ∈ rec.memoryAt mem row
    | .SQL_C_WCHAR => 0 ∈ unitsOf (rec.memoryAt mem row)
    | _ => True

/-- A text of a length is in the memory. -/
def InMemory (rec : ParamRecord) (mem : List UInt8) (row : ℕ) (length : ℤ) : Prop :=
  match rec.conciseType with
  | .SQL_C_CHAR | .SQL_C_BINARY => 0 ≤ length ∧ length ≤ (rec.memoryAt mem row).length
  | .SQL_C_WCHAR => 0 ≤ length ∧ length ≤ 2 * (unitsOf (rec.memoryAt mem row)).length
  | _ => True

/-- The value as a text can be written for its SQL type. A wide text of which nothing is left must
not be asked for its first byte, a date is checked, a time has a digit, a number fits the local
buffer, and the hexadecimal digits of a binary value come from an offset that other values move. -/
def TextFits (rec : ParamRecord) (env : ArrayEnv) (data : ParamText) : Prop :=
  match rec.sqlType.switchCase with
  | .date => (rec.conciseType = .SQL_C_WCHAR → data.text ≠ []) ∧
      (data.memory.head? = some 0x7b ∨ env.noDateOverflow = true ∨ strToTs data.text ≠ none)
  | .timestamp | .bit => rec.conciseType = .SQL_C_WCHAR → data.text ≠ []
  | .time => rec.conciseType.isTimestamp = false →
      (getFractionalPart data.text).2 ≠ 0 ∨ strToTimeAsLong data.text ≠ none
  | .float => rec.conciseType = .SQL_C_CHAR ∨ rec.conciseType = .SQL_C_BINARY →
      (numberText env.toParamEnv data.text).length ≤ sizeofBuff
  | .binary => env.noBackslashEscapes = true → data.text = [] ∨ env.opts.retrieveData = false
  | .character | .interval | .numeric => True

/-- The values whose literal is defined, and owes nothing to what is left behind. -/
structure Determined (rec : ParamRecord) (env : ArrayEnv) (mem : List UInt8) (row : ℕ) :
    Prop where
  terminated : rec.Terminated mem row
  value : ∀ length, (rec.boundParam env mem row).taken = .ok (.value length) → ¬ rec.Refused →
    rec.usesNull mem row = false ∧ rec.InMemory mem row length ∧
      ∀ data, convertCType2str env.toPathEnv false (rec.boundParam env mem row).value length =
        .ok data → rec.TextFits env data

/-- The literal of the row depends on the row only, for just the values that are determined. -/
def RowIndependent (rec : ParamRecord) (row : ℕ) : Prop :=
  ∀ env mem st, env.Sized → (rec.RowLocal env mem row st ↔ rec.Determined env mem row)

/-- Bytes that are stored behind the same bytes. -/
theorem take_store_congr {buf buf' xs : List UInt8} {i : ℕ} (hlength : buf'.length = buf.length)
    (h : buf'.take i = buf.take i) :
    (Buffer.store buf' i xs).take (i + xs.length) = (Buffer.store buf i xs).take (i + xs.length) := by
  rw [Buffer.store, Buffer.store, h]
  by_cases hi : i ≤ buf.length
  · have htake : (buf.take i).length = i := List.length_take_of_le hi
    have hfront : ∀ rest, (buf.take i ++ (xs ++ rest)).take (i + xs.length) = buf.take i ++ xs := by
      intro rest
      rw [← List.append_assoc, List.take_left' (by rw [List.length_append, htake])]
    rw [hfront, hfront]
  · rw [List.drop_eq_nil_of_le (by omega), List.drop_eq_nil_of_le (by omega)]

/-- Two conversions into buffers of one size that have come equally far. -/
structure Alike (s s' : EncodeState) : Prop where
  str : s'.str = s.str
  i : s'.i = s.i
  used : s'.utf8mb4Used = s.utf8mb4Used
  length : s'.u8.length = s.u8.length
  written : s'.u8.take s.i = s.u8.take s.i

/-- A conversion ends, and what it writes does not depend on what was in the buffer. Without a byte
written the buffer stays as it was. -/
theorem Alike.run {str : List SQLWCHAR} {chars fuel : ℕ} {s s' : EncodeState} (h : Alike s s')
    (hfuel : chars - s.str < fuel) :
    ∃ t t', WhileLoop.run (encodeBody str chars) fuel s = some t ∧
      WhileLoop.run (encodeBody str chars) fuel s' = some t' ∧ Alike t t' ∧
      s.u8.length ≤ t.u8.length ∧ s.i ≤ t.i ∧ (t.i = s.i → t.u8 = s.u8) := by
  induction fuel generalizing s s' with
  | zero => omega
  | succ fuel ih =>
    have hstop : (∀ s₁ : EncodeState, s₁.str = s.str → encodeBody str chars s₁ = .done s₁) →
        ∃ t t', WhileLoop.run (encodeBody str chars) (fuel + 1) s = some t ∧
          WhileLoop.run (encodeBody str chars) (fuel + 1) s' = some t' ∧ Alike t t' ∧
          s.u8.length ≤ t.u8.length ∧ s.i ≤ t.i ∧ (t.i = s.i → t.u8 = s.u8) := fun hdone =>
      ⟨s, s', WhileLoop.run_succ_done (hdone s rfl) fuel,
        WhileLoop.run_succ_done (hdone s' h.str) fuel, h, le_rfl, le_rfl, fun _ => rfl⟩
    by_cases hend : chars ≤ s.str
    · refine hstop fun s₁ hs₁ => ?_
      rw [encodeBody, if_pos (by omega)]
    obtain ⟨consumed, u32, hconvert⟩ : ∃ consumed u32,
        utf16toutf32 (str.drop s.str) = (consumed, u32) := ⟨_, _, rfl⟩
    by_cases hzero : consumed = 0
    · refine hstop fun s₁ hs₁ => ?_
      rw [encodeBody, if_neg (by omega), hs₁, hconvert]
      simp only [hzero, if_true]
    set c := utf32toutf8 u32 with hc
    have hbody : ∀ s₁ : EncodeState, s₁.str = s.str → encodeBody str chars s₁ =
        .next ⟨s₁.str + consumed, s₁.i + c.length, Buffer.store s₁.u8 s₁.i c,
          s₁.utf8mb4Used || c.length == 4⟩ := by
      intro s₁ hs₁
      rw [encodeBody, if_neg (by omega), hs₁, hconvert]
      simp only [hzero, if_false, ← hc]
    have hnext : Alike
        ⟨s.str + consumed, s.i + c.length, Buffer.store s.u8 s.i c, s.utf8mb4Used || c.length == 4⟩
        ⟨s'.str + consumed, s'.i + c.length, Buffer.store s'.u8 s'.i c,
          s'.utf8mb4Used || c.length == 4⟩ := by
      refine ⟨by rw [h.str], by rw [h.i], by rw [h.used], ?_, ?_⟩
      · simp only [Buffer.store, List.length_append, List.length_take, List.length_drop, h.i,
          h.length]
      · rw [h.i]
        exact take_store_congr h.length h.written
    obtain ⟨t, t', ht, ht', halike, hlonger, hle, hkept⟩ := ih hnext (by dsimp only; omega)
    dsimp only at hle hkept
    rw [Buffer.store, List.length_append, List.length_append, List.length_take,
      List.length_drop] at hlonger
    refine ⟨t, t', ?_, ?_, halike, by omega, by omega, fun heq => ?_⟩
    rotate_left 2
    · -- a character without bytes, which is no character, leaves the buffer as it was
      have hnil : c = [] := List.eq_nil_of_length_eq_zero (by omega)
      rw [hkept (by rw [heq, hnil]; rfl), hnil, Buffer.store]
      exact List.take_append_drop _ _
    · rw [WhileLoop.run_succ_next (hbody s rfl), ht]
    · rw [WhileLoop.run_succ_next (hbody s' h.str), ht']

/-- The buffer that a wide text of so many units is converted into. -/
def wideBuffer (penv : PathEnv) (chars : ℕ) : Option (List UInt8) :=
  if sizeofBuff < chars * MAX_BYTES_PER_UTF8_CP then penv.malloc (MAX_BYTES_PER_UTF8_CP * chars + 1)
  else some penv.stack

/-- The conversion of a wide text, from the buffer on. -/
theorem sqlwcharAsUtf8Ext_eq (penv : PathEnv) (str : List SQLWCHAR) (length : ℤ) :
    sqlwcharAsUtf8Ext penv.malloc (some str) (some (length / 2)) (some penv.stack) sizeofBuff
        false =
      match wideBuffer penv (length / 2).toNat with
      | none => some ⟨none, -1, false⟩
      | some u8 => (WhileLoop.run (encodeBody str (length / 2).toNat) ((length / 2).toNat + 1)
          ⟨0, 0, u8, false⟩).map fun s => ⟨some s.u8, s.i, s.utf8mb4Used⟩ := by
  unfold sqlwcharAsUtf8Ext wideBuffer
  simp only [Option.getD_some, Option.isNone_some, Bool.false_eq_true, false_or]
  by_cases hzero : length / 2 ≤ 0
  · have hchars : (length / 2).toNat = 0 := Int.toNat_of_nonpos hzero
    rw [if_pos hzero, hchars, if_neg (by decide)]
    rfl
  · exact if_neg hzero

/-- The buffers of two runs are alike. -/
theorem wideBuffer_cases {stack : List UInt8} {malloc : ℕ → Option (List UInt8)}
    (hsized : env.Sized) (hsized' : (env.withBuffers stack malloc).Sized)
    (hmalloc : ∀ n, (malloc n).isSome = (env.malloc n).isSome) (chars : ℕ) :
    (wideBuffer env.toPathEnv chars = none ∧
        wideBuffer (env.withBuffers stack malloc).toPathEnv chars = none) ∨
      ∃ u8 u8', wideBuffer env.toPathEnv chars = some u8 ∧
        wideBuffer (env.withBuffers stack malloc).toPathEnv chars = some u8' ∧
        u8'.length = u8.length ∧ 0 < u8.length := by
  unfold wideBuffer
  split_ifs with hlarge
  · change _ ∧ malloc _ = none ∨ ∃ u8 u8', _ ∧ malloc _ = some u8' ∧ _
    cases hblock : env.malloc (MAX_BYTES_PER_UTF8_CP * chars + 1) with
    | none =>
      refine .inl ⟨rfl, ?_⟩
      rw [← Option.isNone_iff_eq_none, ← Option.not_isSome, hmalloc, hblock]
      rfl
    | some u8 =>
      obtain ⟨u8', hu8'⟩ := Option.isSome_iff_exists.mp
        ((hmalloc (MAX_BYTES_PER_UTF8_CP * chars + 1)).trans (by rw [hblock]; rfl))
      have hlength := hsized.malloc _ _ hblock
      exact .inr ⟨u8, u8', rfl, hu8', (hsized'.malloc _ _ hu8').trans hlength.symm, by omega⟩
  · refine .inr ⟨_, _, rfl, rfl, hsized'.stack.trans hsized.stack.symm, ?_⟩
    rw [hsized.stack]
    decide

/-- What is converted does not depend on what was left in the buffers, unless nothing comes out. -/
theorem convertCType2str_withBuffers {stack : List UInt8} {malloc : ℕ → Option (List UInt8)}
    (hsized : env.Sized) (hsized' : (env.withBuffers stack malloc).Sized)
    (hmalloc : ∀ n, (malloc n).isSome = (env.malloc n).isSome) (value : CValue) (length : ℤ) :
    (∃ failure, convertCType2str env.toPathEnv false value length = .error failure ∧
        convertCType2str (env.withBuffers stack malloc).toPathEnv false value length =
          .error failure) ∨
      ∃ data data', convertCType2str env.toPathEnv false value length = .ok data ∧
        convertCType2str (env.withBuffers stack malloc).toPathEnv false value length = .ok data' ∧
        data'.text = data.text ∧ data'.truncated = data.truncated ∧
        (data.text ≠ [] ∨ value.isWide = false →
          data'.memory.head? = data.memory.head?) ∧
        (value.isWide = true → data.text = [] →
          ∃ u8, wideBuffer env.toPathEnv (length / 2).toNat = some u8 ∧ data.memory = u8 ∧
            wideBuffer (env.withBuffers stack malloc).toPathEnv (length / 2).toNat =
              some data'.memory) := by
  by_cases hwide : value.isWide = true
  swap
  · have hsame : convertCType2str (env.withBuffers stack malloc).toPathEnv false value length =
        convertCType2str env.toPathEnv false value length := by
      cases value <;> first | rfl | exact absurd rfl hwide | (rename_i number; cases number <;> rfl)
    rw [hsame]
    cases hconvert : convertCType2str env.toPathEnv false value length with
    | error failure => exact .inl ⟨failure, rfl, rfl⟩
    | ok data =>
      exact .inr ⟨data, data, rfl, rfl, rfl, rfl, fun _ => rfl, fun h => absurd h hwide⟩
  obtain ⟨str, rfl⟩ : ∃ str, value = .SQL_C_WCHAR str := by
    cases value <;> first | exact ⟨_, rfl⟩ | cases hwide
  unfold convertCType2str
  dsimp only
  by_cases hrange : length < 0 ∨ 2 * (str.length : ℤ) < length
  · rw [if_pos hrange, if_pos hrange]
    exact .inl ⟨_, rfl, rfl⟩
  rw [if_neg hrange, if_neg hrange, sqlwcharAsUtf8Ext_eq env.toPathEnv str length,
    sqlwcharAsUtf8Ext_eq (env.withBuffers stack malloc).toPathEnv str length]
  obtain ⟨hnone, hnone'⟩ | ⟨u8, u8', hu8, hu8', hlength, hpos⟩ :=
    wideBuffer_cases hsized hsized' hmalloc (length / 2).toNat
  · rw [hnone, hnone']
    exact .inl ⟨_, rfl, rfl⟩
  have hstart : Alike ⟨0, 0, u8, false⟩ ⟨0, 0, u8', false⟩ := ⟨rfl, rfl, rfl, hlength, rfl⟩
  obtain ⟨t, t', ht, ht', halike, hlonger, -, hkept⟩ := @Alike.run str (length / 2).toNat
    ((length / 2).toNat + 1) _ _ hstart (by dsimp only; omega)
  have hstart' : Alike ⟨0, 0, u8', false⟩ ⟨0, 0, u8', false⟩ := ⟨rfl, rfl, rfl, rfl, rfl⟩
  obtain ⟨t₁, -, ht₁, -, -, -, -, hkept'⟩ := @Alike.run str (length / 2).toNat
    ((length / 2).toNat + 1) _ _ hstart' (by dsimp only; omega)
  obtain rfl : t₁ = t' := Option.some.inj (ht₁.symm.trans ht')
  rw [hu8, hu8']
  dsimp only
  rw [ht, ht']
  simp only [Option.map_some, halike.used]
  have hserver : (env.withBuffers stack malloc).utf8mb4Server = env.utf8mb4Server := rfl
  rw [hserver]
  split_ifs
  · exact .inl ⟨_, rfl, rfl⟩
  have hi : ((t.i : ℤ)).toNat = t.i := Int.toNat_natCast _
  have htext : (⟨t₁.u8, ((t₁.i : ℤ)).toNat, false⟩ : ParamText).text =
      (⟨t.u8, ((t.i : ℤ)).toNat, false⟩ : ParamText).text := by
    rw [ParamText.text, ParamText.text]
    dsimp only
    rw [halike.i, hi]
    exact halike.written
  refine .inr ⟨_, _, rfl, rfl, htext, rfl, fun hne => ?_, fun _ hnil => ?_⟩
  · have hne := hne.resolve_right (by simp [CValue.isWide])
    have hihead : ∀ u8 : List UInt8, 0 < t.i → (u8.take t.i).head? = u8.head? := by
      intro u8 hpos
      cases u8 with
      | nil => rw [List.take_nil]
      | cons c u8 => rw [List.take_cons hpos]; rfl
    have hipos : 0 < t.i := by
      by_contra hzero
      apply hne
      rw [ParamText.text, hi, Nat.eq_zero_of_not_pos hzero]
      rfl
    dsimp only
    rw [← hihead t₁.u8 hipos, ← hihead t.u8 hipos, halike.written]
  · have hizero : t.i = 0 := by
      have hzero := congrArg List.length hnil
      rw [ParamText.text, hi, List.length_take, List.length_nil] at hzero
      dsimp only at hzero hlonger
      omega
    exact ⟨u8, rfl, hkept hizero, congrArg some (hkept' (halike.i.trans hizero)).symm⟩

/-- There are no digits of an empty text, nor of one that is not retrieved. -/
theorem copyBinhexResult_nil {opts : StmtOptions} {src : List UInt8} (offset : Option ℕ)
    (h : src = [] ∨ opts.retrieveData = false) : (copyBinhexResult opts offset src).1 = some [] := by
  have hrest : ∀ max start (src' : List UInt8), src' = [] ∨ opts.retrieveData = false →
      (copyBinhexResult.rest opts max start src').1 = some [] := by
    rintro max start src' (rfl | h)
    · simp [copyBinhexResult.rest, hexText]
    · simp [copyBinhexResult.rest, h]
  have hsrc : (if opts.maxLength ≠ 0 then src.take ((opts.maxLength + 1) / 2) else src) = [] ∨
      opts.retrieveData = false := h.imp_left fun h => by simp [h]
  unfold copyBinhexResult
  cases offset with
  | none => exact hrest _ _ _ hsrc
  | some offset =>
    dsimp only
    split_ifs with hcut hbehind hbehind
    · rfl
    · exact hrest _ _ _ (by rwa [if_pos hcut] at hsrc)
    · rfl
    · exact hrest _ _ _ (by rwa [if_neg hcut] at hsrc)

/-- There are none behind the end of the text, but some at its beginning. -/
theorem copyBinhexResult_moves {opts : StmtOptions} {src : List UInt8} (hne : src ≠ [])
    (hretrieve : opts.retrieveData = true) :
    (copyBinhexResult opts (some src.length) src).1 = some [] ∧
      (copyBinhexResult opts none src).1 ≠ some [] := by
  obtain ⟨src', hsrc', hle, hne'⟩ : ∃ src' : List UInt8,
      (if opts.maxLength ≠ 0 then src.take ((opts.maxLength + 1) / 2) else src) = src' ∧
      src'.length ≤ src.length ∧ src' ≠ [] := by
    refine ⟨_, rfl, ?_, ?_⟩
    · split_ifs
      · exact List.length_take_le' _ _
      · exact le_rfl
    · split_ifs with hcut
      · rw [Ne, List.take_eq_nil_iff, not_or]
        exact ⟨by omega, hne⟩
      · exact hne
  unfold copyBinhexResult
  dsimp only
  rw [hsrc', if_pos hle]
  refine ⟨rfl, ?_⟩
  unfold copyBinhexResult.rest
  simp only [hretrieve, Bool.not_true, Bool.false_eq_true, if_false, List.drop_zero]
  have hdigits : some (hexText src') ≠ some [] := by
    intro h
    obtain ⟨c, src', rfl⟩ := List.exists_cons_of_ne_nil hne'
    exact absurd (Option.some.inj h) (by simp [hexText])
  split_ifs
  · exact hdigits
  · nofun
  · exact hdigits
  · nofun

/-- What is written of a binary value in hexadecimal digits. -/
theorem putIntroduced_hex {penv : PathEnv} {sqlType : SqlType} {text : List UInt8}
    (hmode : penv.noBackslashEscapes = true) (hcase : sqlType.switchCase = .binary)
    (buf : List UInt8) (offset : Option ℕ) :
    (putIntroduced penv false sqlType text ⟨buf, offset⟩).map (fun written => written.st.buf) =
      match (copyBinhexResult penv.opts offset text).1 with
      | some digits => .ok (buf ++ binaryIntroducer ++ hexPrefix ++ digits)
      | none => .error .undefined := by
  have hbinary : isBinarySqlType sqlType = true := by
    cases sqlType <;> first | rfl | cases hcase
  unfold putIntroduced putLast putQuoted
  rw [if_neg (by simp), hmode, hbinary]
  simp only [Bool.and_self, if_true, Bool.false_eq_true, if_false]
  change (Except.map _ (match (copyBinhexResult penv.opts offset text).1 with
    | some digits => _ | none => _)).map _ = _
  cases (copyBinhexResult penv.opts offset text).1 <;> rfl

/-- The text and the connection decide what is written, with the first byte of the memory for a date
and a bit. The offset has a part in the hexadecimal digits of binary values only. -/
theorem insertText_withBuffers {p : BoundParam} {data data' : ParamText} {stack : List UInt8}
    {malloc : ℕ → Option (List UInt8)} (offset : Option ℕ) (htext : data'.text = data.text)
    (hhead : p.sqlType.switchCase = .date ∨ p.sqlType.switchCase = .timestamp ∨
      p.sqlType.switchCase = .bit → data'.memory.head? = data.memory.head?)
    (hbinary : p.sqlType.switchCase = .binary → env.noBackslashEscapes = true →
      data.text = [] ∨ env.opts.retrieveData = false) :
    (p.insertText (env.withBuffers stack malloc).toPathEnv false data' ⟨st.buf, offset⟩).map
        (fun written => written.st.buf) =
      (p.insertText env.toPathEnv false data st).map fun written => written.st.buf := by
  have hquoted : ∀ {sqlType : SqlType} (text buf : List UInt8) (offset' : Option ℕ),
      ¬ (env.noBackslashEscapes = true ∧ sqlType.switchCase = .binary) →
      (putLast (env.withBuffers stack malloc).toPathEnv false sqlType text ⟨buf, offset⟩).map
          (fun written => written.st.buf) =
        (putLast env.toPathEnv false sqlType text ⟨buf, offset'⟩).map
          fun written => written.st.buf := by
    intro sqlType text buf offset' h
    have h' : ¬ ((env.withBuffers stack malloc).noBackslashEscapes = true ∧
        sqlType.switchCase = .binary) := h
    rw [putLast_quoted h, putLast_quoted h']
    rfl
  unfold BoundParam.insertText
  rw [htext]
  cases hcase : p.sqlType.switchCase with
  | date =>
    have hplain : ¬ (env.noBackslashEscapes = true ∧ p.sqlType.switchCase = .binary) := by
      rw [hcase]; nofun
    dsimp only
    rw [hhead (.inl hcase)]
    split_ifs with hbrace
    · rfl
    · have hdate : checkDateOverflow (env.withBuffers stack malloc).toParamEnv data.text =
        checkDateOverflow env.toParamEnv data.text := rfl
      rw [hdate]
      cases checkDateOverflow env.toParamEnv data.text with
      | error failure => rfl
      | ok => exact hquoted data.text _ _ hplain
  | timestamp =>
    have hplain : ¬ (env.noBackslashEscapes = true ∧ p.sqlType.switchCase = .binary) := by
      rw [hcase]; nofun
    dsimp only
    rw [hhead (.inr (.inl hcase))]
    split_ifs with hbrace
    · rfl
    · exact hquoted data.text _ _ hplain
  | binary =>
    by_cases hmode : env.noBackslashEscapes = true
    · have hmode' : (env.withBuffers stack malloc).noBackslashEscapes = true := hmode
      have hnil := hbinary hcase hmode
      have hnil' : data.text = [] ∨ (env.withBuffers stack malloc).opts.retrieveData = false := hnil
      dsimp only
      rw [putIntroduced_hex hmode' hcase, copyBinhexResult_nil _ hnil',
        putIntroduced_hex hmode hcase st.buf st.srcOffset, copyBinhexResult_nil _ hnil]
    · exact hquoted data.text _ _ fun h => hmode h.1
  | character =>
    dsimp only
    rw [if_neg (by simp), if_neg (by simp)]
    exact hquoted data.text _ _ (by rw [hcase]; nofun)
  | interval => dsimp only; split_ifs <;> rfl
  | time =>
    have htime : p.timeOf data' = p.timeOf data := by
      unfold BoundParam.timeOf
      rw [htext]
    dsimp only
    rw [htime]
    cases p.timeOf data <;> rfl
  | bit =>
    dsimp only
    rw [List.take_one, List.take_one, hhead (.inr (.inr hcase))]
    rfl
  | float =>
    have hnumber : numberText (env.withBuffers stack malloc).toParamEnv data.text =
        numberText env.toParamEnv data.text := rfl
    dsimp only
    rw [hnumber]
    split_ifs <;> rfl
  | numeric =>
    dsimp only
    split_ifs
    · exact hquoted data.text _ _ (by rw [hcase]; nofun)
    · rfl

/-- A text of the application is one of these types. -/
theorem convert_iff : (rec.boundParam env mem row).value.convert = true ↔
    rec.conciseType = .SQL_C_CHAR ∨ rec.conciseType = .SQL_C_BINARY := by
  change (decodeValue env rec.conciseType _).convert = true ↔ _
  cases rec.conciseType <;> simp [decodeValue, CValue.convert]

@[inherit_doc convert_iff]
theorem isWide_iff : (rec.boundParam env mem row).value.isWide = true ↔
    rec.conciseType = .SQL_C_WCHAR := by
  change (decodeValue env rec.conciseType _).isWide = true ↔ _
  cases rec.conciseType <;> simp [decodeValue, CValue.isWide]

/-- A text that fits its type is written. -/
theorem TextFits.insertText_ne {data : ParamText} (h : rec.TextFits env data) :
    (rec.boundParam env mem row).insertText env.toPathEnv false data st ≠
      .error .undefined := by
  have hquoted : ∀ {sqlType : SqlType} (text : List UInt8) (st : ParamBuffer),
      ¬ (env.noBackslashEscapes = true ∧ sqlType.switchCase = .binary) →
      putLast env.toPathEnv false sqlType text st ≠ .error .undefined := by
    intro sqlType text st h
    rw [putLast_quoted h]
    nofun
  have hsql : (rec.boundParam env mem row).sqlType = rec.sqlType := rfl
  unfold TextFits at h
  unfold BoundParam.insertText
  rw [hsql]
  cases hcase : rec.sqlType.switchCase with
  | date =>
    rw [hcase] at h
    dsimp only at h ⊢
    split_ifs with hbrace
    · nofun
    · have hplain : putIntroduced env.toPathEnv false rec.sqlType data.text st ≠
          .error .undefined := hquoted data.text _ (by rw [hcase]; nofun)
      unfold checkDateOverflow
      split_ifs with hoff
      · exact hplain
      · cases hts : strToTs data.text with
        | none => simp [hbrace, hoff, hts] at h
        | some ts =>
          dsimp only
          split_ifs
          · nofun
          · exact hplain
  | timestamp =>
    dsimp only
    split_ifs
    · nofun
    · exact hquoted data.text _ (by rw [hcase]; nofun)
  | binary =>
    rw [hcase] at h
    by_cases hmode : env.noBackslashEscapes = true
    · intro hnone
      have hwritten := @putIntroduced_hex env.toPathEnv rec.sqlType data.text hmode hcase st.buf
        st.srcOffset
      rw [copyBinhexResult_nil _ (h hmode)] at hwritten
      rw [show putIntroduced env.toPathEnv false rec.sqlType data.text ⟨st.buf, st.srcOffset⟩ = _
        from hnone] at hwritten
      cases hwritten
    · exact hquoted data.text _ fun h => hmode h.1
  | character =>
    dsimp only
    rw [if_neg (by simp)]
    exact hquoted data.text _ (by rw [hcase]; nofun)
  | interval => nofun
  | time =>
    rw [hcase] at h
    dsimp only at h ⊢
    have htime : (rec.boundParam env mem row).timeOf data ≠ .error .undefined := by
      unfold BoundParam.timeOf
      split
      · unfold CTimestamp.timeText
        split_ifs <;> nofun
      · rename_i htimestamp
        have htype : rec.conciseType.isTimestamp = false := by
          by_contra htype
          obtain ⟨timestamp, hvalue⟩ := @exists_timestamp rec env mem row (eq_true_of_ne_false htype)
          exact htimestamp timestamp hvalue
        unfold timeText
        split_ifs with hfraction
        · nofun
        · cases hlong : strToTimeAsLong data.text with
          | none => exact absurd hlong ((h htype).resolve_left hfraction)
          | some time =>
            dsimp only
            split_ifs <;> nofun
    intro herror
    cases htimeOf : (rec.boundParam env mem row).timeOf data with
    | error failure =>
      rw [htimeOf] at herror htime
      exact htime (congrArg Except.error (Except.error.inj herror))
    | ok time => rw [htimeOf] at herror; cases herror
  | bit => nofun
  | float =>
    rw [hcase] at h
    dsimp only at h ⊢
    split_ifs with hconvert hlong
    · exact absurd (h (convert_iff.mp hconvert)) (Nat.not_le.mpr hlong)
    · nofun
    · nofun
  | numeric =>
    dsimp only
    split_ifs
    · exact hquoted data.text _ (by rw [hcase]; nofun)
    · nofun

/-- Taking the value of a row fails only without a terminator. -/
theorem terminated_iff : rec.Terminated mem row ↔
    (rec.boundParam env mem row).taken ≠ .error .undefined := by
  have hterminated : ∀ value : CValue, (∃ length, BoundParam.terminatedLength value = .ok length) ∨
      BoundParam.terminatedLength value = .error .undefined := by
    intro value
    unfold BoundParam.terminatedLength
    split <;> try split_ifs
    all_goals first | exact .inl ⟨_, rfl⟩ | exact .inr rfl
  have hvalue : (match rec.conciseType with
      | .SQL_C_CHAR | .SQL_C_BINARY => 0 ∈ rec.memoryAt mem row
      | .SQL_C_WCHAR => 0 ∈ unitsOf (rec.memoryAt mem row)
      | _ => True) ↔
      BoundParam.terminatedLength (rec.boundParam env mem row).value ≠ .error .undefined := by
    change _ ↔ BoundParam.terminatedLength (decodeValue env rec.conciseType _) ≠ _
    cases rec.conciseType <;>
      simp only [decodeValue, BoundParam.terminatedLength] <;>
      first | (split_ifs with hmem <;> simp [hmem]) | simp
  have hindicator : (rec.boundParam env mem row).indicator =
      cellAt mem (rec.indicatorCell row) := rfl
  have hlength : (rec.boundParam env mem row).octetLength = rec.givenLength mem row := rfl
  rw [Terminated, hvalue]
  unfold BoundParam.taken
  rw [hindicator, hlength]
  by_cases hnull : cellAt mem (rec.indicatorCell row) = some sqlNullData
  · rw [if_pos hnull]
    exact iff_of_true (fun h => absurd hnull h) (by rintro ⟨⟩)
  rw [if_neg hnull, imp_iff_right hnull]
  by_cases hnone : rec.givenLength mem row = none
  · rw [if_pos hnone, imp_iff_right (.inl hnone)]
    obtain ⟨length, hok⟩ | herror := hterminated (rec.boundParam env mem row).value
    · rw [hok]
      exact iff_of_true (by rintro ⟨⟩) (by rintro ⟨⟩)
    · rw [herror]
      exact iff_of_false (not_not_intro rfl) fun h => h rfl
  rw [if_neg hnone]
  by_cases hnts : rec.givenLength mem row = some sqlNts
  · rw [if_pos hnts, imp_iff_right (.inr hnts)]
    obtain ⟨length, hok⟩ | herror := hterminated (rec.boundParam env mem row).value
    · rw [hok]
      exact iff_of_true (by rintro ⟨⟩) (by rintro ⟨⟩)
    · rw [herror]
      exact iff_of_false (not_not_intro rfl) fun h => h rfl
  rw [if_neg hnts]
  refine iff_of_true (fun h => absurd h (not_or.mpr ⟨hnone, hnts⟩)) ?_
  split_ifs
  · rintro ⟨⟩
  · split <;> rintro ⟨⟩
  · rintro ⟨⟩

/-- The conversion of a value is undefined only if it is not in the memory. -/
theorem inMemory_iff (length : ℤ) : rec.InMemory mem row length ↔
    convertCType2str env.toPathEnv false (rec.boundParam env mem row).value length ≠
      .error .undefined := by
  have hread : ∀ memory : List UInt8, 0 ≤ length ∧ length ≤ memory.length ↔
      readMemory memory length ≠ .error .undefined := by
    intro memory
    unfold readMemory
    split_ifs with hrange
    · exact iff_of_false (by omega) (not_not_intro rfl)
    · exact iff_of_true (by omega) (by rintro ⟨⟩)
  change _ ↔ convertCType2str env.toPathEnv false (decodeValue env rec.conciseType _) length ≠ _
  unfold InMemory
  cases hconcise : rec.conciseType with
  | SQL_C_CHAR => exact hread _
  | SQL_C_BINARY => exact hread _
  | SQL_C_WCHAR =>
    simp only [decodeValue, convertCType2str]
    split_ifs with hrange
    · exact iff_of_false (by omega) (not_not_intro rfl)
    apply iff_of_true (by omega)
    rw [sqlwcharAsUtf8Ext_eq env.toPathEnv _ length]
    cases hbuffer : wideBuffer env.toPathEnv (length / 2).toNat with
    | none => rintro ⟨⟩
    | some u8 =>
      have hstart : Alike ⟨0, 0, u8, false⟩ ⟨0, 0, u8, false⟩ := ⟨rfl, rfl, rfl, rfl, rfl⟩
      obtain ⟨t, -, ht, -⟩ := @Alike.run (unitsOf (rec.memoryAt mem row)) (length / 2).toNat
        ((length / 2).toNat + 1) _ _ hstart (by dsimp only; omega)
      dsimp only
      rw [ht]
      simp only [Option.map_some]
      split_ifs <;> rintro ⟨⟩
  | SQL_C_NUMERIC =>
    apply iff_of_true trivial
    simp only [decodeValue]
    cases env.numericText (bytesAt (rec.memoryAt mem row) 0 19) <;> rintro ⟨⟩
  | SQL_C_TIME | SQL_C_TYPE_TIME =>
    apply iff_of_true trivial
    simp only [decodeValue, convertCType2str]
    split_ifs <;> rintro ⟨⟩
  | _ => exact iff_of_true trivial (by rintro ⟨⟩)

/-- The texts of two rows that are written alike are written alike. -/
theorem insertText_of_written {env' : ArrayEnv} {length length' : ℤ} {data data' : ParamText}
    {st' : ParamBuffer} (hok : ¬ rec.Refused)
    (htaken : (rec.boundParam env mem row).taken = .ok (.value length))
    (hnull : rec.usesNull mem row = false)
    (hdata : convertCType2str env.toPathEnv false (rec.boundParam env mem row).value length =
      .ok data)
    (htaken' : (rec.boundParam env' mem' row).taken = .ok (.value length'))
    (hnull' : rec.usesNull mem' row = false)
    (hdata' : convertCType2str env'.toPathEnv false (rec.boundParam env' mem' row).value length' =
      .ok data')
    (h : rec.written env' mem' row st' = rec.written env mem row st) :
    ((rec.boundParam env' mem' row).insertText env'.toPathEnv false data' st').map
        (fun written => written.st.buf) =
      ((rec.boundParam env mem row).insertText env.toPathEnv false data st).map
        fun written => written.st.buf := by
  rw [written_value htaken hok hnull, written_value htaken' hok hnull', hdata, hdata'] at h
  change Except.map _ (BoundParam.insertText _ _ _ _ _) = Except.map _ (BoundParam.insertText ..)
    at h
  cases hleft : (rec.boundParam env' mem' row).insertText env'.toPathEnv false data' st' with
  | error failure =>
    cases hright : (rec.boundParam env mem row).insertText env.toPathEnv false data st with
    | error failure' =>
      rw [hleft, hright] at h
      exact congrArg Except.error (Except.error.inj h)
    | ok written => rw [hleft, hright] at h; cases h
  | ok written =>
    cases hright : (rec.boundParam env mem row).insertText env.toPathEnv false data st with
    | error failure' => rw [hleft, hright] at h; cases h
    | ok written' =>
      rw [hleft, hright] at h
      exact congrArg Except.ok (congrArg Prod.fst (Except.ok.inj h))

/-- A wide text of which nothing is left begins with what was in the buffer. -/
theorem exists_filled {length : ℤ} {data : ParamText} (hsized : env.Sized)
    (hwide : rec.conciseType = .SQL_C_WCHAR)
    (hdata : convertCType2str env.toPathEnv false (rec.boundParam env mem row).value length =
      .ok data) (hnil : data.text = []) (b : UInt8) :
    ∃ data', convertCType2str (env.filled b).toPathEnv false
        (rec.boundParam env mem row).value length = .ok data' ∧ data'.text = [] ∧
      data'.memory.head? = some b := by
  have hmalloc : ∀ n, ((env.malloc n).map fun _ => List.replicate n b).isSome =
      (env.malloc n).isSome := fun n => Option.isSome_map
  obtain ⟨failure, herror, -⟩ | ⟨data₁, data', hdata₁, hdata', htext, -, -, hleft⟩ :=
    convertCType2str_withBuffers hsized (env.sized_filled b) hmalloc
      (rec.boundParam env mem row).value length
  · rw [hdata] at herror
    cases herror
  obtain rfl := Except.ok.inj (hdata₁.symm.trans hdata)
  obtain ⟨-, -, -, hbuffer⟩ := hleft (isWide_iff.mpr hwide) hnil
  refine ⟨data', hdata', htext.trans hnil, ?_⟩
  change (if _ then (env.malloc _).map _ else some (List.replicate sizeofBuff b)) = _ at hbuffer
  split_ifs at hbuffer
  · obtain ⟨_, -, hmemory⟩ := Option.map_eq_some_iff.mp hbuffer
    rw [← hmemory]
    rfl
  · rw [← Option.some.inj hbuffer]
    rfl

/-- An empty text for a date is written with the introducer, or as it is if there is a brace. -/
theorem insertText_nil_ne {p p' : BoundParam} (hsql : p'.sqlType = p.sqlType)
    {penv penv' : PathEnv} {data data' : ParamText}
    (hcase : p.sqlType.switchCase = .date ∨ p.sqlType.switchCase = .timestamp)
    (htext : data.text = []) (hbrace : data.memory.head? = some 0x7b) (htext' : data'.text = [])
    (hplain : data'.memory.head? ≠ some 0x7b) :
    (p.insertText penv false data st).map (fun written => written.st.buf) ≠
      (p'.insertText penv' false data' st).map fun written => written.st.buf := by
  have hquoted : (putIntroduced penv' false p.sqlType [] st).map (fun written => written.st.buf) =
      .ok (st.buf ++ binaryIntroducer ++ quotedLiteral penv'.toParamEnv []) := by
    have hnobinary : ¬ (penv'.noBackslashEscapes = true ∧ p.sqlType.switchCase = .binary) := by
      rintro ⟨-, hbinary⟩
      rw [hbinary] at hcase
      obtain h | h := hcase
      · cases h
      · cases h
    unfold putIntroduced
    rw [putLast_quoted hnobinary]
    rfl
  have hlonger : st.buf ≠ st.buf ++ binaryIntroducer ++ quotedLiteral penv'.toParamEnv [] := by
    intro h
    have := congrArg List.length h
    simp only [List.length_append, binaryIntroducer, List.length_cons] at this
    omega
  have hfront : (Except.ok (putBrace penv false [] st) : Except Failure Written).map
      (fun written => written.st.buf) = .ok st.buf := by
    change Except.ok (st.buf ++ []) = _
    rw [List.append_nil]
  unfold BoundParam.insertText
  rw [htext, htext', hsql]
  obtain hcase | hcase := hcase
  · rw [hcase]
    dsimp only
    rw [if_pos hbrace, if_neg hplain, hfront]
    cases checkDateOverflow penv'.toParamEnv [] with
    | error failure => rintro ⟨⟩
    | ok => exact fun h => hlonger (Except.ok.inj (h.trans hquoted))
  · rw [hcase]
    dsimp only
    rw [if_pos hbrace, if_neg hplain, hfront, hquoted]
    exact fun h => hlonger (Except.ok.inj h)

/-- A value whose literal is defined and owes nothing to what is left behind fits its type. -/
theorem textFits_of_rowLocal {length : ℤ} {data : ParamText} (hsized : env.Sized)
    (hdefined : rec.written env mem row st ≠ .error .undefined)
    (hsame : ∀ stack malloc offset, (env.withBuffers stack malloc).Sized →
      (∀ n, (malloc n).isSome = (env.malloc n).isSome) →
      rec.written (env.withBuffers stack malloc) mem row ⟨st.buf, offset⟩ =
        rec.written env mem row st)
    (htaken : (rec.boundParam env mem row).taken = .ok (.value length)) (hok : ¬ rec.Refused)
    (hnull : rec.usesNull mem row = false)
    (hdata : convertCType2str env.toPathEnv false (rec.boundParam env mem row).value length =
      .ok data) : rec.TextFits env data := by
  have hsql : (rec.boundParam env mem row).sqlType = rec.sqlType := rfl
  have hinsert : (rec.boundParam env mem row).insertText env.toPathEnv false data st ≠
      .error .undefined := by
    intro herror
    rw [written_value htaken hok hnull, hdata] at hdefined
    apply hdefined
    change Except.map _ (BoundParam.insertText _ _ _ _ _) = _
    rw [herror]
    rfl
  -- the first byte that is read of nothing is that of the buffer
  have hfilled : rec.conciseType = .SQL_C_WCHAR → data.text = [] →
      ∃ brace zero : ParamText, brace.text = [] ∧ brace.memory.head? = some 0x7b ∧
        zero.text = [] ∧ zero.memory.head? = some 0 ∧
        ((rec.boundParam env mem row).insertText (env.filled 0x7b).toPathEnv false brace
            ⟨st.buf, st.srcOffset⟩).map (fun written => written.st.buf) =
          ((rec.boundParam env mem row).insertText (env.filled 0).toPathEnv false zero
            ⟨st.buf, st.srcOffset⟩).map fun written => written.st.buf := by
    intro hwide hnil
    obtain ⟨brace, hbrace, hbraceText, hbraceHead⟩ := exists_filled hsized hwide hdata hnil 0x7b
    obtain ⟨zero, hzero, hzeroText, hzeroHead⟩ := exists_filled hsized hwide hdata hnil 0
    refine ⟨brace, zero, hbraceText, hbraceHead, hzeroText, hzeroHead, ?_⟩
    have hleft := hsame _ _ st.srcOffset (env.sized_filled 0x7b) fun n => Option.isSome_map
    have hright := hsame _ _ st.srcOffset (env.sized_filled 0) fun n => Option.isSome_map
    have hbraceText := @insertText_of_written rec env mem mem row st (env.filled 0x7b) _ _ _ _ _
      hok htaken hnull hdata htaken hnull hbrace hleft
    exact hbraceText.trans (@insertText_of_written rec env mem mem row st (env.filled 0) _ _ _ _ _
      hok htaken hnull hdata htaken hnull hzero hright).symm
  have hconvert : rec.conciseType = .SQL_C_WCHAR →
      (rec.boundParam env mem row).value.convert = false := by
    intro hwide
    rw [Bool.eq_false_iff, Ne, convert_iff, hwide]
    decide
  unfold TextFits
  cases hcase : rec.sqlType.switchCase with
  | date =>
    refine ⟨fun hwide hnil => ?_, ?_⟩
    · obtain ⟨brace, zero, hbraceText, hbrace, hzeroText, hzero, heq⟩ := hfilled hwide hnil
      exact insertText_nil_ne rfl (.inl hcase) hbraceText hbrace hzeroText (by rw [hzero]; decide) heq
    · by_contra hfails
      rw [not_or, not_or, not_not] at hfails
      obtain ⟨hhead, hcheck, hts⟩ := hfails
      apply hinsert
      unfold BoundParam.insertText checkDateOverflow
      rw [hsql, hcase]
      dsimp only
      rw [if_neg hhead, if_neg hcheck, hts]
      rfl
  | timestamp =>
    intro hwide hnil
    obtain ⟨brace, zero, hbraceText, hbrace, hzeroText, hzero, heq⟩ := hfilled hwide hnil
    exact insertText_nil_ne rfl (.inr hcase) hbraceText hbrace hzeroText (by rw [hzero]; decide) heq
  | bit =>
    intro hwide hnil
    obtain ⟨brace, zero, -, hbrace, -, hzero, heq⟩ := hfilled hwide hnil
    unfold BoundParam.insertText at heq
    rw [hsql, hcase] at heq
    dsimp only at heq
    rw [hconvert hwide, if_neg Bool.false_ne_true, List.take_one, List.take_one, hbrace, hzero]
      at heq
    have hbytes : st.buf ++ [0x7b] = st.buf ++ [0] := Except.ok.inj heq
    exact absurd (List.append_cancel_left hbytes) (by decide)
  | time =>
    intro htype
    by_contra hfails
    rw [not_or, not_not, not_not] at hfails
    obtain ⟨hfraction, htime⟩ := hfails
    apply hinsert
    have htimeOf : (rec.boundParam env mem row).timeOf data = .error .undefined := by
      rw [timeOf_eq_timeText fun timestamp hvalue => ?_, timeText,
        if_neg (not_not_intro hfraction), htime]
      rw [isTimestamp_of_value hvalue] at htype
      cases htype
    unfold BoundParam.insertText
    rw [hsql, hcase]
    dsimp only
    rw [htimeOf]
    rfl
  | float =>
    intro htype
    by_contra hlong
    apply hinsert
    unfold BoundParam.insertText
    rw [hsql, hcase]
    dsimp only
    rw [if_pos (convert_iff.mpr htype), if_pos (Nat.lt_of_not_le hlong)]
  | binary =>
    intro hmode
    by_contra hmoves
    rw [not_or, Bool.not_eq_false] at hmoves
    have heq : ∀ offset, _ := fun offset =>
      @insertText_of_written rec env mem mem row st env length length data data ⟨st.buf, offset⟩
        hok htaken hnull hdata htaken hnull hdata
        (hsame env.stack env.malloc offset hsized fun _ => rfl)
    obtain ⟨hbehind, hfront⟩ := copyBinhexResult_moves hmoves.1 hmoves.2
    have hboth := (heq none).trans (heq (some data.text.length)).symm
    unfold BoundParam.insertText at hboth
    rw [hsql, hcase] at hboth
    dsimp only at hboth
    rw [putIntroduced_hex hmode hcase, putIntroduced_hex hmode hcase, hbehind] at hboth
    cases hdigits : (copyBinhexResult env.opts none data.text).1 with
    | none => rw [hdigits] at hboth; cases hboth
    | some digits =>
      rw [hdigits] at hboth
      exact hfront (hdigits.trans (congrArg some (List.append_cancel_left (Except.ok.inj hboth))))
  | _ => trivial

/-- A row that is its own is of a determined value. -/
theorem determined_of_rowLocal (hsized : env.Sized) (h : rec.RowLocal env mem row st) :
    rec.Determined env mem row := by
  obtain ⟨literal, hliteral, hlocal⟩ := h
  have hself : rec.written env mem row st = literal :=
    hlocal mem env.stack env.malloc st.srcOffset (sameRow_refl rec row mem) hsized fun _ => rfl
  have hdefined : rec.written env mem row st ≠ .error .undefined := hself ▸ hliteral
  have hsame : ∀ stack malloc offset, (env.withBuffers stack malloc).Sized →
      (∀ n, (malloc n).isSome = (env.malloc n).isSome) →
      rec.written (env.withBuffers stack malloc) mem row ⟨st.buf, offset⟩ =
        rec.written env mem row st := fun stack malloc offset hsized hmalloc =>
    (hlocal mem stack malloc offset (sameRow_refl rec row mem) hsized hmalloc).trans hself.symm
  refine ⟨(@terminated_iff rec env mem row).mpr fun herror => ?_, fun length htaken hok => ?_⟩
  · apply hdefined
    rw [written_error herror]
  have hnull : rec.usesNull mem row = false := by
    rw [Bool.eq_false_iff]
    intro hnull
    apply hdefined
    rw [written_usesNull htaken hok hnull]
  refine ⟨hnull, (@inMemory_iff rec env mem row length).mpr fun herror => ?_, fun data hdata =>
    textFits_of_rowLocal hsized hdefined hsame htaken hok hnull hdata⟩
  apply hdefined
  rw [written_value htaken hok hnull, herror]
  rfl

/-- The literal of a determined value is defined. -/
theorem Determined.written_ne (h : rec.Determined env mem row) :
    rec.written env mem row st ≠ .error .undefined := by
  cases htaken : (rec.boundParam env mem row).taken with
  | error failure =>
    rw [written_error htaken]
    intro herror
    obtain rfl : failure = .undefined := Except.error.inj herror
    exact (@terminated_iff rec env mem row).mp h.terminated htaken
  | ok taken =>
    cases taken with
    | null => rw [written_null htaken]; nofun
    | default => rw [written_default htaken]; nofun
    | value length =>
      cases hrefused : (rec.boundParam env mem row).conversionRefused with
      | some message => rw [written_refused htaken hrefused]; nofun
      | none =>
        have hok := conversionRefused_eq_none_iff.mp hrefused
        obtain ⟨hnull, hmemory, hfits⟩ := h.value length htaken hok
        rw [written_value htaken hok hnull]
        cases hdata : convertCType2str env.toPathEnv false (rec.boundParam env mem row).value
          length with
        | error failure =>
          intro herror
          obtain rfl : failure = .undefined := Except.error.inj herror
          exact (@inMemory_iff rec env mem row length).mp hmemory hdata
        | ok data =>
          have hinsert := @TextFits.insertText_ne rec env mem row st data (hfits data hdata)
          change Except.map _ (BoundParam.insertText _ _ _ _ _) ≠ _
          cases hwritten : (rec.boundParam env mem row).insertText env.toPathEnv false data st with
          | error failure =>
            intro herror
            obtain rfl : failure = .undefined := Except.error.inj herror
            exact hinsert hwritten
          | ok written => nofun

/-- A row of a determined value is its own when what is read for it is in the row. -/
theorem rowLocal_of_determined (hsized : env.Sized) (hplaced : rec.dataPtr ≠ 0 → rec.data row ≠ 0)
    (hreads : rec.ReadsInRow row) (h : rec.Determined env mem row) :
    rec.RowLocal env mem row st := by
  refine ⟨rec.written env mem row st, ?_, fun mem' stack malloc offset hrow hsized' hmalloc => ?_⟩
  · exact h.written_ne
  · have hsame : rec.written (env.withBuffers stack malloc) mem' row ⟨st.buf, offset⟩ =
        rec.written (env.withBuffers stack malloc) mem row ⟨st.buf, offset⟩ :=
      hrow.written_eq hplaced hreads
    rw [hsame]
    refine written_congr rfl rfl rfl fun length htaken hok hnull => ?_
    obtain ⟨-, -, hfits⟩ := h.value length htaken hok
    have hpair : ∀ (result : Except Failure Written) (truncated : Bool),
        result.map (fun written => (written.st.buf, truncated)) =
          (result.map fun written => written.st.buf).map fun buf => (buf, truncated) := by
      intro result truncated
      cases result with
      | error failure => rfl
      | ok written => rfl
    rw [written_value htaken hok hnull,
      @written_value rec (env.withBuffers stack malloc) mem row _ length htaken hok hnull]
    obtain ⟨failure, herror, herror'⟩ | ⟨data, data', hdata, hdata', htext, htruncated, hhead, -⟩ :=
      convertCType2str_withBuffers hsized hsized' hmalloc (rec.boundParam env mem row).value length
    · rw [herror]
      exact congrArg (· >>= _) herror'
    have hfits := hfits data hdata
    have hnotNil : rec.sqlType.switchCase = .date ∨ rec.sqlType.switchCase = .timestamp ∨
        rec.sqlType.switchCase = .bit → rec.conciseType = .SQL_C_WCHAR → data.text ≠ [] := by
      unfold TextFits at hfits
      rintro (hcase | hcase | hcase)
      · rw [hcase] at hfits; exact hfits.1
      · rw [hcase] at hfits; exact hfits
      · rw [hcase] at hfits; exact hfits
    have hinsert := @insertText_withBuffers env st (rec.boundParam env mem row) data data' stack
      malloc offset htext (fun hcase => hhead ?_) fun hcase => ?_
    · rw [hdata]
      apply (congrArg (· >>= _) hdata').trans
      change Except.map _ (BoundParam.insertText _ _ _ _ _) =
        Except.map _ (BoundParam.insertText _ _ _ _ _)
      rw [hpair, hpair, htruncated]
      exact congrArg (Except.map _) hinsert
    · by_cases hwide : rec.conciseType = .SQL_C_WCHAR
      · exact .inl (hnotNil hcase hwide)
      · exact .inr (Bool.eq_false_iff.mpr fun h => hwide (isWide_iff.mp h))
    · have hcase : rec.sqlType.switchCase = .binary := hcase
      unfold TextFits at hfits
      rw [hcase] at hfits
      exact hfits

/-- A row that is read alone is independent. -/
theorem rowIndependent_of_readsInRow (hplaced : rec.Placed row) (hreads : rec.ReadsInRow row) :
    rec.RowIndependent row :=
  fun _ _ _ hsized =>
    ⟨determined_of_rowLocal hsized, rowLocal_of_determined hsized hplaced.data hreads⟩

end ParamRecord

end MatrixOdbc.Driver
